import Hazelnut.Thread.SendQueue

/-!
The ready queues as rings.

* `ReadyRing`: the threads of the ready queue of one priority, in the order of their links.
* `ReadyQueues`: the ready queue of each priority is the ring of the threads that are marked as
  being in a ready queue and have that priority.
* `ReadyQueues.enqueue`, `ReadyQueues.dequeue`, `ReadyQueues.rotate`: the operations of
  `schedule.h`, and the scheduler moving the entry point of a queue.
-/

namespace Hazelnut

variable {s s' : Sys} {p q : TcbPtr} {i : Nat}

/-- The ready queue of priority `i` consists of the threads `l`, in this order. -/
structure ReadyRing (s : Sys) (i : Nat) (l : List TcbPtr) : Prop where
  nodup : l.Nodup
  head : s.prioQueue i = l.head?
  ring : Ring.IsRing (fun q => (s.tcb q).readyNext) (fun q => (s.tcb q).readyPrev) l

/-- The thread is in the ready queue of its priority. -/
def InReady (s : Sys) (i : Nat) (t : TcbPtr) : Prop :=
  (s.tcb t).queueReady = true ∧ (s.tcb t).priority = i

/-- The ready queues are the rings of their members. -/
def ReadyQueues (s : Sys) : Prop := ∀ i, ∃ l, ReadyRing s i l ∧ ∀ t, t ∈ l ↔ InReady s i t

lemma ReadyRing.congr {l : List TcbPtr} (h : ReadyRing s i l) (hq : s'.prioQueue i = s.prioQueue i)
    (hn : ∀ q ∈ l, (s'.tcb q).readyNext = (s.tcb q).readyNext)
    (hp : ∀ q ∈ l, (s'.tcb q).readyPrev = (s.tcb q).readyPrev) : ReadyRing s' i l :=
  ⟨h.nodup, hq.trans h.head, h.ring.congr hn hp⟩

/-- What of a control block the ready queues depend on. -/
def Tcb.readyPart (t : Tcb) : Bool × Nat × Option TcbPtr × Option TcbPtr :=
  (t.queueReady, t.priority, t.readyPrev, t.readyNext)

/-- Nothing the ready queues depend on differs. -/
structure SameReady (s s' : Sys) : Prop where
  part : ∀ q, (s'.tcb q).readyPart = (s.tcb q).readyPart
  prioQueue : s'.prioQueue = s.prioQueue

namespace SameReady

lemma queueReady (h : SameReady s s') (q : TcbPtr) : (s'.tcb q).queueReady = (s.tcb q).queueReady :=
  congrArg Prod.fst (h.part q)

lemma priority (h : SameReady s s') (q : TcbPtr) : (s'.tcb q).priority = (s.tcb q).priority :=
  congrArg (fun b => b.2.1) (h.part q)

lemma readyPrev (h : SameReady s s') (q : TcbPtr) : (s'.tcb q).readyPrev = (s.tcb q).readyPrev :=
  congrArg (fun b => b.2.2.1) (h.part q)

lemma readyNext (h : SameReady s s') (q : TcbPtr) : (s'.tcb q).readyNext = (s.tcb q).readyNext :=
  congrArg (fun b => b.2.2.2) (h.part q)

lemma refl (s : Sys) : SameReady s s := ⟨fun _ => rfl, rfl⟩

lemma upd (h : SameReady s s') (p : TcbPtr) {f : Tcb → Tcb}
    (hf : ∀ t, (f t).readyPart = t.readyPart) :
    SameReady s (s'.upd p f) := by
  refine ⟨fun q => ?_, h.prioQueue⟩
  rw [← h.part q, Sys.upd]
  by_cases hq : q = p
  · subst hq; simp [hf]
  · simp [hq]

lemma updPtr (h : SameReady s s') (p : Option TcbPtr) {f : Tcb → Tcb}
    (hf : ∀ t, (f t).readyPart = t.readyPart) : SameReady s (s'.updPtr p f) := by
  cases p with
  | none => exact h
  | some p => exact h.upd p hf

lemma enqueueSend (h : SameReady s s') (t r : TcbPtr) : SameReady s (threadEnqueueSend s' t r) := by
  unfold threadEnqueueSend
  split
  · exact (h.upd _ (by intro _; rfl)).upd _ (by intro _; rfl)
  · exact ((h.upd _ (by intro _; rfl)).upd _ (by intro _; rfl)).updPtr _ (by intro _; rfl)

lemma dequeueSend (h : SameReady s s') (t r : TcbPtr) : SameReady s (threadDequeueSend s' t r) := by
  unfold threadDequeueSend
  dsimp only
  split
  · exact h.upd _ (by intro _; rfl)
  · refine SameReady.updPtr (SameReady.updPtr ?_ _ (by intro _; rfl)) _ (by intro _; rfl)
    split
    · exact h.upd _ (by intro _; rfl)
    · exact h

end SameReady

lemma ReadyQueues.same (h : ReadyQueues s) (hs : SameReady s s') : ReadyQueues s' := fun i => by
  obtain ⟨l, hl, hmem⟩ := h i
  refine ⟨l, hl.congr (by rw [hs.prioQueue]) (fun q _ => hs.readyNext q)
    (fun q _ => hs.readyPrev q),
    fun t => ?_⟩
  rw [hmem, InReady, InReady, hs.queueReady, hs.priority]

/-! ### Enqueuing -/

/-- The fields after enqueuing into an empty queue. -/
lemma enqueueReady_nil (hr : (s.tcb p).queueReady = false)
    (h : s.prioQueue (s.tcb p).priority = none)
    (q : TcbPtr) :
    ((threadEnqueueReady s p).prioQueue = Function.update s.prioQueue (s.tcb p).priority (some p))
      ∧ (((threadEnqueueReady s p).tcb q).readyNext = if q = p then some p else (s.tcb q).readyNext)
      ∧ (((threadEnqueueReady s p).tcb q).readyPrev = if q = p then some p else (s.tcb q).readyPrev)
      ∧ (((threadEnqueueReady s p).tcb q).queueReady = if q = p then true else (s.tcb q).queueReady)
      ∧ ((threadEnqueueReady s p).tcb q).priority = (s.tcb q).priority := by
  unfold threadEnqueueReady
  dsimp only
  rw [hr, h]
  simp only [Bool.false_eq_true, if_false, Sys.upd, Function.update_apply]
  refine ⟨trivial, ?_, ?_, ?_, ?_⟩ <;> split_ifs <;> simp_all

/-- The fields after enqueuing into a queue with first element `a`. -/
lemma enqueueReady_cons {a b : TcbPtr} (hr : (s.tcb p).queueReady = false)
    (h : s.prioQueue (s.tcb p).priority = some a) (hb : (s.tcb a).readyPrev = some b) (hpa : p ≠ a)
    (hpb : p ≠ b) (q : TcbPtr) :
    ((threadEnqueueReady s p).prioQueue = s.prioQueue)
      ∧ (((threadEnqueueReady s p).tcb q).readyNext =
        if q = b then some p else if q = p then some a else (s.tcb q).readyNext)
      ∧ (((threadEnqueueReady s p).tcb q).readyPrev =
        if q = a then some p else if q = p then some b else (s.tcb q).readyPrev)
      ∧ (((threadEnqueueReady s p).tcb q).queueReady = if q = p then true else (s.tcb q).queueReady)
      ∧ ((threadEnqueueReady s p).tcb q).priority = (s.tcb q).priority := by
  unfold threadEnqueueReady
  dsimp only
  rw [hr, h]
  simp only [Bool.false_eq_true, if_false, Sys.upd, Sys.updPtr, hb, Function.update_apply]
  refine ⟨trivial, ?_, ?_, ?_, ?_⟩ <;> split_ifs <;> simp_all

/-- **Enqueuing** a thread puts it into the queue of its priority. -/
lemma ReadyQueues.enqueue (h : ReadyQueues s) (p : TcbPtr) : ReadyQueues (threadEnqueueReady s p) ∧
    (∀ q, ((threadEnqueueReady s p).tcb q).queueReady = if q = p then true
    else (s.tcb q).queueReady) ∧
    ∀ q, ((threadEnqueueReady s p).tcb q).priority = (s.tcb q).priority := by
  rcases hr : (s.tcb p).queueReady with _ | _
  · obtain ⟨l, hl, hmem⟩ := h (s.tcb p).priority
    have hpl : p ∉ l := fun hp => by
      have h1 := ((hmem p).mp hp).1
      rw [hr] at h1
      simp at h1
    cases l with
    | nil =>
        have hf := enqueueReady_nil hr hl.head
        refine ⟨fun i => ?_, fun q => (hf q).2.2.2.1, fun q => (hf q).2.2.2.2⟩
        by_cases hi : i = (s.tcb p).priority
        · refine ⟨[p], ⟨by simp, ?_, ?_⟩, fun t => ?_⟩
          · rw [(hf p).1, hi, Function.update_self]; rfl
          · rw [Ring.isRing_singleton]
            exact ⟨by rw [(hf p).2.1, if_pos rfl], by rw [(hf p).2.2.1, if_pos rfl]⟩
          · rw [InReady, (hf t).2.2.2.1, (hf t).2.2.2.2, List.mem_singleton]
            by_cases ht : t = p
            · simp [ht, hi]
            · have h1 := hmem t
              simp only [List.not_mem_nil, false_iff] at h1
              simp only [ht, if_false, false_iff]
              rw [hi]
              exact h1
        · obtain ⟨l, hl', hmem'⟩ := h i
          have hpl' : ∀ q ∈ l, q ≠ p := fun q hq he => hi ((he ▸ ((hmem' q).mp hq).2).symm)
          refine ⟨l, hl'.congr ?_ (fun q hq => ?_) (fun q hq => ?_), fun t => ?_⟩
          · rw [(hf p).1, Function.update_of_ne hi]
          · rw [(hf q).2.1, if_neg (hpl' q hq)]
          · rw [(hf q).2.2.1, if_neg (hpl' q hq)]
          · rw [InReady, (hf t).2.2.2.1, (hf t).2.2.2.2, hmem']
            by_cases ht : t = p
            · subst ht
              simp [InReady, hr, Ne.symm hi]
            · simp [ht, InReady]
    | cons a l =>
        obtain ⟨b, hb⟩ := (hl.ring.exists_links List.mem_cons_self).2
        have hb' : (s.tcb a).readyPrev = some b := hb
        have hbl : b ∈ a :: l := hl.ring.prev_mem List.mem_cons_self hb
        have hpa : p ≠ a := fun he => hpl (he ▸ List.mem_cons_self)
        have hpb : p ≠ b := fun he => hpl (he ▸ hbl)
        have hf := enqueueReady_cons hr hl.head hb' hpa hpb
        refine ⟨fun i => ?_, fun q => (hf q).2.2.2.1, fun q => (hf q).2.2.2.2⟩
        by_cases hi : i = (s.tcb p).priority
        · refine ⟨a :: l ++ [p], ⟨?_, ?_, ?_⟩, fun t => ?_⟩
          · exact List.nodup_append.mpr ⟨hl.nodup, by simp, fun x hx y hy hxy => by
              rw [List.mem_singleton] at hy; exact hpl (by rw [← hy, ← hxy]; exact hx)⟩
          · rw [(hf p).1, hi, hl.head]; rfl
          · refine Ring.IsRing.insert hl.nodup hl.ring hpl hb ?_ ?_ ?_ ?_ ?_ ?_
            · rw [(hf p).2.1, if_neg hpb, if_pos rfl]
            · rw [(hf b).2.1, if_pos rfl]
            · intro y hyp hyb
              rw [(hf y).2.1, if_neg hyb, if_neg hyp]
            · rw [(hf p).2.2.1, if_neg hpa, if_pos rfl]
            · rw [(hf a).2.2.1, if_pos rfl]
            · intro y hyp hya
              rw [(hf y).2.2.1, if_neg hya, if_neg hyp]
          · rw [InReady, (hf t).2.2.2.1, (hf t).2.2.2.2, List.mem_append, List.mem_singleton, hmem]
            by_cases ht : t = p
            · subst ht
              simp [hi]
            · simp [ht, InReady, hi]
        · obtain ⟨l', hl', hmem'⟩ := h i
          have hdis : ∀ q ∈ l', q ∉ a :: l := fun q hq hq' =>
            hi (((hmem' q).mp hq).2.symm.trans ((hmem q).mp hq').2)
          have hpl' : ∀ q ∈ l', q ≠ p := fun q hq he => hi ((he ▸ ((hmem' q).mp hq).2).symm)
          refine ⟨l', hl'.congr (by rw [(hf p).1]) (fun q hq => ?_) (fun q hq => ?_), fun t => ?_⟩
          · have hqb : q ≠ b := fun he => hdis q hq (he ▸ hbl)
            rw [(hf q).2.1, if_neg hqb, if_neg (hpl' q hq)]
          · have hqa : q ≠ a := fun he => hdis q hq (he ▸ List.mem_cons_self)
            rw [(hf q).2.2.1, if_neg hqa, if_neg (hpl' q hq)]
          · rw [InReady, (hf t).2.2.2.1, (hf t).2.2.2.2, hmem']
            by_cases ht : t = p
            · subst ht
              simp [InReady, hr, Ne.symm hi]
            · simp [ht, InReady]
  · have heq : threadEnqueueReady s p = s := by
      unfold threadEnqueueReady
      rw [if_pos hr]
    rw [heq]
    refine ⟨h, fun q => ?_, fun q => rfl⟩
    split
    · rename_i hq; rw [hq, hr]
    · rfl

/-! ### Dequeuing -/

/-- The fields after dequeuing a thread that is alone in its queue. -/
lemma dequeueReady_self (hr : (s.tcb p).queueReady = true) (h : (s.tcb p).readyNext = some p)
    (q : TcbPtr) :
    ((threadDequeueReady s p).prioQueue = Function.update s.prioQueue (s.tcb p).priority none)
      ∧ (((threadDequeueReady s p).tcb q).readyNext = (s.tcb q).readyNext)
      ∧ (((threadDequeueReady s p).tcb q).readyPrev = (s.tcb q).readyPrev)
      ∧ (((threadDequeueReady s p).tcb q).queueReady = if q = p then false
        else (s.tcb q).queueReady)
      ∧ ((threadDequeueReady s p).tcb q).priority = (s.tcb q).priority := by
  unfold threadDequeueReady
  dsimp only
  rw [hr, if_pos rfl, if_pos h]
  simp only [Sys.upd, Function.update_apply]
  refine ⟨trivial, ?_, ?_, ?_, ?_⟩ <;> split_ifs <;> simp_all

/-- The fields after dequeuing any other thread. -/
lemma dequeueReady_links {n b : TcbPtr} (hr : (s.tcb p).queueReady = true)
    (hn : (s.tcb p).readyNext = some n) (hb : (s.tcb p).readyPrev = some b) (hnp : n ≠ p)
    (q : TcbPtr) :
    ((threadDequeueReady s p).prioQueue =
        if s.prioQueue (s.tcb p).priority = some p then
          Function.update s.prioQueue (s.tcb p).priority (some n) else s.prioQueue)
      ∧ (((threadDequeueReady s p).tcb q).readyNext = if q = b then some n else (s.tcb q).readyNext)
      ∧ (((threadDequeueReady s p).tcb q).readyPrev = if q = n then some b else (s.tcb q).readyPrev)
      ∧ (((threadDequeueReady s p).tcb q).queueReady = if q = p then false
        else (s.tcb q).queueReady)
      ∧ ((threadDequeueReady s p).tcb q).priority = (s.tcb q).priority := by
  unfold threadDequeueReady
  dsimp only
  rw [hr, if_pos rfl, if_neg (by rw [hn]; simpa using hnp), hn, hb]
  by_cases hh : s.prioQueue (s.tcb p).priority = some p <;>
    simp only [hh, if_true, if_false, Sys.upd, Sys.updPtr, Function.update_apply] <;>
    refine ⟨trivial, ?_, ?_, ?_, ?_⟩ <;> split_ifs <;> simp_all

/-- **Dequeuing** a member of the ring of its priority keeps the order of the others. -/
lemma ReadyRing.dequeue {l : List TcbPtr} (hl : ReadyRing s (s.tcb p).priority l) (hpl : p ∈ l)
    (hr : (s.tcb p).queueReady = true) :
    ReadyRing (threadDequeueReady s p) (s.tcb p).priority (l.erase p) := by
  by_cases hself : (s.tcb p).readyNext = some p
  · have hf := dequeueReady_self hr hself
    obtain rfl : l = [p] := hl.ring.singleton_of_next_self hl.nodup hpl hself
    rw [List.erase_cons_head]
    exact ⟨List.nodup_nil, by rw [(hf p).1, Function.update_self]; rfl, trivial⟩
  · obtain ⟨⟨n, hn⟩, ⟨b, hb⟩⟩ := hl.ring.exists_links hpl
    have hn' : (s.tcb p).readyNext = some n := hn
    have hb' : (s.tcb p).readyPrev = some b := hb
    have hnp : n ≠ p := fun he => hself (he ▸ hn')
    have hf := dequeueReady_links hr hn' hb' hnp
    refine ⟨hl.nodup.erase p, ?_, ?_⟩
    · rw [(hf p).1, hl.head]
      cases l with
      | nil => simp at hpl
      | cons a l =>
          by_cases ha : a = p
          · subst ha
            rw [List.erase_cons_head, List.head?_cons, if_pos rfl, Function.update_self, ← hn']
            have hlink := (Ring.IsRing.links hl.ring).1
            cases l with
            | nil => exact absurd hlink hself
            | cons c l => exact hlink
          · rw [List.erase_cons_tail (by simpa using ha), List.head?_cons,
              if_neg (by simpa using ha), hl.head]
            rfl
    · refine Ring.IsRing.erase hl.nodup hl.ring hpl hself hb hn ?_ ?_ ?_ ?_
      · rw [(hf b).2.1, if_pos rfl]
      · intro y hyb _
        rw [(hf y).2.1, if_neg hyb]
      · rw [(hf n).2.2.1, if_pos rfl]
      · intro y hyn _
        rw [(hf y).2.2.1, if_neg hyn]

/-- The mark of the thread is taken back. -/
lemma dequeueReady_marks (h : ReadyQueues s) (hr : (s.tcb p).queueReady = true) (q : TcbPtr) :
    (((threadDequeueReady s p).tcb q).queueReady = if q = p then false else (s.tcb q).queueReady)
      ∧ ((threadDequeueReady s p).tcb q).priority = (s.tcb q).priority := by
  obtain ⟨l, hl, hmem⟩ := h (s.tcb p).priority
  have hpl : p ∈ l := (hmem p).mpr ⟨hr, rfl⟩
  by_cases hself : (s.tcb p).readyNext = some p
  · exact (dequeueReady_self hr hself q).2.2.2
  · obtain ⟨⟨n, hn⟩, ⟨b, hb⟩⟩ := hl.ring.exists_links hpl
    have hnp : n ≠ p := fun he => hself (he ▸ hn)
    exact (dequeueReady_links hr hn hb hnp q).2.2.2

/-- The ring of another priority stays as it is. -/
lemma ReadyRing.dequeueOther {l : List TcbPtr} (h : ReadyQueues s)
    (hr : (s.tcb p).queueReady = true)
    (hl : ReadyRing s i l) (hmem : ∀ t, t ∈ l ↔ InReady s i t) (hi : i ≠ (s.tcb p).priority) :
    ReadyRing (threadDequeueReady s p) i l := by
  obtain ⟨l', hl', hmem'⟩ := h (s.tcb p).priority
  have hpl : p ∈ l' := (hmem' p).mpr ⟨hr, rfl⟩
  have hdis : ∀ q ∈ l, q ∉ l' := fun q hq hq' =>
    hi (((hmem q).mp hq).2.symm.trans ((hmem' q).mp hq').2)
  by_cases hself : (s.tcb p).readyNext = some p
  · have hf := dequeueReady_self hr hself
    refine hl.congr ?_ (fun q _ => (hf q).2.1) (fun q _ => (hf q).2.2.1)
    rw [(hf p).1, Function.update_of_ne hi]
  · obtain ⟨⟨n, hn⟩, ⟨b, hb⟩⟩ := hl'.ring.exists_links hpl
    have hnl : n ∈ l' := hl'.ring.next_mem hpl hn
    have hbl : b ∈ l' := hl'.ring.prev_mem hpl hb
    have hnp : n ≠ p := fun he => hself (he ▸ hn)
    have hf := dequeueReady_links hr hn hb hnp
    refine hl.congr ?_ (fun q hq => ?_) (fun q hq => ?_)
    · rw [(hf p).1]
      split
      · rw [Function.update_of_ne hi]
      · rfl
    · have hqb : q ≠ b := fun he => hdis q hq (he ▸ hbl)
      rw [(hf q).2.1, if_neg hqb]
    · have hqn : q ≠ n := fun he => hdis q hq (he ▸ hnl)
      rw [(hf q).2.2.1, if_neg hqn]

/-- **Dequeuing** a thread takes it out of the queue of its priority. -/
lemma ReadyQueues.dequeue (h : ReadyQueues s) (p : TcbPtr) : ReadyQueues (threadDequeueReady s p) ∧
    (∀ q, ((threadDequeueReady s p).tcb q).queueReady = if q = p then false
    else (s.tcb q).queueReady) ∧
    ∀ q, ((threadDequeueReady s p).tcb q).priority = (s.tcb q).priority := by
  rcases hr : (s.tcb p).queueReady with _ | _
  · have heq : threadDequeueReady s p = s := by
      unfold threadDequeueReady
      rw [if_neg (by simp [hr])]
    rw [heq]
    refine ⟨h, fun q => ?_, fun q => rfl⟩
    split
    · rename_i hq; rw [hq, hr]
    · rfl
  · have hf := dequeueReady_marks h hr
    refine ⟨fun i => ?_, fun q => (hf q).1, fun q => (hf q).2⟩
    obtain ⟨l, hl, hmem⟩ := h i
    by_cases hi : i = (s.tcb p).priority
    · subst hi
      refine ⟨l.erase p, hl.dequeue ((hmem p).mpr ⟨hr, rfl⟩) hr, fun t => ?_⟩
      rw [InReady, (hf t).1, (hf t).2, hl.nodup.mem_erase_iff, hmem]
      by_cases ht : t = p
      · simp [ht]
      · simp [ht, InReady]
    · refine ⟨l, hl.dequeueOther h hr hmem hi, fun t => ?_⟩
      rw [InReady, (hf t).1, (hf t).2, hmem]
      by_cases ht : t = p
      · subst ht
        simp [InReady, Ne.symm hi]
      · simp [ht, InReady]

/-! ### Entry points and priorities -/

/-- The entry point of a queue moves to one of its members. -/
lemma ReadyQueues.rotate (h : ReadyQueues s) (hp : InReady s i p) (m : Int) :
    ReadyQueues { s with
      prioQueue := Function.update s.prioQueue i (some p), currentMaxPrio := m } := by
  intro j
  obtain ⟨l, hl, hmem⟩ := h j
  by_cases hj : j = i
  · subst hj
    obtain ⟨u, v, rfl⟩ := List.append_of_mem ((hmem p).mpr hp)
    refine ⟨p :: v ++ u, ⟨List.nodup_append_comm.mp
      hl.nodup, ?_, Ring.IsRing.rotate_append hl.ring⟩,
      fun t => ?_⟩
    · show Function.update s.prioQueue j (some p) j = _
      rw [Function.update_self]; rfl
    · have h1 := hmem t
      rw [List.mem_append] at h1 ⊢
      rw [or_comm]
      exact h1
  · refine ⟨l, hl.congr ?_ (fun _ _ => rfl) (fun _ _ => rfl), hmem⟩
    show Function.update s.prioQueue i (some p) j = _
    rw [Function.update_of_ne hj]

/-- Fields of a thread that is in no queue may change. -/
lemma ReadyQueues.updOut (h : ReadyQueues s) (hp : (s.tcb p).queueReady = false) {f : Tcb → Tcb}
    (hf : ∀ t, (f t).queueReady = t.queueReady ∨ (f t).queueReady = false) :
    ReadyQueues (s.upd p f) := by
  intro i
  obtain ⟨l, hl, hmem⟩ := h i
  have hpl : ∀ q ∈ l, q ≠ p := fun q hq he => by
    have h1 := ((hmem q).mp hq).1
    rw [he, hp] at h1
    simp at h1
  refine ⟨l, hl.congr rfl (fun q hq => ?_) (fun q hq => ?_), fun t => ?_⟩
  · simp [Sys.upd, hpl q hq]
  · simp [Sys.upd, hpl q hq]
  · rw [hmem, InReady, InReady, Sys.upd]
    by_cases ht : t = p
    · subst ht
      have h1 : (f (s.tcb t)).queueReady = false := (hf (s.tcb t)).elim (fun h1 => h1.trans hp) id
      simp [hp, h1]
    · simp [ht]

end Hazelnut
