import Hazelnut.Thread.Schedule

/-!
The wakeup queue as a ring through the idle TCB, after `kernel/include/schedule.h` and
`kernel/src/schedule.c`.

* `WakeupLinks`: the links and the queue bit of each TCB; `enqueue`, `dequeue` and `parse` are the
  operations of the source on them.
* `WakeupQueue`: the links form a ring of the idle TCB and the waiting threads.
* `WakeupQueue.enqueue`, `WakeupQueue.dequeue`, `WakeupLinks.parseLoop_refines`: the operations on
  the ring do what those on the list of the waiting threads do.
* `parse_serves`: what `parse_wakeup_queue` does to the ring and to the threads.
-/

namespace Hazelnut

variable {s s' : Sys} {p q : TcbPtr} {l : List TcbPtr}

/-- `wakeup_next`, `wakeup_prev` and bit `TS_QUEUE_WAKEUP` of all TCBs. -/
structure WakeupLinks where
  next : TcbPtr → Option TcbPtr
  prev : TcbPtr → Option TcbPtr
  queued : TcbPtr → Bool

namespace WakeupLinks

/-- `if (p) p->wakeup_next = q`. -/
def setNext (w : WakeupLinks) (p : Option TcbPtr) (q : Option TcbPtr) : WakeupLinks :=
  match p with
  | some p => { w with next := Function.update w.next p q }
  | none => w

/-- `if (p) p->wakeup_prev = q`. -/
def setPrev (w : WakeupLinks) (p : Option TcbPtr) (q : Option TcbPtr) : WakeupLinks :=
  match p with
  | some p => { w with prev := Function.update w.prev p q }
  | none => w

/-- `thread_enqueue_wakeup`. -/
def enqueue (w : WakeupLinks) (p : TcbPtr) : WakeupLinks :=
  if w.queued p then w
  else
    let w1 := w.setNext (some p) (w.next .idle)
    let w2 := w1.setNext (some .idle) (some p)
    let w3 := w2.setPrev (some p) (some .idle)
    let w4 := w3.setPrev (w3.next p) (some p)
    { w4 with queued := Function.update w4.queued p true }

/-- `thread_dequeue_wakeup`. -/
def dequeue (w : WakeupLinks) (p : TcbPtr) : WakeupLinks :=
  if w.queued p then
    let w1 := w.setPrev (w.next p) (w.prev p)
    let w2 := w1.setNext (w1.prev p) (w1.next p)
    { w2 with queued := Function.update w2.queued p false }
  else w

/-- The loop of `parse_wakeup_queue` at `tcb`; no result if it does not end, or follows a null
pointer. -/
def parseLoop (now : BitVec 64) : Nat → Option TcbPtr → Nat → Option TcbPtr → WakeupLinks → Sys →
    Option (WakeupLinks × Sys × Option TcbPtr)
  | 0, _, _, _, _, _ => none
  | _ + 1, none, _, _, _, _ => none
  | fuel + 1, some tcb, prio, highest, w, s =>
      if tcb = .idle then some (w, s, highest)
      else if (s.tcb tcb).absoluteTimeout ≤ now then
        let up := prio < (s.tcb tcb).priority
        parseLoop now fuel (w.next tcb) (if up then (s.tcb tcb).priority else prio)
          (if up then some tcb else highest) (w.dequeue tcb) (makeRunning s tcb)
      else parseLoop now fuel (w.next tcb) prio highest w s

/-- `parse_wakeup_queue`, with `fuel` turns of its loop. -/
def parse (fuel : Nat) (w : WakeupLinks) (s : Sys) (prio : Nat) (now : BitVec 64) :
    Option (WakeupLinks × Sys × Option TcbPtr) :=
  parseLoop now fuel (w.next .idle) prio none w s

end WakeupLinks

/-- **The wakeup queue**: the idle TCB and the threads `l`, in this order, form a ring, and the
queue bit marks its members. -/
structure WakeupQueue (w : WakeupLinks) (l : List TcbPtr) : Prop where
  nodup : (.idle :: l).Nodup
  ring : Ring.IsRing w.next w.prev (.idle :: l)
  mem_iff : ∀ t, t ∈ TcbPtr.idle :: l ↔ w.queued t = true

namespace WakeupQueue

variable {w : WakeupLinks} {u v : List TcbPtr}

lemma ne_idle (h : WakeupQueue w l) (hp : p ∈ l) : p ≠ .idle := fun he =>
  (List.nodup_cons.mp h.nodup).1 (he ▸ hp)

/-- The successor of a member. -/
lemma next_eq (h : WakeupQueue w (u ++ p :: v)) : w.next p = (v ++ [TcbPtr.idle]).head? := by
  have h1 : Ring.IsRing w.next w.prev ((.idle :: u) ++ p :: v) := h.ring
  have h2 := (Ring.IsRing.links (Ring.IsRing.rotate_append h1)).1
  rw [h2]
  cases v with
  | nil => rfl
  | cons b v => rfl

lemma next_idle (h : WakeupQueue w l) : w.next .idle = (l ++ [TcbPtr.idle]).head? :=
  (Ring.IsRing.links h.ring).1

/-- **Dequeuing** takes the thread out. -/
lemma dequeue (h : WakeupQueue w l) (hp : p ∈ l) : WakeupQueue (w.dequeue p) (l.erase p) := by
  have hpi := h.ne_idle hp
  have hpm : p ∈ TcbPtr.idle :: l := List.mem_cons_of_mem _ hp
  have hq : w.queued p = true := (h.mem_iff p).mp hpm
  obtain ⟨⟨n, hn⟩, ⟨b, hb⟩⟩ := h.ring.exists_links hpm
  have hself : w.next p ≠ some p := fun hs => by
    have h1 := h.ring.singleton_of_next_self h.nodup hpm hs
    exact hpi (List.cons.inj h1).1.symm
  have hnp : n ≠ p := fun he => hself (he ▸ hn)
  have hbp : b ≠ p := fun he => hself (by
    have h1 := h.ring.next_of_prev hpm (he ▸ hb)
    exact h1)
  have herase : (TcbPtr.idle :: l).erase p = .idle :: l.erase p := by
    rw [List.erase_cons_tail (by simpa using Ne.symm hpi)]
  have hfields : (∀ y, (w.dequeue p).next y = if y = b then some n else w.next y) ∧
      (∀ y, (w.dequeue p).prev y = if y = n then some b else w.prev y) ∧
      ∀ y, (w.dequeue p).queued y = if y = p then false else w.queued y := by
    unfold WakeupLinks.dequeue
    simp [hq, hn, hb, WakeupLinks.setNext, WakeupLinks.setPrev, Function.update_apply, Ne.symm hnp]
  obtain ⟨hfn, hfp, hfq⟩ := hfields
  refine ⟨herase ▸ h.nodup.erase p, herase ▸ ?_, fun t => ?_⟩
  · refine Ring.IsRing.erase h.nodup h.ring hpm hself hb hn ?_ ?_ ?_ ?_
    · rw [hfn, if_pos rfl]
    · intro y hyb _
      rw [hfn, if_neg hyb]
    · rw [hfp, if_pos rfl]
    · intro y hyn _
      rw [hfp, if_neg hyn]
  · rw [← herase, h.nodup.mem_erase_iff, h.mem_iff, hfq]
    by_cases ht : t = p
    · simp [ht]
    · simp [ht]

/-- **Enqueuing** puts the thread behind the idle TCB. -/
lemma enqueue (h : WakeupQueue w l) (hp : p ∉ TcbPtr.idle :: l) : WakeupQueue (w.enqueue p)
    (p :: l) := by
  have hq : w.queued p = false := by
    rw [← Bool.not_eq_true]
    exact fun h1 => hp ((h.mem_iff p).mpr h1)
  have hpi : p ≠ .idle := fun he => hp (he ▸ List.mem_cons_self)
  -- the ring is read from the successor `a` of the idle TCB, in front of which `p` is hooked in
  obtain ⟨a, r, har⟩ : ∃ a r, l ++ [TcbPtr.idle] = a :: r := List.exists_cons_of_ne_nil (by simp)
  have hring : Ring.IsRing w.next w.prev (a :: r) := har ▸ h.ring.rotate
  have hnd : (a :: r).Nodup := har ▸ List.nodup_append_comm.mp h.nodup
  have hpr : p ∉ a :: r := har ▸ fun h1 => hp (by simpa [or_comm] using h1)
  have hnext : w.next .idle = some a := by rw [h.next_idle, har, List.head?_cons]
  have hprev : w.prev a = some .idle := by
    have h1 := (Ring.IsRing.links hring).2
    rw [← har, List.getLast?_concat] at h1
    exact h1
  have hpa : p ≠ a := fun he => hpr (he ▸ List.mem_cons_self)
  have hfields : (∀ y, (w.enqueue p).next y = if y = .idle then some p else if y = p then some a
    else w.next y) ∧
      (∀ y, (w.enqueue p).prev y = if y = a then some p else if y = p then some .idle
      else w.prev y) ∧
      ∀ y, (w.enqueue p).queued y = if y = p then true else w.queued y := by
    unfold WakeupLinks.enqueue
    simp [hq, hnext, WakeupLinks.setNext, WakeupLinks.setPrev, Function.update_apply, hpi]
  obtain ⟨hfn, hfp, hfq⟩ := hfields
  have hins : Ring.IsRing (w.enqueue p).next (w.enqueue p).prev (a :: r ++ [p]) := by
    refine Ring.IsRing.insert hnd hring hpr hprev ?_ ?_ ?_ ?_ ?_ ?_
    · rw [hfn, if_neg hpi, if_pos rfl]
    · rw [hfn, if_pos rfl]
    · intro y hyp hyi
      rw [hfn, if_neg hyi, if_neg hyp]
    · rw [hfp, if_neg hpa, if_pos rfl]
    · rw [hfp, if_pos rfl]
    · intro y hyp hya
      rw [hfp, if_neg hya, if_neg hyp]
  refine ⟨?_, ?_, fun t => ?_⟩
  · refine List.nodup_cons.mpr ⟨?_, List.nodup_cons.mpr ⟨?_, (List.nodup_cons.mp h.nodup).2⟩⟩
    · rw [List.mem_cons, not_or]
      exact ⟨Ne.symm hpi, (List.nodup_cons.mp h.nodup).1⟩
    · exact fun h1 => hp (List.mem_cons_of_mem _ h1)
  · rw [← har, List.append_assoc] at hins
    exact hins.rotate_append
  · have h1 := h.mem_iff t
    rw [hfq]
    by_cases ht : t = p
    · simp [ht]
    · simpa [ht] using h1

/-- The ring at boot: the idle TCB alone, with its bit set. -/
def idleRing : WakeupLinks where
  next := fun _ => some .idle
  prev := fun _ => some .idle
  queued := fun t => t = .idle

lemma boot : WakeupQueue idleRing [] :=
  ⟨by simp, by rw [Ring.isRing_singleton]; exact ⟨rfl, rfl⟩, fun t => by simp [idleRing]⟩

end WakeupQueue

/-! ### What becomes of a thread -/

/-- The links of the ready queues are set. -/
def Tcb.relink (t : Tcb) (before after : Option TcbPtr) : Tcb :=
  { t with readyPrev := before, readyNext := after }

/-- The thread is set running and marked ready. -/
def Tcb.served (t : Tcb) : Tcb := { t with threadState := .running, queueReady := true }

/-- The thread is due at the time `now`. -/
def Expired (s : Sys) (now : BitVec 64) (t : TcbPtr) : Prop := (s.tcb t).absoluteTimeout ≤ now

instance (s : Sys) (now : BitVec 64) (t : TcbPtr) : Decidable (Expired s now t) :=
  inferInstanceAs (Decidable (_ ≤ _))

/-- The control blocks differ by `f` and by links of the ready queues. -/
structure Served (f : TcbPtr → Tcb → Tcb) (s s' : Sys) : Prop where
  tcb : ∀ t, ∃ before after, s'.tcb t = (f t (s.tcb t)).relink before after
  current : s'.current = s.current
  present : s'.present = s.present
  interruptOwner : s'.interruptOwner = s.interruptOwner
  clock : s'.clock = s.clock
  nextSpace : s'.nextSpace = s.nextSpace

namespace Served

variable {f g : TcbPtr → Tcb → Tcb}

lemma refl (s : Sys) : Served (fun _ t => t) s s := ⟨fun _ => ⟨_, _, rfl⟩, rfl, rfl, rfl, rfl, rfl⟩

/-- Another assignment. -/
lemma upd (h : Served f s s') (q : TcbPtr) {e : Tcb → Tcb}
    (hg : ∀ t r b a, ∃ b' a', (if t = q then e else id) ((f t r).relink b a) =
    (g t r).relink b' a') :
    Served g s (s'.upd q e) := by
  refine ⟨fun t => ?_, h.current, h.present, h.interruptOwner, h.clock, h.nextSpace⟩
  obtain ⟨b, a, h1⟩ := h.tcb t
  obtain ⟨b', a', h2⟩ := hg t (s.tcb t) b a
  refine ⟨b', a', ?_⟩
  rw [← h2, ← h1]
  unfold Sys.upd
  by_cases ht : t = q
  · subst ht; simp
  · simp [ht]

/-- An assignment to links. -/
lemma updLinks (h : Served f s s') (q : TcbPtr) {e : Tcb → Tcb}
    (he : ∀ r, ∃ b a, e r = r.relink b a) : Served f s (s'.upd q e) := by
  refine h.upd q fun t r b a => ?_
  split
  · obtain ⟨b', a', h1⟩ := he ((f t r).relink b a)
    exact ⟨b', a', h1⟩
  · exact ⟨b, a, rfl⟩

lemma updPtrLinks (h : Served f s s') (q : Option TcbPtr) {e : Tcb → Tcb}
    (he : ∀ r, ∃ b a, e r = r.relink b a) : Served f s (s'.updPtr q e) := by
  cases q with
  | none => exact h
  | some q => exact h.updLinks q he

/-- The heads of the ready queues do not matter. -/
lemma setHead (h : Served f s s') (q : Nat → Option TcbPtr) (m : Int) :
    Served f s { s' with prioQueue := q, currentMaxPrio := m } :=
  ⟨h.tcb, h.current, h.present, h.interruptOwner, h.clock, h.nextSpace⟩

lemma setWakeup (h : Served f s s') (l : List TcbPtr) : Served f s { s' with wakeup := l } :=
  ⟨h.tcb, h.current, h.present, h.interruptOwner, h.clock, h.nextSpace⟩

/-- Enqueuing into a ready queue sets the mark. -/
lemma enqueueReady (s : Sys) (p : TcbPtr) :
    Served (fun t r => if t = p then { r with queueReady := true } else r) s
    (threadEnqueueReady s p) := by
  unfold threadEnqueueReady
  split
  · rename_i hr
    refine ⟨fun t => ?_, rfl, rfl, rfl, rfl, rfl⟩
    refine ⟨(s.tcb t).readyPrev, (s.tcb t).readyNext, ?_⟩
    split
    · rename_i ht
      subst ht
      rw [← hr]; rfl
    · rfl
  · dsimp only
    refine setHead (upd (f := fun _ r => r) ?_ p fun t r b a => ?_) _ _
    · split
      · refine Served.updLinks (Served.updPtrLinks (Served.updLinks (Served.refl s) _ ?_) _ ?_) _ ?_
        · exact fun r => ⟨_, _, rfl⟩
        · exact fun r => ⟨_, _, rfl⟩
        · exact fun r => ⟨_, _, rfl⟩
      · exact setHead (Served.updLinks (Served.refl s) p fun r => ⟨_, _, rfl⟩) _ _
    · split
      · exact ⟨b, a, rfl⟩
      · exact ⟨b, a, rfl⟩

lemma trans {s1 : Sys} (h : Served f s s1) (h' : Served g s1 s')
    (hg : ∀ t r b a, g t (r.relink b a) = (g t r).relink b a) :
    Served (fun t r => g t (f t r)) s s' := by
  refine ⟨fun t => ?_, h'.current.trans h.current, h'.present.trans h.present,
    h'.interruptOwner.trans h.interruptOwner, h'.clock.trans h.clock,
    h'.nextSpace.trans h.nextSpace⟩
  obtain ⟨b, a, h1⟩ := h.tcb t
  obtain ⟨b', a', h2⟩ := h'.tcb t
  exact ⟨b', a', by rw [h2, h1, hg]; rfl⟩

lemma congr (h : Served f s s') (hfg : ∀ t, f t (s.tcb t) = g t (s.tcb t)) : Served g s s' :=
  ⟨fun t => (hfg t) ▸ h.tcb t, h.current, h.present, h.interruptOwner, h.clock, h.nextSpace⟩

/-- **Waking up** one thread. -/
lemma makeRunning (s : Sys) (p : TcbPtr) :
    Served (fun t r => if t = p then r.served else r) s (makeRunning s p) := by
  have h1 : Served (fun t r => if t = p then { r with threadState := .running } else r) s
      (s.upd p fun r => { r with threadState := .running }) := by
    refine (Served.refl s).upd p fun t r b a => ⟨b, a, ?_⟩
    split <;> rfl
  have h2 := h1.trans (enqueueReady _ p) fun t r b a => by split <;> rfl
  refine h2.congr fun t => ?_
  by_cases ht : t = p
  · simp [ht, Tcb.served]
  · simp [ht]

lemma priority (h : Served (fun t r => if t = p then r.served else r) s s') (t : TcbPtr) :
    (s'.tcb t).priority = (s.tcb t).priority := by
  obtain ⟨b, a, h1⟩ := h.tcb t
  rw [h1]
  split <;> rfl

lemma expired (h : Served (fun t r => if t = p then r.served else r) s s') (now : BitVec 64)
    (t : TcbPtr) :
    Expired s' now t ↔ Expired s now t := by
  obtain ⟨b, a, h1⟩ := h.tcb t
  rw [Expired, h1, Expired]
  split <;> rfl

lemma wakeUp (s : Sys) (p : TcbPtr) :
    Served (fun t r => if t = p then r.served else r) s (wakeUp s p) := by
  have h1 : Served (fun _ r => r) s (threadDequeueWakeup s p) := (Served.refl s).setWakeup _
  exact h1.trans (makeRunning _ p) fun t r b a => by split <;> rfl

end Served

/-! ### The loop, on the list -/

section Loop

variable (now : BitVec 64)

/-- **The threads**: the expired ones are served. -/
lemma parseWakeup_served (l : List TcbPtr) (prio : Nat) (highest : Option TcbPtr) (s : Sys) :
    Served (fun t r => if t ∈ l ∧ Expired s now t then r.served else r) s
      (parseWakeup now l prio highest s).1 := by
  induction l generalizing prio highest s with
  | nil => exact (Served.refl s).congr fun t => by simp
  | cons p l ih =>
      rw [parseWakeup]
      split
      · rename_i hp
        have h1 := Served.wakeUp s p
        refine (h1.trans (ih _ _ _) fun t r b a => by split <;> rfl).congr fun t => ?_
        simp only [h1.expired, List.mem_cons]
        by_cases ht : t = p
        · subst ht
          have hx : Expired s now t := hp
          simp only [if_true, hx, true_or, and_self, and_true]
          split <;> rfl
        · simp [ht]
      · rename_i hp
        refine (ih prio highest s).congr fun t => ?_
        have hx : t = p → ¬Expired s now t := fun ht => ht ▸ hp
        by_cases ht : t = p
        · simp [hx ht]
        · simp [ht]

/-- **The queue**: the expired threads leave it, and the others keep their order. -/
lemma parseWakeup_wakeup (l : List TcbPtr) (prio : Nat) (highest : Option TcbPtr) (s : Sys) :
    (parseWakeup now l prio highest s).1.wakeup =
      s.wakeup.filter fun t => !decide (t ∈ l ∧ Expired s now t) := by
  induction l generalizing prio highest s with
  | nil => simp [parseWakeup]
  | cons p l ih =>
      rw [parseWakeup]
      split
      · rename_i hp
        have h1 := Served.wakeUp s p
        have h2 : (wakeUp s p).wakeup = s.wakeup.filter (· ≠ p) := by
          rw [wakeUp, makeRunning_wakeup]; rfl
        rw [ih, h2, List.filter_filter]
        refine List.filter_congr fun t _ => ?_
        have hx : Expired s now p := hp
        simp only [h1.expired, List.mem_cons]
        by_cases ht : t = p
        · simp [ht, hx]
        · simp [ht]
      · rename_i hp
        rw [ih]
        refine List.filter_congr fun t _ => ?_
        have hx : t = p → ¬Expired s now t := fun ht => ht ▸ hp
        by_cases ht : t = p
        · simp [hx ht]
        · simp [ht]

/-- **The result**: an expired thread of the highest priority, if that is above the given one. -/
lemma parseWakeup_highest (l : List TcbPtr) (prio : Nat) (highest : Option TcbPtr) (s : Sys) :
    ((parseWakeup now l prio highest s).2 = highest ∧
        ∀ t ∈ l, Expired s now t → (s.tcb t).priority ≤ prio) ∨
      ∃ p ∈ l, (parseWakeup now l prio highest s).2 = some p ∧ Expired s now p ∧
        prio < (s.tcb p).priority ∧
        ∀ t ∈ l, Expired s now t → (s.tcb t).priority ≤ (s.tcb p).priority := by
  induction l generalizing prio highest s with
  | nil => exact Or.inl ⟨rfl, by simp⟩
  | cons p l ih =>
      rw [parseWakeup]
      split
      · rename_i hp
        have h1 := Served.wakeUp s p
        dsimp only
        -- the bound for the rest of the queue
        set prio' := if prio < (s.tcb p).priority then (s.tcb p).priority else prio with hprio'
        rcases ih prio' (if prio < (s.tcb p).priority then some p else highest) (wakeUp s p) with
          ⟨h2, h3⟩ | ⟨q, hq, h2, h3, h4, h5⟩
        · simp only [h1.expired, h1.priority] at h3
          by_cases hup : prio < (s.tcb p).priority
          · rw [if_pos hup] at h2 hprio' ⊢
            refine Or.inr ⟨p, List.mem_cons_self, h2, hp, hup, fun t ht hx => ?_⟩
            rcases List.mem_cons.mp ht with rfl | ht
            · exact le_rfl
            · exact hprio' ▸ h3 t ht hx
          · rw [if_neg hup] at h2 hprio' ⊢
            refine Or.inl ⟨h2, fun t ht hx => ?_⟩
            rcases List.mem_cons.mp ht with rfl | ht
            · exact not_lt.mp hup
            · exact hprio' ▸ h3 t ht hx
        · simp only [h1.expired, h1.priority] at h3 h4 h5
          have hle : prio ≤ prio' ∧ (s.tcb p).priority ≤ prio' := by
            rw [hprio']
            split <;> omega
          refine Or.inr ⟨q, List.mem_cons_of_mem _ hq, h2, h3, by omega, fun t ht hx => ?_⟩
          rcases List.mem_cons.mp ht with rfl | ht
          · omega
          · exact h5 t ht hx
      · rename_i hp
        have hx : ¬Expired s now p := hp
        rcases ih prio highest s with ⟨h2, h3⟩ | ⟨q, hq, h2, h3, h4, h5⟩
        · refine Or.inl ⟨h2, fun t ht hxt => ?_⟩
          rcases List.mem_cons.mp ht with rfl | ht
          · exact absurd hxt hx
          · exact h3 t ht hxt
        · refine Or.inr ⟨q, List.mem_cons_of_mem _ hq, h2, h3, h4, fun t ht hxt => ?_⟩
          rcases List.mem_cons.mp ht with rfl | ht
          · exact absurd hxt hx
          · exact h5 t ht hxt

end Loop

/-! ### The loop, on the ring -/

lemma enqueueReady_setWakeup (s : Sys) (p : TcbPtr) (l : List TcbPtr) :
    threadEnqueueReady { s with wakeup := l } p = { threadEnqueueReady s p with wakeup := l } := by
  have hptr : ∀ (s : Sys) q f, ({ s with wakeup := l } : Sys).updPtr q f =
      { s.updPtr q f with wakeup := l } :=
    fun s q f => by cases q <;> rfl
  unfold threadEnqueueReady
  dsimp only
  by_cases hr : (s.tcb p).queueReady = true
  · rw [if_pos hr, if_pos hr]
  · rw [if_neg hr, if_neg hr]
    cases hq : s.prioQueue (s.tcb p).priority with
    | none => rfl
    | some tmp =>
        dsimp only
        have h1 := hptr (s.upd p
          fun t => { t with readyNext := some tmp, readyPrev := (s.tcb tmp).readyPrev })
          (s.tcb tmp).readyPrev fun t => { t with readyNext := some p }
        simp only [Sys.upd] at h1 ⊢
        rw [h1]

lemma makeRunning_setWakeup (s : Sys) (p : TcbPtr) (l : List TcbPtr) :
    makeRunning { s with wakeup := l } p = { makeRunning s p with wakeup := l } :=
  enqueueReady_setWakeup (s.upd p fun t => { t with threadState := .running }) p l
/-- **The loop on the ring** does what the loop on the list does: it stands at the first thread of
`v`, and has left the threads `u` in the queue. -/
lemma WakeupLinks.parseLoop_refines (now : BitVec 64) {fuel : Nat} {w : WakeupLinks}
    {u v : List TcbPtr}
    (h : WakeupQueue w (u ++ v)) (hfuel : v.length < fuel) (prio : Nat) (highest : Option TcbPtr)
    (s : Sys) :
    ∃ w' s', parseLoop now fuel (v ++ [TcbPtr.idle]).head? prio highest w s =
        some (w', s', (parseWakeup now v prio highest { s with wakeup := u ++ v }).2) ∧
      (parseWakeup now v prio highest { s with wakeup := u ++ v }).1 =
        { s' with
          wakeup := (parseWakeup now v prio highest { s with wakeup := u ++ v }).1.wakeup } ∧
      WakeupQueue w' (parseWakeup now v prio highest { s with wakeup := u ++ v }).1.wakeup := by
  induction v generalizing u fuel w s prio highest with
  | nil =>
      obtain ⟨n, rfl⟩ := Nat.exists_eq_succ_of_ne_zero (Nat.ne_of_gt hfuel)
      refine ⟨w, s, ?_, rfl, h⟩
      simp [parseLoop, parseWakeup]
  | cons p v ih =>
      obtain ⟨n, rfl⟩ := Nat.exists_eq_succ_of_ne_zero (Nat.ne_of_gt (Nat.zero_lt_of_lt hfuel))
      have hpi : p ≠ .idle := h.ne_idle (by simp)
      have hlen : v.length < n := by simpa using hfuel
      rw [List.cons_append, List.head?_cons, parseLoop, if_neg hpi, h.next_eq, parseWakeup]
      dsimp only
      split
      · -- the thread is taken out before its successor is looked at
        have hpu : p ∉ u ∧ p ∉ v := by
          have h1 := (List.nodup_cons.mp h.nodup).2
          rw [List.nodup_middle, List.nodup_cons, List.mem_append, not_or] at h1
          exact h1.1
        have herase : (u ++ p :: v).erase p = u ++ v := by
          rw [List.erase_append_right _ hpu.1, List.erase_cons_head]
        have hstate : wakeUp { s with wakeup := u ++ p :: v } p =
            { makeRunning s p with wakeup := u ++ v } := by
          have h1 : threadDequeueWakeup { s with wakeup := u ++ p :: v } p =
              { s with wakeup := u ++ v } := by
            rw [threadDequeueWakeup, List.filter_append, List.filter_cons_of_neg (by simp)]
            congr 2
            · exact List.filter_eq_self.mpr fun t ht => decide_eq_true fun he :
                t = p => hpu.1 (he ▸ ht)
            · exact List.filter_eq_self.mpr fun t ht => decide_eq_true fun he :
                t = p => hpu.2 (he ▸ ht)
          rw [wakeUp, h1, makeRunning_setWakeup]
        rw [hstate]
        exact ih (herase ▸ h.dequeue (by simp)) hlen _ _ _
      · have h1 : WakeupQueue w (u ++ [p] ++ v) := by simpa using h
        have h2 := ih h1 hlen prio highest s
        simpa using h2

/-- **Expired timeouts are served exactly.**  Whatever the length and order of the wakeup queue,
`parse_wakeup_queue` returns; it takes out exactly the threads whose timeout is not after the clock,
the others keeping their order; those threads are running and marked ready, no other control block
changes apart from links of the ready queues, and sound ready queues stay sound.  The result is
an expired thread of the highest priority if that is above the current one, else null. -/
theorem parse_serves {w : WakeupLinks} (h : WakeupQueue w l) {fuel : Nat} (hfuel : l.length < fuel)
    (s : Sys) (prio : Nat) (now : BitVec 64) :
    ∃ w' s' r, w.parse fuel s prio now = some (w', s', r) ∧
      WakeupQueue w' (l.filter fun t => !decide (Expired s now t)) ∧
      Served (fun t b => if t ∈ l ∧ Expired s now t then b.served else b) s s' ∧
      (ReadySound s → ReadySound s') ∧
      (r = none ↔ ∀ t ∈ l, Expired s now t → (s.tcb t).priority ≤ prio) ∧
      ∀ p, r = some p → p ∈ l ∧ Expired s now p ∧ prio < (s.tcb p).priority ∧
        ∀ t ∈ l, Expired s now t → (s.tcb t).priority ≤ (s.tcb p).priority := by
  obtain ⟨w', s', h1, h2, h3⟩ := WakeupLinks.parseLoop_refines now (u := []) h hfuel prio none s
  rw [List.nil_append] at h1 h2 h3
  set S : Sys := { s with wakeup := l }
  have hserved : Served (fun t b => if t ∈ l ∧ Expired s now t then b.served else b) S
      (parseWakeup now l prio none S).1 := parseWakeup_served now l prio none S
  have hwakeup : (parseWakeup now l prio none S).1.wakeup =
      l.filter fun t => !decide (t ∈ l ∧ Expired s now t) := parseWakeup_wakeup now l prio none S
  refine ⟨w', s', (parseWakeup now l prio none S).2, ?_, ?_, ?_, fun hr => ?_, ?_⟩
  · rw [WakeupLinks.parse, h.next_idle, h1]
  · rw [hwakeup] at h3
    have hfilter : (l.filter fun t => !decide (t ∈ l ∧ Expired s now t)) =
        l.filter fun t => !decide (Expired s now t) := List.filter_congr fun t ht => by simp [ht]
    rwa [hfilter] at h3
  · rw [h2] at hserved
    exact ⟨hserved.tcb, hserved.current, hserved.present, hserved.interruptOwner, hserved.clock,
      hserved.nextSpace⟩
  · have hS : ReadySound S := hr.same ⟨fun _ => rfl, rfl⟩ rfl
    have h4 := hS.parseWakeup now l prio none
    rw [h2] at h4
    exact h4.same ⟨fun _ => rfl, rfl⟩ rfl
  · rcases parseWakeup_highest now l prio none S with ⟨h4, h5⟩ | ⟨p, hp, h4, h5, h6, h7⟩
    · rw [h4]
      exact ⟨⟨fun _ => h5, fun _ => rfl⟩, by simp⟩
    · rw [h4]
      refine ⟨⟨by simp, fun h8 => absurd (h8 p hp h5) (not_le.mpr h6)⟩, fun q hq => ?_⟩
      obtain rfl : p = q := Option.some.inj hq
      exact ⟨hp, h5, h6, h7⟩

/-- Four threads with timeouts, of three priorities. -/
def fourTimeouts : Sys :=
  withThread (withThread (withThread (withThread bootSys sigma0Id 50 .waiting 1000)
    rootTaskId 60 .waiting 1500) (setThread rootTaskId 1) 70 .polling 4000)
    (setThread rootTaskId 2) 60 .waiting 1953

/-- The first tick wakes up three of them, two next to each other; of the two of the highest
priority among them, the one that comes first in the queue is to be switched to. -/
theorem parse_serves_four : ∃ w s',
    ((((WakeupQueue.idleRing.enqueue (tidToTcb sigma0Id)).enqueue (tidToTcb rootTaskId)).enqueue
      (tidToTcb (setThread rootTaskId 1))).enqueue (tidToTcb (setThread rootTaskId 2))).parse 5
      fourTimeouts 50 1953 = some (w, s', some (tidToTcb (setThread rootTaskId 2))) ∧
    WakeupQueue w [tidToTcb (setThread rootTaskId 1)] ∧ ReadySound s' ∧
    (s'.tcb (tidToTcb sigma0Id)).threadState = .running ∧
    (s'.tcb (tidToTcb (setThread rootTaskId 1))).threadState = .polling := by
  have h := (((WakeupQueue.boot.enqueue (p := tidToTcb sigma0Id) (by decide)).enqueue
    (p := tidToTcb rootTaskId) (by decide)).enqueue (p := tidToTcb (setThread rootTaskId 1))
    (by decide)).enqueue (p := tidToTcb (setThread rootTaskId 2)) (by decide)
  obtain ⟨w, s', r, h1, h2, -, h4, -⟩ := parse_serves h (show _ < 5 by decide) fourTimeouts 50 1953
  have hrun : ((((((WakeupQueue.idleRing.enqueue (tidToTcb sigma0Id)).enqueue
      (tidToTcb rootTaskId)).enqueue (tidToTcb (setThread rootTaskId 1))).enqueue
      (tidToTcb (setThread rootTaskId 2))).parse 5 fourTimeouts 50 1953).map fun x =>
        (x.2.2, (x.2.1.tcb (tidToTcb sigma0Id)).threadState,
          (x.2.1.tcb (tidToTcb (setThread rootTaskId 1))).threadState)) =
      some (some (tidToTcb (setThread rootTaskId 2)), .running, .polling) := by decide +kernel
  rw [h1, Option.map_some, Option.some.injEq, Prod.mk.injEq, Prod.mk.injEq] at hrun
  obtain ⟨rfl, hs, hr⟩ := hrun
  have h₀ : NoneReady fourTimeouts := (((noneReady_bootSys.withThread _ _ _ _).withThread _ _ _
    _).withThread _ _ _ _).withThread _ _ _ _
  refine ⟨w, s', h1, ?_, h4 h₀.sound, hs, hr⟩
  have hleft : ([tidToTcb (setThread rootTaskId 2), tidToTcb (setThread rootTaskId 1),
      tidToTcb rootTaskId, tidToTcb sigma0Id].filter fun t => !decide
      (Expired fourTimeouts 1953 t)) =
      [tidToTcb (setThread rootTaskId 1)] := by decide +kernel
  rwa [hleft] at h2

end Hazelnut
