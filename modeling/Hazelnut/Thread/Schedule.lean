import Hazelnut.Thread.ReadyQueue
import Hazelnut.Thread.Task
import Mathlib.Logic.Relation

/-!
The ready queues under the scheduler.

* `ReadySound`: each ready queue is a ring of exactly the threads marked for it, and no queue above
  `current_max_prio` has a member.
* `ReadySound.enqueue`, `ReadySound.dequeue`, `ReadySound.dispatch`, `ReadySound.findNextThread`,
  `ReadySound.parseWakeup`, `ReadySound.schedule`: kept by each operation.
* `ReadyStep`, `readyQueues_sound`: kept by every sequence of them, whatever else happens to the
  threads in between.
-/

namespace Hazelnut

variable {s s' : Sys} {p : TcbPtr} {i : Nat}

/-- **The ready queues are sound**: rings of their members, none above `current_max_prio`. -/
structure ReadySound (s : Sys) : Prop where
  rings : ReadyQueues s
  max : ∀ i, s.prioQueue i ≠ none → (i : Int) ≤ s.currentMaxPrio

/-- The members of the ready queues have a priority of at most `m`. -/
def Below (m : Int) (s : Sys) : Prop :=
  ∀ t, (s.tcb t).queueReady = true → ((s.tcb t).priority : Int) ≤ m

lemma ReadyQueues.prioQueue_ne_none (h : ReadyQueues s) (i : Nat) :
    s.prioQueue i ≠ none ↔ ∃ t, InReady s i t := by
  obtain ⟨l, hl, hmem⟩ := h i
  rw [hl.head]
  cases l with
  | nil =>
      refine ⟨fun h => absurd rfl h, fun ⟨t, ht⟩ => ?_⟩
      exact absurd ((hmem t).mpr ht) (by simp)
  | cons a l => exact ⟨fun _ => ⟨a, (hmem a).mp List.mem_cons_self⟩, fun _ => by simp⟩

/-- In terms of the members. -/
lemma ReadyQueues.sound_iff (h : ReadyQueues s) : ReadySound s ↔ Below s.currentMaxPrio s := by
  refine ⟨fun hs t ht => hs.max _ ((h.prioQueue_ne_none _).mpr ⟨t, ht, rfl⟩),
    fun hb => ⟨h, fun i hi => ?_⟩⟩
  obtain ⟨t, ht, rfl⟩ := (h.prioQueue_ne_none i).mp hi
  exact hb t ht

lemma ReadySound.below (h : ReadySound s) : Below s.currentMaxPrio s := h.rings.sound_iff.mp h

/-- What leaves the ready queues alone keeps them sound. -/
lemma ReadySound.same (h : ReadySound s) (hs : SameReady s s')
    (hm : s'.currentMaxPrio = s.currentMaxPrio) :
    ReadySound s' :=
  ⟨h.rings.same hs, fun i hi => by rw [hm]; exact h.max i (by rw [← hs.prioQueue]; exact hi)⟩

/-! ### The operations -/

lemma currentMaxPrio_enqueueReady (s : Sys) (p : TcbPtr) : (threadEnqueueReady s p).currentMaxPrio =
    if (s.tcb p).queueReady then s.currentMaxPrio else max s.currentMaxPrio (s.tcb p).priority := by
  unfold threadEnqueueReady
  split
  · rfl
  · rfl

lemma currentMaxPrio_dequeueReady (s : Sys) (p : TcbPtr) :
    (threadDequeueReady s p).currentMaxPrio = s.currentMaxPrio := by
  have hptr : ∀ (s : Sys) q f, (s.updPtr q f).currentMaxPrio = s.currentMaxPrio := fun s q f => by
    cases q <;> rfl
  unfold threadDequeueReady
  split
  · dsimp only
    split
    · rfl
    · show ((Sys.updPtr _ _ _).updPtr _ _).currentMaxPrio = _
      rw [hptr, hptr]
      split <;> rfl
  · rfl

namespace ReadySound

/-- `thread_enqueue_ready`. -/
lemma enqueue (h : ReadySound s) (p : TcbPtr) : ReadySound (threadEnqueueReady s p) := by
  obtain ⟨hr, hq, hprio⟩ := h.rings.enqueue p
  refine hr.sound_iff.mpr fun t ht => ?_
  have hb := h.below t
  rw [hq] at ht
  rw [hprio, currentMaxPrio_enqueueReady]
  by_cases htp : t = p
  · subst htp
    split
    · rename_i hmark
      exact hb hmark
    · exact le_max_right _ _
  · rw [if_neg htp] at ht
    split
    · exact hb ht
    · exact (hb ht).trans (le_max_left _ _)

/-- `thread_dequeue_ready`. -/
lemma dequeue (h : ReadySound s) (p : TcbPtr) : ReadySound (threadDequeueReady s p) := by
  obtain ⟨hr, hq, hprio⟩ := h.rings.dequeue p
  refine hr.sound_iff.mpr fun t ht => ?_
  rw [hq] at ht
  rw [hprio, currentMaxPrio_dequeueReady]
  split at ht
  · simp at ht
  · exact h.below t ht

/-- `dispatch_thread`. -/
lemma dispatch (h : ReadySound s) (p : TcbPtr) : ReadySound (dispatchThread s p) := by
  have hswitch : ∀ {s : Sys}, ReadySound s → ∀ q c, ReadySound (switchTo s q c) :=
    fun {s} h q c => by
    have h1 : ReadySound (s.upd s.current fun t => { t with cont := c }) :=
      h.same ((SameReady.refl s).upd _ (by intro _; rfl)) rfl
    exact h1.same ⟨fun _ => rfl, rfl⟩ rfl
  unfold dispatchThread
  split
  · exact h
  · split
    · exact hswitch h _ _
    · refine hswitch ?_ _ _
      split
      · rename_i hmark
        exact (h.rings.rotate ⟨hmark, rfl⟩ s.currentMaxPrio).sound_iff.mpr h.below
      · exact h

/-- The loop of `parse_wakeup_queue`. -/
lemma parseWakeup (h : ReadySound s) (now : BitVec 64) (l : List TcbPtr) (prio : Nat)
    (highest : Option TcbPtr) : ReadySound (parseWakeup now l prio highest s).1 := by
  induction l generalizing s prio highest with
  | nil => exact h
  | cons p l ih =>
      rw [Hazelnut.parseWakeup]
      split
      · have h1 : ReadySound (threadDequeueWakeup s p) := h.same ⟨fun _ => rfl, rfl⟩ rfl
        have h2 : ReadySound ((threadDequeueWakeup s p).upd p
            fun t => { t with threadState := .running }) :=
          h1.same ((SameReady.refl _).upd p (by intro _; rfl)) rfl
        exact ih (h2.enqueue p) _ _
      · exact ih h _ _

/-- `sys_schedule`. -/
lemma schedule (h : ReadySound s) (param : Word) (tid : Tid) :
    ReadySound (sysSchedule s param tid) := by
  -- the priority of a thread outside the queues is free
  have hprio : ∀ {s : Sys}, ReadySound s → ∀ p n, (s.tcb p).queueReady = false →
      ReadySound (s.upd p fun t => { t with priority := n }) := fun {s} h p n hp => by
    have hr := h.rings.updOut hp (f := fun t => { t with priority := n }) fun t => Or.inl rfl
    refine hr.sound_iff.mpr fun t ht => ?_
    unfold Sys.upd at ht ⊢
    by_cases htp : t = p
    · subst htp
      simp [hp] at ht
    · simp only [ne_eq, htp, not_false_eq_true, Function.update_of_ne] at ht ⊢
      exact h.below t ht
  unfold sysSchedule
  dsimp only
  split
  · exact h
  · split
    · obtain ⟨-, hout, -⟩ := h.rings.dequeue (tidToTcb tid)
      exact (hprio (h.dequeue _) _ _ (by rw [hout, if_pos rfl])).enqueue _
    · rename_i hmark
      exact hprio h _ _ (by simpa using hmark)

end ReadySound

/-! ### `find_next_thread` -/

/-- The members of the queues of `s'` are members of those of `s`, with the same priority. -/
structure Thinned (s s' : Sys) : Prop where
  mark : ∀ t, (s'.tcb t).queueReady = true → (s.tcb t).queueReady = true
  priority : ∀ t, (s'.tcb t).priority = (s.tcb t).priority

lemma Thinned.refl (s : Sys) : Thinned s s := ⟨fun _ h => h, fun _ => rfl⟩

lemma Thinned.below {m : Int} (h : Thinned s s') (hb : Below m s) : Below m s' := fun t ht => by
  rw [h.priority]
  exact hb t (h.mark t ht)

/-- What the inner loop leaves: an empty queue, or the thread it has found at its entry point. -/
structure Searched (i : Nat) (s s' : Sys) (r : Option TcbPtr) : Prop where
  rings : ReadyQueues s'
  thinned : Thinned s s'
  empty : r = none → s'.prioQueue i = none
  found : ∀ p, r = some p → s'.currentMaxPrio = i

lemma Searched.trans {s1 : Sys} {r : Option TcbPtr} (h : Thinned s s1) (h1 : Searched i s1 s' r) :
    Searched i s s' r :=
  ⟨h1.rings, ⟨fun t ht => h.mark t (h1.thinned.mark t ht), fun t =>
    (h1.thinned.priority t).trans (h.priority t)⟩, h1.empty, h1.found⟩

/-- **One turn of the inner loop** ends it, or takes a thread out of the queue. -/
lemma findInQueue_turn {l : List TcbPtr} (h : ReadyQueues s) (hl : ReadyRing s i l)
    (hmem : ∀ t, t ∈ l ↔ InReady s i t) (fuel : Nat) :
    (∃ s' r, findInQueue i (fuel + 1) s = some (s', r) ∧ Searched i s s' r) ∨
      ∃ s1 l1, findInQueue i (fuel + 1) s = findInQueue i fuel s1 ∧ ReadyQueues s1 ∧ Thinned s s1 ∧
        ReadyRing s1 i l1 ∧ (∀ t, t ∈ l1 ↔ InReady s1 i t) ∧ l1.length < l.length := by
  rw [findInQueue]
  cases l with
  | nil =>
      have hnone : s.prioQueue i = none := hl.head
      rw [hnone]
      exact Or.inl ⟨s, none, rfl, h, Thinned.refl s, fun _ => hnone, by simp⟩
  | cons a l =>
      have hhead : s.prioQueue i = some a := hl.head
      obtain ⟨p, hp⟩ := (hl.ring.exists_links List.mem_cons_self).1
      have hp' : (s.tcb a).readyNext = some p := hp
      have hpl : p ∈ a :: l := hl.ring.next_mem List.mem_cons_self hp
      have hmark : InReady s i p := (hmem p).mp hpl
      rw [hhead]
      dsimp only
      rw [hp']
      dsimp only
      split
      · exact Or.inl ⟨_, some p, rfl, h.rotate hmark _, ⟨fun _ h => h, fun _ => rfl⟩, by simp,
          fun _ _ => rfl⟩
      · obtain ⟨hr, hq, hprio⟩ := h.dequeue p
        have hthin : Thinned s (threadDequeueReady s p) := by
          refine ⟨fun t ht => ?_, hprio⟩
          rw [hq] at ht
          split at ht
          · simp at ht
          · exact ht
        obtain ⟨l1, hl1, hmem1⟩ := hr i
        have hsub : l1 ⊆ (a :: l).erase p := fun t ht => by
          have h1 := (hmem1 t).mp ht
          have h2 : t ≠ p := fun he => by
            have h3 := h1.1
            rw [hq, if_pos he] at h3
            simp at h3
          exact hl.nodup.mem_erase_iff.mpr
            ⟨h2, (hmem t).mpr ⟨hthin.mark t h1.1, (hprio t).symm.trans h1.2⟩⟩
        have hlen := (List.subperm_of_subset hl1.nodup hsub).length_le
        rw [List.length_erase_of_mem hpl] at hlen
        have hpos := List.length_pos_of_mem hpl
        exact Or.inr ⟨_, l1, rfl, hr, hthin, hl1, hmem1, by omega⟩

lemma findInQueue_searched {fuel : Nat} {r : Option TcbPtr} (h : ReadyQueues s)
    (hf : findInQueue i fuel s = some (s', r)) : Searched i s s' r := by
  induction fuel generalizing s with
  | zero => simp [findInQueue] at hf
  | succ fuel ih =>
      obtain ⟨l, hl, hmem⟩ := h i
      rcases findInQueue_turn h hl hmem fuel with ⟨s1, r1, h1, h2⟩ | ⟨s1, l1, h1, hr, hthin, -⟩
      · rw [h1, Option.some.injEq, Prod.mk.injEq] at hf
        exact hf.1 ▸ hf.2 ▸ h2
      · rw [h1] at hf
        exact (ih hr hf).trans hthin

/-- **The inner loop ends** after as many turns as there are threads in the queue. -/
lemma findInQueue_returns {fuel : Nat} {l : List TcbPtr} (h : ReadyQueues s) (hl : ReadyRing s i l)
    (hmem : ∀ t, t ∈ l ↔ InReady s i t) (hfuel : l.length < fuel) :
    ∃ s' r, findInQueue i fuel s = some (s', r) := by
  induction fuel generalizing s l with
  | zero => omega
  | succ fuel ih =>
      rcases findInQueue_turn h hl hmem fuel with ⟨s1, r1, h1, -⟩ | ⟨s1, l1, h1, hr, -,
        hl1, hmem1, hlt⟩
      · exact ⟨s1, r1, h1⟩
      · rw [h1]
        exact ih hr hl1 hmem1 (by omega)

/-- What is left when the inner loop has found nobody, or somebody. -/
lemma Searched.below {r : Option TcbPtr} (h : Searched i s s' r) (hb : Below i s) :
    (r = none → Below (i - 1) s') ∧ ∀ p, r = some p → ReadySound s' := by
  refine ⟨fun hr t ht => ?_, fun p hp => h.rings.sound_iff.mpr ?_⟩
  · have h1 := h.thinned.below hb t ht
    have h2 : (s'.tcb t).priority ≠ i := fun he =>
      (h.rings.prioQueue_ne_none i).mpr ⟨t, ht, he⟩ (h.empty hr)
    omega
  · rw [h.found p hp]
    exact h.thinned.below hb

/-- The outer loop. -/
lemma ReadySound.findFrom (h : ReadyQueues s) (hb : Below i s) (hf : findFrom i s = some (s', p)) :
    ReadySound s' := by
  induction i generalizing s with
  | zero =>
      rw [Hazelnut.findFrom] at hf
      split at hf
      · simp at hf
      · rename_i s1 q h1
        obtain ⟨rfl, rfl⟩ := Prod.mk.inj (Option.some.inj hf)
        exact ((findInQueue_searched h h1).below hb).2 _ rfl
      · rename_i s1 h1
        obtain ⟨rfl, rfl⟩ := Prod.mk.inj (Option.some.inj hf)
        have h2 := findInQueue_searched h h1
        refine ⟨h2.rings.same ⟨fun _ => rfl, rfl⟩, fun j hj => ?_⟩
        obtain ⟨t, ht, rfl⟩ := (h2.rings.prioQueue_ne_none j).mp hj
        exact (h2.below hb).1 rfl t ht
  | succ i ih =>
      rw [Hazelnut.findFrom] at hf
      split at hf
      · simp at hf
      · rename_i s1 q h1
        obtain ⟨rfl, rfl⟩ := Prod.mk.inj (Option.some.inj hf)
        exact ((findInQueue_searched h h1).below hb).2 _ rfl
      · rename_i s1 h1
        have h2 := findInQueue_searched h h1
        refine ih h2.rings (fun t ht => ?_) hf
        have h3 := (h2.below hb).1 rfl t ht
        push_cast at h3
        omega

/-- **`find_next_thread`** keeps the ready queues sound. -/
lemma ReadySound.findNextThread (h : ReadySound s) (hf : findNextThread s = some (s', p)) :
    ReadySound s' := by
  unfold Hazelnut.findNextThread at hf
  split at hf
  · rename_i hneg
    obtain ⟨rfl, rfl⟩ := Prod.mk.inj (Option.some.inj hf)
    refine ⟨h.rings.same ⟨fun _ => rfl, rfl⟩, fun j hj => ?_⟩
    have h1 := h.max j hj
    omega
  · refine ReadySound.findFrom h.rings (fun t ht => ?_) hf
    have h1 := h.below t ht
    omega

/-- At most `2^14` threads are in a ready queue, unless the idle thread is. -/
lemma ReadyRing.length_lt {l : List TcbPtr} (hl : ReadyRing s i l)
    (hmem : ∀ t, t ∈ l ↔ InReady s i t)
    (hidle : (s.tcb .idle).queueReady = false) : l.length < tcbCount := by
  have h1 := length_le_of_nodup hl.nodup fun q hq he => by
    have h2 := ((hmem q).mp hq).1
    rw [he, hidle] at h2
    simp at h2
  unfold tcbCount
  omega

lemma findFrom_returns (h : ReadyQueues s) (hidle : (s.tcb .idle).queueReady = false) :
    ∃ s' p, findFrom i s = some (s', p) := by
  induction i generalizing s with
  | zero =>
      obtain ⟨l, hl, hmem⟩ := h 0
      obtain ⟨s1, r, h1⟩ := findInQueue_returns h hl hmem (hl.length_lt hmem hidle)
      rw [findFrom, h1]
      cases r with
      | none => exact ⟨_, _, rfl⟩
      | some p => exact ⟨_, _, rfl⟩
  | succ i ih =>
      obtain ⟨l, hl, hmem⟩ := h (i + 1)
      obtain ⟨s1, r, h1⟩ := findInQueue_returns h hl hmem (hl.length_lt hmem hidle)
      rw [findFrom, h1]
      cases r with
      | none =>
          have h2 := findInQueue_searched h h1
          refine ih h2.rings ?_
          rw [← Bool.not_eq_true] at hidle ⊢
          exact fun h3 => hidle (h2.thinned.mark _ h3)
      | some p => exact ⟨_, _, rfl⟩

/-- **`find_next_thread` returns** whenever the idle thread is in no ready queue. -/
lemma ReadySound.returns (h : ReadySound s) (hidle : (s.tcb .idle).queueReady = false) :
    ∃ s' p, Hazelnut.findNextThread s = some (s', p) := by
  unfold Hazelnut.findNextThread
  split
  · exact ⟨_, _, rfl⟩
  · exact findFrom_returns h.rings hidle

/-! ### Sequences of operations -/

/-- An operation on the ready queues, or anything that leaves them alone: thread states, time slices
and the wakeup queue may change in any way in between. -/
inductive ReadyStep : Sys → Sys → Prop
  | enqueue (s : Sys) (p : TcbPtr) : ReadyStep s (threadEnqueueReady s p)
  | dequeue (s : Sys) (p : TcbPtr) : ReadyStep s (threadDequeueReady s p)
  | dispatch (s : Sys) (p : TcbPtr) : ReadyStep s (dispatchThread s p)
  | find {s s' : Sys} {p : TcbPtr} (h : findNextThread s = some (s', p)) : ReadyStep s s'
  | wakeup (s : Sys) (prio : Nat) (now : BitVec 64) : ReadyStep s (parseWakeupQueue s prio now).1
  | schedule (s : Sys) (param : Word) (tid : Tid) : ReadyStep s (sysSchedule s param tid)
  | other {s s' : Sys} (h : SameReady s s')
      (hm : s'.currentMaxPrio = s.currentMaxPrio) : ReadyStep s s'

/-- **Each operation** keeps the ready queues sound. -/
lemma ReadySound.step (h : ReadySound s) (hs : ReadyStep s s') : ReadySound s' := by
  cases hs with
  | enqueue p => exact h.enqueue p
  | dequeue p => exact h.dequeue p
  | dispatch p => exact h.dispatch p
  | find hf => exact h.findNextThread hf
  | wakeup prio now => exact h.parseWakeup now s.wakeup prio none
  | schedule param tid => exact h.schedule param tid
  | other hs hm => exact h.same hs hm

/-- Nobody is in a ready queue. -/
def NoneReady (s : Sys) : Prop := (∀ i, s.prioQueue i = none) ∧ ∀ t, (s.tcb t).queueReady = false

lemma NoneReady.sound (h : NoneReady s) : ReadySound s := by
  refine ⟨fun i => ⟨[], ⟨List.nodup_nil, h.1 i, trivial⟩, fun t => ?_⟩,
    fun i hi => absurd (h.1 i) hi⟩
  simp [InReady, h.2]

/-- **The ready queues are sound** after any sequence of operations that starts with empty queues:
the queue of each priority is a doubly linked ring of exactly the threads marked for it, each once,
and `current_max_prio` is no smaller than the priority of any queue that has a member.  The search
for the next thread ends in every such state. -/
theorem readyQueues_sound {s₀ : Sys} (h₀ : NoneReady s₀)
    (h : Relation.ReflTransGen ReadyStep s₀ s) :
    (∀ i, ∃ l, ReadyRing s i l ∧ ∀ t, t ∈ l ↔ (s.tcb t).queueReady = true ∧
    (s.tcb t).priority = i) ∧
      (∀ i, s.prioQueue i ≠ none → (i : Int) ≤ s.currentMaxPrio) ∧
      ((s.tcb .idle).queueReady = false → ∃ s' p, findNextThread s = some (s', p)) := by
  have hs : ReadySound s := by
    induction h with
    | refl => exact h₀.sound
    | tail _ hstep ih => exact ih.step hstep
  exact ⟨hs.rings, hs.max, hs.returns⟩

/-- A thread that is in no queue. -/
def withThread (s : Sys) (tid : Tid) (prio : Nat) (st : ThreadState) (timeout : BitVec 64) : Sys :=
  s.upd (tidToTcb tid) fun t => { t with
    myself := tid, priority := prio, threadState := st, timeslice := defaultTimeslice,
    absoluteTimeout := timeout }

lemma NoneReady.withThread (h : NoneReady s) (tid : Tid) (prio : Nat) (st : ThreadState)
    (timeout : BitVec 64) : NoneReady (withThread s tid prio st timeout) := by
  refine ⟨h.1, fun t => ?_⟩
  by_cases ht : t = tidToTcb tid
  · subst ht
    simpa [Hazelnut.withThread, Sys.upd] using h.2 (tidToTcb tid)
  · simpa [Hazelnut.withThread, Sys.upd, ht] using h.2 t

lemma noneReady_bootSys : NoneReady bootSys := ⟨fun _ => rfl, fun t => by cases t <;> rfl⟩

/-- Three threads of one priority enter their queue; the first is dispatched, and leaves the queue,
whose head it is; and the last gets a higher priority. -/
def threeReady : Sys :=
  let s := withThread (withThread (withThread bootSys sigma0Id 50 .running 0)
    rootTaskId 50 .running 0)
    (setThread rootTaskId 1) 50 .running 0
  let s1 := threadEnqueueReady (threadEnqueueReady (threadEnqueueReady s (tidToTcb sigma0Id))
    (tidToTcb rootTaskId)) (tidToTcb (setThread rootTaskId 1))
  sysSchedule (threadDequeueReady (dispatchThread s1 (tidToTcb sigma0Id)) (tidToTcb sigma0Id)) 60
    (setThread rootTaskId 1)

/-- The two threads that are left are in the queues of their priorities. -/
theorem readyQueues_sound_three :
    threeReady.prioQueue 50 = some (tidToTcb rootTaskId) ∧
    threeReady.prioQueue 60 = some (tidToTcb (setThread rootTaskId 1)) ∧
    (∀ i, ∃ l, ReadyRing threeReady i l ∧ ∀ t, t ∈ l ↔
      (threeReady.tcb t).queueReady = true ∧ (threeReady.tcb t).priority = i) ∧
    (∀ i, threeReady.prioQueue i ≠ none → (i : Int) ≤ threeReady.currentMaxPrio) ∧
    ∃ s' p, findNextThread threeReady = some (s', p) := by
  have h₀ := ((noneReady_bootSys.withThread sigma0Id 50 .running 0).withThread
    rootTaskId 50 .running
    0).withThread (setThread rootTaskId 1) 50 .running 0
  obtain ⟨h1, h2, h3⟩ :=
    readyQueues_sound h₀ ((((((Relation.ReflTransGen.refl.tail
    (ReadyStep.enqueue _ (tidToTcb sigma0Id))).tail
    (ReadyStep.enqueue _ (tidToTcb rootTaskId))).tail
    (ReadyStep.enqueue _ (tidToTcb (setThread rootTaskId 1)))).tail
    (ReadyStep.dispatch _ (tidToTcb sigma0Id))).tail (ReadyStep.dequeue _ (tidToTcb sigma0Id))).tail
    (ReadyStep.schedule _ 60 (setThread rootTaskId 1)))
  exact ⟨by decide +kernel, by decide +kernel, h1, h2, h3 (by decide +kernel)⟩

end Hazelnut
