import Hazelnut.Thread.Schedule
import Mathlib.Data.List.Rotate

/-!
What the scheduler returns.

* `Eligible`: the thread is running or locked-running and has a time slice.
* `ReadyInv`: the ready queues are sound, and hold created threads other than the idle thread.
* `Skimmed`: some threads that are not eligible have left the ready queues.
* `findInQueue_first`: the inner loop returns the first eligible thread behind the head.
* `findNextThread_picks`: the result of `find_next_thread`.
-/

namespace Hazelnut

variable {s s' : Sys} {p : TcbPtr} {i : Nat}

/-- The thread can run and has a time slice. -/
def Eligible (s : Sys) (t : TcbPtr) : Prop :=
  ((s.tcb t).threadState = .running ∨ (s.tcb t).threadState = .lockedRunning) ∧
    0 < (s.tcb t).timeslice

instance (s : Sys) (t : TcbPtr) : Decidable (Eligible s t) := inferInstanceAs (Decidable (_ ∧ _))

/-- **The ready queues hold threads**: they are sound, their members have been created, and the idle
thread is not among them. -/
structure ReadyInv (s : Sys) : Prop extends ReadySound s where
  created : ∀ t, (s.tcb t).queueReady = true → (s.tcb t).threadState ≠ .free
  idle : (s.tcb .idle).queueReady = false

/-- The test of the scheduler, on a created thread. -/
lemma eligible_iff {t : TcbPtr} (h : (s.tcb t).threadState ≠ .free) :
    Eligible s t ↔ isRunning (s.tcb t).threadState ∧ 0 < (s.tcb t).timeslice := by
  rw [Eligible, isRunning_iff]
  tauto

/-! ### What the search leaves -/

/-- Threads that are not eligible have left the ready queues; nothing else a thread depends on has
changed. -/
structure Skimmed (s s' : Sys) : Prop extends Thinned s s' where
  same : SameIpc s s'
  dropped : ∀ t, (s.tcb t).queueReady = true → Eligible s t → (s'.tcb t).queueReady = true

namespace Skimmed

lemma threadState (h : Skimmed s s') (t : TcbPtr) :
    (s'.tcb t).threadState = (s.tcb t).threadState :=
  congrArg IpcPart.threadState (congrFun h.same.ipc t)

lemma timeslice (h : Skimmed s s') (t : TcbPtr) : (s'.tcb t).timeslice = (s.tcb t).timeslice :=
  congrArg IpcPart.timeslice (congrFun h.same.ipc t)

lemma eligible (h : Skimmed s s') (t : TcbPtr) : Eligible s' t ↔ Eligible s t := by
  rw [Eligible, Eligible, h.threadState, h.timeslice]

lemma refl (s : Sys) : Skimmed s s := ⟨Thinned.refl s, SameIpc.refl s, fun _ h _ => h⟩

lemma trans {s1 : Sys} (h : Skimmed s s1) (h' : Skimmed s1 s') : Skimmed s s' where
  mark t ht := h.mark t (h'.mark t ht)
  priority t := (h'.priority t).trans (h.priority t)
  same := h.same.trans h'.same
  dropped t ht he := h'.dropped t (h.dropped t ht he) ((h.eligible t).mpr he)

/-- A thread that is not eligible is taken out. -/
lemma dequeue (h : ReadyQueues s) (hp : ¬Eligible s p) : Skimmed s (threadDequeueReady s p) := by
  obtain ⟨-, hq, hprio⟩ := h.dequeue p
  refine ⟨⟨fun t ht => ?_, hprio⟩, sameIpc_dequeueReady s p, fun t ht he => ?_⟩
  · rw [hq] at ht
    split at ht
    · simp at ht
    · exact ht
  · have htp : t ≠ p := fun heq => hp (heq ▸ he)
    rw [hq, if_neg htp, ht]

/-- The head of a queue and `current_max_prio` are set. -/
lemma setHead (h : Skimmed s s') (q : Nat → Option TcbPtr) (m : Int) :
    Skimmed s { s' with prioQueue := q, currentMaxPrio := m } :=
  ⟨⟨h.mark, h.priority⟩,
    ⟨h.same.ipc, h.same.wakeup, h.same.current, h.same.present, h.same.nextSpace⟩,
    h.dropped⟩

end Skimmed

lemma ReadyInv.skimmed (h : ReadyInv s) (hs : ReadySound s') (hsk : Skimmed s s') :
    ReadyInv s' where
  toReadySound := hs
  created t ht := by
    rw [hsk.threadState]
    exact h.created t (hsk.mark t ht)
  idle := by
    rw [← Bool.not_eq_true]
    intro ht
    have h1 := hsk.mark _ ht
    rw [h.idle] at h1
    simp at h1

/-- The queue of priority `i` is the ring `l`. -/
structure IsQueue (s : Sys) (i : Nat) (l : List TcbPtr) : Prop extends ReadyRing s i l where
  mem_iff : ∀ t, t ∈ l ↔ InReady s i t

/-- The other queues stay as they are. -/
lemma IsQueue.dequeueOther {l : List TcbPtr} (hl : IsQueue s i l) (h : ReadyQueues s)
    (hr : (s.tcb p).queueReady = true) (hi : i ≠ (s.tcb p).priority) :
    IsQueue (threadDequeueReady s p) i l where
  toReadyRing := hl.toReadyRing.dequeueOther h hr hl.mem_iff hi
  mem_iff t := by
    obtain ⟨-, hq, hprio⟩ := h.dequeue p
    rw [hl.mem_iff, InReady, InReady, hq, hprio]
    by_cases ht : t = p
    · subst ht
      simp [Ne.symm hi]
    · simp [ht]

/-- The queue of the thread loses it. -/
lemma IsQueue.dequeue {l : List TcbPtr} (hl : IsQueue s i l) (h : ReadyQueues s)
    (hp : InReady s i p) :
    IsQueue (threadDequeueReady s p) i (l.erase p) where
  toReadyRing := by
    have h1 : ReadyRing s (s.tcb p).priority l := hp.2 ▸ hl.toReadyRing
    exact hp.2 ▸ h1.dequeue ((hl.mem_iff p).mpr hp) hp.1
  mem_iff t := by
    obtain ⟨-, hq, hprio⟩ := h.dequeue p
    rw [hl.nodup.mem_erase_iff, hl.mem_iff, InReady, InReady, hq, hprio]
    by_cases ht : t = p
    · simp [ht]
    · simp [ht]

/-! ### One queue -/

/-- **The inner loop** returns the first eligible thread behind the head of the queue, the head
coming last, and takes out the threads in front of it. -/
lemma findInQueue_first {fuel : Nat} {l : List TcbPtr} (h : ReadyQueues s) (hl : IsQueue s i l)
    (hlive : ∀ t, (s.tcb t).queueReady = true → (s.tcb t).threadState ≠ .free)
    (hfuel : l.length < fuel) :
    ∃ s', findInQueue i fuel s = some (s', (l.rotate 1).find? fun t => decide (Eligible s t)) ∧
      Skimmed s s' ∧ ∀ j m, j ≠ i → IsQueue s j m → IsQueue s' j m := by
  -- on the length of the queue, which each thread taken out makes shorter
  induction fuel generalizing s l with
  | zero => omega
  | succ fuel ih =>
      rw [findInQueue]
      cases l with
      | nil =>
          have hnone : s.prioQueue i = none := hl.head
          rw [hnone]
          exact ⟨s, rfl, Skimmed.refl s, fun _ _ _ hm => hm⟩
      | cons a w =>
          have hhead : s.prioQueue i = some a := hl.head
          obtain ⟨p, r, hpr⟩ : ∃ p r, w ++ [a] = p :: r := List.exists_cons_of_ne_nil (by simp)
          have hnext : (s.tcb a).readyNext = some p := by
            have h1 := (Ring.IsRing.links hl.ring).1
            rwa [hpr, List.head?_cons] at h1
          have hpl : p ∈ a :: w := hl.ring.next_mem List.mem_cons_self hnext
          have hpq : InReady s i p := (hl.mem_iff p).mp hpl
          have helig := eligible_iff (hlive p hpq.1)
          rw [hhead]
          dsimp only
          rw [hnext]
          dsimp only
          rw [List.rotate_cons_succ, List.rotate_zero, hpr, List.find?_cons]
          by_cases he : Eligible s p
          · rw [if_pos (helig.mp he), decide_eq_true he]
            refine ⟨_, rfl, (Skimmed.refl s).setHead _ _, fun j m hj hm => ?_⟩
            refine ⟨hm.toReadyRing.congr ?_ (fun _ _ => rfl) (fun _ _ => rfl), hm.mem_iff⟩
            exact Function.update_of_ne hj _ _
          · rw [if_neg (fun h1 => he (helig.mpr h1)), decide_eq_false he]
            -- what is left of the ring, read from its head
            have hrest : r = ((a :: w).erase p).rotate 1 := by
              cases w with
              | nil =>
                  obtain ⟨rfl, rfl⟩ := List.cons.inj hpr
                  simp
              | cons b w =>
                  obtain ⟨rfl, rfl⟩ := List.cons.inj hpr
                  have hba : a ≠ b := fun hab => (List.nodup_cons.mp hl.nodup).1
                    (hab ▸ List.mem_cons_self)
                  rw [List.erase_cons_tail (by simpa using hba), List.erase_cons_head,
                    List.rotate_cons_succ, List.rotate_zero]
                  rfl
            have hsk := Skimmed.dequeue h he
            have hlive' : ∀ t, ((threadDequeueReady s p).tcb t).queueReady = true →
                ((threadDequeueReady s p).tcb t).threadState ≠ .free := fun t ht => by
              rw [hsk.threadState]
              exact hlive t (hsk.mark t ht)
            have hlen := List.length_erase_of_mem hpl
            simp only [List.length_cons] at hfuel hlen
            obtain ⟨s', h1, h2, h3⟩ := ih (h.dequeue p).1 (hl.dequeue h hpq) hlive' (by omega)
            refine ⟨s', ?_, hsk.trans h2, fun j m hj hm => ?_⟩
            · simp only [h1, hrest, hsk.eligible]
            · exact h3 j m hj (hm.dequeueOther h hpq.1 (hpq.2.symm ▸ hj))

/-! ### All queues -/

/-- **The choice of the scheduler**: the idle thread if no queued thread is eligible, else the first
eligible thread behind the head of the queue of the highest priority that has one. -/
def PicksThread (s : Sys) (p : TcbPtr) : Prop :=
  (p = .idle ∧ ∀ t, (s.tcb t).queueReady = true → ¬Eligible s t) ∨
    ((s.tcb p).queueReady = true ∧ Eligible s p ∧
      (∀ t, (s.tcb t).queueReady = true → Eligible s t → (s.tcb t).priority ≤ (s.tcb p).priority) ∧
      ∀ l, IsQueue s (s.tcb p).priority l →
        ((l.rotate 1).find? fun t => decide (Eligible s t)) = some p)

lemma ReadyQueues.exists_isQueue (h : ReadyQueues s) (i : Nat) : ∃ l, IsQueue s i l :=
  (h i).imp fun _ hl => ⟨hl.1, hl.2⟩

lemma IsQueue.length_lt {l : List TcbPtr} (hl : IsQueue s i l)
    (hidle : (s.tcb .idle).queueReady = false) :
    l.length < tcbCount := hl.toReadyRing.length_lt hl.mem_iff hidle

/-- What the inner loop has found is what the scheduler picks. -/
lemma picks_of_find {l : List TcbPtr} (hl : IsQueue s i l) (hb : Below i s)
    (hf : ∀ m, IsQueue s i m → ((m.rotate 1).find? fun t => decide (Eligible s t)) = some p) :
    PicksThread s p := by
  have h1 := hf l hl
  have he : Eligible s p := by simpa using List.find?_some h1
  have hpl : p ∈ l := List.mem_rotate.mp (List.mem_of_find?_eq_some h1)
  obtain ⟨hq, hprio⟩ := (hl.mem_iff p).mp hpl
  refine Or.inr ⟨hq, he, fun t ht _ => ?_, fun m hm => hf m (hprio ▸ hm)⟩
  rw [hprio]
  exact_mod_cast hb t ht

/-- A choice among what an unsuccessful search has left. -/
lemma PicksThread.of_skimmed (hsk : Skimmed s s') (hb : Below (i - 1) s')
    (hq : ∀ j m, j ≠ i → IsQueue s j m → IsQueue s' j m) (h : PicksThread s' p) :
    PicksThread s p := by
  rcases h with ⟨rfl, hnone⟩ | ⟨hp, he, hmax, hfirst⟩
  · exact Or.inl ⟨rfl, fun t ht he => hnone t (hsk.dropped t ht he) ((hsk.eligible t).mpr he)⟩
  · refine Or.inr ⟨hsk.mark p hp, (hsk.eligible p).mp he, fun t ht het => ?_, fun l hl => ?_⟩
    · rw [← hsk.priority t, ← hsk.priority p]
      exact hmax t (hsk.dropped t ht het) ((hsk.eligible t).mpr het)
    · have hlt := hb p hp
      rw [hsk.priority] at hlt
      have h1 := hfirst l (hsk.priority p ▸ hq _ l (by omega) hl)
      simpa only [hsk.eligible] using h1

/-- **The outer loop** returns, with what the scheduler picks. -/
lemma findFrom_picks (h : ReadyQueues s) (hb : Below i s)
    (hlive : ∀ t, (s.tcb t).queueReady = true → (s.tcb t).threadState ≠ .free)
    (hidle : (s.tcb .idle).queueReady = false) :
    ∃ s' p, findFrom i s = some (s', p) ∧ Skimmed s s' ∧ PicksThread s p := by
  induction i generalizing s with
  | zero =>
      obtain ⟨l, hl⟩ := h.exists_isQueue 0
      have hfind := fun m (hm : IsQueue s 0 m) => findInQueue_first h hm hlive (hm.length_lt hidle)
      obtain ⟨s1, h1, h2, -⟩ := hfind l hl
      rw [findFrom, h1]
      cases hr : (l.rotate 1).find? fun t => decide (Eligible s t) with
      | none =>
          refine ⟨_, _, rfl, h2.setHead _ _, Or.inl ⟨rfl, fun t ht he => ?_⟩⟩
          have hprio := hb t ht
          have htl : t ∈ l := (hl.mem_iff t).mpr ⟨ht, by omega⟩
          exact List.find?_eq_none.mp hr t (List.mem_rotate.mpr htl) (by simpa using he)
      | some p =>
          refine ⟨_, p, rfl, h2, picks_of_find hl hb fun m hm => ?_⟩
          obtain ⟨s2, h3, -⟩ := hfind m hm
          rw [h1, Option.some.injEq, Prod.mk.injEq] at h3
          exact h3.2.symm.trans hr
  | succ i ih =>
      obtain ⟨l, hl⟩ := h.exists_isQueue (i + 1)
      have hfind := fun m (hm : IsQueue s (i + 1) m) =>
        findInQueue_first h hm hlive (hm.length_lt hidle)
      obtain ⟨s1, h1, h2, hkeep⟩ := hfind l hl
      rw [findFrom, h1]
      cases hr : (l.rotate 1).find? fun t => decide (Eligible s t) with
      | none =>
          have hsearched := findInQueue_searched h h1
          have hb1 : Below i s1 := fun t ht => by
            have h3 := (hsearched.below hb).1 hr t ht
            push_cast at h3
            omega
          have hlive1 : ∀ t, (s1.tcb t).queueReady = true → (s1.tcb t).threadState ≠ .free :=
            fun t ht => by
              rw [h2.threadState]
              exact hlive t (h2.mark t ht)
          have hidle1 : (s1.tcb .idle).queueReady = false := by
            rw [← Bool.not_eq_true] at hidle ⊢
            exact fun h3 => hidle (h2.mark _ h3)
          obtain ⟨s', p, h3, h4, h5⟩ := ih hsearched.rings hb1 hlive1 hidle1
          refine ⟨s', p, h3, h2.trans h4, h5.of_skimmed (i := i + 1) h2 ?_ hkeep⟩
          simpa using hb1
      | some p =>
          refine ⟨_, p, rfl, h2, picks_of_find hl hb fun m hm => ?_⟩
          obtain ⟨s2, h3, -⟩ := hfind m hm
          rw [h1, Option.some.injEq, Prod.mk.injEq] at h3
          exact h3.2.symm.trans hr

/-- **The scheduler picks a thread of the highest priority.**  With sound ready queues
`find_next_thread` returns.  It returns the idle thread just when no queued thread is eligible, and
otherwise a queued eligible thread whose priority no other one exceeds, the first one behind the
head of its queue.  The ready queues stay sound, only threads that are not eligible leave them, and
no thread state, time slice or priority changes. -/
theorem findNextThread_picks (h : ReadyInv s) : ∃ s' p, findNextThread s = some (s', p) ∧
    (p = .idle ↔ ∀ t, (s.tcb t).queueReady = true → ¬Eligible s t) ∧
    (p ≠ .idle → (s.tcb p).queueReady = true ∧ Eligible s p ∧
      (∀ t, (s.tcb t).queueReady = true → Eligible s t → (s.tcb t).priority ≤ (s.tcb p).priority) ∧
      ∀ l, IsQueue s (s.tcb p).priority l →
        ((l.rotate 1).find? fun t => decide (Eligible s t)) = some p) ∧
    ReadyInv s' ∧ Skimmed s s' := by
  obtain ⟨s', p, hf, hsk, hp⟩ : ∃ s' p, findNextThread s = some (s', p) ∧ Skimmed s s' ∧
      PicksThread s p := by
    unfold findNextThread
    split
    · rename_i hneg
      refine ⟨_, _, rfl, (Skimmed.refl s).setHead _ _, Or.inl ⟨rfl, fun t ht => ?_⟩⟩
      have h1 := h.below t ht
      omega
    · refine findFrom_picks h.rings (fun t ht => ?_) h.created h.idle
      have h1 := h.below t ht
      omega
  have hidle : p = .idle → ∀ t, (s.tcb t).queueReady = true → ¬Eligible s t := fun he => by
    rcases hp with ⟨-, hnone⟩ | ⟨hq, -⟩
    · exact hnone
    · rw [he, h.idle] at hq
      simp at hq
  refine ⟨s', p, hf, ⟨hidle, fun hnone => ?_⟩, fun hne => ?_, h.skimmed (h.findNextThread hf) hsk,
    hsk⟩
  · rcases hp with ⟨he, -⟩ | ⟨hq, he, -⟩
    · exact he
    · exact absurd he (hnone p hq)
  · rcases hp with ⟨he, -⟩ | hp
    · exact absurd he hne
    · exact hp

/-! ### A choice -/

lemma NoneReady.readyInv (h : NoneReady s) : ReadyInv s :=
  ⟨h.sound, fun t ht => by simp [h.2] at ht, h.2 .idle⟩

/-- A created thread enters its queue. -/
lemma ReadyInv.enqueue (h : ReadyInv s) (hst : (s.tcb p).threadState ≠ .free) (hp : p ≠ .idle) :
    ReadyInv (threadEnqueueReady s p) := by
  have hmark := (h.rings.enqueue p).2.1
  have hstate : ∀ t,
      ((threadEnqueueReady s p).tcb t).threadState = (s.tcb t).threadState := fun t =>
    congrArg (fun i => (i t).threadState) (sameIpc_enqueueReady s p).ipc
  refine ⟨h.toReadySound.enqueue p, fun t ht => ?_, ?_⟩
  · rw [hmark] at ht
    rw [hstate]
    by_cases htp : t = p
    · exact htp ▸ hst
    · rw [if_neg htp] at ht
      exact h.created t ht
  · rw [hmark, if_neg (Ne.symm hp)]
    exact h.idle

/-- A thread of the root task. -/
def rootThread (n : Nat) : Tid := setThread rootTaskId (BitVec.ofNat 32 n)

/-- Thread 1 of the root task waits at the highest priority; of the next priority are thread 2, the
head of its queue, thread 3, which polls, and thread 4; and sigma0 has a lower one. -/
def fiveThreads : Sys :=
  withThread (withThread (withThread (withThread (withThread bootSys (rootThread 1) 70 .waiting 0)
    (rootThread 2) 60 .running 0) (rootThread 3) 60 .polling 0) (rootThread 4) 60 .lockedRunning 0)
    sigma0Id 50 .running 0

/-- All of them are queued. -/
def fiveReady : Sys :=
  threadEnqueueReady (threadEnqueueReady (threadEnqueueReady (threadEnqueueReady (threadEnqueueReady
    fiveThreads (tidToTcb (rootThread 1))) (tidToTcb (rootThread 2))) (tidToTcb (rootThread 3)))
    (tidToTcb (rootThread 4))) (tidToTcb sigma0Id)

lemma readyInv_fiveReady : ReadyInv fiveReady := by
  have h₀ : NoneReady fiveThreads := ((((noneReady_bootSys.withThread _ _ _ _).withThread _ _ _
    _).withThread _ _ _ _).withThread _ _ _ _).withThread _ _ _ _
  exact ((((h₀.readyInv.enqueue (by decide +kernel) (by decide)).enqueue (by decide +kernel)
    (by decide)).enqueue (by decide +kernel) (by decide)).enqueue (by decide +kernel)
    (by decide)).enqueue (by decide +kernel) (by decide)

/-- Thread 4 is picked: thread 1 and thread 3 are not eligible, and thread 2 has its turn behind it.
-/
theorem findNextThread_picks_five :
    ∃ s', findNextThread fiveReady = some (s', tidToTcb (rootThread 4)) ∧
    Eligible fiveReady (tidToTcb (rootThread 2)) ∧ Eligible fiveReady (tidToTcb (rootThread 4)) ∧
    (∀ t, (fiveReady.tcb t).queueReady = true → Eligible fiveReady t →
      (fiveReady.tcb t).priority ≤ (fiveReady.tcb (tidToTcb (rootThread 4))).priority) ∧
    ReadyInv s' ∧ (s'.tcb (tidToTcb (rootThread 1))).queueReady = false := by
  obtain ⟨s', p, hf, -, hp, hs', -⟩ := findNextThread_picks readyInv_fiveReady
  have hrun : ((findNextThread fiveReady).map
    fun r => (r.2, (r.1.tcb (tidToTcb (rootThread 1))).queueReady)) =
      some (tidToTcb (rootThread 4), false) := by decide +kernel
  rw [hf, Option.map_some, Option.some.injEq, Prod.mk.injEq] at hrun
  obtain ⟨rfl, hgone⟩ := hrun
  obtain ⟨-, he, hmax, -⟩ := hp (by decide)
  exact ⟨s', hf, by decide +kernel, he, hmax, hs', hgone⟩

end Hazelnut
