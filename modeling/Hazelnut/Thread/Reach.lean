import Hazelnut.Thread.Task

/-!
The send queues and the rendezvous in every reachable state.

* `StepOk`: a step that takes none of the wrong turns of the code.  Timer interrupts
  must not find the timeout of a polling sender expired, for `parse_wakeup_queue` would
  leave it in the send queue; `sys_lthread_ex_regs` and the deletion of a task must not
  meet a locked thread whose recorded partner is another than the one it is locked with;
  the deletion of a task must not meet a thread outside of it that polls for one of its
  threads, for `unwind_ipc` would leave it polling for a thread that is gone; and no
  thread may be created under `L4_INVALID_ID`, which `ipc_handle_kernel_id` records as the
  partner of a thread that waits for nobody.
* `Inv.step`: such a step keeps the invariant, whatever it is.
* `sendQueue_exact`: in every run of such steps, the send queue of a thread is the ring of
  the threads that poll for it.
* `no_missed_rendezvous`: in every such run, nobody polls for a thread that waits for it.

Neither holds of all runs: `sendQueue_stale` and `rendezvous_missed` are runs in which a
send timeout expires.
-/

namespace Hazelnut

/-! ### The invariant along a run -/

/-- The step takes none of the wrong turns, and no page fault while it copies a long
message. -/
def StepOk (s : Sys) : Event → Prop
  | .ipc _ _ _ _ _ _ _ _ faults => faults = false
  | .resume _ faults => faults = false
  | .timer => ∀ p, Expires s p → (s.ipc p).threadState ≠ .polling
  | .exRegs threadno uip usp _ => ExRegsOk s threadno uip usp
  | .taskNew task _ _ _ => TaskNewOk s task
  | _ => True

/-- A run from the booted state all of whose steps are `StepOk`. -/
inductive ReachableOk : Sys → Prop
  | init : ReachableOk initSys
  | step {s s' : Sys} (e : Event) :
      ReachableOk s → StepOk s e → Hazelnut.step s e = some s' → ReachableOk s'

/-- **One step** keeps the invariant. -/
lemma Inv.step {s s' : Sys} (hi : Inv .none s) {e : Event} (hok : StepOk s e)
    (h : step s e = some s') : Inv .none s' := by
  cases e with
  | ipc dest sndDesc rcvDesc timeout w0 w1 w2 dope =>
      simp only [Hazelnut.step] at h
      split at h
      · rename_i hu
        simp only [Option.some.injEq] at h
        rw [← h]
        have h1 : SameIpc s (storeRegs s s.current timeout w0 w1 w2) :=
          (SameIpc.refl s).upd _ (by intro _; rfl)
        exact (Inv.congr h1 hi).sysIpc ((hi.calls hu).congr h1) dest sndDesc rcvDesc dope
      · simp at h
  | exRegs threadno uip usp pager =>
      simp only [Hazelnut.step] at h
      split at h
      · exact hi.exRegs (by assumption) hok h
      · simp at h
  | taskNew task pager uip usp =>
      simp only [Hazelnut.step] at h
      split at h
      · exact hi.taskNew hok h
      · simp at h
  | threadSwitch tid =>
      simp only [Hazelnut.step] at h
      split at h
      · rename_i hu
        exact hi.threadSwitch hu.2 h
      · simp at h
  | schedule param tid =>
      simp only [Hazelnut.step] at h
      split at h
      · simp only [Option.some.injEq] at h
        exact h ▸ hi.schedule param tid
      · simp at h
  | timer =>
      simp only [Hazelnut.step] at h
      split at h
      · exact hi.timer (by assumption) hok h
      · simp at h
  | irq number =>
      simp only [Hazelnut.step] at h
      split at h
      · rename_i hint
        simp only [Option.some.injEq] at h
        exact h ▸ hi.irq hint number
      · simp at h
  | resume dope =>
      simp only [Hazelnut.step] at h
      split at h
      · simp at h
      · rename_i hint
        simp only [Option.some.injEq] at h
        exact h ▸ hi.resume (hi.resumes hint) hint dope
  | idle =>
      simp only [Hazelnut.step] at h
      split at h
      · rename_i hidle
        refine hi.reschedule ?_ h
        unfold interruptible
        rw [hidle]; exact hi.idle_cont
      · simp at h

/-- The state in which only the TCB of the nil id is in use. -/
def nilSys : Sys :=
  (createTcb bootSys nilId (some 0)).upd (tidToTcb nilId) fun t => { t with myself := invalidId }

lemma nilSys_ipc (r : TcbPtr) : nilSys.ipc r =
    if r = nilTcb then
      { zeroTcb.toIpcPart with
        myself := invalidId, threadState := .aborted, timeslice := defaultTimeslice }
    else if r = .idle then
      { zeroTcb.toIpcPart with myself := 0x12345678, timeslice := defaultTimeslice }
    else zeroTcb.toIpcPart := by
  rw [nilSys, Sys.upd_part _ _ _ (fun t => { t with myself := invalidId }) (by intro _; rfl)]
  rw [createTcb_ipc, createTcb_ipc]
  by_cases hr : r = nilTcb
  · subst hr; rfl
  · rw [if_neg hr, if_neg (show r ≠ tidToTcb nilId from hr),
      if_neg (show r ≠ tidToTcb nilId from hr)]
    cases r with
    | idle => rfl
    | slot n => rfl

lemma existing_nilSys (r : TcbPtr) : Existing nilSys r ↔ r = nilTcb := by
  rw [Existing, nilSys_ipc]
  by_cases hr : r = nilTcb
  · subst hr; decide
  · by_cases hi : r = .idle
    · simp [hi, nilTcb, tidToTcb]
    · simp [hr, hi, zeroTcb]

/-- The booted kernel, before there is any thread. -/
lemma inv_nilSys : Inv .none nilSys := by
  have hstate : ∀ r, (nilSys.ipc r).threadState = .aborted ∨
      (nilSys.ipc r).threadState = .free := by
    intro r
    rw [nilSys_ipc]
    split_ifs <;> simp [zeroTcb]
  have hcont : ∀ r, (nilSys.ipc r).cont = .user := fun r => by
    rw [nilSys_ipc]
    split_ifs <;> rfl
  have hpoll : ∀ t r, ¬Poller .none nilSys t r := fun t r h => by
    rcases hstate r with h1 | h1 <;> simp [h.polling] at h1
  have hsends : ∀ r dst, ¬Sends nilSys r dst := fun r dst h => by
    rcases hstate r with h1 | h1 <;> simp [h.state] at h1
  have hnil : nilSys.ipc nilTcb = { zeroTcb.toIpcPart with
      myself := invalidId, threadState := .aborted, timeslice := defaultTimeslice } := by
    rw [nilSys_ipc, if_pos rfl]
  refine ⟨⟨?_, hcont _, ?_, ?_, hcont _, ?_, ?_, ?_, ?_, ?_, ?_, ?_, ?_, ?_⟩, ?_, ?_, ?_,
    ?_, ?_, ?_, ?_,
    ?_, Or.inl rfl, ?_, ?_⟩
  · rw [nilSys_ipc, if_neg (by simp [nilTcb, tidToTcb])]; rfl
  · rw [hnil]
  · rw [hnil]
  · rw [hnil]; rfl
  · exact fun r hr hn => absurd ((existing_nilSys r).mp hr) hn
  · intro r hr
    rw [(existing_nilSys r).mp hr, hnil]; simp
  · intro r hr hri
    have hrn : r ≠ nilTcb := fun h => hr ((existing_nilSys r).mpr h)
    rw [nilSys_ipc, if_neg hrn, if_neg hri]
    exact Or.inr ⟨rfl, le_refl _⟩
  · intro r hr
    rw [(existing_nilSys r).mp hr, hnil]; decide
  · exact fun r hr hn => absurd ((existing_nilSys r).mp hr) hn
  · exact fun r _ hr _ hn => absurd ((existing_nilSys r).mp hr) hn
  · intro r
    rw [existing_nilSys]
    exact List.mem_singleton
  · exact List.nodup_singleton _
  · intro t ht
    rw [(existing_nilSys t).mp ht]
    exact ⟨[], ⟨List.nodup_nil, by rw [hnil]; rfl, trivial⟩,
      fun r => ⟨fun h => absurd h (by simp), fun h => absurd h (hpoll _ r)⟩⟩
  · intro r _ hs
    rcases hstate r with h1 | h1 <;> simp [hs] at h1
  · intro r dst sd rd _ hc
    simp [hcont r] at hc
  · exact fun r dst h => absurd h (hsends r dst)
  · exact fun r _ dst h => absurd h (hsends r dst)
  · intro r _ hs
    rcases hstate r with h1 | h1 <;> simp [hs] at h1
  · intro r _ hs
    rcases hstate r with h1 | h1 <;> simp [hs] at h1
  · exact fun r hr => absurd hr (by simp [nilSys, createTcb, bootSys, threadEnqueuePresent])
  · exact fun r t _ h => absurd h (hpoll t r)
  · exact fun r h => absurd h (fun h => h)

lemma inv_initSys : Inv .none initSys := by
  have h1 := inv_nilSys.create sigma0Id none
    (fun h => absurd ((existing_nilSys _).mp h) (by decide)) (by decide) (by decide)
    (by simp) 0 0 nilId 50
  refine h1.create rootTaskId none (fun h => ?_) (by decide) (by decide)
    (by simp) 0 0 sigma0Id 50
  refine h.2 ?_
  rw [startThread_ipc, if_neg (by decide), nilSys_ipc, if_neg (by decide), if_neg (by decide)]
  rfl

/-- **The invariant** holds in every state such a run reaches. -/
lemma ReachableOk.inv {s : Sys} (h : ReachableOk s) : Inv .none s := by
  induction h with
  | init => exact inv_initSys
  | step e _ hok hstep ih => exact ih.step hok hstep

/-! ### Runs -/

/-- The state after a list of events. -/
def run (s : Sys) : List Event → Option Sys
  | [] => some s
  | e :: es => (step s e).bind fun s' => run s' es

/-- What a run leads to is reachable. -/
lemma Reachable.run {s s' : Sys} {es : List Event} (h : Reachable s) (hr : run s es = some s') :
    Reachable s' := by
  induction es generalizing s with
  | nil =>
      obtain rfl : s = s' := by simpa [Hazelnut.run] using hr
      exact h
  | cons e es ih =>
      rw [Hazelnut.run, Option.bind_eq_some_iff] at hr
      obtain ⟨s1, h1, h2⟩ := hr
      exact ih (h.step e h1) h2

/-- What a run leads to whose events are `StepOk` in every state. -/
lemma ReachableOk.run {s s' : Sys} {es : List Event} (h : ReachableOk s)
    (hok : ∀ e ∈ es, ∀ s, StepOk s e) (hr : run s es = some s') : ReachableOk s' := by
  induction es generalizing s with
  | nil =>
      obtain rfl : s = s' := by simpa [Hazelnut.run] using hr
      exact h
  | cons e es ih =>
      rw [Hazelnut.run, Option.bind_eq_some_iff] at hr
      obtain ⟨s1, h1, h2⟩ := hr
      exact ih (h.step e (hok e List.mem_cons_self s) h1)
        (fun e' he' => hok e' (List.mem_cons_of_mem e he')) h2

/-- A run from the booted state all of whose steps meet a condition. -/
inductive RunBy (ok : Sys → Event → Prop) : Sys → Prop
  | init : RunBy ok initSys
  | step {s s' : Sys} (e : Event) :
      RunBy ok s → ok s e → Hazelnut.step s e = some s' → RunBy ok s'

namespace RunBy

variable {ok ok' : Sys → Event → Prop} {s : Sys}

/-- What holds initially, and is kept by steps that meet the condition, holds. -/
lemma invariant {P : Sys → Prop} (h : RunBy ok s) (h0 : P initSys)
    (hs : ∀ s e s', P s → ok s e → Hazelnut.step s e = some s' → P s') : P s := by
  induction h with
  | init => exact h0
  | step e _ hok hstep ih => exact hs _ e _ ih hok hstep

lemma mono (h : RunBy ok s) (himp : ∀ s e, ok s e → ok' s e) : RunBy ok' s :=
  h.invariant .init fun s e _ hs hok hstep => hs.step e (himp s e hok) hstep

lemma reachableOk (h : RunBy ok s) (himp : ∀ s e, ok s e → StepOk s e) : ReachableOk s :=
  h.invariant .init fun s e _ hs hok hstep => hs.step e (himp s e hok) hstep

/-- What a list of events leads to that meet the condition in every state. -/
lemma run {s' : Sys} {es : List Event} (h : RunBy ok s) (hok : ∀ e ∈ es, ∀ s, ok s e)
    (hr : Hazelnut.run s es = some s') : RunBy ok s' := by
  induction es generalizing s with
  | nil =>
      obtain rfl : s = s' := by simpa [Hazelnut.run] using hr
      exact h
  | cons e es ih =>
      rw [Hazelnut.run, Option.bind_eq_some_iff] at hr
      obtain ⟨s1, h1, h2⟩ := hr
      exact ih (h.step e (hok e List.mem_cons_self s) h1)
        (fun e' he' => hok e' (List.mem_cons_of_mem e he')) h2

end RunBy

/-- A run from one state to another all of whose steps meet a condition. -/
def RunOn (ok : Sys → Event → Prop) : Sys → Sys → Prop :=
  Relation.ReflTransGen fun s s' => ∃ e, ok s e ∧ step s e = some s'

/-- `run` from the booted state to a state that passes a test. -/
lemma exists_run (es : List Event) {P : Sys → Prop} [DecidablePred P]
    (h : ((run initSys es).map fun s => decide (P s)) = some true) :
    ∃ s, run initSys es = some s ∧ P s := by
  obtain ⟨s, hs, hP⟩ := Option.map_eq_some_iff.mp h
  exact ⟨s, hs, of_decide_eq_true hP⟩

/-- `run`, as long as every step passes a test. -/
def checkedRun (c : Sys → Event → Bool) (s : Sys) : List Event → Option Sys
  | [] => some s
  | e :: es => if c s e then (step s e).bind fun s' => checkedRun c s' es else none

/-- A test that implies the condition shows that a run meets it. -/
lemma RunBy.checked {ok : Sys → Event → Prop} {c : Sys → Event → Bool} {s s' : Sys}
    {es : List Event} (h : RunBy ok s) (himp : ∀ s, ∀ e ∈ es, c s e = true → ok s e)
    (hr : checkedRun c s es = some s') : Hazelnut.run s es = some s' ∧ RunBy ok s' := by
  induction es generalizing s with
  | nil =>
      obtain rfl : s = s' := by simpa [checkedRun] using hr
      exact ⟨rfl, h⟩
  | cons e es ih =>
      rw [checkedRun] at hr
      split at hr
      · rename_i hc
        obtain ⟨s1, h1, h2⟩ := Option.bind_eq_some_iff.mp hr
        obtain ⟨h3, h4⟩ := ih (h.step e (himp s e List.mem_cons_self hc) h1)
          (fun s e' he' => himp s e' (List.mem_cons_of_mem e he')) h2
        exact ⟨by rw [Hazelnut.run, h1, Option.bind_some, h3], h4⟩
      · simp at hr

/-- Such a run from the booted state, to a state that passes another test. -/
lemma exists_checkedRun (ok : Sys → Event → Prop) (c : Sys → Event → Bool) (es : List Event)
    (himp : ∀ s, ∀ e ∈ es, c s e = true → ok s e) {P : Sys → Prop} [DecidablePred P]
    (h : ((checkedRun c initSys es).map fun s => decide (P s)) = some true) :
    ∃ s, run initSys es = some s ∧ RunBy ok s ∧ P s := by
  obtain ⟨s, hs, hP⟩ := Option.map_eq_some_iff.mp h
  obtain ⟨h1, h2⟩ := RunBy.init.checked himp hs
  exact ⟨s, h1, h2, of_decide_eq_true hP⟩

/-! ### The send queues -/

/-- **The send queue is exact**: that of an existing thread is a ring of exactly the
existing threads that poll for it. -/
def SendQueueExact (s : Sys) : Prop :=
  ∀ t, Existing s t → ∃ l, SendRing s t l ∧ ∀ p, p ∈ l ↔
    Existing s p ∧ (s.ipc p).threadState = .polling ∧ (s.ipc p).partner = (s.ipc t).myself

/-- **The send queues are exact** in every state of a run without a wrong turn. -/
theorem sendQueue_exact {s : Sys} (h : ReachableOk s) : SendQueueExact s := by
  intro t ht
  obtain ⟨l, hl, hmem⟩ := h.inv.ring t ht
  refine ⟨l, hl, fun p => ?_⟩
  rw [hmem]
  exact ⟨fun hp => ⟨hp.existing, hp.polling, hp.partner⟩,
    fun hp => ⟨hp.1, hp.2.1, hp.2.2, not_limbo_none s p⟩⟩

/-- The root task polls for sigma0, which then waits for anybody and picks it. -/
def pickedRun : List Event :=
  [.idle, .ipc sigma0Id 0 noDesc 0 1 2 3 0, .idle, .ipc nilId noDesc 1 0 0 0 0 0, .resume 0,
    .resume 0]

/-- Sending to a thread that is not ready, and being picked by it, is such a run. -/
theorem sendQueue_exact_picked :
    ∃ s, run initSys pickedRun = some s ∧ ReachableOk s ∧ SendQueueExact s := by
  obtain ⟨s, hs, -⟩ := exists_run pickedRun
    (P := fun s => (s.tcb (tidToTcb sigma0Id)).w1 = 2) (by decide +kernel)
  have hok : ReachableOk s := ReachableOk.init.run (fun e he s => by
    simp only [pickedRun, List.mem_cons, List.not_mem_nil, or_false] at he
    rcases he with rfl | rfl | rfl | rfl | rfl | rfl <;> trivial) hs
  exact ⟨s, hs, hok, sendQueue_exact hok⟩

/-- The root task sends to sigma0, which is not receiving, with a send timeout of one
microsecond; the timer ticks. -/
def sendTimeoutRun : List Event :=
  [.idle, .ipc sigma0Id 0 noDesc 0x000100f0 1 2 3 0, .idle, .timer]

/-- After a send timeout the sender is running and still in the send queue. -/
theorem sendQueue_stale : ¬∀ s, Reachable s → SendQueueExact s := by
  intro hall
  obtain ⟨s, hs, hb⟩ := exists_run sendTimeoutRun
    (P := fun s => (s.tcb (tidToTcb sigma0Id)).myself = sigma0Id ∧
      (s.tcb (tidToTcb sigma0Id)).sendQueue = some (tidToTcb rootTaskId) ∧
      (s.tcb (tidToTcb rootTaskId)).threadState = .running) (by decide +kernel)
  obtain ⟨h1, h2, h3⟩ := hb
  obtain ⟨l, hl, hmem⟩ := hall s (Reachable.init.run hs) (tidToTcb sigma0Id)
    ⟨by decide, fun h => absurd (h1.symm.trans h) (by decide)⟩
  have hhead : l.head? = some (tidToTcb rootTaskId) := hl.head.symm.trans h2
  have hpoll := ((hmem _).mp (List.mem_of_mem_head? hhead)).2.1
  exact absurd (h3.symm.trans hpoll) (by decide)

/-! ### The rendezvous -/

/-- **A missed rendezvous**: `p` polls for `r` while `r` waits for `p`, or for anybody. -/
def MissedRendezvous (s : Sys) : Prop :=
  ∃ p r, Existing s p ∧ Existing s r ∧ (s.ipc p).threadState = .polling ∧
    (s.ipc p).partner = (s.ipc r).myself ∧ (s.ipc r).threadState = .waiting ∧
    ((s.ipc r).partner = (s.ipc p).myself ∨ (s.ipc r).partner = nilId)

/-- **No rendezvous is missed** in any state of a run without a wrong turn. -/
theorem no_missed_rendezvous {s : Sys} (h : ReachableOk s) : ¬MissedRendezvous s := by
  rintro ⟨p, r, hp, hr, hps, hpp, hrs, hrp⟩
  obtain ⟨h1, h2⟩ := h.inv.rendezvous p r hr ⟨hp, hps, hpp, not_limbo_none s p⟩ hrs
  rcases hrp with hrp | hrp
  · exact h2 hrp
  · exact h1 hrp

/-- Picking a polling sender in an open wait is such a run. -/
theorem no_missed_rendezvous_picked :
    ∃ s, run initSys pickedRun = some s ∧ ReachableOk s ∧ ¬MissedRendezvous s := by
  obtain ⟨s, hs, -⟩ := exists_run pickedRun
    (P := fun s => (s.tcb (tidToTcb sigma0Id)).w1 = 2) (by decide +kernel)
  have hok : ReachableOk s := ReachableOk.init.run (fun e he s => by
    simp only [pickedRun, List.mem_cons, List.not_mem_nil, or_false] at he
    rcases he with rfl | rfl | rfl | rfl | rfl | rfl <;> trivial) hs
  exact ⟨s, hs, hok, no_missed_rendezvous hok⟩

/-- The root task and a second thread of it send to sigma0, the root task with a send
timeout.  When it has expired, sigma0 waits for anybody. -/
def staleHeadRun : List Event :=
  [.idle, .exRegs 1 0 0 sigma0Id, .ipc sigma0Id 0 noDesc 0x00010090 1 2 3 0, .idle, .timer,
    .ipc sigma0Id 0 noDesc 0 1 2 3 0, .idle, .timer, .timer, .ipc nilId noDesc 1 0 0 0 0 0]

/-- An open wait looks at the head of the send queue only: with a stale head, the sender
behind it is missed. -/
theorem rendezvous_missed : ¬∀ s, Reachable s → ¬MissedRendezvous s := by
  intro hall
  obtain ⟨s, hs, hb⟩ := exists_run staleHeadRun
    (P := fun s =>
      (s.tcb (tidToTcb (setThread rootTaskId 1))).myself = setThread rootTaskId 1 ∧
      (s.tcb (tidToTcb sigma0Id)).myself = sigma0Id ∧
      (s.tcb (tidToTcb (setThread rootTaskId 1))).threadState = .polling ∧
      (s.tcb (tidToTcb (setThread rootTaskId 1))).partner = sigma0Id ∧
      (s.tcb (tidToTcb sigma0Id)).threadState = .waiting ∧
      (s.tcb (tidToTcb sigma0Id)).partner = nilId) (by decide +kernel)
  obtain ⟨h1, h2, h3, h4, h5, h6⟩ := hb
  refine hall s (Reachable.init.run hs) ⟨_, _, ⟨?_, ?_⟩, ⟨?_, ?_⟩, h3,
    h4.trans h2.symm, h5, Or.inr h6⟩
  · decide
  · exact fun h => absurd (h1.symm.trans h) (by decide)
  · decide
  · exact fun h => absurd (h2.symm.trans h) (by decide)

end Hazelnut
