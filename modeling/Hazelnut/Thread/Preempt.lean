import Hazelnut.Thread.Rendezvous

/-!
Interrupts and scheduling keep the invariant.

* `Inv.dispatch`: switching in user mode, to the idle thread or to a thread that
  may run.
* `Inv.timer`: the timer interrupt, provided that no thread whose timeout has expired
  is polling: `parse_wakeup_queue` makes such a thread running and leaves it in the
  send queue of its receiver.
* `Inv.irq`: other interrupts.
* `Inv.reschedule`: the scheduler, whoever calls it.
-/

namespace Hazelnut

variable {s : Sys} {p : TcbPtr}

/-- A thread in state `running` or `lockedRunning` may be switched to. -/
lemma Inv.runnable (hi : Inv .none s) (hp : Existing s p) (hpn : p ≠ nilTcb)
    (hr : isRunning (s.ipc p).threadState) : Runnable .none s p := by
  have hst := (isRunning_iff _).mp hr
  refine ⟨hp, hpn, fun h => h, ?_, fun x => hi.not_sends_of_state hp hpn ?_⟩
  · rcases hst with h | h | h <;> simp [h]
  · rcases hst with h | h | h <;> simp [h]

/-- Switching in user mode. -/
lemma Inv.dispatch (hi : Inv .none s) (hint : interruptible s)
    (hp : p = .idle ∨ Runnable .none s p) : Inv .none (dispatchThread s p) := by
  have key : ∀ s1 : Sys, SameIpc s s1 → Inv .none (switchTo s1 p .user) := fun s1 h1 => by
    refine hi.switch (funext fun q => ?_) h1.wakeup h1.present h1.nextSpace hp
    rw [switchTo_ipc, h1.current, h1.ipc]
    split
    · rename_i hq
      have hcont : (s.ipc q).cont = .user := hq ▸ hint
      rw [← hcont]
    · rfl
  unfold dispatchThread
  split
  · exact hi
  · split
    · rename_i h; subst h; exact key s (SameIpc.refl s)
    · dsimp only
      refine key _ ?_
      split
      · exact (SameIpc.refl s).prioQueue _
      · exact SameIpc.refl s

/-- **The scheduler**: switching to what `find_next_thread` returns. -/
lemma Inv.reschedule (hi : Inv .none s) (hint : interruptible s) {s' : Sys}
    (h : (findNextThread s).map (fun r => dispatchThread r.1 r.2) = some s') : Inv .none s' := by
  obtain ⟨⟨s1, q⟩, hf, rfl⟩ := Option.map_eq_some_iff.mp h
  obtain ⟨h1, hq⟩ := findNextThread_spec hf
  have hi1 := Inv.congr h1 hi
  refine hi1.dispatch (by unfold interruptible; rw [h1.ipc, h1.current]; exact hint) ?_
  rcases hq with hq | ⟨hr, ht⟩
  · exact Or.inl hq
  · rcases hi.existing_of_running hr ht with hq | ⟨hq, hqn⟩
    · exact Or.inl hq
    · exact Or.inr ((hi.runnable hq hqn hr).congr h1.ipc)

/-! ### Timer interrupts -/

/-- The timeout is not touched by the ready queue. -/
lemma absoluteTimeout_enqueueReady (s : Sys) (p q : TcbPtr) :
    ((threadEnqueueReady s p).tcb q).absoluteTimeout = (s.tcb q).absoluteTimeout := by
  have hupd : ∀ (s : Sys) (p : TcbPtr) (f : Tcb → Tcb),
      (∀ t, (f t).absoluteTimeout = t.absoluteTimeout) →
      ((s.upd p f).tcb q).absoluteTimeout = (s.tcb q).absoluteTimeout := by
    intro s p f hf
    unfold Sys.upd
    by_cases hq : q = p
    · subst hq; simp [hf]
    · simp [hq]
  unfold threadEnqueueReady
  split
  · rfl
  · dsimp only
    rw [hupd _ _ _ (by intro _; rfl)]
    split
    · rw [hupd _ _ _ (by intro _; rfl)]
      unfold Sys.updPtr
      split
      · rw [hupd _ _ _ (by intro _; rfl)]
      · rw [hupd _ _ _ (by intro _; rfl), hupd _ _ _ (by intro _; rfl)]
    · exact hupd s p (fun t => { t with readyNext := some p, readyPrev := some p })
        (by intro _; rfl)

/-- What waking up does. -/
lemma wakeUp_ipc (s : Sys) (p q : TcbPtr) : (wakeUp s p).ipc q =
    if q = p then { s.ipc p with threadState := .running } else s.ipc q := by
  rw [wakeUp, makeRunning_ipc]; rfl

lemma wakeUp_current (s : Sys) (p : TcbPtr) : (wakeUp s p).current = s.current := by
  rw [wakeUp, makeRunning_current]; rfl

lemma wakeUp_cont (s : Sys) (p q : TcbPtr) : ((wakeUp s p).ipc q).cont = (s.ipc q).cont := by
  rw [wakeUp_ipc]; by_cases hq : q = p <;> simp [hq]

lemma wakeUp_existing (s : Sys) (p q : TcbPtr) : Existing (wakeUp s p) q ↔ Existing s q := by
  rw [Existing, Existing, wakeUp_ipc]; by_cases hq : q = p <;> simp [hq]

lemma wakeUp_absoluteTimeout (s : Sys) (p q : TcbPtr) :
    ((wakeUp s p).tcb q).absoluteTimeout = (s.tcb q).absoluteTimeout := by
  rw [wakeUp, makeRunning, absoluteTimeout_enqueueReady]
  unfold Sys.upd threadDequeueWakeup
  by_cases hq : q = p
  · subst hq; simp
  · simp [hq]

lemma Inv.receiving_ne_nil (hi : Inv .none s) (hrec : Receiving (s.ipc p).cont) : p ≠ nilTcb :=
  fun hn => by
  have hc := hi.nil_cont
  rw [← hn] at hc
  rcases hrec with h | ⟨_, h⟩ <;> simp [hc] at h

/-- A receiver is woken up. -/
lemma Inv.wakeUp (hi : Inv .none s) (hp : Existing s p) (hrec : Receiving (s.ipc p).cont) :
    Inv .none (wakeUp s p) := by
  have hnp : (s.ipc p).threadState ≠ .polling := fun h => by
    obtain ⟨-, -, -, sd, rd, hc⟩ := hi.polling p hp h (not_limbo_none s p)
    rcases hrec with h | ⟨_, h⟩ <;> simp [hc] at h
  have hpn := hi.receiving_ne_nil hrec
  obtain ⟨hch, hl⟩ := Change.of_ipc s (Hazelnut.wakeUp s p) p .running ((s.ipc p).partner)
    ((s.ipc p).cont) (wakeUp_ipc s p)
    (by rw [Hazelnut.wakeUp, makeRunning_present]; rfl)
    (by rw [Hazelnut.wakeUp, makeRunning_nextSpace]; rfl)
  refine hi.update hch hl hp hpn (Or.inl hnp) (by simp) (by simp) ?_ (by simp) (by simp) ?_ ?_
    (by simp) (Or.inr (Or.inr (Or.inl (wakeUp_current s p))))
  · intro dst sd rd he
    rcases hrec with h | ⟨_, h⟩ <;> simp [he] at h
  · refine fun x => hi.not_sends_of_state hp hpn fun h => ?_
    have hc := hi.lockedWaiting p hp h
    rcases hrec with h | ⟨_, h⟩ <;> simp [hc] at h
  · intro q hq
    rw [Hazelnut.wakeUp, makeRunning_wakeup] at hq
    exact Or.inl ((mem_dequeueWakeup s p q).mp hq)

/-- **The wakeup loop** keeps the invariant as long as those it wakes up receive; the
thread it returns is running. -/
lemma Inv.parseWakeup {now : BitVec 64} {l : List TcbPtr} {prio : Nat} {highest : Option TcbPtr}
    {s' : Sys} {h' : Option TcbPtr} (hrun : parseWakeup now l prio highest s = (s', h'))
    (hi : Inv .none s) (hint : interruptible s)
    (hl : ∀ p ∈ l, (s.tcb p).absoluteTimeout ≤ now → Existing s p ∧ Receiving (s.ipc p).cont)
    (hh : ∀ p, highest = some p → Existing s p ∧ p ≠ nilTcb ∧ (s.ipc p).threadState = .running) :
    Inv .none s' ∧ interruptible s' ∧ ∀ p, h' = some p →
      Existing s' p ∧ p ≠ nilTcb ∧ (s'.ipc p).threadState = .running := by
  induction l generalizing s prio highest with
  | nil =>
      obtain ⟨rfl, rfl⟩ : s = s' ∧ highest = h' := by simpa [Hazelnut.parseWakeup] using hrun
      exact ⟨hi, hint, hh⟩
  | cons q l ih =>
      rw [Hazelnut.parseWakeup] at hrun
      split at hrun
      · rename_i hle
        obtain ⟨hq, hrec⟩ := hl q List.mem_cons_self hle
        have hqrun : ((Hazelnut.wakeUp s q).ipc q).threadState = .running := by
          rw [wakeUp_ipc, if_pos rfl]
        refine ih hrun (hi.wakeUp hq hrec) ?_ (fun r hr hle => ?_) (fun r hr => ?_)
        · unfold interruptible; rw [wakeUp_cont, wakeUp_current]; exact hint
        · rw [wakeUp_absoluteTimeout] at hle
          obtain ⟨h1, h2⟩ := hl r (List.mem_cons_of_mem q hr) hle
          exact ⟨(wakeUp_existing s q r).mpr h1, by rw [wakeUp_cont]; exact h2⟩
        · split at hr
          · obtain rfl : q = r := by simpa using hr
            exact ⟨(wakeUp_existing s q q).mpr hq, hi.receiving_ne_nil hrec, hqrun⟩
          · obtain ⟨h1, h2, h3⟩ := hh r hr
            refine ⟨(wakeUp_existing s q r).mpr h1, h2, ?_⟩
            rw [wakeUp_ipc]; by_cases hrq : r = q <;> simp [hrq, h3]
      · exact ih hrun hi hint (fun r hr => hl r (List.mem_cons_of_mem q hr)) hh

/-- A thread whose timeout the next timer interrupt finds expired. -/
def Expires (s : Sys) (p : TcbPtr) : Prop :=
  p ∈ s.wakeup ∧ (s.tcb p).absoluteTimeout ≤ s.clock + BitVec.ofNat 64 timeQuantum

instance (s : Sys) (p : TcbPtr) : Decidable (Expires s p) := inferInstanceAs (Decidable (_ ∧ _))

/-- **Timer interrupts** keep the invariant, as long as they wake up receivers only. -/
lemma Inv.timer (hi : Inv .none s) (hint : interruptible s)
    (hok : ∀ p, Expires s p → (s.ipc p).threadState ≠ .polling) {s' : Sys}
    (h : handleTimerInterrupt s = some s') : Inv .none s' := by
  unfold handleTimerInterrupt parseWakeupQueue at h
  dsimp only at h
  obtain ⟨now, hnow⟩ : ∃ now, now = s.clock + BitVec.ofNat 64 timeQuantum := ⟨_, rfl⟩
  obtain ⟨sc, hsc⟩ : ∃ sc : Sys, sc = { s with clock := now } := ⟨_, rfl⟩
  have hcs : SameIpc s sc := by rw [hsc]; exact ⟨rfl, rfl, rfl, rfl, rfl⟩
  have htcb : sc.tcb = s.tcb := by rw [hsc]
  rw [← hnow, ← hsc] at h
  rcases hrun : Hazelnut.parseWakeup now s.wakeup (s.tcb s.current).priority none sc with ⟨s1, wake⟩
  rw [hrun] at h
  obtain ⟨hi1, hint1, hh⟩ := Inv.parseWakeup hrun (Inv.congr hcs hi)
    (by unfold interruptible; rw [hcs.ipc, hcs.current]; exact hint)
    (fun p hp hle => by
      rw [htcb, hnow] at hle
      rw [existing_congr hcs.ipc, hcs.ipc]
      obtain ⟨hex, hw⟩ := hi.wakeup p hp
      exact ⟨hex, (hw.resolve_left fun hw => hok p ⟨hp, hle⟩ hw.1).1⟩) (by simp)
  dsimp only at h
  -- what follows up to the switch is invisible
  have h2 : SameIpc s1 (s1.upd s.current fun t =>
      { t with currentTimeslice := t.currentTimeslice - timeQuantum }) :=
    (SameIpc.refl s1).upd _ (by intro _; rfl)
  generalize s1.upd s.current (fun t =>
    { t with currentTimeslice := t.currentTimeslice - timeQuantum }) = s2 at h h2
  have h3 : SameIpc s1 (if s.current = .idle then s2 else threadEnqueueReady s2 s.current) := by
    split
    · exact h2
    · exact h2.trans (sameIpc_enqueueReady s2 _)
  generalize (if s.current = .idle then s2 else threadEnqueueReady s2 s.current) = s3 at h h3
  have hint3 : ∀ s4, SameIpc s1 s4 → interruptible s4 := fun s4 h4 => by
    unfold interruptible; rw [h4.ipc, h4.current]; exact hint1
  cases wake with
  | some p =>
      obtain ⟨hp, hpn, hpr⟩ := hh p rfl
      simp only [Option.some.injEq] at h
      subst h
      refine (Inv.congr h3 hi1).dispatch (hint3 _ h3) (Or.inr ?_)
      exact (hi1.runnable hp hpn (by simp [hpr])).congr h3.ipc
  | none =>
      dsimp only at h
      split at h
      · have h4 := h3.upd s.current (f := fun t => { t with currentTimeslice := t.timeslice })
          (by intro _; rfl)
        exact (Inv.congr h4 hi1).reschedule (hint3 _ h4) h
      · simp only [Option.some.injEq] at h
        subst h
        exact Inv.congr h3 hi1

/-! ### Other interrupts, and system calls of the scheduler -/

/-- **Interrupts** keep the invariant. -/
lemma Inv.irq (hi : Inv .none s) (hint : interruptible s) (number : Nat) :
    Inv .none (handleInterrupt s number) := by
  unfold handleInterrupt
  split
  · exact hi
  · rename_i p hown
    dsimp only
    split
    · rename_i hcond
      have hw : (s.ipc p).threadState = .waiting := (isWaiting_iff _).mp hcond.1
      obtain ⟨hp, hpn⟩ := hi.existing_of_state (p := p) (by simp [hw]) (by simp [hw])
      have hrec := hi.waiting p hp hw (not_limbo_none s p)
      have htarget : ∀ x, ¬Sends s x (s.ipc p).myself := fun x =>
        hi.not_sends_of_state hp hpn (by simp [hw])
      have h1 := (SameIpc.refl s).upd p
        (f := fun t => { t with intrPending := BitVec.ofNat 32 (number + 1) ||| irqInService })
        (by intro _; rfl)
      generalize s.upd p (fun t =>
        { t with intrPending := BitVec.ofNat 32 (number + 1) ||| irqInService }) = s1 at h1 ⊢
      split
      · refine Inv.congr (sameIpc_enqueueReady _ p) ?_
        obtain ⟨hch, hl⟩ := Change.of_ipc s
          (s1.upd p fun t => { t with threadState := .lockedRunning }) p .lockedRunning
          ((s.ipc p).partner) ((s.ipc p).cont) (fun q => by
            rw [Sys.upd_part _ _ _ (fun t => { t with threadState := .lockedRunning })
              (by intro _; rfl), h1.ipc]) h1.present h1.nextSpace
        refine hi.update hch hl hp hpn (Or.inl (by simp [hw])) (by simp) (by simp) ?_ (by simp)
          (by simp) htarget ?_ (by simp) (Or.inr (Or.inr (Or.inl h1.current)))
        · intro dst sd rd he
          rcases hrec with h | ⟨_, h⟩ <;> simp [he] at h
        · intro q hq
          have hq : q ∈ s.wakeup := h1.wakeup ▸ hq
          by_cases hqp : q = p
          · exact Or.inr ⟨hqp, hrec, by simp⟩
          · exact Or.inl ⟨hq, hqp⟩
      · have h2 : SameIpc s (if s.current = .idle then s1
            else threadEnqueueReady s1 s.current) := by
          split
          · exact h1
          · exact h1.trans (sameIpc_enqueueReady s1 _)
        generalize (if s.current = .idle then s1 else threadEnqueueReady s1 s.current) = s2 at h2 ⊢
        refine hi.switch (funext fun q => ?_) h2.wakeup h2.present h2.nextSpace
          (Or.inr ⟨hp, hpn, fun h => h, by simp [hw], htarget⟩)
        rw [switchTo_ipc, h2.current, h2.ipc]
        split
        · rename_i hq
          have hcont : (s.ipc q).cont = .user := hq ▸ hint
          rw [← hcont]
        · rfl
    · exact Inv.congr ((SameIpc.refl s).upd p (by intro _; rfl)) hi

/-- `sys_thread_switch` keeps the invariant. -/
lemma Inv.threadSwitch (hi : Inv .none s) (hint : interruptible s) {tid : Tid} {s' : Sys}
    (h : sysThreadSwitch s tid = some s') : Inv .none s' := by
  have h1 := sameIpc_enqueueReady s s.current
  have hint1 : interruptible (threadEnqueueReady s s.current) := by
    unfold interruptible; rw [h1.ipc, h1.current]; exact hint
  have hi1 := Inv.congr h1 hi
  unfold sysThreadSwitch at h
  dsimp only at h
  generalize threadEnqueueReady s s.current = s1 at h1 hint1 hi1 h
  split at h
  · rename_i hcond
    simp only [Option.some.injEq] at h
    subst h
    obtain ⟨hp, hpn⟩ := hi1.existing_of_myself hcond.2.1
    exact hi1.dispatch hint1 (Or.inr (hi1.runnable hp hpn hcond.2.2))
  · exact hi1.reschedule hint1 h

/-- `sys_schedule` is invisible to the rendezvous. -/
lemma sameIpc_schedule (s : Sys) (param : Word) (tid : Tid) :
    SameIpc s (sysSchedule s param tid) := by
  unfold sysSchedule
  dsimp only
  split
  · exact SameIpc.refl s
  · split
    · exact (((sameIpc_dequeueReady s _).upd _ (by intro _; rfl))).trans (sameIpc_enqueueReady _ _)
    · exact (SameIpc.refl s).upd _ (by intro _; rfl)

/-- `sys_schedule` keeps the invariant. -/
lemma Inv.schedule (hi : Inv .none s) (param : Word) (tid : Tid) :
    Inv .none (sysSchedule s param tid) :=
  Inv.congr (sameIpc_schedule s param tid) hi

end Hazelnut
