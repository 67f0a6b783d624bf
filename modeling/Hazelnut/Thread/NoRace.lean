import Hazelnut.Thread.Wakeup
import Hazelnut.Thread.Once
import Hazelnut.Thread.IrqOrder

/-!
Timeouts, interrupts and messages do not race.

* `Held.sysIpc`: a call leaves another thread alone that neither waits nor polls.
* `Delivered`: an interrupt has been delivered to a receive operation, which has yet to go on.
  `Delivered.step`: it stays so, whatever the others do, short of cancelling the operation.
* `wakeup_noRace`: in every run without a wrong turn the threads in the wakeup queue wait or
  poll, no delivery is turned into a timeout, and what was delivered is returned.

It does not hold of all runs: `wakeup_race` is one in which an interrupt is delivered to a
thread whose timeout runs.
-/

namespace Hazelnut

variable {s s' s'' : Sys} {p q : TcbPtr} {n : Nat}

/-! ### A call of another thread -/

namespace Held

lemma kernelIdWait (h : Held q s s') (hc : s'.current = p) (hq : q ≠ p) (dest : Tid) :
    Held q s (kernelIdWait s' p dest) := by
  unfold Hazelnut.kernelIdWait
  exact (h.updOther hq _).switchTo (by rw [Sys.upd_current, hc]; exact hq) _ _

lemma returnIpcArgs (h : Held q s s') (hq : q ≠ p) (t : Tid) (e : Word) :
    Held q s (returnIpcArgs s' p t e) := by
  unfold Hazelnut.returnIpcArgs returnIpc
  exact h.updOther hq _

lemma handleKernelId (h : Held q s s') (hc : s'.current = p) (hq : q ≠ p) (dest : Tid) :
    Held q s (ipcHandleKernelId s' p dest) := by
  have hown : ∀ o, Held q s { s' with interruptOwner := o } := fun _ => h
  unfold ipcHandleKernelId
  dsimp only
  split
  · exact (h.updOther hq _).returnIpcArgs hq _ _
  · split
    · exact h.kernelIdWait hc hq dest
    · split
      · split_ifs <;> exact (hown _).returnIpcArgs hq _ _
      · exact ((h.updOther hq _).enqueueWakeup p).kernelIdWait
          (by rw [current_enqueueWakeup]; exact hc) hq dest

lemma recvBlock (h : Held q s s') (hc : s'.current = p) (hq : q ≠ p) (toTcb : Option TcbPtr)
    (partner : Tid) : Held q s (recvBlock s' p toTcb partner) := by
  unfold Hazelnut.recvBlock
  dsimp only
  split
  · exact (h.updOther hq _).switchTo (by rw [Sys.upd_current, hc]; exact hq) _ _
  · split
    · exact h.updOther hq _
    · refine (((h.updOther hq _).enqueueWakeup p).updOther hq _).switchTo ?_ _ _
      rw [Sys.upd_current, current_enqueueWakeup, Sys.upd_current, hc]
      exact hq

/-- A thread is picked only while it polls. -/
lemma recvFrom (h : Held q s s') (hc : s'.current = p) (hq : q ≠ p)
    (hpoll : ¬isPolling (s'.tcb q).threadState) (toTcb : Option TcbPtr) (rcvDesc : Word)
    (src : Option TcbPtr) : Held q s (recvFrom s' p toTcb rcvDesc src) := by
  have h1 : Held q s (s'.upd p fun t => { t with msgDesc := rcvDesc }) := h.updOther hq _
  unfold Hazelnut.recvFrom
  dsimp only
  split
  · exact h1.recvBlock hc hq _ _
  · rename_i r
    split
    · exact h1.recvBlock hc hq _ _
    · rename_i hr
      have hqr : q ≠ r := fun he => hpoll (he ▸ not_not.mp (not_or.mp hr).1)
      unfold recvFromReady
      refine ((((h1.updOther hqr _).enqueueReady r).dequeueSend p r).updOther hq _
        |>.dequeueWakeup r).switchTo ?_ _ _
      simp [hc, hq]

lemma recvPhase (h : Held q s s') (hc : s'.current = p) (hq : q ≠ p)
    (hpoll : ¬isPolling (s'.tcb q).threadState) (toTcb : Option TcbPtr) (dest : Tid)
    (rcvDesc : Word) : Held q s (recvPhase s' p toTcb dest rcvDesc) := by
  have h0 : Held q s (s'.upd p fun t =>
      { t with intrPending := unmasked (s'.tcb p).intrPending }) := h.updOther hq _
  unfold Hazelnut.recvPhase
  dsimp only
  rw [unmask_eq]
  have hpoll0 : ¬isPolling ((s'.upd p fun t =>
      { t with intrPending := unmasked (s'.tcb p).intrPending }).tcb q).threadState := by
    rw [Sys.upd_tcb_other _ hq]
    exact hpoll
  have hc0 : (s'.upd p fun t =>
      { t with intrPending := unmasked (s'.tcb p).intrPending }).current = p := hc
  generalize s'.upd p _ = s0 at h0 hpoll0 hc0 ⊢
  split
  · split
    · split
      · exact (((h0.updOther hq _).updOther hq _).enqueueReady p).switchTo (by simp [hc0, hq]) _ _
      · exact ((h0.updOther hq _).updOther hq _).returnIpcArgs hq _ _
    · exact h0.recvFrom hc0 hq hpoll0 _ _ _
  · split
    · exact (h0.updOther hq _).handleKernelId hc0 hq dest
    · split
      · exact h0.updOther hq _
      · exact h0.recvFrom hc0 hq hpoll0 _ _ _

lemma sendTransfer (h : Held q s s') (hc : s'.current = p) (hq : q ≠ p) {dest : Tid}
    (hd : q ≠ tidToTcb dest) (hpoll : ¬isPolling (s'.tcb q).threadState)
    (sndDesc rcvDesc dope : Word) : Held q s (sendTransfer s' p dest sndDesc rcvDesc dope) := by
  have hother := transferred_other (s := s') (p := p) sndDesc dope hq hd
  have h2 : Held q s (transferred s' p (tidToTcb dest) sndDesc dope) :=
    (congrArg Tcb.core hother).trans h
  have hc2 := (transferred_current (s := s') (p := p) (q := tidToTcb dest) sndDesc dope).trans hc
  change Held q s (if rcvDesc = noDesc then Hazelnut.switchTo (threadEnqueueReady
      ((transferred s' p (tidToTcb dest) sndDesc dope).upd p fun t =>
        { t with threadState := .running }) p) (tidToTcb dest) .sendSwitch
    else Hazelnut.recvPhase (transferred s' p (tidToTcb dest) sndDesc dope) p
      (some (tidToTcb dest)) dest rcvDesc)
  split
  · exact ((h2.updOther hq _).enqueueReady p).switchTo (by simp [hc2, hq]) _ _
  · exact h2.recvPhase hc2 hq (by rw [hother]; exact hpoll) _ _ _

lemma sendPoll (h : Held q s s') (hc : s'.current = p) (hq : q ≠ p) (dest : Tid)
    (sndDesc rcvDesc : Word) : Held q s (sendPoll s' p dest sndDesc rcvDesc) := by
  have hpoll : ∀ {s1 : Sys}, Held q s s1 → s1.current = p → Held q s (Hazelnut.switchTo
      ((threadEnqueueSend s1 (tidToTcb dest) p).upd p fun t => { t with threadState := .polling })
        .idle (.sendPoll dest sndDesc rcvDesc)) := fun h1 hc1 =>
    ((h1.enqueueSend _ p).updOther hq _).switchTo
      (by rw [Sys.upd_current, current_enqueueSend, hc1]; exact hq) _ _
  unfold Hazelnut.sendPoll
  dsimp only
  split
  · exact h.updOther hq _
  · split
    · exact hpoll h hc
    · split
      · exact h.updOther hq _
      · exact hpoll ((h.updOther hq _).enqueueWakeup p) (by rw [current_enqueueWakeup]; exact hc)

/-- **A call leaves another thread alone** that neither waits nor polls. -/
lemma sysIpc (h : Held q s s') (hc : s'.current = p) (hq : q ≠ p)
    (hwait : ¬isWaiting (s'.tcb q).threadState) (hpoll : ¬isPolling (s'.tcb q).threadState)
    (dest : Tid) (sndDesc rcvDesc dope : Word) :
    Held q s (sysIpc s' p dest sndDesc rcvDesc dope) := by
  unfold Hazelnut.sysIpc
  dsimp only
  split
  · exact h.recvPhase hc hq hpoll _ _ _
  · split
    · have h1 : Held q s (s'.upd p fun t => { t with partner := dest }) := h.updOther hq _
      split
      · exact h1.sendPoll hc hq _ _ _
      · rename_i hready
        have hqd : q ≠ tidToTcb dest := fun he => by
          refine hwait ?_
          have hw := not_not.mp (not_or.mp hready).1
          rw [← he, Sys.upd_tcb_other _ hq] at hw
          exact hw
        exact h1.sendTransfer hc hq hqd (by rw [Sys.upd_tcb_other _ hq]; exact hpoll) _ _ _
    · exact h.updOther hq _

/-- So does a thread that goes on. -/
lemma resume (hi : Inv .none s) (hr : Resumes s p) (hq : q ≠ p)
    (hst : (s.ipc q).threadState = .lockedRunning) (dope : Word) : Held q s (resume s p dope) := by
  have hpoll : ¬isPolling (s.tcb q).threadState := by
    rw [isPolling_iff, Sys.toIpcPart_tcb, hst]
    simp
  have hu : Held q s (s.upd p fun t => { t with cont := .user }) := (Held.refl q s).updOther hq _
  unfold Hazelnut.resume
  dsimp only
  split
  · exact hu
  · exact hu.updOther hq _
  · exact (hu.updOther hq _).returnIpcArgs hq _ _
  · split
    · exact hu.updOther hq _
    · exact ((hu.dequeueWakeup p).updOther hq _).returnIpcArgs hq _ _
  · exact (hu.updOther hq _).returnIpcArgs hq _ _
  · split
    · exact hu.returnIpcArgs hq _ _
    · exact ((hu.dequeueWakeup p).updOther hq _).returnIpcArgs hq _ _
  · rename_i dest sndDesc rcvDesc hcont
    split
    · exact hu.updOther hq _
    · rename_i hrun
      -- its receiver is locked with it
      obtain ⟨hd, -⟩ := hi.picked hr hcont hrun
      have hqd : q ≠ tidToTcb dest := fun he => by
        rw [← he, hst] at hd
        simp at hd
      refine (hu.dequeueWakeup p).sendTransfer hr.current hq hqd ?_ _ _ _
      rw [show ∀ s1 : Sys, (threadDequeueWakeup s1 p).tcb = s1.tcb from fun _ => rfl,
        Sys.upd_tcb_other _ hq]
      exact hpoll

end Held

/-! ### A delivered interrupt -/

/-- Nobody cancels an operation. -/
def Calm : Event → Prop
  | .exRegs .. | .taskNew .. => False
  | _ => True

/-- Interrupt `n` has been delivered to a receive operation of `p`, which is ready to go on, or
has been switched to. -/
structure Delivered (s : Sys) (n : Nat) (p : TcbPtr) : Prop where
  awake : (s.ipc p).threadState = .lockedRunning ∨ (s.ipc p).threadState = .waiting ∧ s.current = p
  place : (s.ipc p).cont = .kernelWait (irqId n) ∨
    (s.ipc p).cont = .recvWait ∧ (s.ipc p).partner = irqId n

namespace Delivered

lemma of_held (h : Delivered s n p) (hst : (s.ipc p).threadState = .lockedRunning)
    (hh : Held p s s') : Delivered s' n p where
  awake := .inl (hh.unwoken.state.trans hst)
  place := by
    have h1 : (s'.ipc p).cont = (s.ipc p).cont := hh.unwoken.cont
    have h2 : (s'.ipc p).partner = (s.ipc p).partner := hh.unwoken.partner
    rw [h1, h2]
    exact h.place

lemma same (h : Delivered s n p) (hst : (s.ipc p).threadState = .lockedRunning)
    (hs : SameIpc s s') : Delivered s' n p :=
  ⟨.inl (by rw [hs.ipc]; exact hst), by rw [hs.ipc]; exact h.place⟩

/-- Another interrupt finds `p` not waiting. -/
lemma irq (h : Delivered s n p) (hst : (s.ipc p).threadState = .lockedRunning)
    (hc : p ≠ s.current) (m : Nat) : Delivered (handleInterrupt s m) n p := by
  unfold handleInterrupt
  split
  · exact h
  · rename_i r hr
    by_cases hpr : p = r
    · have hw : ¬isWaiting (s.tcb r).threadState := by
        rw [isWaiting_iff, Sys.toIpcPart_tcb, ← hpr, hst]
        simp
      dsimp only
      rw [if_neg fun h => hw h.1]
      exact h.same hst ((SameIpc.refl s).upd r (by intro _; rfl))
    · refine h.of_held hst ?_
      have h1 : Held p s (s.upd r fun t =>
          { t with intrPending := BitVec.ofNat 32 (m + 1) ||| irqInService }) :=
        (Held.refl p s).updOther hpr _
      dsimp only
      split
      · split
        · exact (h1.updOther hpr _).enqueueReady r
        · refine Held.switchTo ?_ ?_ _ _
          · split
            · exact h1
            · exact h1.enqueueReady _
          · split
            · exact hc
            · rw [current_enqueueReady]
              exact hc
      · exact (Held.refl p s).updOther hpr _

/-- **One step** of the others leaves it delivered. -/
lemma step (h : Delivered s n p) (hi : Inv .none s) (ha : Asleep s) {e : Event} (he : Calm e)
    (hc : p ≠ s.current) (hs : step s e = some s') : Delivered s' n p := by
  have hst : (s.ipc p).threadState = .lockedRunning :=
    h.awake.resolve_right fun h1 => hc h1.2.symm
  have hp : p ≠ .idle := fun hp => by
    rw [hp, hi.idle_state] at hst
    simp at hst
  -- its timeout does not run, so no timer interrupt touches it
  have hout : p ∉ s.wakeup := fun hw => by
    rcases ((ha p hw).resolve_left hp).1 with h1 | h1 <;> simp [hst] at h1
  cases e with
  | ipc dest sndDesc rcvDesc timeout w0 w1 w2 dope =>
      simp only [Hazelnut.step] at hs
      split at hs
      · rw [Option.some.injEq] at hs
        have h1 : Held p s (storeRegs s s.current timeout w0 w1 w2) :=
          (Held.refl p s).updOther hc _
        have h2 : ((storeRegs s s.current timeout w0 w1 w2).tcb p).threadState =
            .lockedRunning := by
          rw [storeRegs, Sys.upd_tcb_other _ hc]
          exact hst
        refine h.of_held hst (hs ▸ h1.sysIpc rfl hc ?_ ?_ dest sndDesc rcvDesc dope)
        · rw [h2]
          decide
        · rw [h2]
          decide
      · simp at hs
  | exRegs | taskNew => exact absurd he fun h => h
  | threadSwitch tid =>
      simp only [Hazelnut.step] at hs
      split at hs
      · have h1 := (Held.refl p s).enqueueReady s.current
        unfold sysThreadSwitch at hs
        dsimp only at hs
        split at hs
        · rw [Option.some.injEq] at hs
          exact h.of_held hst (hs ▸ h1.dispatch (by rw [current_enqueueReady]; exact hc) _)
        · obtain ⟨⟨s2, q⟩, h2, rfl⟩ := Option.map_eq_some_iff.mp hs
          refine h.of_held hst ((h1.findNextThread h2).dispatch ?_ q)
          rw [(findNextThread_spec h2).1.current, current_enqueueReady]
          exact hc
      · simp at hs
  | schedule param tid =>
      simp only [Hazelnut.step] at hs
      split at hs
      · rw [Option.some.injEq] at hs
        exact hs ▸ h.same hst (sameIpc_schedule s param tid)
      · simp at hs
  | timer =>
      simp only [Hazelnut.step] at hs
      split at hs
      · exact h.of_held hst (held_timer hs hout hc)
      · simp at hs
  | irq m =>
      simp only [Hazelnut.step] at hs
      split at hs
      · rw [Option.some.injEq] at hs
        exact hs ▸ h.irq hst hc m
      · simp at hs
  | resume dope =>
      simp only [Hazelnut.step] at hs
      split at hs
      · simp at hs
      · rename_i hint
        rw [Option.some.injEq] at hs
        exact h.of_held hst (hs ▸ Held.resume hi (hi.resumes hint) hc hst dope)
  | idle =>
      simp only [Hazelnut.step] at hs
      split at hs
      · obtain ⟨⟨s2, q⟩, h2, rfl⟩ := Option.map_eq_some_iff.mp hs
        refine h.of_held hst (((Held.refl p s).findNextThread h2).dispatch ?_ q)
        rw [(findNextThread_spec h2).1.current]
        exact hc
      · simp at hs

/-- `p` goes on, and returns the interrupt. -/
lemma returns (h : Delivered s n p) (hc : s.current = p) (dope : Word) :
    ∃ s' w0 w1 w2, Hazelnut.step s (.resume dope) = some s' ∧ (s'.ipc p).cont = .user ∧
      (s'.tcb p).ret = some (.args (irqId n) (s.tcb p).msgDesc w0 w1 w2) := by
  have hint : ¬interruptible s := by
    unfold interruptible
    rw [hc]
    rcases h.place with h1 | ⟨h1, -⟩ <;> simp [h1]
  have hst : (s.ipc p).threadState ≠ .running := by
    rcases h.awake with h1 | ⟨h1, -⟩ <;> simp [h1]
  have hstep : Hazelnut.step s (.resume dope) = some (Hazelnut.resume s p dope) := by
    simp [Hazelnut.step, hint, hc]
  rcases h.place with h1 | ⟨h1, h2⟩
  · refine ⟨_, _, _, _, hstep, ?_, resume_kernelWait dope h1 hst⟩
    unfold Hazelnut.resume
    dsimp only
    rw [show (s.tcb p).cont = .kernelWait (irqId n) from h1]
    dsimp only
    rw [if_neg (show (s.tcb p).threadState ≠ .running from hst), returnIpcArgs, returnIpc_ipc,
      if_pos rfl]
  · refine ⟨_, (s.tcb p).w0, (s.tcb p).w1, (s.tcb p).w2, hstep, resume_cont dope (.inl h1), ?_⟩
    rw [resume_recvWait dope h1 hst, show (s.tcb p).partner = irqId n from h2]

end Delivered

lemma irqId_ne_invalid (hn : n < maxInterrupts) : irqId n ≠ invalidId := by
  have h : ∀ m < 32, irqId m ≠ invalidId := by decide
  exact h n hn

/-- An interrupt that finds its owner in a closed wait is delivered. -/
lemma delivered_irq (hi : Inv .none s) (hk : KernelWaits s) (hn : n < maxInterrupts)
    (ho : s.interruptOwner n = some p) (hw : WaitsFor s p n) (hok : IrqOk s n)
    (hs : step s (.irq n) = some s') : Delivered s' n p := by
  simp only [step] at hs
  split at hs
  · rename_i hint
    rw [Option.some.injEq] at hs
    have hst : (s.ipc p).threadState = .waiting := (isWaiting_iff _).mp hw.1
    obtain ⟨hex, -⟩ := hi.existing_of_state (p := p) (by simp [hst]) (by simp [hst])
    have hpart : (s.ipc p).partner = irqId n := (hok p ho hw.1 hw.2).1
    have hrec := hi.waiting p hex hst (not_limbo_none _ _)
    have hc : s.current ≠ p := fun he => by
      have hu : (s.ipc p).cont = .user := he ▸ hint
      rcases hrec with h | ⟨d, h⟩ <;> simp [hu] at h
    have hplace : (s.ipc p).cont = .kernelWait (irqId n) ∨ (s.ipc p).cont = .recvWait := by
      rcases hrec with h | ⟨d, h⟩
      · exact .inr h
      · obtain ⟨-, h1⟩ := hk p hst d h
        rw [hpart] at h1
        split at h1
        · exact absurd h1 (irqId_ne_invalid hn)
        · exact .inl (h1 ▸ h)
    obtain ⟨-, hcont, hpart', -⟩ := handleInterrupt_wakes ho hw hc
    rw [hs] at hcont hpart'
    refine ⟨?_, hplace.imp (fun h => hcont.trans h) fun h => ⟨hcont.trans h, hpart'.trans hpart⟩⟩
    subst hs
    unfold handleInterrupt
    rw [ho]
    dsimp only
    unfold WaitsFor irqId at hw
    rw [if_pos hw]
    split
    · refine .inl ?_
      rw [(sameIpc_enqueueReady _ p).ipc, Sys.upd_ipc, if_pos rfl]
    · refine .inr ⟨?_, rfl⟩
      have h1 : ∀ s1 : Sys, (s1.ipc p).threadState = .waiting → s1.current ≠ p →
          ((switchTo s1 p .user).ipc p).threadState = .waiting := fun s1 h1 h2 => by
        rw [switchTo_ipc, if_neg (Ne.symm h2)]
        exact h1
      have h2 : ((s.upd p fun t =>
          { t with intrPending := BitVec.ofNat 32 (n + 1) ||| irqInService }).ipc p).threadState =
          .waiting := by
        rw [Sys.upd_ipc, if_pos rfl]
        exact hst
      split
      · exact h1 _ h2 hc
      · refine h1 _ ?_ (by rw [current_enqueueReady]; exact hc)
        rw [(sameIpc_enqueueReady _ s.current).ipc]
        exact h2
  · simp at hs

/-! ### No races -/

/-- A step without a wrong turn of another thread than `p`, or of the timer or a device. -/
def Meanwhile (p : TcbPtr) (s : Sys) (e : Event) : Prop := WakeOk s e ∧ Calm e ∧ p ≠ s.current

/-- **No race** of timeouts with deliveries.  Whoever has a timeout running waits or polls.  An
interrupt that finds its owner waiting stays delivered, whatever the others do and however often
the timer strikes, until the owner goes on and returns the interrupt.  And nothing can strike
between the delivery of a message and the return of the receiver. -/
structure NoRace (s : Sys) : Prop where
  wakeup : ∀ r ∈ s.wakeup, r ≠ .idle →
    (s.ipc r).threadState = .waiting ∨ (s.ipc r).threadState = .polling
  interrupt : ∀ n p s₁ s₂, n < maxInterrupts → s.interruptOwner n = some p → WaitsFor s p n →
    WakeOk s (.irq n) → step s (.irq n) = some s₁ → RunOn (Meanwhile p) s₁ s₂ →
      (s₂.ipc p).threadState ≠ .running ∧ (s₂.current = p → ∀ dope, ∃ s' w0 w1 w2,
        step s₂ (.resume dope) = some s' ∧ (s'.ipc p).cont = .user ∧
          (s'.tcb p).ret = some (.args (irqId n) (s₂.tcb p).msgDesc w0 w1 w2))
  message : ∀ e q w s', WakeOk s e → Delivers s q w e → step s e = some s' →
    DeliveredOnce (s.tcb s.current).myself q w s'

lemma WakeOk.once {e : Event} (h : WakeOk s e) : OnceOk s e := by
  refine ⟨h.1, ?_⟩
  cases e with
  | ipc | threadSwitch | schedule | timer | resume | idle => exact h.2
  | exRegs | taskNew | irq => trivial

/-- What the others do leaves an interrupt delivered. -/
lemma Delivered.runOn (h : Delivered s n p) (hi : Inv .none s) (ha : Asleep s)
    (hr : RunOn (Meanwhile p) s s') : Delivered s' n p := by
  have hall : Delivered s' n p ∧ Inv .none s' ∧ Asleep s' := by
    induction hr with
    | refl => exact ⟨h, hi, ha⟩
    | tail _ hstep ih =>
        obtain ⟨e, ⟨hok, hcalm, hne⟩, hs⟩ := hstep
        obtain ⟨h1, h2, h3⟩ := ih
        exact ⟨h1.step h2 h3 hcalm hne hs, h2.step hok.1 hs, h3.step hok hs⟩
  exact hall.1

/-- **Timeouts and deliveries do not race** in any state of a run without a wrong turn. -/
theorem wakeup_noRace (h : RunBy WakeOk s) : NoRace s := by
  have ha := h.asleep
  have hr : ReachableOk s := h.reachableOk fun _ _ h => h.1
  refine ⟨fun r hr hi => ((ha r hr).resolve_left hi).1, fun n p s₁ s₂ hn ho hw hok hs hrun => ?_,
    fun e q w s' hok hd hs => hd.once hr hok.once hs⟩
  have h1 := (delivered_irq hr.inv hr.kernelWaits hn ho hw hok.2 hs).runOn
    (hr.inv.step hok.1 hs) (ha.step hok hs) hrun
  refine ⟨?_, fun hc dope => h1.returns hc dope⟩
  rcases h1.awake with h2 | ⟨h2, -⟩ <;> simp [h2]

/-- The thread does not stand behind a send phase that had to poll. -/
def notPolled : Cont → Bool
  | .sendPoll _ _ _ => false
  | _ => true

/-- A test for `WakeOk`, for steps that complete no send phase. -/
def wakeTest (s : Sys) : Event → Bool
  | .ipc _ sndDesc _ _ _ _ _ _ faults => decide (sndDesc = noDesc ∧ faults = false)
  | .resume _ faults => notPolled (s.tcb s.current).cont && !faults
  | .timer => s.wakeup.all fun p => decide ((s.ipc p).threadState ≠ .polling)
  | .irq n =>
      match s.interruptOwner n with
      | some p => decide ((s.tcb p).partner = BitVec.ofNat 32 (n + 1) ∧ p ∉ s.wakeup)
      | none => true
  | .exRegs .. | .taskNew .. => false
  | .threadSwitch _ | .schedule _ _ | .idle => true

lemma WakeOk.of_test {e : Event} (h : wakeTest s e = true) : WakeOk s e := by
  cases e with
  | ipc =>
      obtain ⟨h1, h2⟩ := of_decide_eq_true h
      exact ⟨h2, fun ⟨_, hd, _⟩ => absurd h1 hd⟩
  | resume dope faults =>
      have hpoll : faults = false ∧ ∀ d sd rd, (s.tcb s.current).cont ≠ .sendPoll d sd rd := by
        rw [wakeTest, Bool.and_eq_true, Bool.not_eq_true'] at h
        refine ⟨h.2, fun d sd rd hc => ?_⟩
        rw [hc] at h
        exact absurd h.1 (by simp [notPolled])
      exact ⟨hpoll.1, fun d sd rd h1 => absurd h1 (hpoll.2 d sd rd)⟩
  | timer => exact ⟨fun p hp => of_decide_eq_true (List.all_eq_true.mp h p hp.1), trivial⟩
  | irq n =>
      refine ⟨trivial, fun p ho _ _ => ?_⟩
      rw [wakeTest, ho] at h
      exact (of_decide_eq_true h).imp_right fun h1 _ => h1
  | exRegs | taskNew => simp [wakeTest] at h
  | threadSwitch | schedule | idle => exact ⟨trivial, trivial⟩

/-- The root task takes interrupt 1 and waits for it.  It comes while sigma0 runs; the timer
strikes; the root task goes on, waits for a message with a timeout, and the timeout expires. -/
def interruptRun : List Event :=
  [.idle, .ipc 2 noDesc 0 0x0000000f 0 0 0 0, .ipc 2 noDesc 0 0 0 0 0 0, .idle, .irq 1, .timer,
    .resume 0, .ipc nilId noDesc 1 0x01000009 0 0 0 0, .idle, .timer, .timer, .timer]

/-- An interrupt that is delivered, and a timeout that expires, are such a run. -/
theorem wakeup_noRace_interrupt : ∃ s, run initSys interruptRun = some s ∧ RunBy WakeOk s ∧
    (s.tcb (tidToTcb rootTaskId)).ret = some (.args (irqId 1) 0 0 0 0) ∧
    (s.tcb (tidToTcb rootTaskId)).threadState = .running ∧ NoRace s := by
  obtain ⟨s, hs, hok, h1, h2⟩ := exists_checkedRun WakeOk wakeTest interruptRun
    (fun _ _ _ h => .of_test h) (P := fun s =>
      (s.tcb (tidToTcb rootTaskId)).ret = some (.args (irqId 1) 0 0 0 0) ∧
      (s.tcb (tidToTcb rootTaskId)).threadState = .running) (by decide +kernel)
  exact ⟨s, hs, hok, h1, h2, wakeup_noRace hok⟩

/-- The root task takes interrupt 1 and waits for it with a timeout.  The interrupt comes while
sigma0 runs, which has the same priority. -/
def lateInterruptRun : List Event :=
  [.idle, .ipc 2 noDesc 0 0x0000000f 0 0 0 0, .ipc 2 noDesc 0 0x02000009 0 0 0 0, .idle, .irq 1]

/-- The interrupt has been delivered, and the timeout still runs. -/
theorem wakeup_race : ¬∀ s, Reachable s → NoRace s := by
  intro hall
  obtain ⟨s, hs, hb⟩ := exists_run lateInterruptRun
    (P := fun s => tidToTcb rootTaskId ∈ s.wakeup ∧
      (s.tcb (tidToTcb rootTaskId)).threadState = .lockedRunning) (by decide +kernel)
  have h1 := (hall s (Reachable.init.run hs)).wakeup _ hb.1 (by decide)
  rw [show (s.ipc (tidToTcb rootTaskId)).threadState = .lockedRunning from hb.2] at h1
  simp at h1

end Hazelnut
