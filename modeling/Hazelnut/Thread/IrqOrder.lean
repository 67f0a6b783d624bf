import Hazelnut.Thread.Interrupt

/-!
Interrupts that occur before, and after, their owner waits for them.

* `RecvOp`: a receive operation, perhaps behind a send phase; `RecvOp.Accepts`.
* `Received`: the operation has returned the interrupt, and no later one will.
* `Overtaken`: what other kernel code may do before the operation returns.  A timer interrupt
  makes a thread run whose timeout has expired, and `handle_interrupt` leaves the thread that
  it wakes in the wakeup queue.
* `IrqFirst`, `WaitFirst`: the two orders, whatever other kernel code runs in between.
* `interrupt_order_iff`: the same is received in both, unless an open wait blocks, or a closed
  one does with a timeout.
-/

namespace Hazelnut

variable {s s' s₀ : Sys} {p q : TcbPtr} {n : Nat}

/-- The id of an interrupt. -/
def irqId (n : Nat) : Tid := BitVec.ofNat 32 (n + 1)

/-- The receive phase of `sys_ipc`; `toTcb` is the receiver of a preceding send. -/
structure RecvOp where
  toTcb : Option TcbPtr
  dest : Tid
  rcvDesc : Word

namespace RecvOp

/-- `IS_OPEN_WAIT`. -/
def IsOpen (op : RecvOp) : Prop := op.rcvDesc &&& 1 = 1

/-- An open wait, or a closed one on the interrupt id. -/
def Accepts (op : RecvOp) (n : Nat) : Prop := op.IsOpen ∨ op.dest = irqId n

def run (op : RecvOp) (s : Sys) (p : TcbPtr) : Sys :=
  recvPhase s p op.toTcb op.dest op.rcvDesc

end RecvOp

variable {op : RecvOp}

/-- Other kernel code has run, which has not touched the wait of `p`. -/
structure Unwoken (p : TcbPtr) (s s' : Sys) : Prop where
  state : (s'.tcb p).threadState = (s.tcb p).threadState
  partner : (s'.tcb p).partner = (s.tcb p).partner
  cont : (s'.tcb p).cont = (s.tcb p).cont
  msgDesc : (s'.tcb p).msgDesc = (s.tcb p).msgDesc
  pending : (s'.tcb p).intrPending = (s.tcb p).intrPending

/-- Other kernel code has run since `p` was woken, among it timer interrupts.  If `p` is in the
wakeup queue and does not run, its timeout may have expired, and `p` been made to run. -/
structure Overtaken (p : TcbPtr) (s s' : Sys) : Prop where
  state : (s'.tcb p).threadState = (s.tcb p).threadState ∨
    (p ∈ s.wakeup ∧ s.current ≠ p ∧ (s'.tcb p).threadState = .running)
  partner : (s'.tcb p).partner = (s.tcb p).partner
  cont : (s'.tcb p).cont = (s.tcb p).cont
  msgDesc : (s'.tcb p).msgDesc = (s.tcb p).msgDesc
  pending : (s'.tcb p).intrPending = (s.tcb p).intrPending

lemma Held.unwoken (h : Held p s s') : Unwoken p s s' where
  state := congrArg (fun t => t.threadState) h
  partner := congrArg (fun t => t.partner) h
  cont := congrArg (fun t => t.cont) h
  msgDesc := congrArg (fun t => t.msgDesc) h
  pending := congrArg (fun t => t.intrPending) h

/-- A thread outside the wakeup queue is left alone. -/
lemma Overtaken.unwoken (h : Overtaken p s s') (hw : p ∉ s.wakeup) : Unwoken p s s' where
  state := h.state.resolve_right fun h1 => hw h1.1
  partner := h.partner
  cont := h.cont
  msgDesc := h.msgDesc
  pending := h.pending

/-- `p` has received interrupt `n` with an empty dope, and the next receive operation does as if
there had been no interrupt. -/
structure Received (p : TcbPtr) (n : Nat) (s : Sys) : Prop where
  ret : ∃ w0 w1 w2, (s.tcb p).ret = some (.args (irqId n) 0 w0 w1 w2)
  once : ∀ s', (s'.tcb p).intrPending = (s.tcb p).intrPending → ∀ op : RecvOp,
    op.run s' p = op.run (s'.upd p fun t => { t with intrPending := 0 }) p

/-- `p` is back in user mode, or gets there when it is switched to. -/
def Ends (p : TcbPtr) (s : Sys) (R : Sys → Prop) : Prop :=
  if (s.tcb p).cont = .user then R s else ∀ s' dope, Overtaken p s s' → R (resume s' p dope)

/-- `p` waits for an interrupt. -/
def WaitsFor (s : Sys) (p : TcbPtr) (n : Nat) : Prop :=
  isWaiting (s.tcb p).threadState ∧ ((s.tcb p).partner = irqId n ∨ (s.tcb p).partner = nilId)

/-- The interrupt occurs first, and is pending when `p` issues the operation. -/
def IrqFirst (p : TcbPtr) (n : Nat) (op : RecvOp) : Prop :=
  ∀ s₀ s, s₀.interruptOwner n = some p → ¬WaitsFor s₀ p n → s.current = p →
    (s.tcb p).intrPending = ((handleInterrupt s₀ n).tcb p).intrPending →
    Ends p (op.run s p) (Received p n)

/-- The operation is issued first and waits, and then the interrupt occurs, while any other
thread runs. -/
def WaitFirst (s : Sys) (p : TcbPtr) (n : Nat) (op : RecvOp) : Prop :=
  ((op.run s p).tcb p).threadState = .waiting → ∀ s', Unwoken p (op.run s p) s' →
    (p ∈ s'.wakeup ↔ p ∈ (op.run s p).wakeup) → s'.interruptOwner n = some p → s'.current ≠ p →
      Ends p (handleInterrupt s' n) (Received p n)

/-- An open wait of `p` blocks: no interrupt is pending, no sender is ready, and the timeout is not
zero. -/
def OpenWaits (s : Sys) (p : TcbPtr) : Prop :=
  ¬IrqPending s p ∧ ¬SenderReady s p ∧ ¬zeroTimeout (s.tcb p).ipcTimeout

/-- A closed wait of `p` for interrupt `n` blocks with a timeout: the interrupt is not pending,
and the timeout is neither zero nor infinite. -/
def ClosedTimes (s : Sys) (p : TcbPtr) (n : Nat) : Prop :=
  (s.tcb p).intrPending ≠ irqId n ∧ ¬zeroTimeout (s.tcb p).ipcTimeout ∧
    ((s.tcb p).ipcTimeout.rcvExp ≠ 0 ∨ p ∈ s.wakeup)

/-! ### Interrupt ids -/

lemma irqId_spec (hn : n < maxInterrupts) :
    irqId n &&& irqInService = 0 ∧ irqId n ≠ 0 ∧ isKernelId (irqId n) := by
  have h : ∀ m < 32, irqId m &&& irqInService = 0 ∧ irqId m ≠ 0 ∧ isKernelId (irqId m) := by decide
  exact h n hn

lemma inService_ne (x : Word) : (x ||| irqInService) &&& irqInService ≠ 0 := by
  have h : (x ||| irqInService) &&& irqInService = irqInService := by
    ext i
    simp
    tauto
  rw [h]
  decide

/-! ### `handle_interrupt` -/

/-- The interrupt becomes pending. -/
lemma handleInterrupt_pending (ho : s.interruptOwner n = some p) (hw : ¬WaitsFor s p n) :
    ((handleInterrupt s n).tcb p).intrPending = irqId n := by
  unfold handleInterrupt
  rw [ho]
  dsimp only
  unfold WaitsFor irqId at hw
  rw [if_neg hw, Sys.upd_tcb_self]
  rfl

/-- `p` is woken: it runs, or is ready to. -/
lemma handleInterrupt_wakes (ho : s.interruptOwner n = some p) (hw : WaitsFor s p n)
    (hc : s.current ≠ p) :
    (((handleInterrupt s n).tcb p).threadState = .lockedRunning ∨
      ((handleInterrupt s n).tcb p).threadState = .waiting) ∧
    ((handleInterrupt s n).tcb p).cont = (s.tcb p).cont ∧
    ((handleInterrupt s n).tcb p).partner = (s.tcb p).partner ∧
    ((handleInterrupt s n).tcb p).msgDesc = (s.tcb p).msgDesc ∧
    ((handleInterrupt s n).tcb p).intrPending = irqId n ||| irqInService := by
  unfold handleInterrupt
  rw [ho]
  dsimp only
  unfold WaitsFor irqId at hw
  rw [if_pos hw]
  split
  · have h := ((Held.refl p
      ((s.upd p fun t => { t with intrPending := irqId n ||| irqInService }).upd p
      fun t => { t with threadState := .lockedRunning })).enqueueReady p).unwoken
    refine ⟨.inl (h.state.trans ?_), h.cont.trans ?_, h.partner.trans ?_, h.msgDesc.trans ?_,
      h.pending.trans ?_⟩
    all_goals rw [Sys.upd_tcb_self, Sys.upd_tcb_self]
  · have h : Unwoken p (s.upd p fun t => { t with intrPending := irqId n ||| irqInService })
        (switchTo (if s.current = .idle then s.upd p
        fun t => { t with intrPending := irqId n ||| irqInService }
          else threadEnqueueReady
          (s.upd p fun t => { t with intrPending := irqId n ||| irqInService }) s.current)
          p .user) := by
      refine Held.unwoken (Held.switchTo ?_ ?_ p .user)
      · split
        · exact Held.refl _ _
        · exact (Held.refl _ _).enqueueReady _
      · split
        · exact Ne.symm hc
        · rw [current_enqueueReady]
          exact Ne.symm hc
    refine ⟨.inr (h.state.trans ?_), h.cont.trans ?_, h.partner.trans ?_, h.msgDesc.trans ?_,
      h.pending.trans ?_⟩
    all_goals rw [Sys.upd_tcb_self]
    exact (isWaiting_iff _).mp hw.1

/-- Nobody leaves the wakeup queue. -/
lemma handleInterrupt_wakeup (s : Sys) (n : Nat) : (handleInterrupt s n).wakeup = s.wakeup := by
  unfold handleInterrupt
  split
  · rfl
  · dsimp only
    split_ifs <;> simp

/-! ### Returning -/

lemma returnIpcArgs_self (s : Sys) (p : TcbPtr) (tid : Tid) (e : Word) :
    (returnIpcArgs s p tid e).tcb p =
    { s.tcb p with
      ret := some (.args tid ((s.tcb p).msgDesc ||| e) (s.tcb p).w0 (s.tcb p).w1 (s.tcb p).w2),
      cont := .user } := by
  unfold returnIpcArgs returnIpc
  rw [Sys.upd_tcb_self]

lemma switchTo_state (s : Sys) (q : TcbPtr) (c : Cont) :
    ((switchTo s q c).tcb p).threadState = (s.tcb p).threadState := by
  have h : ((switchTo s q c).ipc p).threadState = (s.ipc p).threadState := by
    rw [switchTo_ipc]
    split <;> rfl
  exact h

/-- The interrupt is returned, and in service. -/
lemma Received.of_ret (hr : ∃ w0 w1 w2, (s.tcb p).ret = some (.args (irqId n) 0 w0 w1 w2))
    (hs : (s.tcb p).intrPending &&& irqInService ≠ 0) : Received p n s where
  ret := hr
  once s' hs' op := by
    have h1 : (s'.tcb p).intrPending &&& irqInService ≠ 0 := by rwa [hs']
    have h2 : ¬((s'.upd p fun t => { t with intrPending := 0 }).tcb p).intrPending &&&
        irqInService ≠ 0 := by
      rw [Sys.upd_tcb_self]
      simp
    unfold RecvOp.run recvPhase
    dsimp only
    rw [if_pos h1, if_neg h2]

lemma Received.of_returnIpcArgs (hm : (s.tcb p).msgDesc = 0)
    (hs : (s.tcb p).intrPending &&& irqInService ≠ 0) :
    Received p n (returnIpcArgs s p (irqId n) 0) := by
  refine Received.of_ret ?_ ?_
  · rw [returnIpcArgs_self, hm]
    exact ⟨_, _, _, rfl⟩
  · rw [returnIpcArgs_self]
    exact hs

lemma Ends.of_returnIpcArgs {tid : Tid} {e : Word} {R : Sys → Prop}
    (h : R (returnIpcArgs s p tid e)) :
    Ends p (returnIpcArgs s p tid e) R := by
  have hc : ((returnIpcArgs s p tid e).tcb p).cont = .user := by rw [returnIpcArgs_self]
  rw [Ends, if_pos hc]
  exact h

/-! ### The interrupt first -/

/-- **A pending interrupt is received** by every operation that accepts it. -/
lemma irqFirst (hn : n < maxInterrupts) (hacc : op.Accepts n) : IrqFirst p n op := by
  intro s₀ s ho hw hc hp
  obtain ⟨h1, h2, h3⟩ := irqId_spec hn
  rw [handleInterrupt_pending ho hw] at hp
  have hno : ¬(s.tcb p).intrPending &&& irqInService ≠ 0 := by
    rw [hp, h1]
    simp
  have hserve : irqInService ||| irqId n = irqId n ||| irqInService := BitVec.or_comm ..
  unfold RecvOp.run recvPhase
  dsimp only
  rw [if_neg hno]
  by_cases hopen : op.rcvDesc &&& 1 = 1
  · rw [if_pos hopen, hp, if_pos h2]
    cases hto : op.toTcb with
    | none =>
        refine Ends.of_returnIpcArgs (Received.of_returnIpcArgs ?_ ?_)
        · rw [Sys.upd_tcb_self]
        · rw [Sys.upd_tcb_self, Sys.upd_tcb_self]
          dsimp only
          rw [hserve]
          exact inService_ne _
    | some q =>
        dsimp only
        have hheld := (Held.refl p
          ((s.upd p fun t => { t with intrPending := irqInService ||| irqId n }).upd p
          fun t => { t with threadState := .running })).enqueueReady p
        generalize hs1 : threadEnqueueReady _ _ = s1 at hheld ⊢
        have hcur : s1.current = p := by
          rw [← hs1, current_enqueueReady]
          exact hc
        have hself : (switchTo s1 q (.irqSwitch (irqId n))).tcb p =
            { s1.tcb p with cont := .irqSwitch (irqId n) } := by
          have h4 := Sys.upd_tcb_self s1 s1.current fun t => { t with cont := .irqSwitch (irqId n) }
          rw [hcur] at h4
          unfold switchTo
          rw [hcur]
          exact h4
        rw [Ends, if_neg (by rw [hself]; simp)]
        intro s' dope hu
        have hcont := hu.cont
        have hpend := hu.pending
        -- the state does not matter here, so neither do timer interrupts
        rw [hself] at hcont hpend
        have hres : resume s' p dope = returnIpcArgs
          ((s'.upd p fun t => { t with cont := .user }).upd p
            fun t => { t with msgDesc := 0 }) p (irqId n) 0 := by simp only [resume, hcont]
        rw [hres]
        refine Received.of_returnIpcArgs ?_ ?_
        · rw [Sys.upd_tcb_self]
        · rw [Sys.upd_tcb_self, Sys.upd_tcb_self]
          dsimp only at hpend ⊢
          rw [hpend, hheld.unwoken.pending, Sys.upd_tcb_self, Sys.upd_tcb_self]
          dsimp only
          rw [hserve]
          exact inService_ne _
  · have hdest : op.dest = irqId n := hacc.resolve_left hopen
    rw [if_neg hopen, hdest, if_pos h3]
    unfold ipcHandleKernelId
    have hpend : isInterruptId (irqId n) ∧
        ((s.upd p fun t => { t with msgDesc := 0 }).tcb p).intrPending = irqId n :=
      ⟨h2, by rw [Sys.upd_tcb_self]; exact hp⟩
    dsimp only
    rw [if_pos hpend]
    refine Ends.of_returnIpcArgs (Received.of_returnIpcArgs ?_ ?_)
    · rw [Sys.upd_tcb_self, Sys.upd_tcb_self]
    · rw [Sys.upd_tcb_self]
      dsimp only
      rw [hserve]
      exact inService_ne _

/-! ### The wait first -/

/-- `p` waits. -/
structure InWait (p : TcbPtr) (partner : Tid) (c : Cont) (dope : Word) (s : Sys) : Prop where
  state : (s.tcb p).threadState = .waiting
  partner : (s.tcb p).partner = partner
  cont : (s.tcb p).cont = c
  msgDesc : (s.tcb p).msgDesc = dope

variable {partner : Tid} {c : Cont} {dope : Word}

lemma InWait.block (hc : s.current = p) (partner : Tid) (q : TcbPtr) (c : Cont) :
    InWait p partner c (s.tcb p).msgDesc
      (switchTo (s.upd p fun t => { t with partner := partner, threadState := .waiting }) q c) := by
  have hself : (switchTo (s.upd p fun t => { t with partner := partner, threadState := .waiting }) q
    c).tcb p =
      { s.tcb p with partner := partner, threadState := .waiting, cont := c } := by
    unfold switchTo
    rw [Sys.upd_current, hc]
    change (((s.upd p fun t => { t with partner := partner, threadState := .waiting }).upd p
      fun t => { t with cont := c }).tcb p) = _
    rw [Sys.upd_tcb_self, Sys.upd_tcb_self]
  refine ⟨?_, ?_, ?_, ?_⟩
  all_goals rw [hself]

lemma InWait.unwoken (h : InWait p partner c dope s) (hu : Unwoken p s s') :
    InWait p partner c dope s' :=
  ⟨hu.state.trans h.state, hu.partner.trans h.partner, hu.cont.trans h.cont,
    hu.msgDesc.trans h.msgDesc⟩

lemma returnIpcArgs_state (s : Sys) (p : TcbPtr) (tid : Tid) (e : Word) :
    ((returnIpcArgs s p tid e).tcb p).threadState = (s.tcb p).threadState := by
  rw [returnIpcArgs_self]

/-- A closed wait on an interrupt waits, unless the interrupt is pending or the timeout is zero.
With a timeout it does so in the wakeup queue. -/
lemma kernelId_cases (s : Sys) (p : TcbPtr) {dest : Tid} (hd : dest ≠ nilId) :
    ((s.tcb p).intrPending ≠ dest ∧ ¬zeroTimeout (s.tcb p).ipcTimeout ∧
      ∃ s1, ipcHandleKernelId s p dest = kernelIdWait s1 p dest ∧ s1.current = s.current ∧
        (s1.tcb p).msgDesc = (s.tcb p).msgDesc ∧
        (p ∈ s1.wakeup ↔ (s.tcb p).ipcTimeout.rcvExp ≠ 0 ∨ p ∈ s.wakeup)) ∨
    (((s.tcb p).intrPending = dest ∨ zeroTimeout (s.tcb p).ipcTimeout) ∧
      ((ipcHandleKernelId s p dest).tcb p).threadState = (s.tcb p).threadState) := by
  unfold ipcHandleKernelId
  dsimp only
  by_cases h1 : (s.tcb p).intrPending = dest
  · refine .inr ⟨.inl h1, ?_⟩
    rw [if_pos ⟨hd, h1⟩, returnIpcArgs_state, Sys.upd_tcb_self]
  rw [if_neg fun h => h1 h.2]
  by_cases h2 : (s.tcb p).ipcTimeout.rcvExp = 0
  · rw [if_pos h2]
    exact .inl ⟨h1, fun h => h.1 h2, s, rfl, rfl, rfl, by simp [h2]⟩
  rw [if_neg h2]
  by_cases h3 : timeoutUs (s.tcb p).ipcTimeout.rcvExp (s.tcb p).ipcTimeout.rcvMan = 0
  · -- an association, which does not wait
    refine .inr ⟨.inr ⟨h2, h3⟩, ?_⟩
    rw [if_pos h3]
    split_ifs <;> rw [returnIpcArgs_state]
  · rw [if_neg h3]
    refine .inl ⟨h1, fun h => h3 h.2, _, rfl, ?_, ?_, ?_⟩
    · rw [current_enqueueWakeup]
      rfl
    · rw [((Held.refl p _).enqueueWakeup p).unwoken.msgDesc, Sys.upd_tcb_self]
    · rw [mem_enqueueWakeup]
      simp [h2]

/-- A closed wait, if it waits. -/
lemma kernelId_inWait (hc : s.current = p) (hs : (s.tcb p).threadState = .running) {dest : Tid}
    (hd : dest ≠ nilId) (hw : ((ipcHandleKernelId s p dest).tcb p).threadState = .waiting) :
    InWait p dest (.kernelWait dest) (s.tcb p).msgDesc (ipcHandleKernelId s p dest) ∧
      (p ∈ (ipcHandleKernelId s p dest).wakeup ↔
        (s.tcb p).ipcTimeout.rcvExp ≠ 0 ∨ p ∈ s.wakeup) := by
  rcases kernelId_cases s p hd with ⟨-, -, s1, h1, hc1, hm, hwake⟩ | ⟨-, h1⟩
  · rw [h1]
    unfold kernelIdWait
    dsimp only
    rw [if_neg hd, ← hm]
    exact ⟨InWait.block (hc1.trans hc) dest .idle (.kernelWait dest), hwake⟩
  · rw [h1, hs] at hw
    simp at hw

lemma resume_pending (hc : (s.tcb p).cont = .recvWait ∨ ∃ d, (s.tcb p).cont = .kernelWait d)
    (hst : (s.tcb p).threadState ≠ .running) :
    ((resume s p dope).tcb p).intrPending = (s.tcb p).intrPending := by
  unfold resume
  dsimp only
  rcases hc with hc | ⟨d, hc⟩
  · rw [hc]
    dsimp only
    rw [if_neg hst]
    simp [returnIpcArgs, returnIpc, threadDequeueWakeup, Sys.upd]
  · rw [hc]
    dsimp only
    rw [if_neg hst]
    simp [returnIpcArgs, returnIpc, threadDequeueWakeup, Sys.upd]

/-- What is pending once the interrupt in service has been acknowledged. -/
def unmasked (x : Word) : Word := if x &&& irqInService ≠ 0 then 0 else x

lemma unmasked_ne_zero : unmasked (s.tcb p).intrPending ≠ 0 ↔ IrqPending s p := by
  unfold unmasked IrqPending
  split_ifs with h
  · exact ⟨fun h0 => absurd rfl h0, fun h0 => absurd h0.1 h⟩
  · exact ⟨fun h0 => ⟨not_not.mp h, h0⟩, And.right⟩

lemma unmask_eq (s : Sys) (p : TcbPtr) :
    (if (s.tcb p).intrPending &&& irqInService ≠ 0 then s.upd p fun t => { t with intrPending := 0 }
    else s) =
      s.upd p fun t => { t with intrPending := unmasked (s.tcb p).intrPending } := by
  unfold unmasked
  split_ifs with h
  · rfl
  · change s = { s with tcb := Function.update s.tcb p (s.tcb p) }
    rw [Function.update_eq_self]

/-- The receive phase of a closed wait for an interrupt. -/
lemma closed_run (hn : n < maxInterrupts) (hopen : ¬op.IsOpen) (hacc : op.Accepts n) :
    op.run s p = ipcHandleKernelId ((s.upd p fun t =>
      { t with intrPending := unmasked (s.tcb p).intrPending }).upd p
        fun t => { t with msgDesc := 0 }) p (irqId n) := by
  have hdest : op.dest = irqId n := hacc.resolve_left hopen
  unfold RecvOp.run recvPhase
  dsimp only
  rw [unmask_eq, if_neg (show ¬op.rcvDesc &&& 1 = 1 from hopen), hdest, if_pos (irqId_spec hn).2.2]

lemma unmasked_eq_irqId (hn : n < maxInterrupts) {x : Word} : unmasked x = irqId n ↔
    x = irqId n := by
  obtain ⟨h1, h2, -⟩ := irqId_spec hn
  unfold unmasked
  split_ifs with h
  · exact ⟨fun h0 => absurd h0.symm h2, fun h0 => absurd (h0 ▸ h1) h⟩
  · exact Iff.rfl

/-- A closed wait that waits does so for the interrupt, with an empty dope; and it is in the wakeup
queue if it has a timeout. -/
lemma closed_inWait (hn : n < maxInterrupts) (hc : s.current = p)
    (hs : (s.tcb p).threadState = .running) (hopen : ¬op.IsOpen) (hacc : op.Accepts n)
    (hw : ((op.run s p).tcb p).threadState = .waiting) :
    InWait p (irqId n) (.kernelWait (irqId n)) 0 (op.run s p) ∧
      (p ∈ (op.run s p).wakeup ↔ (s.tcb p).ipcTimeout.rcvExp ≠ 0 ∨ p ∈ s.wakeup) := by
  rw [closed_run hn hopen hacc] at hw ⊢
  have h := kernelId_inWait (s := (s.upd p fun t =>
      { t with intrPending := unmasked (s.tcb p).intrPending }).upd p
        fun t => { t with msgDesc := 0 })
    hc (by rw [Sys.upd_tcb_self, Sys.upd_tcb_self]; exact hs) (irqId_spec hn).2.1 hw
  rwa [Sys.upd_tcb_self, Sys.upd_tcb_self] at h

/-- It waits just if the interrupt is not pending, and the timeout is not zero. -/
lemma closed_waits (hn : n < maxInterrupts) (hs : (s.tcb p).threadState = .running)
    (hopen : ¬op.IsOpen) (hacc : op.Accepts n) : ((op.run s p).tcb p).threadState = .waiting ↔
      (s.tcb p).intrPending ≠ irqId n ∧ ¬zeroTimeout (s.tcb p).ipcTimeout := by
  rw [closed_run hn hopen hacc]
  have h := kernelId_cases ((s.upd p fun t =>
    { t with intrPending := unmasked (s.tcb p).intrPending }).upd p fun t => { t with
      msgDesc := 0 })
    p (irqId_spec hn).2.1
  rw [Sys.upd_tcb_self, Sys.upd_tcb_self] at h
  dsimp only at h
  rw [ne_eq, unmasked_eq_irqId hn] at h
  rcases h with ⟨h1, h2, s1, h3, -⟩ | ⟨h1, h2⟩
  · refine iff_of_true ?_ ⟨h1, h2⟩
    rw [h3]
    unfold kernelIdWait
    rw [switchTo_state, Sys.upd_tcb_self]
  · refine iff_of_false (by rw [h2, hs]; simp) fun h3 => ?_
    exact h1.elim h3.1 h3.2

/-- **A closed wait receives the interrupt** that ends it, if it has no timeout. -/
lemma closed_waitFirst (hn : n < maxInterrupts) (hc : s.current = p)
    (hs : (s.tcb p).threadState = .running) (hopen : ¬op.IsOpen) (hacc : op.Accepts n)
    (ht : ¬ClosedTimes s p n) : WaitFirst s p n op := by
  intro hw s' hu hwake ho hcur
  obtain ⟨hpark, hmem⟩ := closed_inWait hn hc hs hopen hacc hw
  obtain ⟨h1, h2⟩ := (closed_waits hn hs hopen hacc).mp hw
  have hout : p ∉ (handleInterrupt s' n).wakeup := by
    rw [handleInterrupt_wakeup, hwake, hmem]
    exact fun h => ht ⟨h1, h2, h⟩
  have hpark' := hpark.unwoken hu
  obtain ⟨hst, hcont, -, hdesc, hpend⟩ := handleInterrupt_wakes ho
    ⟨(isWaiting_iff _).mpr hpark'.state, .inl hpark'.partner⟩ hcur
  rw [Ends, if_neg (by rw [hcont, hpark'.cont]; simp)]
  intro s'' dope hover
  have hu' := hover.unwoken hout
  have hcont' : (s''.tcb p).cont = .kernelWait (irqId n) :=
    hu'.cont.trans (hcont.trans hpark'.cont)
  have hst' : (s''.tcb p).threadState ≠ .running := by
    rw [hu'.state]
    rcases hst with hst | hst
    · rw [hst]
      simp
    · rw [hst]
      simp
  refine Received.of_ret ?_ ?_
  · rw [resume_kernelWait dope hcont' hst', hu'.msgDesc, hdesc, hpark'.msgDesc]
    exact ⟨_, _, _, rfl⟩
  · rw [resume_pending (.inr ⟨_, hcont'⟩) hst', hu'.pending, hpend]
    exact inService_ne _

/-- Some other thread, or the idle thread. -/
lemma exists_other (p : TcbPtr) : ∃ q : TcbPtr, q ≠ p := by
  by_cases h : p = .idle
  · exact ⟨.slot 0, by rw [h]; simp⟩
  · exact ⟨.idle, Ne.symm h⟩

/-- Another thread of the same priority runs, and `p` owns the interrupt. -/
lemma exists_peer (s : Sys) (p : TcbPtr) (n : Nat) : ∃ s' : Sys, s'.tcb p = s.tcb p ∧
    s'.wakeup = s.wakeup ∧ s'.interruptOwner n = some p ∧ s'.current ≠ p ∧
      (s'.tcb p).priority ≤ (s'.tcb s'.current).priority := by
  obtain ⟨q, hq⟩ := exists_other p
  have hself := Sys.upd_tcb_other s hq.symm fun t => { t with priority := (s.tcb p).priority }
  refine ⟨{ s.upd q fun t => { t with priority := (s.tcb p).priority } with
    current := q, interruptOwner := fun _ => some p }, hself, rfl, rfl, hq, ?_⟩
  dsimp only
  rw [hself, Sys.upd_tcb_self]

/-- Interrupted, the peer goes on, and `p` is ready. -/
lemma handleInterrupt_peer (ho : s.interruptOwner n = some p) (hw : WaitsFor s p n)
    (hp : (s.tcb p).priority ≤ (s.tcb s.current).priority) :
    (handleInterrupt s n).current = s.current := by
  unfold handleInterrupt
  rw [ho]
  dsimp only
  unfold WaitsFor irqId at hw
  rw [if_pos hw, if_pos hp, current_enqueueReady]
  rfl

/-- A closed wait with a timeout does not: the timeout may strike after the interrupt. -/
lemma closed_not_received (hn : n < maxInterrupts) (hc : s.current = p)
    (hs : (s.tcb p).threadState = .running) (hopen : ¬op.IsOpen) (hacc : op.Accepts n)
    (ht : ClosedTimes s p n) : ¬WaitFirst s p n op := by
  intro hfirst
  obtain ⟨h1, h2, h3⟩ := ht
  have hw := (closed_waits hn hs hopen hacc).mpr ⟨h1, h2⟩
  obtain ⟨hpark, hmem⟩ := closed_inWait hn hc hs hopen hacc hw
  obtain ⟨s', hself, hwake, ho, hq, hprio⟩ := exists_peer (op.run s p) p n
  have hu : Unwoken p (op.run s p) s' := by
    constructor <;> rw [hself]
  have hpark' := hpark.unwoken hu
  have hfor : WaitsFor s' p n := ⟨(isWaiting_iff _).mpr hpark'.state, .inl hpark'.partner⟩
  have hends := hfirst hw s' hu (by rw [hwake]) ho hq
  have hmem' : p ∈ (handleInterrupt s' n).wakeup := by
    rw [handleInterrupt_wakeup, hwake]
    exact hmem.mpr h3
  have hcur : (handleInterrupt s' n).current ≠ p := by
    rw [handleInterrupt_peer ho hfor hprio]
    exact hq
  obtain ⟨-, hcont, -, hdesc, -⟩ := handleInterrupt_wakes ho hfor hq
  rw [Ends, if_neg (by rw [hcont, hpark'.cont]; simp)] at hends
  -- the timeout expires before `p` goes on
  have hrun := hends ((handleInterrupt s' n).upd p fun t => { t with threadState := .running }) 0
    ⟨.inr ⟨hmem', hcur, by rw [Sys.upd_tcb_self]⟩, by rw [Sys.upd_tcb_self],
    by rw [Sys.upd_tcb_self],
      by rw [Sys.upd_tcb_self], by rw [Sys.upd_tcb_self]⟩
  obtain ⟨w0, w1, w2, hret⟩ := hrun.ret
  unfold resume at hret
  dsimp only at hret
  rw [Sys.upd_tcb_self] at hret
  dsimp only at hret
  rw [hcont.trans hpark'.cont] at hret
  dsimp only at hret
  rw [if_pos rfl, returnIpcArgs_self, Sys.upd_tcb_self, Sys.upd_tcb_self] at hret
  dsimp only at hret
  rw [hdesc, hpark'.msgDesc] at hret
  exact absurd (IpcReturn.args.inj (Option.some.inj hret)).2.1 (by decide)

/-! ### Open waits -/

lemma recvBlock_inWait (hc : s.current = p) (toTcb : Option TcbPtr) (partner : Tid)
    (hz : ¬zeroTimeout (s.tcb p).ipcTimeout) :
    InWait p partner .recvWait (s.tcb p).msgDesc (recvBlock s p toTcb partner) := by
  unfold recvBlock
  dsimp only
  by_cases h1 : (s.tcb p).ipcTimeout.rcvExp = 0
  · rw [if_pos h1]
    exact InWait.block hc partner _ .recvWait
  · have h2 : timeoutUs (s.tcb p).ipcTimeout.rcvExp (s.tcb p).ipcTimeout.rcvMan ≠ 0 :=
      fun h => hz ⟨h1, h⟩
    rw [if_neg h1, if_neg h2]
    generalize timeoutUs (s.tcb p).ipcTimeout.rcvExp (s.tcb p).ipcTimeout.rcvMan + s.clock = x
    have hm : ((threadEnqueueWakeup (s.upd p fun t => { t with absoluteTimeout := x }) p).tcb
      p).msgDesc =
        (s.tcb p).msgDesc := by
      rw [((Held.refl p _).enqueueWakeup p).unwoken.msgDesc, Sys.upd_tcb_self]
    rw [← hm]
    refine InWait.block ?_ partner _ .recvWait
    rw [current_enqueueWakeup]
    exact hc

lemma recvBlock_zero (toTcb : Option TcbPtr) (partner : Tid)
    (hz : zeroTimeout (s.tcb p).ipcTimeout) :
    ((recvBlock s p toTcb partner).tcb p).threadState = (s.tcb p).threadState := by
  unfold recvBlock
  dsimp only
  rw [if_neg hz.1, if_pos hz.2, returnIpc, Sys.upd_tcb_self]

lemma recvFromReady_state (s : Sys) (p : TcbPtr) (toTcb : Option TcbPtr) (q : TcbPtr) :
    ((recvFromReady s p toTcb q).tcb p).threadState = .lockedWaiting := by
  unfold recvFromReady
  dsimp only
  rw [switchTo_state]
  change (((threadDequeueSend _ p q).upd p fun t => { t with threadState := .lockedWaiting }).tcb
    p).threadState = _
  rw [Sys.upd_tcb_self]

/-- The receive phase of an open wait with nothing pending. -/
lemma open_run (hopen : op.IsOpen) (hp : ¬IrqPending s p) : op.run s p =
    recvFrom (s.upd p fun t => { t with intrPending := 0 }) p op.toTcb op.rcvDesc
    (s.tcb p).sendQueue := by
  have hz : unmasked (s.tcb p).intrPending = 0 := not_not.mp (mt unmasked_ne_zero.mp hp)
  unfold RecvOp.run recvPhase
  dsimp only
  rw [unmask_eq, hz, if_pos (show op.rcvDesc &&& 1 = 1 from hopen), Sys.upd_tcb_self,
    if_neg (not_not.mpr rfl)]

/-- The test for a sender, with the thread that receives in user mode. -/
lemma sender_ready (hs : (s.tcb p).threadState = .running) {q : TcbPtr}
    (hq : (s.tcb p).sendQueue = some q)
    (x : Word) :
    (¬isPolling (((s.upd p fun t => { t with intrPending := x }).tcb q).threadState) ∨
      ((s.upd p fun t => { t with intrPending := x }).tcb q).partner ≠
        ((s.upd p fun t => { t with intrPending := x }).tcb p).myself) ↔ ¬SenderReady s p := by
  rw [Sys.upd_tcb_self]
  by_cases hqp : q = p
  · subst hqp
    rw [Sys.upd_tcb_self]
    have hpoll : ¬isPolling (s.tcb q).threadState := by
      rw [hs]
      decide
    refine ⟨fun _ ⟨r, hr, hne, _⟩ => hne ?_, fun _ => .inl hpoll⟩
    rw [hq] at hr
    exact (Option.some.inj hr).symm
  · rw [Sys.upd_tcb_other _ hqp]
    constructor
    · rintro hno ⟨r, hr, -, hpoll, hpart⟩
      rw [hq] at hr
      cases hr
      rcases hno with hno | hno
      · exact hno hpoll
      · exact hno hpart
    · intro hno
      by_cases hpoll : isPolling (s.tcb q).threadState
      · exact .inr fun hpart => hno ⟨q, hq, hqp, hpoll, hpart⟩
      · exact .inl hpoll

/-- **An open wait that blocks** waits for the nil id, with the receive descriptor in place of a
dope. -/
lemma open_inWait (hc : s.current = p) (hs : (s.tcb p).threadState = .running) (hopen : op.IsOpen)
    (hw : OpenWaits s p) :
    InWait p nilId .recvWait op.rcvDesc (op.run s p) := by
  obtain ⟨hirq, hsend, hz⟩ := hw
  rw [open_run hopen hirq]
  unfold recvFrom
  dsimp only
  generalize hs1 : (s.upd p fun t => { t with intrPending := 0 }).upd p
    (fun t => { t with msgDesc := op.rcvDesc }) = s1
  have hblock : InWait p nilId .recvWait op.rcvDesc (recvBlock s1 p op.toTcb nilId) := by
    subst hs1
    have h := recvBlock_inWait (s := (s.upd p fun t => { t with intrPending := 0 }).upd p
      (fun t => { t with msgDesc := op.rcvDesc })) hc op.toTcb nilId
        (by rw [Sys.upd_tcb_self, Sys.upd_tcb_self]; exact hz)
    rwa [Sys.upd_tcb_self] at h
  cases hq : (s.tcb p).sendQueue with
  | none => exact hblock
  | some q =>
      dsimp only
      rw [if_pos (show op.rcvDesc &&& 1 = 1 from hopen), if_pos ((sender_ready hs hq 0).mpr hsend)]
      exact hblock

/-- The other ones return, or receive from a sender. -/
lemma open_not_waiting (hs : (s.tcb p).threadState = .running) (hopen : op.IsOpen)
    (hw : ¬OpenWaits s p) :
    ((op.run s p).tcb p).threadState ≠ .waiting := by
  by_cases hirq : IrqPending s p
  · unfold RecvOp.run recvPhase
    dsimp only
    rw [unmask_eq, if_pos (show op.rcvDesc &&& 1 = 1 from hopen), Sys.upd_tcb_self,
      if_pos (unmasked_ne_zero.mpr hirq)]
    cases op.toTcb with
    | none =>
        dsimp only
        rw [returnIpcArgs_state, Sys.upd_tcb_self, Sys.upd_tcb_self, Sys.upd_tcb_self, hs]
        simp
    | some q =>
        dsimp only
        rw [switchTo_state, ((Held.refl p _).enqueueReady p).unwoken.state, Sys.upd_tcb_self]
        simp
  · rw [open_run hopen hirq]
    unfold recvFrom
    dsimp only
    have hzero : ∀ partner, ¬SenderReady s p →
      ((recvBlock ((s.upd p fun t => { t with intrPending := 0 }).upd p
        fun t => { t with msgDesc := op.rcvDesc }) p op.toTcb partner).tcb p).threadState ≠
        .waiting := by
      intro partner hno
      have hz : zeroTimeout (s.tcb p).ipcTimeout := by
        by_contra hz
        exact hw ⟨hirq, hno, hz⟩
      rw [recvBlock_zero, Sys.upd_tcb_self, Sys.upd_tcb_self, hs]
      · simp
      · rw [Sys.upd_tcb_self, Sys.upd_tcb_self]
        exact hz
    cases hq : (s.tcb p).sendQueue with
    | none =>
        refine hzero nilId ?_
        rintro ⟨r, hr, -⟩
        rw [hq] at hr
        cases hr
    | some q =>
        dsimp only
        by_cases hready : SenderReady s p
        · rw [if_neg (mt (sender_ready hs hq 0).mp (not_not.mpr hready)), recvFromReady_state]
          simp
        · rw [if_pos ((sender_ready hs hq 0).mpr hready)]
          exact hzero _ hready

/-- An open wait that blocks does not receive the interrupt. -/
lemma open_not_received (hn : n < maxInterrupts) (hc : s.current = p)
    (hs : (s.tcb p).threadState = .running)
    (hopen : op.IsOpen) (hw : OpenWaits s p) : ¬WaitFirst s p n op := by
  intro hfirst
  have hpark := open_inWait hc hs hopen hw
  -- another thread runs, or the idle thread
  obtain ⟨q, hq⟩ := exists_other p
  let s' : Sys := { op.run s p with current := q, interruptOwner := fun _ => some p }
  have hu : Unwoken p (op.run s p) s' := ⟨rfl, rfl, rfl, rfl, rfl⟩
  have hpark' := hpark.unwoken hu
  have hends := hfirst hpark.state s' hu Iff.rfl rfl hq
  obtain ⟨hst, hcont, hpart, hdesc, -⟩ := handleInterrupt_wakes (n := n) (s := s') rfl
    ⟨(isWaiting_iff _).mpr hpark'.state, .inr hpark'.partner⟩ hq
  rw [Ends, if_neg (by rw [hcont, hpark'.cont]; simp)] at hends
  obtain ⟨w0, w1, w2, hret⟩ := (hends _ 0 ⟨.inl rfl, rfl, rfl, rfl, rfl⟩).ret
  have hst' : ((handleInterrupt s' n).tcb p).threadState ≠ .running := by
    rcases hst with hst | hst
    · rw [hst]
      simp
    · rw [hst]
      simp
  rw [resume_recvWait 0 (hcont.trans hpark'.cont) hst', hpart, hpark'.partner] at hret
  exact (irqId_spec hn).2.1 (IpcReturn.args.inj (Option.some.inj hret)).1.symm

/-! ### Both orders -/

/-- The root task owns interrupt 1, and has asked for a message of a thread that there is not. -/
def driverRun : List Event := [.idle, associate 2, .ipc 0x00080400 noDesc 0 0 0 0 0 0]

/-- Nothing is pending for the root task, and no one sends to it. -/
lemma driverRun_spec : ∃ s, Reachable s ∧ s.current = tidToTcb rootTaskId ∧
    (s.tcb (tidToTcb rootTaskId)).threadState = .running ∧
    s.interruptOwner 1 = some (tidToTcb rootTaskId) ∧ OpenWaits s (tidToTcb rootTaskId) := by
  obtain ⟨s, hs, hc, hst, ho, hpend, hq, ht⟩ := exists_run driverRun
    (P := fun s => s.current = tidToTcb rootTaskId ∧
      (s.tcb (tidToTcb rootTaskId)).threadState = .running ∧
      s.interruptOwner 1 = some (tidToTcb rootTaskId) ∧
      (s.tcb (tidToTcb rootTaskId)).intrPending = 0 ∧
      (s.tcb (tidToTcb rootTaskId)).sendQueue = none ∧
      (s.tcb (tidToTcb rootTaskId)).ipcTimeout.rcvExp = 0)
    (by decide +kernel)
  refine ⟨s, Reachable.init.run hs, hc, hst, ho, fun h => h.2 hpend, ?_, fun h => h.1 ht⟩
  rintro ⟨r, hr, -⟩
  rw [hq] at hr
  cases hr

end Hazelnut
