import Hazelnut.Thread.Deliver

/-!
The locks of `sys_ipc` of the multiprocessor kernel, `kernel/src/x86/smpipc.c`.

* `SmpTcb`: what the call reads of a thread.  Between two steps all of it may change, by other
  processors, by requests that are handled in a mailbox call, and by the threads that are switched
  to; the assignments of the call itself are covered by that.
* `Act`: taking and dropping locks, and what must not happen with a lock held.
* `smpStep`: the call, from one read of shared state to the next.
* `smpLocks_iff`: the calls that never leave with a lock.
-/

namespace Hazelnut

/-! ### Threads -/

def smpTsRunning : Word := 0xe
def smpTsPolling : Word := 0xd
def smpTsLockedRunning : Word := 0xa
def smpTsXcpuLockedRunning : Word := 0x2
def smpTsWaiting : Word := 0xffffffff

/-- The fields of a `tcb_t` that the call reads. -/
structure SmpTcb where
  myself : Tid
  threadState : Word
  partner : Tid
  cpu : Nat
  intrPending : Word
  sendQueue : Option TcbPtr

namespace SmpTcb

/-- `IS_WAITING`. -/
def isWaiting (t : SmpTcb) : Prop := t.threadState = smpTsWaiting

/-- `IS_POLLING`. -/
def isPolling (t : SmpTcb) : Prop := t.threadState &&& ~~~smpTsPolling = 0

instance (t : SmpTcb) : Decidable t.isWaiting := inferInstanceAs (Decidable (_ = _))

instance (t : SmpTcb) : Decidable t.isPolling := inferInstanceAs (Decidable (_ = _))

end SmpTcb

/-- The threads, and the answer of another processor to a command. -/
structure SmpMem where
  tcb : TcbPtr → SmpTcb
  answer : Bool

/-- A call: the thread and its processor, its arguments and its timeout. -/
structure SmpCall where
  myself : Tid
  user : ¬isKernelId myself
  cpu : Nat
  dest : Tid
  sndDesc : Word
  rcvDesc : Word
  timeout : Timeout

namespace SmpCall

/-- `IS_SEND`. -/
def isSend (c : SmpCall) : Prop := c.sndDesc ≠ noDesc

/-- `IS_RECEIVE`. -/
def isReceive (c : SmpCall) : Prop := c.rcvDesc ≠ noDesc

/-- `IS_OPEN_WAIT`. -/
def isOpenWait (c : SmpCall) : Prop := c.rcvDesc &&& 1 = 1

instance (c : SmpCall) : Decidable c.isSend := inferInstanceAs (Decidable (_ ≠ _))

instance (c : SmpCall) : Decidable c.isReceive := inferInstanceAs (Decidable (_ ≠ _))

instance (c : SmpCall) : Decidable c.isOpenWait := inferInstanceAs (Decidable (_ = _))

def current (c : SmpCall) : TcbPtr := tidToTcb c.myself

/-- `to_tcb`, before it is cleared. -/
def toTcb (c : SmpCall) : TcbPtr := tidToTcb c.dest

end SmpCall

/-- The caller's id stays the same, and no thread has a kernel id; the TCB of the nil id has the
invalid one. -/
structure SmpMem.Named (c : SmpCall) (m : SmpMem) : Prop where
  current : (m.tcb c.current).myself = c.myself
  kernel : ∀ d, isKernelId d → (m.tcb (tidToTcb d)).myself ≠ d

/-! ### Locks -/

/-- What the call does that matters for locks. -/
inductive Act where
  | lock (t : TcbPtr)
  | unlock (t : TcbPtr)
  /-- `ipc_switch_to_thread` and `switch_to_idle` -/
  | switch
  /-- `transfer_message`, which switches at a page fault -/
  | transfer
  /-- a command to another processor; its requests are handled meanwhile -/
  | mailbox
  /-- `goto restart_ipc_send` and `goto restart_ipc_receive` -/
  | restart
  /-- `return_ipc` and `return_ipc_args` -/
  | ret
  deriving DecidableEq

/-- The locks held after an act; none if a lock is taken twice, or if one is held where none may be.
-/
def perform (held : List TcbPtr) : Act → Option (List TcbPtr)
  | .lock t => if t ∈ held then none else some (t :: held)
  | .unlock t => some (held.erase t)
  | _ => if held = [] then some [] else none

/-- The acts of a call obey the rules: no lock is taken that is held, and none is held where the
call returns, restarts or switches. -/
def Disciplined (acts : List Act) : Prop := (acts.foldlM perform []).isSome

instance (acts : List Act) : Decidable (Disciplined acts) := inferInstanceAs (Decidable (_ = true))

/-! ### The call -/

/-- Where the call is. -/
inductive SmpPc where
  /-- `restart_ipc_send` -/
  | send
  /-- the destination exists, and its lock is held -/
  | sendReady
  /-- it is not ready to receive -/
  | sendBlock
  /-- reactivated after the switch to idle -/
  | sendPolled
  /-- "at this point we always hold the spinlock" -/
  | sendTransfer
  /-- active send to another processor -/
  | xcpuSend
  /-- sent to another processor -/
  | xcpuSent
  /-- `restart_ipc_receive` -/
  | receive (toTcb : Option TcbPtr)
  /-- the lock of the caller is held -/
  | receiveTest (toTcb fromTcb : Option TcbPtr)
  /-- reactivated after waiting -/
  | received
  /-- the sender is on another processor -/
  | xcpuReceive (toTcb : Option TcbPtr)
  /-- a message has arrived -/
  | receiveEnd
  | done

/-- `current->intr_pending`, when an interrupt in service has been acknowledged. -/
def SmpTcb.pending (t : SmpTcb) : Word := if t.intrPending &&& irqInService ≠ 0 then 0
    else t.intrPending

/-- The partner does not receive from the caller. -/
def NotReady (c : SmpCall) (t : SmpTcb) : Prop :=
  ¬t.isWaiting ∨ t.partner ≠ c.myself ∧ t.partner ≠ nilId

/-- The thread does not send to the caller. -/
def NotSending (c : SmpCall) (m : SmpMem) : Option TcbPtr → Prop
  | none => True
  | some f => ¬(m.tcb f).isPolling ∨ (m.tcb f).partner ≠ c.myself

instance (c : SmpCall) (t : SmpTcb) : Decidable (NotReady c t) :=
    inferInstanceAs (Decidable (_ ∨ _))

instance (c : SmpCall) (m : SmpMem) (f : Option TcbPtr) : Decidable (NotSending c m f) :=
  match f with
  | none => inferInstanceAs (Decidable True)
  | some _ => inferInstanceAs (Decidable (_ ∨ _))

/-- The send phase. -/
def sendStep (c : SmpCall) (m : SmpMem) : SmpPc → List Act × SmpPc
  | .send =>
      if (m.tcb c.toTcb).myself = c.dest then ([.lock c.toTcb], .sendReady) else ([.ret], .done)
  | .sendReady =>
      if NotReady c (m.tcb c.toTcb) then
        -- special case: send to ourself fails
        if c.toTcb = c.current then ([.ret], .done) else ([], .sendBlock)
      else ([], .sendTransfer)
  | .sendBlock =>
      if c.timeout.sndExp ≠ 0 ∧ timeoutUs c.timeout.sndExp c.timeout.sndMan = 0 then
        ([.unlock c.toTcb, .ret], .done)
      else ([.unlock c.toTcb, .switch], .sendPolled)
  | .sendPolled =>
      if (m.tcb c.current).threadState = smpTsRunning then ([.ret], .done)
      else ([.lock c.toTcb], .sendTransfer)
  | .sendTransfer =>
      if (m.tcb c.toTcb).cpu = c.cpu then
        if ¬c.isReceive then ([.unlock c.toTcb, .transfer, .switch, .ret], .done)
        else ([.unlock c.toTcb, .transfer], .receive (some c.toTcb))
      else if (m.tcb c.current).threadState ≠ smpTsXcpuLockedRunning
        then ([.unlock c.toTcb], .xcpuSend)
      else ([.unlock c.toTcb, .transfer, .mailbox], .xcpuSent)
  | .xcpuSend =>
      if ¬m.answer then ([.mailbox, .restart], .send)
      else if c.sndDesc &&& ~~~3 = 0 then ([.mailbox, .transfer], .xcpuSent)
      else ([.mailbox, .transfer, .mailbox], .xcpuSent)
  | .xcpuSent => if ¬c.isReceive then ([.ret], .done) else ([], .receive none)
  | pc => ([], pc)

/-- The receive phase. -/
def receiveStep (c : SmpCall) (m : SmpMem) : SmpPc → List Act × SmpPc
  | .receive toTcb =>
      if ¬c.isOpenWait then
        if isKernelId c.dest then ([.switch, .ret], .done)
        else if (m.tcb (tidToTcb c.dest)).myself ≠ c.dest then ([.ret], .done)
        else ([.lock c.current], .receiveTest toTcb (some (tidToTcb c.dest)))
      else if (m.tcb c.current).pending ≠ 0 then
        if toTcb.isSome then ([.switch, .ret], .done) else ([.ret], .done)
      else ([.lock c.current], .receiveTest toTcb (m.tcb c.current).sendQueue)
  | .receiveTest toTcb fromTcb =>
      if NotSending c m fromTcb then
        if c.timeout.rcvExp ≠ 0 ∧
          timeoutUs c.timeout.rcvExp c.timeout.rcvMan = 0 then ([.ret], .done)
        else ([.unlock c.current, .switch], .received)
      else if fromTcb.any fun f => (m.tcb f).cpu =
        c.cpu then ([.unlock c.current, .switch], .receiveEnd)
      else ([.unlock c.current], .xcpuReceive toTcb)
  | .received =>
      if (m.tcb c.current).threadState = smpTsRunning then ([.ret], .done) else ([], .receiveEnd)
  | .xcpuReceive toTcb =>
      if ¬m.answer then ([.mailbox, .restart], .receive toTcb)
      -- `smp_start_receive_ipc` switches to idle itself
      else ([.mailbox, .switch, .switch], .receiveEnd)
  | .receiveEnd => ([.ret], .done)
  | pc => ([], pc)

/-- `sys_ipc`, from one read of what other processors may change to the next. -/
def smpStep (c : SmpCall) (m : SmpMem) : SmpPc → List Act × SmpPc
  | .receive toTcb => receiveStep c m (.receive toTcb)
  | .receiveTest toTcb fromTcb => receiveStep c m (.receiveTest toTcb fromTcb)
  | .received => receiveStep c m .received
  | .xcpuReceive toTcb => receiveStep c m (.xcpuReceive toTcb)
  | .receiveEnd => receiveStep c m .receiveEnd
  | pc => sendStep c m pc

/-- Where the call starts. -/
def SmpCall.startPc (c : SmpCall) : SmpPc := if c.isSend then .send else .receive none

/-- A run of the call, with what it has done; each step finds the threads in any state. -/
inductive SmpRun (c : SmpCall) : List Act → SmpPc → Prop
  | start : SmpRun c [] c.startPc
  | step {acts : List Act} {pc : SmpPc} (h : SmpRun c acts pc) (m : SmpMem) (hm : m.Named c) :
      SmpRun c (acts ++ (smpStep c m pc).1) (smpStep c m pc).2

/-! ### Locks that are held -/

variable {c : SmpCall} {m : SmpMem} {pc : SmpPc} {acts : List Act}

/-- The locks that are held at a point of the call. -/
def heldAt (c : SmpCall) : SmpPc → List TcbPtr
  | .sendReady => [c.toTcb]
  | .sendBlock => [c.toTcb]
  | .sendTransfer => [c.toTcb]
  | .receiveTest _ _ => [c.current]
  | _ => []

/-- The call sends to its own thread. -/
def SendsToSelf (c : SmpCall) : Prop := c.isSend ∧ c.dest = c.myself

/-- The destination may be the id of a thread: it is no kernel id, and not that of the caller but
for the version. -/
def MayExist (c : SmpCall) : Prop := ¬isKernelId c.dest ∧ (c.toTcb = c.current → c.dest = c.myself)

/-- The receive phase is reached: at once, or when the message has been sent. -/
def Receives (c : SmpCall) : Prop := c.isSend → c.isReceive ∧ MayExist c

/-- The call may get to the test of the receive phase, with a timeout of zero. -/
def ZeroReceive (c : SmpCall) : Prop :=
  zeroTimeout c.timeout ∧ Receives c ∧ (c.isOpenWait ∨ MayExist c)

/-- The points of the send phase belong to calls that send, behind the first one of them to a
thread, and those of the receive phase to calls that receive. -/
def PcOk (c : SmpCall) : SmpPc → Prop
  | .send => c.isSend
  | .receive _ => Receives c
  | .receiveTest _ _ => Receives c ∧ (c.isOpenWait ∨ MayExist c)
  | .received => True
  | .xcpuReceive _ => Receives c
  | .receiveEnd => True
  | .done => True
  | _ => c.isSend ∧ MayExist c

/-- A destination that exists may exist. -/
lemma SmpMem.Named.mayExist (hm : m.Named c) (h : (m.tcb c.toTcb).myself = c.dest) :
    MayExist c := by
  refine ⟨fun hk => hm.kernel _ hk h, fun heq => ?_⟩
  rw [← h, heq]
  exact hm.current

lemma perform_lock (t : TcbPtr) : perform [] (.lock t) = some [t] := by simp [perform]

lemma perform_unlock (t : TcbPtr) : perform [t] (.unlock t) = some [] := by simp [perform]

/-- **One step of the send phase** of a call that does not send to itself. -/
lemma sendStep_held (hself : ¬SendsToSelf c) (hpc : PcOk c pc) (m : SmpMem) (hm : m.Named c) :
    PcOk c (sendStep c m pc).2 ∧
      (sendStep c m pc).1.foldlM perform (heldAt c pc) = some (heldAt c (sendStep c m pc).2) := by
  cases pc with
  | send =>
      rw [sendStep]
      split
      · rename_i hexists
        exact ⟨⟨hpc, hm.mayExist hexists⟩, by simp [heldAt, perform_lock]⟩
      · exact ⟨trivial, rfl⟩
  | sendReady =>
      have hne : c.toTcb ≠ c.current := fun h => hself ⟨hpc.1, hpc.2.2 h⟩
      rw [sendStep, if_neg hne]
      split
      · exact ⟨hpc, rfl⟩
      · exact ⟨hpc, rfl⟩
  | sendBlock =>
      rw [sendStep]
      split
      · exact ⟨trivial, by simp [heldAt, perform]⟩
      · exact ⟨hpc, by simp [heldAt, perform]⟩
  | sendPolled =>
      rw [sendStep]
      split
      · exact ⟨trivial, rfl⟩
      · exact ⟨hpc, by simp [heldAt, perform_lock]⟩
  | sendTransfer =>
      rw [sendStep]
      split
      · split
        · exact ⟨trivial, by simp [heldAt, perform]⟩
        · rename_i hr
          exact ⟨fun _ => ⟨not_not.mp hr, hpc.2⟩, by simp [heldAt, perform]⟩
      · split
        · exact ⟨hpc, by simp [heldAt, perform_unlock]⟩
        · exact ⟨hpc, by simp [heldAt, perform]⟩
  | xcpuSend =>
      rw [sendStep]
      split
      · exact ⟨hpc.1, rfl⟩
      · split
        · exact ⟨hpc, rfl⟩
        · exact ⟨hpc, rfl⟩
  | xcpuSent =>
      rw [sendStep]
      split
      · exact ⟨trivial, rfl⟩
      · rename_i hr
        exact ⟨fun _ => ⟨not_not.mp hr, hpc.2⟩, rfl⟩
  | _ => exact ⟨hpc, rfl⟩

/-- **One step of the receive phase** of a call that does not receive with a timeout of zero. -/
lemma receiveStep_held (hzero : ¬ZeroReceive c) (hpc : PcOk c pc) (m : SmpMem) (hm : m.Named c) :
    PcOk c (receiveStep c m pc).2 ∧
      (receiveStep c m pc).1.foldlM perform (heldAt c pc) =
      some (heldAt c (receiveStep c m pc).2) := by
  cases pc with
  | receive toTcb =>
      rw [receiveStep]
      split
      · split
        · exact ⟨trivial, rfl⟩
        · split
          · exact ⟨trivial, rfl⟩
          · rename_i hexists
            exact ⟨⟨hpc, .inr (hm.mayExist (not_not.mp hexists))⟩, by simp [heldAt, perform_lock]⟩
      · rename_i ho
        split
        · split
          · exact ⟨trivial, rfl⟩
          · exact ⟨trivial, rfl⟩
        · exact ⟨⟨hpc, .inl (not_not.mp ho)⟩, by simp [heldAt, perform_lock]⟩
  | receiveTest toTcb fromTcb =>
      -- the branch that returns with the lock is that of a timeout of zero
      have hz : ¬(c.timeout.rcvExp ≠ 0 ∧ timeoutUs c.timeout.rcvExp c.timeout.rcvMan = 0) :=
        fun hz => hzero ⟨hz, hpc.1, hpc.2⟩
      rw [receiveStep, if_neg hz]
      split
      · exact ⟨trivial, by simp [heldAt, perform]⟩
      · split
        · exact ⟨trivial, by simp [heldAt, perform]⟩
        · exact ⟨hpc.1, by simp [heldAt, perform_unlock]⟩
  | received =>
      rw [receiveStep]
      split
      · exact ⟨trivial, rfl⟩
      · exact ⟨trivial, rfl⟩
  | xcpuReceive toTcb =>
      rw [receiveStep]
      split
      · exact ⟨hpc, rfl⟩
      · exact ⟨trivial, rfl⟩
  | receiveEnd => exact ⟨trivial, rfl⟩
  | _ => exact ⟨hpc, rfl⟩

/-- **One step** of a call that does neither. -/
lemma smpStep_held (hself : ¬SendsToSelf c) (hzero : ¬ZeroReceive c) (hpc : PcOk c pc) (m : SmpMem)
    (hm : m.Named c) : PcOk c (smpStep c m pc).2 ∧
      (smpStep c m pc).1.foldlM perform (heldAt c pc) = some (heldAt c (smpStep c m pc).2) := by
  cases pc with
  | receive => exact receiveStep_held hzero hpc m hm
  | receiveTest => exact receiveStep_held hzero hpc m hm
  | received => exact receiveStep_held hzero hpc m hm
  | xcpuReceive => exact receiveStep_held hzero hpc m hm
  | receiveEnd => exact receiveStep_held hzero hpc m hm
  | done => exact ⟨trivial, rfl⟩
  | _ => exact sendStep_held hself hpc m hm

/-- **A run** holds the locks of the point it has got to. -/
lemma SmpRun.held (hself : ¬SendsToSelf c) (hzero : ¬ZeroReceive c) (hr : SmpRun c acts pc) :
    PcOk c pc ∧ acts.foldlM perform [] = some (heldAt c pc) := by
  induction hr with
  | start =>
      unfold SmpCall.startPc
      split
      · exact ⟨by assumption, rfl⟩
      · exact ⟨fun hs => absurd hs (by assumption), rfl⟩
  | step _ m hm ih =>
      obtain ⟨hpc, hstep⟩ := smpStep_held hself hzero ih.1 m hm
      refine ⟨hpc, ?_⟩
      rw [List.foldlM_append, ih.2]
      exact hstep

/-! ### Locks that are not released -/

/-- The caller runs; the other threads are in the state `st`, wait for nobody in particular, and are
on the processor of the caller.  The destination exists if it may. -/
def alikeMem (c : SmpCall) (st : Word) : SmpMem where
  tcb t :=
    if t = c.current then ⟨c.myself, smpTsRunning, nilId, c.cpu, 0, none⟩
    else ⟨if t = c.toTcb ∧ ¬isKernelId c.dest then c.dest else 0xffffffff, st, nilId,
      c.cpu, 0, none⟩
  answer := false

lemma alikeMem_named (c : SmpCall) (st : Word) : (alikeMem c st).Named c where
  current := by simp [alikeMem]
  kernel d hd heq := by
    have hinvalid : ¬isKernelId 0xffffffff := by decide
    by_cases hcur : tidToTcb d = c.current
    · simp only [alikeMem, if_pos hcur] at heq
      exact c.user (heq ▸ hd)
    · simp only [alikeMem, if_neg hcur] at heq
      split_ifs at heq with hto
      · exact hto.2 (heq ▸ hd)
      · exact hinvalid (heq ▸ hd)

lemma alikeMem_dest (h : MayExist c) (st : Word) :
    ((alikeMem c st).tcb c.toTcb).myself = c.dest := by
  by_cases hcur : c.toTcb = c.current
  · simp only [alikeMem, if_pos hcur]
    exact (h.2 hcur).symm
  · simp only [alikeMem, if_neg hcur, true_and, if_pos h.1]

lemma SmpRun.next {acts' : List Act} {pc' : SmpPc} (hr : SmpRun c acts pc) (st : Word)
    (h : smpStep c (alikeMem c st) pc = (acts', pc')) : SmpRun c (acts ++ acts') pc' := by
  have h1 := hr.step _ (alikeMem_named c st)
  rwa [h] at h1

/-- Returning with a lock breaks the rules. -/
lemma not_disciplined {t : TcbPtr} (h : acts.foldlM perform [] = some [t]) :
    ¬Disciplined (acts ++ [.ret]) := by
  rw [Disciplined, List.foldlM_append, h]
  simp [perform]

/-- The destination exists. -/
lemma smpStep_send (h : MayExist c) (st : Word) :
    smpStep c (alikeMem c st) .send = ([.lock c.toTcb], .sendReady) := by
  rw [smpStep, sendStep, if_pos (alikeMem_dest h st)]
  all_goals simp

/-- A send to the own thread returns with its lock. -/
lemma SendsToSelf.leaks (h : SendsToSelf c) : ∃ acts pc, SmpRun c acts pc ∧ ¬Disciplined acts := by
  have hstart : SmpRun c [] .send := by
    have h1 := SmpRun.start (c := c)
    rwa [SmpCall.startPc, if_pos h.1] at h1
  have hself : c.toTcb = c.current := congrArg tidToTcb h.2
  have hlock := hstart.next _ (smpStep_send ⟨h.2 ▸ c.user, fun _ => h.2⟩ smpTsRunning)
  have hrunning : ¬smpTsRunning = smpTsWaiting := by decide
  have hnot : NotReady c ((alikeMem c smpTsRunning).tcb c.toTcb) := by
    refine .inl ?_
    simp only [alikeMem, if_pos hself, SmpTcb.isWaiting]
    exact hrunning
  have hstep : smpStep c (alikeMem c smpTsRunning) .sendReady = ([.ret], .done) := by
    rw [smpStep, sendStep, if_pos hnot, if_pos hself]
    all_goals simp
  exact ⟨_, _, hlock.next _ hstep, not_disciplined (t := c.toTcb) (by simp [perform])⟩

/-- The receive phase is reached without a lock. -/
lemma exists_receive (hself : ¬SendsToSelf c) (h : Receives c) :
    ∃ acts toTcb, SmpRun c acts (.receive toTcb) ∧ acts.foldlM perform [] = some [] := by
  have hstart := SmpRun.start (c := c)
  rw [SmpCall.startPc] at hstart
  by_cases hs : c.isSend
  · rw [if_pos hs] at hstart
    obtain ⟨hr, hexists⟩ := h hs
    have hne : c.toTcb ≠ c.current := fun heq => hself ⟨hs, hexists.2 heq⟩
    have hready : ¬NotReady c ((alikeMem c smpTsWaiting).tcb c.toTcb) := by
      simp only [alikeMem, if_neg hne]
      rintro (h1 | h1)
      · exact h1 rfl
      · exact h1.2 rfl
    have hcpu : ((alikeMem c smpTsWaiting).tcb c.toTcb).cpu = c.cpu := by
      simp only [alikeMem, if_neg hne]
    have hstep2 : smpStep c (alikeMem c smpTsWaiting) .sendReady = ([], .sendTransfer) := by
      rw [smpStep, sendStep, if_neg hready]
      all_goals simp
    have hstep3 : smpStep c (alikeMem c smpTsWaiting) .sendTransfer =
        ([.unlock c.toTcb, .transfer], .receive (some c.toTcb)) := by
      rw [smpStep, sendStep, if_pos hcpu, if_neg (not_not_intro hr)]
      all_goals simp
    exact ⟨_, _, ((hstart.next _ (smpStep_send hexists smpTsWaiting)).next _ hstep2).next _ hstep3,
      by simp [perform]⟩
  · rw [if_neg hs] at hstart
    exact ⟨_, _, hstart, rfl⟩

/-- The receive phase takes the lock of the caller, and finds nobody that sends. -/
lemma exists_receiveTest (toTcb : Option TcbPtr) (h : c.isOpenWait ∨ MayExist c) :
    ∃ fromTcb, smpStep c (alikeMem c smpTsWaiting) (.receive toTcb) =
      ([.lock c.current], .receiveTest toTcb fromTcb) ∧
      NotSending c (alikeMem c smpTsWaiting) fromTcb := by
  by_cases ho : c.isOpenWait
  · have hp : ¬((alikeMem c smpTsWaiting).tcb c.current).pending ≠ 0 := by
      simp [alikeMem, SmpTcb.pending]
    have hqueue : ((alikeMem c smpTsWaiting).tcb c.current).sendQueue = none := by simp [alikeMem]
    refine ⟨none, ?_, trivial⟩
    rw [smpStep, receiveStep, if_neg (not_not_intro ho), if_neg hp, hqueue]
  · have hexists : ((alikeMem c smpTsWaiting).tcb (tidToTcb c.dest)).myself = c.dest :=
      alikeMem_dest (h.resolve_left ho) smpTsWaiting
    have hrunning : ¬smpTsRunning &&& ~~~smpTsPolling = 0 := by decide
    have hwaiting : ¬smpTsWaiting &&& ~~~smpTsPolling = 0 := by decide
    refine ⟨some (tidToTcb c.dest), ?_, .inl ?_⟩
    · rw [smpStep, receiveStep, if_pos ho, if_neg (h.resolve_left ho).1,
        if_neg (not_not_intro hexists)]
    · by_cases hcur : tidToTcb c.dest = c.current
      · simp only [alikeMem, if_pos hcur]
        exact hrunning
      · simp only [alikeMem, if_neg hcur]
        exact hwaiting

/-- A receive with a timeout of zero returns with the lock of the caller. -/
lemma ZeroReceive.leaks (hself : ¬SendsToSelf c) (h : ZeroReceive c) :
    ∃ acts pc, SmpRun c acts pc ∧ ¬Disciplined acts := by
  obtain ⟨hz, hphase, hwait⟩ := h
  obtain ⟨acts, toTcb, hr, hacts⟩ := exists_receive hself hphase
  obtain ⟨fromTcb, hstep, hnot⟩ := exists_receiveTest toTcb hwait
  have hret : smpStep c (alikeMem c smpTsWaiting) (.receiveTest toTcb fromTcb) =
      ([.ret], .done) := by
    rw [smpStep, receiveStep, if_pos hnot, if_pos ⟨hz.1, hz.2⟩]
  refine ⟨_, _, (hr.next _ hstep).next _ hret, not_disciplined (t := c.current) ?_⟩
  rw [List.foldlM_append, hacts]
  simp [perform]

/-- **Which calls release every lock**: in all runs of a call of the multiprocessor `sys_ipc` no
lock is taken that is held, and none is held where the call returns, restarts or switches, if and
only if the call does not send to its own thread, and does not receive with a timeout of zero. -/
theorem smpLocks_iff (c : SmpCall) : (∀ acts pc, SmpRun c acts pc → Disciplined acts) ↔
    ¬SendsToSelf c ∧ ¬ZeroReceive c := by
  constructor
  · intro h
    have hself : ¬SendsToSelf c := by
      intro hself
      obtain ⟨acts, pc, hr, hnot⟩ := hself.leaks
      exact hnot (h acts pc hr)
    refine ⟨hself, fun hzero => ?_⟩
    obtain ⟨acts, pc, hr, hnot⟩ := hzero.leaks hself
    exact hnot (h acts pc hr)
  · rintro ⟨hself, hzero⟩ acts pc hr
    rw [Disciplined, (hr.held hself hzero).2]
    rfl

/-- Sigma0 sends to itself. -/
def selfSend : SmpCall := ⟨sigma0Id, by decide, 0, sigma0Id, 0, noDesc, 0⟩

/-- It returns with its own lock. -/
theorem smpLocks_self :
    SmpRun selfSend [.lock (tidToTcb sigma0Id), .ret] .done ∧
    ¬Disciplined [.lock (tidToTcb sigma0Id), .ret] := by
  refine ⟨?_, by decide⟩
  have hm := alikeMem_named selfSend smpTsRunning
  exact ((SmpRun.start (c := selfSend)).step _ hm).step _ hm

end Hazelnut
