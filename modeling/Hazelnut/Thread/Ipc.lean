import Hazelnut.Thread.Queue

/-!
The IPC system call of `kernel/src/ipc.c`, thread creation and deletion of
`kernel/src/thread.c`, and the uniprocessor kernel as a transition system.

Kernel code runs with interrupts disabled until it returns to user mode or
switches to another thread.  `Event` lists what can start such a stretch of
code and `step` executes it: a system call of the running thread, an interrupt,
the idle loop, or the continuation of the thread that has just been switched
to.  A step without result is one that panics or does not end.

The message itself is moved by `extended_transfer`, which lives in the memory
subsystem; here it contributes the receive dope it computes, which is part of
the event.
-/

namespace Hazelnut

/-! ### Error codes -/

def ipcErrSend : Word := 0x10
def ipcErrRecv : Word := 0x00
def ipcErrExist : Word := 0x10
def ipcErrCanceled : Word := 0x40
def ipcErrAborted : Word := 0xc0
def ipcErrSendTimeout : Word := 0x30
def ipcErrRecvTimeout : Word := 0x20

/-- `IRQ_IN_SERVICE`. -/
def irqInService : Word := 0x80000000

/-- The descriptor `~0` that stands for no send, or no receive phase. -/
def noDesc : Word := 0xffffffff

/-! ### Returning to user mode -/

/-- `return_ipc`, and the stack frame `unwind_ipc` builds for `abort_ipc`: the thread
goes on in user mode with the given registers. -/
def returnIpc (s : Sys) (p : TcbPtr) (r : IpcReturn) : Sys :=
  s.upd p fun t => { t with ret := some r, cont := .user }

/-- `return_ipc_args`. -/
def returnIpcArgs (s : Sys) (p : TcbPtr) (sender : Tid) (error : Word) : Sys :=
  let t := s.tcb p
  returnIpc s p (.args sender (t.msgDesc ||| error) t.w0 t.w1 t.w2)

/-! ### Cancelling -/

/-- `unwind_ipc`.  The recursion marks each locked thread it meets as aborted, so
that a chain of partners is no longer than the number of threads. -/
def unwindIpc : Nat → Sys → TcbPtr → Option Sys
  | 0, _, _ => none
  | fuel + 1, s, p =>
      let s := threadDequeueWakeup s p
      let partner := (s.tcb p).partner
      -- the common part of the two locked states
      let unwindPartner : Option Sys :=
        let s1 := s.upd p fun t => { t with threadState := .aborted }
        if isKernelId partner then some s1
        else
          (unwindIpc fuel s1 (tidToTcb partner)).map fun s2 => makeRunning s2 (tidToTcb partner)
      match (s.tcb p).threadState with
      | .running => some s
      | .aborted => some s
      | .waiting => some (returnIpc s p (.err (ipcErrCanceled ||| ipcErrRecv)))
      | .polling =>
          some (returnIpc (threadDequeueSend s (tidToTcb partner) p) p
            (.err (ipcErrCanceled ||| ipcErrSend)))
      | .lockedWaiting =>
          unwindPartner.map fun s2 => returnIpc s2 p (.err (ipcErrAborted ||| ipcErrRecv))
      | .lockedRunning =>
          unwindPartner.map fun s2 => returnIpc s2 p (.err (ipcErrAborted ||| ipcErrSend))
      | .free => none

/-! ### Creating and deleting threads -/

/-- `DEFAULT_TIMESLICE`. -/
def defaultTimeslice : Int := 10000

/-- `create_tcb`; a `NULL` space asks for a new one. -/
def createTcb (s : Sys) (tid : Tid) (space : Option Nat) : Sys :=
  let s1 :=
    s.upd (tidToTcb tid) fun t =>
      { t with
        myself := tid
        threadState := .aborted
        queueReady := false
        sendQueue := none
        intrPending := 0
        timeslice := defaultTimeslice
        currentTimeslice := 0
        space := space.getD s.nextSpace }
  threadEnqueuePresent { s1 with nextSpace := if space.isNone then s.nextSpace + 1
    else s.nextSpace }
    (tidToTcb tid)

/-- What follows `create_tcb` for a thread that is to start in user mode. -/
def startThread (s : Sys) (p : TcbPtr) (uip usp : Word) (pager : Tid) (prio : Nat) : Sys :=
  threadEnqueueReady
    (s.upd p fun t =>
      { t with
        uip := uip
        usp := usp
        cont := .user
        pager := pager
        priority := prio
        threadState := .running }) p

/-- The loop of `free_thread` over the send queue of the dying thread. -/
def unwindSenders : Nat → Sys → TcbPtr → Option Sys
  | 0, _, _ => none
  | fuel + 1, s, p =>
      match (s.tcb p).sendQueue with
      | none => some s
      | some q => (unwindIpc tcbCount s q).bind fun s' => unwindSenders fuel s' p

/-- `free_thread`. -/
def freeThread (s : Sys) (p : TcbPtr) : Option Sys :=
  ((unwindIpc tcbCount s p).bind fun s' => unwindSenders tcbCount s' p).map
    fun s' => threadDequeueReady s' p

/-- `free_tcb`. -/
def freeTcb (s : Sys) (p : TcbPtr) : Sys :=
  (threadDequeuePresent s p).upd p fun t => { t with myself := nilId, threadState := .aborted }

/-- `delete_all_threads`, along the present list. -/
def deleteThreads (space : Nat) : List TcbPtr → Sys → Option Sys
  | [], s => some s
  | p :: rest, s =>
      if (s.tcb p).space = space then
        (freeThread s p).bind fun s' => deleteThreads space rest (freeTcb s' p)
      else deleteThreads space rest s

/-- `sys_task_new`; the memory of the task is the business of `delete_space` and of
the I/O mapping database. -/
def sysTaskNew (s : Sys) (task pager : Tid) (uip usp : Word) : Option Sys :=
  let task := setThread task 0
  let p := tidToTcb task
  if tidTask task = 0 then none
  else if tidTask (s.tcb s.current).myself = tidTask task then some s
  else
    let deleted :=
      if tcbExist s p then deleteThreads (s.tcb p).space s.present s else some s
    deleted.map fun s1 =>
      if pager = nilId then s1
      else startThread (createTcb s1 task none) p uip usp pager (s1.tcb s1.current).priority

/-- The end of `sys_lthread_ex_regs`: exchange the registers and the pager. -/
def exchangeRegs (s : Sys) (p : TcbPtr) (uip usp : Word) (pager : Tid) : Sys :=
  let s1 :=
    s.upd p fun t =>
      { t with
        usp := if usp = noDesc then t.usp else usp
        uip := if uip = noDesc then t.uip else uip
        pager := if pager = invalidId then t.pager else pager }
  if (s1.tcb p).threadState = .running then threadEnqueueReady s1 p else s1

/-- `sys_lthread_ex_regs`. -/
def sysLthreadExRegs (s : Sys) (threadno uip usp : Word) (pager : Tid) : Option Sys :=
  let c := s.tcb s.current
  let tid := setThread c.myself threadno
  let p := tidToTcb tid
  if ~~~(uip &&& usp) ≠ 0 ∧ tid ≠ c.myself then
    if tcbExist s p then
      (unwindIpc tcbCount s p).map fun s1 =>
        exchangeRegs (s1.upd p fun t => { t with threadState := .running }) p uip usp pager
    else some (startThread (createTcb s tid (some c.space)) p uip usp pager c.priority)
  else some (exchangeRegs s p uip usp pager)

/-! ### Interrupts -/

/-- `handle_interrupt`. -/
def handleInterrupt (s : Sys) (number : Nat) : Sys :=
  match s.interruptOwner number with
  | none => s
  | some p =>
      let t := s.tcb p
      let irq : Word := BitVec.ofNat 32 (number + 1)
      if isWaiting t.threadState ∧ (t.partner = irq ∨ t.partner = nilId) then
        let s1 := s.upd p fun t => { t with intrPending := irq ||| irqInService }
        if t.priority ≤ (s.tcb s.current).priority then
          threadEnqueueReady (s1.upd p fun t => { t with threadState := .lockedRunning }) p
        else
          let s2 := if s.current = .idle then s1 else threadEnqueueReady s1 s.current
          switchTo s2 p .user
      else s.upd p fun t => { t with intrPending := irq }

/-- The part of `ipc_handle_kernel_id` behind the timeout: wait for the interrupt. -/
def kernelIdWait (s : Sys) (p : TcbPtr) (dest : Tid) : Sys :=
  let partner := if dest = nilId then invalidId else dest
  switchTo (s.upd p fun t => { t with partner := partner, threadState := .waiting }) .idle
    (.kernelWait dest)

/-- `ipc_handle_kernel_id` with the `return_ipc_args` around it. -/
def ipcHandleKernelId (s : Sys) (p : TcbPtr) (dest : Tid) : Sys :=
  let t := s.tcb p
  if isInterruptId dest ∧ t.intrPending = dest then
    -- interrupt is pending, receive it
    returnIpcArgs (s.upd p fun t => { t with intrPending := irqInService ||| dest }) p dest 0
  else if t.ipcTimeout.rcvExp = 0 then kernelIdWait s p dest
  else
    let us := timeoutUs t.ipcTimeout.rcvExp t.ipcTimeout.rcvMan
    if us = 0 then
      -- interrupt association: detach from all interrupts, then attach
      let owner := fun i => if s.interruptOwner i = some p then none else s.interruptOwner i
      if isInterruptId dest then
        if owner (interruptId dest) = none then
          returnIpcArgs
            { s with interruptOwner := Function.update owner (interruptId dest) (some p) } p dest
            ipcErrRecvTimeout
        else returnIpcArgs { s with interruptOwner := owner } p dest ipcErrExist
      else returnIpcArgs { s with interruptOwner := owner } p dest ipcErrRecvTimeout
    else
      let s1 := s.upd p fun t => { t with absoluteTimeout := us + s.clock }
      kernelIdWait (threadEnqueueWakeup s1 p) p dest

/-! ### The system call -/

/-- `transfer_message`: a message with a descriptor beyond the register words goes
through `extended_transfer`, which takes the receiver out of the wakeup queue and
leaves `dope` in its descriptor. -/
def transferMessage (s : Sys) (src dst : TcbPtr) (sndDesc dope : Word) : Sys :=
  let f := s.tcb src
  let s1 := s.upd dst fun t => { t with w0 := f.w0, w1 := f.w1, w2 := f.w2 }
  if sndDesc &&& 0xfffffffe ≠ 0 then
    ((threadDequeueWakeup s1 dst).upd dst fun t => { t with msgDesc := dope }).upd src
      fun t => { t with threadState := .running }
  else s1.upd dst fun t => { t with msgDesc := 0 }

/-- The waiting branch of the receive phase, with its timeout. -/
def recvBlock (s : Sys) (p : TcbPtr) (toTcb : Option TcbPtr) (partner : Tid) : Sys :=
  let t := s.tcb p
  let block := fun s : Sys =>
    switchTo (s.upd p fun t => { t with partner := partner, threadState := .waiting })
      (toTcb.getD .idle) .recvWait
  if t.ipcTimeout.rcvExp = 0 then block s
  else
    let us := timeoutUs t.ipcTimeout.rcvExp t.ipcTimeout.rcvMan
    if us = 0 then returnIpc s p (.err ipcErrRecvTimeout)
    else
      block (threadEnqueueWakeup (s.upd p fun t => { t with absoluteTimeout := us + s.clock }) p)

/-- The branch of the receive phase in which the partner is ready to send. -/
def recvFromReady (s : Sys) (p : TcbPtr) (toTcb : Option TcbPtr) (src : TcbPtr) : Sys :=
  let s1 := threadEnqueueReady (s.upd src fun t => { t with threadState := .lockedRunning }) src
  let s2 := threadDequeueSend s1 p src
  let s3 := s2.upd p fun t => { t with threadState := .lockedWaiting }
  switchTo (threadDequeueWakeup s3 src) (toTcb.getD src) .recvReady

/-- The receive phase once `from_tcb` is known. -/
def recvFrom (s : Sys) (p : TcbPtr) (toTcb : Option TcbPtr) (rcvDesc : Word) (src : Option TcbPtr) :
    Sys :=
  let s1 := s.upd p fun t => { t with msgDesc := rcvDesc }
  let isOpen := rcvDesc &&& 1 = 1
  match src with
  | none => recvBlock s1 p toTcb nilId
  | some q =>
      if ¬isPolling (s.tcb q).threadState ∨ (s.tcb q).partner ≠ (s.tcb p).myself then
        recvBlock s1 p toTcb (if isOpen then nilId else (s.tcb q).myself)
      else recvFromReady s1 p toTcb q

/-- The receive phase of `sys_ipc`; `toTcb` is the receiver of a preceding send. -/
def recvPhase (s : Sys) (p : TcbPtr) (toTcb : Option TcbPtr) (dest : Tid) (rcvDesc : Word) : Sys :=
  let pending := (s.tcb p).intrPending
  let s0 := if pending &&& irqInService ≠ 0 then s.upd p fun t => { t with intrPending := 0 } else s
  if rcvDesc &&& 1 = 1 then
    let irq := (s0.tcb p).intrPending
    if irq ≠ 0 then
      let s1 := s0.upd p fun t => { t with intrPending := irqInService ||| irq }
      match toTcb with
      | some q =>
          switchTo (threadEnqueueReady (s1.upd p fun t => { t with threadState := .running }) p) q
            (.irqSwitch irq)
      | none => returnIpcArgs (s1.upd p fun t => { t with msgDesc := 0 }) p irq 0
    else recvFrom s0 p toTcb rcvDesc (s0.tcb p).sendQueue
  else if isKernelId dest then
    ipcHandleKernelId (s0.upd p fun t => { t with msgDesc := 0 }) p dest
  else if (s0.tcb (tidToTcb dest)).myself ≠ dest then returnIpc s0 p (.err ipcErrExist)
  else recvFrom s0 p toTcb rcvDesc (some (tidToTcb dest))

/-- The send phase once the receiver is ready: transfer, then switch or receive. -/
def sendTransfer (s : Sys) (p : TcbPtr) (dest : Tid) (sndDesc rcvDesc dope : Word) : Sys :=
  let q := tidToTcb dest
  let s1 := transferMessage s p q sndDesc dope
  let s2 := s1.upd q fun t => { t with partner := (s1.tcb p).myself }
  if rcvDesc = noDesc then
    switchTo (threadEnqueueReady (s2.upd p fun t => { t with threadState := .running }) p) q
      .sendSwitch
  else recvPhase s2 p (some q) dest rcvDesc

/-- The send phase when the receiver is not ready: poll. -/
def sendPoll (s : Sys) (p : TcbPtr) (dest : Tid) (sndDesc rcvDesc : Word) : Sys :=
  let q := tidToTcb dest
  let t := s.tcb p
  let poll := fun s : Sys =>
    switchTo ((threadEnqueueSend s q p).upd p fun t => { t with threadState := .polling }) .idle
      (.sendPoll dest sndDesc rcvDesc)
  if q = p then returnIpc s p (.err ipcErrExist)
  else if t.ipcTimeout.sndExp = 0 then poll s
  else
    let us := timeoutUs t.ipcTimeout.sndExp t.ipcTimeout.sndMan
    if us = 0 then returnIpc s p (.err ipcErrSendTimeout)
    else poll (threadEnqueueWakeup (s.upd p fun t => { t with absoluteTimeout := us + s.clock }) p)

/-- `sys_ipc`. -/
def sysIpc (s : Sys) (p : TcbPtr) (dest : Tid) (sndDesc rcvDesc dope : Word) : Sys :=
  if sndDesc = noDesc then recvPhase s p none dest rcvDesc
  else
    let q := tidToTcb dest
    if (s.tcb q).myself = dest then
      let s1 := s.upd p fun t => { t with partner := dest }
      if ¬isWaiting (s1.tcb q).threadState ∨
          ((s1.tcb q).partner ≠ (s1.tcb p).myself ∧ (s1.tcb q).partner ≠ nilId) then
        sendPoll s1 p dest sndDesc rcvDesc
      else sendTransfer s1 p dest sndDesc rcvDesc dope
    else returnIpc s p (.err ipcErrExist)

/-- The thread that has been switched to goes on behind its own switch. -/
def resume (s : Sys) (p : TcbPtr) (dope : Word) : Sys :=
  let t := s.tcb p
  let s := s.upd p fun t => { t with cont := .user }
  match t.cont with
  | .user => s
  | .sendSwitch => returnIpc s p (.err 0)
  | .irqSwitch irq => returnIpcArgs (s.upd p fun t => { t with msgDesc := 0 }) p irq 0
  | .recvWait =>
      if t.threadState = .running then returnIpc s p (.err ipcErrRecvTimeout)
      else
        let s1 := (threadDequeueWakeup s p).upd p fun t => { t with threadState := .running }
        returnIpcArgs s1 p t.partner 0
  | .recvReady =>
      returnIpcArgs (s.upd p fun t => { t with threadState := .running }) p t.partner 0
  | .kernelWait dest =>
      if t.threadState = .running then returnIpcArgs s p dest ipcErrRecvTimeout
      else
        let s1 := (threadDequeueWakeup s p).upd p fun t => { t with threadState := .running }
        returnIpcArgs s1 p dest 0
  | .sendPoll dest sndDesc rcvDesc =>
      if t.threadState = .running then returnIpc s p (.err ipcErrSendTimeout)
      else sendTransfer (threadDequeueWakeup s p) p dest sndDesc rcvDesc dope

/-! ### Other system calls -/

/-- `sys_thread_switch`. -/
def sysThreadSwitch (s : Sys) (tid : Tid) : Option Sys :=
  let s1 := threadEnqueueReady s s.current
  let p := tidToTcb tid
  if tid ≠ nilId ∧ (s1.tcb p).myself = tid ∧ isRunning (s1.tcb p).threadState then
    some (dispatchThread s1 p)
  else (findNextThread s1).map fun r => dispatchThread r.1 r.2

/-- `sys_schedule`: the priority, which is the low byte of the parameter word. -/
def sysSchedule (s : Sys) (param : Word) (tid : Tid) : Sys :=
  let p := tidToTcb tid
  let prio := (param &&& 0xff).toNat
  if (s.tcb p).myself ≠ tid ∨ param = noDesc ∨ prio = (s.tcb p).priority then s
  else if (s.tcb p).queueReady then
    threadEnqueueReady ((threadDequeueReady s p).upd p fun t => { t with priority := prio }) p
  else s.upd p fun t => { t with priority := prio }

/-! ### The transition system -/

/-- What makes the kernel run. -/
inductive Event where
  /-- the running thread calls `sys_ipc` with these registers; a long message will
  be received with descriptor `dope`, and `faults` says whether copying it takes a
  page fault -/
  | ipc (dest : Tid) (sndDesc rcvDesc : Word) (timeout : Timeout) (w0 w1 w2 dope : Word)
      (faults : Bool := false)
  | exRegs (threadno uip usp : Word) (pager : Tid)
  | taskNew (task pager : Tid) (uip usp : Word)
  | threadSwitch (tid : Tid)
  | schedule (param : Word) (tid : Tid)
  | timer
  | irq (number : Nat)
  /-- the thread that was switched to goes on inside the kernel -/
  | resume (dope : Word) (faults : Bool := false)
  /-- one turn of the idle loop -/
  | idle
  deriving DecidableEq

/-- The running thread is in user mode, where it can be interrupted; the idle
thread counts as such. -/
def interruptible (s : Sys) : Prop := (s.ipc s.current).cont = .user

instance (s : Sys) : Decidable (interruptible s) := inferInstanceAs (Decidable (_ = _))

/-- A thread is running, in user mode. -/
def inUser (s : Sys) : Prop := s.current ≠ .idle ∧ interruptible s

instance (s : Sys) : Decidable (inUser s) := inferInstanceAs (Decidable (_ ∧ _))

/-- The entry of `sys_ipc`: the registers are stored in the control block. -/
def storeRegs (s : Sys) (p : TcbPtr) (timeout : Timeout) (w0 w1 w2 : Word) : Sys :=
  s.upd p fun t => { t with ipcTimeout := timeout, w0 := w0, w1 := w1, w2 := w2 }

/-- One stretch of kernel code.  A long message is copied in one go: where `faults` is
set, the step leaves out the IPC with the pagers in the middle of the copy. -/
def step (s : Sys) : Event → Option Sys
  | .ipc dest sndDesc rcvDesc timeout w0 w1 w2 dope _ =>
      if inUser s then
        some (sysIpc (storeRegs s s.current timeout w0 w1 w2) s.current dest sndDesc rcvDesc dope)
      else none
  | .exRegs threadno uip usp pager =>
      if inUser s then sysLthreadExRegs s threadno uip usp pager else none
  | .taskNew task pager uip usp => if inUser s then sysTaskNew s task pager uip usp else none
  | .threadSwitch tid => if inUser s then sysThreadSwitch s tid else none
  | .schedule param tid => if inUser s then some (sysSchedule s param tid) else none
  | .timer => if interruptible s then handleTimerInterrupt s else none
  | .irq number => if interruptible s then some (handleInterrupt s number) else none
  | .resume dope _ => if interruptible s then none else some (resume s s.current dope)
  | .idle =>
      if s.current = .idle then (findNextThread s).map fun r => dispatchThread r.1 r.2 else none

/-! ### The state after booting -/

/-- `L4_SIGMA0_ID`: version 1, thread 0, task 2, chief 4. -/
def sigma0Id : Tid := 0x04020001

/-- `L4_ROOT_TASK_ID`: version 1, thread 0, task 4, chief 4. -/
def rootTaskId : Tid := 0x04040001

/-- A TCB that reads as zeroes. -/
def zeroTcb : Tcb where
  myself := nilId
  threadState := .free
  partner := nilId
  sendQueue := none
  sendPrev := none
  sendNext := none
  space := 0
  cont := .user
  w0 := 0
  w1 := 0
  w2 := 0
  ipcTimeout := 0
  msgDesc := 0
  pager := nilId
  queueReady := false
  priority := 0
  timeslice := 0
  currentTimeslice := 0
  absoluteTimeout := 0
  readyPrev := none
  readyNext := none
  intrPending := 0
  uip := 0
  usp := 0
  ret := none

/-- Before `final_init`: only the idle thread is there, which never wakes up, and which owns
the interrupts that are not given out.  Space 0 is the kernel's. -/
def bootSys : Sys where
  tcb := fun p =>
    match p with
    | .idle => { zeroTcb with
        myself := 0x12345678, absoluteTimeout := 0xffffffff, timeslice := defaultTimeslice }
    | .slot _ => zeroTcb
  current := .idle
  wakeup := []
  present := []
  prioQueue := fun _ => none
  currentMaxPrio := -1
  interruptOwner := fun i => if i = 0 ∨ i = 2 ∨ i = 8 then some .idle else none
  clock := 0
  nextSpace := 1

/-- `final_init`: the thread of the nil id, which gets an invalid id, sigma0 and the
root task. -/
def initSys : Sys :=
  let s0 := createTcb bootSys nilId (some 0)
  let s1 := s0.upd (tidToTcb nilId) fun t => { t with myself := invalidId }
  let s2 := startThread (createTcb s1 sigma0Id none) (tidToTcb sigma0Id) 0 0 nilId 50
  startThread (createTcb s2 rootTaskId none) (tidToTcb rootTaskId) 0 0 sigma0Id 50

/-- A run of the kernel from the booted state. -/
inductive Reachable : Sys → Prop
  | init : Reachable initSys
  | step {s s' : Sys} (e : Event) : Reachable s → Hazelnut.step s e = some s' → Reachable s'

end Hazelnut
