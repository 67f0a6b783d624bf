import Mathlib.Algebra.Group.Nat.Defs
import Mathlib.Logic.Function.Basic
import Mathlib.Data.List.Basic

/-!
Thread ids, thread states, thread control blocks and the state of the
uniprocessor kernel, after `kernel/include/thread.h`, `kernel/include/tcb.h`
and `kernel/include/ipc.h`.

* `Tid`: the 32-bit thread id, with the bit fields of `l4_threadid_t`; `tidToTcb`
  reads the TCB slot off it, version and chief being ignored.
* `ThreadState`: the thread states, with the words that encode them; the tests
  `isWaiting`, `isPolling` and `isRunning` are the bit tests of the macros.
* `Cont`: where a thread that is not running stands inside the kernel, that is,
  what it does when it is switched to; it takes the place of the kernel stack.
* `Tcb`: the control block.  The part the rendezvous depends on is `IpcPart`.
* `Sys`: all control blocks with the global variables of the scheduler.

The present list and the wakeup queue, which are only ever walked from the idle
TCB, are lists; the send queues and the ready queues are kept as links.
-/

namespace Hazelnut

/-- `dword_t`. -/
abbrev Word := BitVec 32

instance : LawfulBEq Word := inferInstance

/-- `l4_threadid_t`: from the low end, version (10 bits), thread (6), task (8) and
chief (8). -/
abbrev Tid := BitVec 32

/-- `L4_NIL_ID`. -/
def nilId : Tid := 0

/-- `L4_INVALID_ID`. -/
def invalidId : Tid := 0xffffffff

/-- `x0id.task`. -/
def tidTask (t : Tid) : BitVec 8 := t.extractLsb' 16 8

/-- `IS_KERNEL_ID`. -/
def isKernelId (t : Tid) : Prop := tidTask t = 0

instance (t : Tid) : Decidable (isKernelId t) := inferInstanceAs (Decidable (_ = _))

/-- `IS_INTERRUPT_ID`, which is only asked of kernel ids. -/
def isInterruptId (t : Tid) : Prop := t ≠ 0

instance (t : Tid) : Decidable (isInterruptId t) := inferInstanceAs (Decidable (_ ≠ _))

/-- `INTERRUPT_ID`. -/
def interruptId (t : Tid) : Nat := (t - 1).toNat

/-- The assignment `tid.x0id.thread = n`, which keeps six bits of `n`. -/
def setThread (t : Tid) (n : Word) : Tid :=
  (t &&& 0xffff03ff) ||| ((n &&& 0x3f) <<< 10)

/-- A pointer to a TCB: the dedicated one of the idle thread, or a slot of the
TCB area, which is indexed by task and thread number. -/
inductive TcbPtr where
  | idle
  | slot (n : BitVec 14)
  deriving DecidableEq, Repr

/-- `tid_to_tcb`. -/
def tidToTcb (t : Tid) : TcbPtr := .slot (t.extractLsb' 10 14)

/-! ### Thread states -/

/-- The thread states of the uniprocessor kernel.  `free` is the zero word that
is read in a TCB nobody has created yet. -/
inductive ThreadState where
  | free
  | running
  | polling
  | lockedWaiting
  | lockedRunning
  | aborted
  | waiting
  deriving DecidableEq, Repr

/-- The state words: bit 0 is `TSB_READY`, bit 1 `TSB_POLLING`, bit 2
`TSB_LOCKED`, in negative logic. -/
def ThreadState.raw : ThreadState → Word
  | free => 0
  | running => 0x6
  | polling => 0x5
  | lockedWaiting => 0x3
  | lockedRunning => 0x2
  | aborted => 0x7
  | waiting => 0xffffffff

/-- `IS_WAITING`. -/
def isWaiting (t : ThreadState) : Prop := ~~~t.raw = 0

/-- `IS_POLLING`. -/
def isPolling (t : ThreadState) : Prop := t.raw &&& ~~~ThreadState.polling.raw = 0

/-- `IS_RUNNING`. -/
def isRunning (t : ThreadState) : Prop := t.raw &&& ~~~ThreadState.running.raw = 0

instance (t : ThreadState) : Decidable (isWaiting t) := inferInstanceAs (Decidable (_ = _))
instance (t : ThreadState) : Decidable (isPolling t) := inferInstanceAs (Decidable (_ = _))
instance (t : ThreadState) : Decidable (isRunning t) := inferInstanceAs (Decidable (_ = _))

@[simp] lemma isWaiting_iff (t : ThreadState) : isWaiting t ↔ t = .waiting := by
  cases t <;> decide

@[simp] lemma isPolling_iff (t : ThreadState) : isPolling t ↔ t = .polling ∨ t = .free := by
  cases t <;> decide

@[simp] lemma isRunning_iff (t : ThreadState) :
    isRunning t ↔ t = .running ∨ t = .lockedRunning ∨ t = .free := by
  cases t <;> decide

/-! ### Timeouts -/

/-- `timeout_t`, with its bit fields. -/
abbrev Timeout := BitVec 32

def Timeout.rcvExp (t : Timeout) : Nat := (t.extractLsb' 0 4).toNat
def Timeout.sndExp (t : Timeout) : Nat := (t.extractLsb' 4 4).toNat
def Timeout.sndMan (t : Timeout) : Nat := (t.extractLsb' 16 8).toNat
def Timeout.rcvMan (t : Timeout) : Nat := (t.extractLsb' 24 8).toNat

/-- `TIMEOUT(exp, man)`: the product is formed in a 32-bit `int` and then widened
to a `qword_t`. -/
def timeoutUs (exp man : Nat) : BitVec 64 :=
  (((1 : BitVec 32) <<< (2 * (15 - exp))) * BitVec.ofNat 32 man).signExtend 64

/-! ### Control blocks -/

/-- The point inside the kernel at which a thread that is switched to goes on. -/
inductive Cont where
  /-- in user mode, or on the way there -/
  | user
  /-- `sys_ipc`, behind the switch of the polling sender -/
  | sendPoll (dest : Tid) (sndDesc rcvDesc : Word)
  /-- `sys_ipc`, behind the switch of a send without receive phase -/
  | sendSwitch
  /-- `sys_ipc`, behind the switch in an open wait with a pending interrupt -/
  | irqSwitch (irq : Word)
  /-- `sys_ipc`, behind the switch of the waiting receiver -/
  | recvWait
  /-- `sys_ipc`, behind the switch to a partner that was ready to send -/
  | recvReady
  /-- `ipc_handle_kernel_id`, behind the switch -/
  | kernelWait (dest : Tid)
  deriving DecidableEq, Repr

/-- What a thread finds in its registers when an IPC returns: `return_ipc` hands
over an error only, `return_ipc_args` also the partner and the message words. -/
inductive IpcReturn where
  | err (error : Word)
  | args (sender : Tid) (dope w0 w1 w2 : Word)
  deriving DecidableEq, Repr

/-- The fields of a control block on which the rendezvous, and the eligibility of
the thread, depend. -/
structure IpcPart where
  myself : Tid
  threadState : ThreadState
  partner : Tid
  sendQueue : Option TcbPtr
  sendPrev : Option TcbPtr
  sendNext : Option TcbPtr
  space : Nat
  cont : Cont
  timeslice : Int

/-- `tcb_t`. -/
structure Tcb extends IpcPart where
  w0 : Word
  w1 : Word
  w2 : Word
  ipcTimeout : Timeout
  msgDesc : Word
  pager : Tid
  /-- bit `TS_QUEUE_READY` of `queue_state` -/
  queueReady : Bool
  priority : Nat
  currentTimeslice : Int
  absoluteTimeout : BitVec 64
  readyPrev : Option TcbPtr
  readyNext : Option TcbPtr
  intrPending : Word
  uip : Word
  usp : Word
  /-- the result of the last IPC that returned -/
  ret : Option IpcReturn

/-- The state of the kernel: control blocks, scheduler variables and the clock. -/
structure Sys where
  tcb : TcbPtr → Tcb
  current : TcbPtr
  /-- the threads behind the idle TCB in the wakeup queue -/
  wakeup : List TcbPtr
  /-- the threads behind the idle TCB in the present list -/
  present : List TcbPtr
  prioQueue : Nat → Option TcbPtr
  currentMaxPrio : Int
  interruptOwner : Nat → Option TcbPtr
  clock : BitVec 64
  /-- the next space that `create_space` returns -/
  nextSpace : Nat

/-- `tcb_exist`. -/
def tcbExist (s : Sys) (p : TcbPtr) : Prop := (s.tcb p).myself ≠ nilId

instance (s : Sys) (p : TcbPtr) : Decidable (tcbExist s p) :=
  inferInstanceAs (Decidable (_ ≠ _))

namespace Sys

/-- An assignment to fields of one control block. -/
def upd (s : Sys) (p : TcbPtr) (f : Tcb → Tcb) : Sys :=
  { s with tcb := Function.update s.tcb p (f (s.tcb p)) }

/-- An assignment through a pointer: through `NULL` it reaches no control block. -/
def updPtr (s : Sys) (p : Option TcbPtr) (f : Tcb → Tcb) : Sys :=
  match p with
  | none => s
  | some p => s.upd p f

/-- What the rendezvous depends on, of a whole kernel state. -/
def ipc (s : Sys) (p : TcbPtr) : IpcPart := (s.tcb p).toIpcPart

end Sys

end Hazelnut
