import Hazelnut.Thread.Ipc

/-!
`lthread_ex_regs` for a thread of another processor: `smp_ex_regs` and `do_xcpu_thread_ex_regs` of
`kernel/src/x86/smp.c` beside `sys_lthread_ex_regs` of `kernel/src/thread.c`.

* `ExTcb`: what the two paths read and write of a thread.
* `unwindStack`, `unwindRegs`: `unwind_ipc`, as far as it concerns the thread itself.
* `exRegsHere`: the system call on the processor of the thread; `doXcpuThreadExRegs` and `smpExRegs`
  the other path; `exRegsSmp` the choice between them, with its retries.
* `exRegsSmp_iff`: when both give the same.
-/

namespace Hazelnut

/-! ### Threads -/

/-- `X86_USER_FLAGS`, with I/O flexpages. -/
def x86UserFlags : Word := 0x202

/-- The thread states of the multiprocessor kernel. -/
inductive SmpState where
  | running
  | aborted
  | waiting
  | polling
  | lockedWaiting
  | lockedRunning
  | xcpuLockedWaiting
  | xcpuLockedRunning
  deriving DecidableEq, Repr

/-- The fields of a `tcb_t`, and of its kernel stack, that the two paths work on.  `sysenter` is
`is_ipc_sysenter`; `unwindIpcSp` is a recorded stack pointer, as what `is_ipc_sysenter` finds with
it. `remote` tells whether unwinding the partner comes to a thread of another processor. -/
structure ExTcb where
  cpu : Nat
  uip : Word
  usp : Word
  uflags : Word
  pager : Tid
  threadState : SmpState
  partner : Tid
  sysenter : Bool
  unwindIpcSp : Option Bool
  remote : Bool
  deriving DecidableEq

/-- The end of `unwind_ipc`.  On a new user stack frame the stack is too high for `is_ipc_sysenter`,
so that the check behind it adds nothing to the user stack pointer. -/
def unwindStack (t : ExTcb) : ExTcb :=
  match t.unwindIpcSp with
  | none => { t with uflags := x86UserFlags, sysenter := false }
  | some b => { t with sysenter := b, unwindIpcSp := none }

/-- The two locked states: whether the partner has to be unwound by another processor. -/
def unwindLocked (t : ExTcb) : ExTcb × Bool :=
  (unwindStack { t with threadState := .aborted }, !decide (isKernelId t.partner) && t.remote)

/-- `unwind_ipc`, on the processor of the thread. -/
def unwindRegs (t : ExTcb) : ExTcb × Bool :=
  match t.threadState with
  | .running => (t, false)
  | .aborted => (t, false)
  | .waiting => (unwindStack t, false)
  | .polling => (unwindStack t, false)
  | .lockedWaiting => unwindLocked t
  | .xcpuLockedWaiting => (unwindStack t, false)
  | .xcpuLockedRunning => unwindLocked t
  | .lockedRunning => unwindLocked t

/-! ### The paths -/

/-- What `lthread_ex_regs` returns. -/
structure ExResult where
  uip : Word
  usp : Word
  pager : Tid
  flags : Word
  deriving DecidableEq

/-- `~(uip & usp)`: one of the two is given. -/
def isGiven (uip usp : Word) : Prop := ~~~(uip &&& usp) ≠ 0

instance (uip usp : Word) : Decidable (isGiven uip usp) := inferInstanceAs (Decidable (_ ≠ _))

def setUserSp (t : ExTcb) (usp : Word) : ExTcb := if usp = noDesc then t else { t with usp := usp }

def setUserIp (t : ExTcb) (uip : Word) : ExTcb := if uip = noDesc then t else { t with uip := uip }

def setPager (t : ExTcb) (pager : Tid) : ExTcb :=
  if pager = invalidId then t else { t with pager := pager }

/-- The redirection of a thread that returns through `sysexit`. -/
def redirect (sep : Bool) (uip usp : Word) (t : ExTcb) : ExTcb :=
  if sep = true ∧ isGiven uip usp ∧ t.sysenter = true then
    { t with usp := t.usp + 16, sysenter := false }
  else t

/-- `sys_lthread_ex_regs` for another thread that exists, on its processor; `sep` is
`CONFIG_IA32_FEATURE_SEP`. -/
def exRegsHere (sep : Bool) (uip usp : Word) (pager : Tid) (t : ExTcb) : ExTcb × ExResult :=
  let t := if isGiven uip usp then { (unwindRegs t).1 with threadState := .running } else t
  let t := redirect sep uip usp t
  (setPager (setUserIp (setUserSp t usp) uip) pager, ⟨t.uip, t.usp, t.pager, t.uflags⟩)

/-- A `cpu_mailbox_t`. -/
structure ExMailbox where
  param : Nat → Word
  tid : Tid

/-- `do_xcpu_thread_ex_regs` on processor `c`: the thread, and the mailbox when the first status is
set; none for `MAILBOX_ERROR`.  `MAILBOX_UNWIND_REMOTE` is set while the IPC is unwound. -/
def doXcpuThreadExRegs (c : Nat) (mb : ExMailbox) (t : ExTcb) : Option (ExTcb × ExMailbox) :=
  if t.cpu ≠ c then none
  else
    let (t, handed) := unwindRegs t
    let sp := t.usp
    let t := if mb.param 1 = noDesc then t else { t with usp := mb.param 0 }
    let ip := t.uip
    let t := setUserIp t (mb.param 0)
    let old := t.pager
    let t := { setPager t mb.tid with threadState := .running }
    let done : ExMailbox :=
      { param := Function.update (Function.update mb.param 1 sp) 0 ip, tid := old }
    some (t, if handed then mb else done)

/-- `smp_ex_regs`, with the processor that is asked; none if it returns 0. -/
def smpExRegs (c : Nat) (mb : ExMailbox) (uip usp : Word) (pager : Tid) (t : ExTcb) :
    Option (ExTcb × ExResult) :=
  let mb : ExMailbox :=
    { param := Function.update (Function.update mb.param 0 uip) 1 usp, tid := pager }
  (doXcpuThreadExRegs c mb t).map fun (t, mb) => (t, ⟨mb.param 0, mb.param 1, mb.tid, mb.param 3⟩)

/-- `sys_lthread_ex_regs` on processor `me`.  Each function of the list is what becomes of the
thread until a request is handled.  The result is the thread as it was when the call took hold of
it, and what the call does; none if the list is used up. -/
def exRegsSmp (sep : Bool) (me : Nat) (mb : ExMailbox) (uip usp : Word) (pager : Tid) :
    List (ExTcb → ExTcb) → ExTcb → Option (ExTcb × ExTcb × ExResult)
  | [], t =>
      if ¬isGiven uip usp ∨ t.cpu = me then some (t, exRegsHere sep uip usp pager t) else none
  | others :: rest, t =>
      if ¬isGiven uip usp ∨ t.cpu = me then some (t, exRegsHere sep uip usp pager t)
      else
        match smpExRegs t.cpu mb uip usp pager (others t) with
        | none => exRegsSmp sep me mb uip usp pager rest (others t)
        | some r => some (others t, r)

/-! ### The comparison -/

/-- The same registers, pager and state of the thread, and the same results. -/
def SameExRegs (a b : ExTcb × ExResult) : Prop :=
  a.1.uip = b.1.uip ∧ a.1.usp = b.1.usp ∧ a.1.pager = b.1.pager ∧
    a.1.threadState = b.1.threadState ∧ a.2 = b.2

/-- When a remote call does what a local one does: the mailbox happens to hold the flags, the stack
pointer is omitted or the same as the instruction pointer, nobody has to be redirected from
`sysexit`, and where another processor is needed for unwinding the arguments are the old values
already. -/
def RemoteAgrees (sep : Bool) (mb : ExMailbox) (uip usp : Word) (pager : Tid) (t : ExTcb) : Prop :=
  let u := (unwindRegs t).1
  let v := redirect sep uip usp u
  mb.param 3 = u.uflags ∧ (if usp = noDesc then v.usp = u.usp else usp = uip) ∧
    if (unwindRegs t).2 then uip = u.uip ∧ usp = v.usp ∧ pager = u.pager else v.usp = u.usp

section compare

variable {sep : Bool} {me c : Nat} {mb : ExMailbox} {uip usp : Word} {pager : Tid} {t t' : ExTcb}

@[simp] lemma redirect_uip : (redirect sep uip usp t).uip = t.uip := by
  rw [redirect]
  split_ifs <;> rfl

@[simp] lemma redirect_pager : (redirect sep uip usp t).pager = t.pager := by
  rw [redirect]
  split_ifs <;> rfl

@[simp] lemma redirect_uflags : (redirect sep uip usp t).uflags = t.uflags := by
  rw [redirect]
  split_ifs <;> rfl

/-- Whether a thread is redirected does not depend on its state. -/
lemma redirect_running :
    redirect sep uip usp { t with threadState := .running } =
      { redirect sep uip usp t with threadState := .running } := by
  rw [redirect, redirect]
  split_ifs <;> rfl

lemma exRegsHere_of_given (h : isGiven uip usp) :
    exRegsHere sep uip usp pager t =
      ({ redirect sep uip usp (unwindRegs t).1 with
          uip := if uip = noDesc then (unwindRegs t).1.uip else uip
          usp := if usp = noDesc then (redirect sep uip usp (unwindRegs t).1).usp else usp
          pager := if pager = invalidId then (unwindRegs t).1.pager else pager
          threadState := .running },
        ⟨(unwindRegs t).1.uip, (redirect sep uip usp (unwindRegs t).1).usp, (unwindRegs t).1.pager,
          (unwindRegs t).1.uflags⟩) := by
  rw [exRegsHere, if_pos h, redirect_running, setPager, setUserIp, setUserSp]
  split_ifs <;> simp

/-- What the handler does to a thread of its processor. -/
lemma doXcpuThreadExRegs_eq :
    doXcpuThreadExRegs t.cpu mb t =
      some ({ (unwindRegs t).1 with
          uip := if mb.param 0 = noDesc then (unwindRegs t).1.uip else mb.param 0
          usp := if mb.param 1 = noDesc then (unwindRegs t).1.usp else mb.param 0
          pager := if mb.tid = invalidId then (unwindRegs t).1.pager else mb.tid
          threadState := .running },
        if (unwindRegs t).2 then mb
        else
          { param := Function.update (Function.update mb.param 1 (unwindRegs t).1.usp) 0
              (unwindRegs t).1.uip
            tid := (unwindRegs t).1.pager }) := by
  rw [doXcpuThreadExRegs, if_neg (not_not.mpr rfl)]
  dsimp only
  rw [setUserIp, setPager]
  congr 2
  · split_ifs <;> rfl
  · split_ifs <;> rfl

lemma smpExRegs_eq :
    smpExRegs t.cpu mb uip usp pager t =
      some ({ (unwindRegs t).1 with
          uip := if uip = noDesc then (unwindRegs t).1.uip else uip
          usp := if usp = noDesc then (unwindRegs t).1.usp else uip
          pager := if pager = invalidId then (unwindRegs t).1.pager else pager
          threadState := .running },
        if (unwindRegs t).2 then ⟨uip, usp, pager, mb.param 3⟩
        else ⟨(unwindRegs t).1.uip, (unwindRegs t).1.usp, (unwindRegs t).1.pager, mb.param 3⟩) := by
  rw [smpExRegs, doXcpuThreadExRegs_eq, Option.map_some]
  cases (unwindRegs t).2 <;> simp [Function.update]

/-- The remote path against the local one, for a call that takes it. -/
lemma smpExRegs_same_iff (hg : isGiven uip usp) {r : ExTcb × ExResult}
    (h : smpExRegs t.cpu mb uip usp pager t = some r) :
    SameExRegs r (exRegsHere sep uip usp pager t) ↔ RemoteAgrees sep mb uip usp pager t := by
  rw [smpExRegs_eq] at h
  cases h
  rw [exRegsHere_of_given hg, SameExRegs, RemoteAgrees]
  dsimp only
  generalize redirect sep uip usp (unwindRegs t).1 = v
  generalize (unwindRegs t).1 = u
  have hsp : (if usp = noDesc then u.usp else uip) = (if usp = noDesc then v.usp else usp) ↔
      if usp = noDesc then v.usp = u.usp else usp = uip := by
    split_ifs
    · exact eq_comm
    · exact eq_comm
  rw [hsp]
  cases (unwindRegs t).2 with
  | false =>
    rw [if_neg Bool.false_ne_true, if_neg Bool.false_ne_true, ExResult.mk.injEq]
    constructor
    · exact fun ⟨_, h, _, _, _, hv, _, hf⟩ => ⟨hf, h, hv.symm⟩
    · exact fun ⟨hf, h, hv⟩ => ⟨rfl, h, rfl, rfl, rfl, hv.symm, rfl, hf⟩
  | true =>
    rw [if_pos rfl, if_pos rfl, ExResult.mk.injEq]
    constructor
    · exact fun ⟨_, h, _, _, hip, hv, hp, hf⟩ => ⟨hf, h, hip, hv, hp⟩
    · exact fun ⟨hf, h, hip, hv, hp⟩ => ⟨rfl, h, rfl, rfl, hip, hv, hp, hf⟩

/-- **Remote and local calls**: the call does what it would do on the processor of the thread if it
leaves the thread as it is, if the thread has come to the caller, or if the remote path agrees. -/
theorem exRegsSmp_iff (sep : Bool) (me : Nat) (mb : ExMailbox) (uip usp : Word) (pager : Tid)
    (others : List (ExTcb → ExTcb)) (t t' : ExTcb) (r : ExTcb × ExResult)
    (h : exRegsSmp sep me mb uip usp pager others t = some (t', r)) :
    SameExRegs r (exRegsHere sep uip usp pager t') ↔
      ¬isGiven uip usp ∨ t'.cpu = me ∨ RemoteAgrees sep mb uip usp pager t' := by
  have hhere : ∀ t : ExTcb, SameExRegs (exRegsHere sep uip usp pager t)
      (exRegsHere sep uip usp pager t) :=
    fun _ => ⟨rfl, rfl, rfl, rfl, rfl⟩
  induction others generalizing t with
  | nil =>
    rw [exRegsSmp] at h
    split_ifs at h with hlocal
    cases h
    exact ⟨fun _ => hlocal.imp_right Or.inl, fun _ => hhere _⟩
  | cons w rest ih =>
    rw [exRegsSmp] at h
    split_ifs at h with hlocal
    · cases h
      exact ⟨fun _ => hlocal.imp_right Or.inl, fun _ => hhere _⟩
    · obtain ⟨hg, hme⟩ := not_or.mp hlocal
      cases hr : smpExRegs t.cpu mb uip usp pager (w t) with
      | none =>
        rw [hr] at h
        exact ih (w t) h
      | some r' =>
        rw [hr] at h
        cases h
        have hcpu : (w t).cpu = t.cpu := by
          by_contra hne
          rw [smpExRegs, doXcpuThreadExRegs, if_pos hne] at hr
          cases hr
        rw [← hcpu] at hr hme
        rw [smpExRegs_same_iff (not_not.mp hg) hr]
        constructor
        · exact fun ha => Or.inr (Or.inr ha)
        · rintro (h₁ | h₁ | h₁)
          · exact absurd h₁ hg
          · exact absurd h₁ hme
          · exact h₁

end compare

/-- A thread of processor 1 that runs in user mode. -/
def runningThread : ExTcb where
  cpu := 1
  uip := 0x1000
  usp := 0x2000
  uflags := 0x202
  pager := 0x400
  threadState := .running
  partner := nilId
  sysenter := false
  unwindIpcSp := none
  remote := false

/-- A mailbox that holds the flags of a user thread. -/
def flagsMailbox : ExMailbox := ⟨fun _ => 0x202, nilId⟩

/-- Processor 0 gives the thread a new instruction pointer. -/
theorem exRegsSmp_ip :
    ∃ r, exRegsSmp true 0 flagsMailbox 0x3000 noDesc invalidId [id] runningThread
        = some (runningThread, r) ∧
      SameExRegs r (exRegsHere true 0x3000 noDesc invalidId runningThread) :=
  ⟨_, rfl, (exRegsSmp_iff true 0 flagsMailbox 0x3000 noDesc invalidId
    [id] runningThread runningThread _
    rfl).mpr (Or.inr (Or.inr ⟨by decide, by decide, by decide⟩))⟩

/-- With a stack pointer as well the thread gets the instruction pointer for it. -/
theorem exRegsSmp_sp :
    ∃ r, exRegsSmp true 0 flagsMailbox 0x3000 0x4000 invalidId [id] runningThread
        = some (runningThread, r) ∧
      r.1.usp = 0x3000 ∧ (exRegsHere true 0x3000 0x4000 invalidId runningThread).1.usp = 0x4000 :=
  ⟨_, rfl, by decide, by decide⟩

end Hazelnut
