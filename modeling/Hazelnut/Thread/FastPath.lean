import Hazelnut.Thread.Deliver

/-!
The fast path of the IPC system call, after `ipc_sysenter` in `kernel/src/x86/exception.S`
for large address spaces.

* `FastSys`: the kernel with the resources of the threads, the code that they return to from
  `sys_ipc`, and the user registers they return with.
* `slowPath`, `goOn`: `sys_ipc` called by `sysenter`, and a thread that goes on in the kernel.
* `FastTaken`, `fastPath`, `fastRet`: the tests of the fast path, what it does, and what the
  sender does later.
* `fastPath_agrees`: the fast path does what `sys_ipc` does.  It leaves in the control blocks
  what nobody reads before it is overwritten: the message goes through the registers.
-/

namespace Hazelnut

/-- What a thread returns to from `sys_ipc`, with `return_from_sys_ipc` for `sysenter` and
`ipc_fastpath_ret` for `fastRet`. -/
inductive Stub
  | int48
  | sysenter
  | fastRet
  /-- code of the kernel that has called `sys_ipc` itself -/
  | kernel
  deriving DecidableEq

/-- The kernel; `resources` and `unwind_ipc_sp` of the threads; and where they are in user
mode. -/
structure FastSys where
  sys : Sys
  resources : TcbPtr → Word
  unwindIpcSp : TcbPtr → Word
  stub : TcbPtr → Stub
  eip : TcbPtr → Word
  esp : TcbPtr → Word

/-- `TR_IPC_MEM` and `TR_FPU`. -/
def trIpcMem : Word := 0x3
def trFpu : Word := 0x4

/-- The resources behind `save_resources`. -/
def savedResources (w : Word) : Word := w &&& ~~~(trIpcMem ||| trFpu)

namespace FastSys

variable (m : FastSys)

/-- A thread returns to user mode, if it has not been switched away from.  Behind `sysenter` the
stub at user level moves the first word of the message, and there are four words on the
stack. -/
def leave (p : TcbPtr) : FastSys :=
  let t := m.sys.tcb p
  if t.cont = .user then
    match m.stub p with
    | .int48 =>
      { m with eip := Function.update m.eip p t.uip, esp := Function.update m.esp p t.usp }
    | .kernel => m
    | _ =>
      { m with
        eip := Function.update m.eip p (t.uip - 2)
        esp := Function.update m.esp p (t.usp + 16) }
  else m

/-- The kernel has run for the thread `p`; `switch_to_thread` saves its resources. -/
def ran (p : TcbPtr) (s : Sys) : FastSys :=
  { m with
    sys := s
    resources :=
      if s.current = p then m.resources
      else Function.update m.resources p (savedResources (m.resources p)) }

/-- The entry by `sysenter` with the call of `sys_ipc`. -/
def slowPath (dest : Tid) (sndDesc rcvDesc : Word) (timeout : Timeout) (w0 w1 w2 dope : Word) :
    FastSys :=
  let p := m.sys.current
  let m1 := { m with stub := Function.update m.stub p .sysenter }
  (m1.ran p (sysIpc (storeRegs m.sys p timeout w0 w1 w2) p dest sndDesc rcvDesc dope)).leave p

/-- `ipc_fastpath_ret`. -/
def fastRet (s : Sys) (p : TcbPtr) : Sys :=
  s.upd p fun t =>
    { t with
      threadState := .running
      ret := some (.args t.partner t.msgDesc t.w0 t.w1 t.w2)
      cont := .user }

/-- The running thread goes on in the kernel. -/
def goOn (dope : Word) : FastSys :=
  let p := m.sys.current
  (m.ran p (if m.stub p = .fastRet then fastRet m.sys p else resume m.sys p dope)).leave p

/-- The tests of the fast path. -/
def FastTaken (dest : Tid) (sndDesc rcvDesc : Word) (timeout : Timeout) : Prop :=
  let t := m.sys.tcb (tidToTcb dest)
  let c := m.sys.tcb m.sys.current
  sndDesc ||| rcvDesc ||| timeout = 0 ∧ t.myself = dest ∧
    (t.threadState.raw + 1) ||| m.unwindIpcSp (tidToTcb dest) ||| m.resources (tidToTcb dest) |||
      c.intrPending = 0 ∧
    (t.partner = 0 ∨ t.partner = c.myself)

/-- The fast path. -/
def fastPath (dest : Tid) (w0 w1 w2 : Word) : FastSys :=
  let p := m.sys.current
  let q := tidToTcb dest
  let sender := (m.sys.tcb p).myself
  let s1 :=
    m.sys.upd p fun t =>
      { t with partner := dest, msgDesc := 0, threadState := .waiting, cont := .recvWait }
  let s2 :=
    s1.upd q fun t =>
      { t with threadState := .running, ret := some (.args sender 0 w0 w1 w2), cont := .user }
  { m with
    sys := { s2 with current := q }
    stub := Function.update m.stub p .fastRet
    eip := Function.update m.eip q ((m.sys.tcb q).uip - 2)
    esp := Function.update m.esp q ((m.sys.tcb q).usp + 16) }

/-- The thread will return to `b`. -/
def setStub (p : TcbPtr) (b : Stub) : FastSys := { m with stub := Function.update m.stub p b }

end FastSys

/-- Two ways to return to user mode do not differ. -/
structure SameReturn (f g : FastSys) : Prop where
  sys : f.sys = g.sys
  resources : f.resources = g.resources
  eip : f.eip = g.eip
  esp : f.esp = g.esp

/-- The state behind the fast path is that behind `sys_ipc`, up to what `sys_ipc` leaves in the
control blocks of the sender `p` and the receiver `q`: the message words, and the partner and the
message descriptor of the receiver. -/
structure FastAgree (p q : TcbPtr) (f g : FastSys) : Prop where
  state : ∀ r, (f.sys.tcb r).threadState = (g.sys.tcb r).threadState
  partner : ∀ r, r ≠ q → (f.sys.tcb r).partner = (g.sys.tcb r).partner
  msgDesc : ∀ r, r ≠ q → (f.sys.tcb r).msgDesc = (g.sys.tcb r).msgDesc
  words : ∀ r, r ≠ p → r ≠ q → (f.sys.tcb r).w0 = (g.sys.tcb r).w0 ∧
    (f.sys.tcb r).w1 = (g.sys.tcb r).w1 ∧ (f.sys.tcb r).w2 = (g.sys.tcb r).w2
  ready : f.sys.prioQueue = g.sys.prioQueue ∧ f.sys.currentMaxPrio = g.sys.currentMaxPrio ∧
    ∀ r, (f.sys.tcb r).queueReady = (g.sys.tcb r).queueReady ∧
      (f.sys.tcb r).readyPrev = (g.sys.tcb r).readyPrev ∧
      (f.sys.tcb r).readyNext = (g.sys.tcb r).readyNext
  wakeup : f.sys.wakeup = g.sys.wakeup
  send : ∀ r, (f.sys.tcb r).sendQueue = (g.sys.tcb r).sendQueue ∧
    (f.sys.tcb r).sendPrev = (g.sys.tcb r).sendPrev ∧
    (f.sys.tcb r).sendNext = (g.sys.tcb r).sendNext
  cont : ∀ r, (f.sys.tcb r).cont = (g.sys.tcb r).cont
  resources : f.resources = g.resources
  current : f.sys.current = g.sys.current
  returned : ∀ r, (f.sys.tcb r).ret = (g.sys.tcb r).ret
  user : f.eip = g.eip ∧ f.esp = g.esp

variable {s : Sys} {m : FastSys} {p q r : TcbPtr} {dest : Tid}
    {sndDesc rcvDesc w0 w1 w2 dope : Word}
  {timeout : Timeout}

/-! ### The slow path -/

lemma Sys.upd_upd_self (s : Sys) (p : TcbPtr) (f g : Tcb → Tcb) :
    (s.upd p f).upd p g = s.upd p fun t => g (f t) := by
  simp [Sys.upd]

lemma Sys.upd_comm (s : Sys) (h : p ≠ q) (f g : Tcb → Tcb) :
    (s.upd p f).upd q g = (s.upd q g).upd p f := by
  simp only [Sys.upd, Function.update_of_ne h, Function.update_of_ne h.symm]
  rw [Function.update_comm h]

/-- The receive phase that blocks behind a send to the thread `q`. -/
lemma recvPhase_waiting (hc : s.current = p) (hne : q ≠ p) (hq : q = tidToTcb dest)
    (hmy : (s.tcb q).myself = dest) (hwait : (s.tcb q).threadState = .waiting)
    (hintr : (s.tcb p).intrPending = 0) (htime : (s.tcb p).ipcTimeout = 0)
    (hk : ¬isKernelId dest) : recvPhase s p (some q) dest 0 =
      { s.upd p fun t =>
          { t with msgDesc := 0, partner := dest, threadState := .waiting, cont := .recvWait } with
        current := q } := by
  subst hq
  have hpend : ¬(s.tcb p).intrPending &&& irqInService ≠ 0 := by rw [hintr]; decide
  have hopen : ¬(0 : Word) &&& 1 = 1 := by decide
  unfold recvPhase
  dsimp only
  rw [if_neg hpend, if_neg hopen, if_neg hk, if_neg (not_not.mpr hmy)]
  unfold recvFrom
  dsimp only
  rw [hwait, if_pos (.inl (by decide)), if_neg hopen, hmy]
  unfold recvBlock
  dsimp only
  rw [Sys.upd_tcb_self, htime, if_pos (by decide), Sys.upd_upd_self]
  unfold switchTo
  rw [show (s.upd p _).current = p from hc, Sys.upd_upd_self]
  rfl

/-- A short message. -/
lemma transferMessage_short (s : Sys) (p q : TcbPtr) (dope : Word) :
    transferMessage s p q 0 dope = s.upd q fun t =>
      { t with w0 := (s.tcb p).w0, w1 := (s.tcb p).w1, w2 := (s.tcb p).w2, msgDesc := 0 } := by
  unfold transferMessage
  dsimp only
  rw [if_neg (by decide), Sys.upd_upd_self]

/-- `sys_ipc` with the arguments of the fast path hands the message over and switches. -/
lemma sysIpc_waiting (hc : s.current = p) (hne : q ≠ p) (hq : q = tidToTcb dest)
    (hmy : (s.tcb q).myself = dest) (hwait : (s.tcb q).threadState = .waiting)
    (hpart : (s.tcb q).partner = nilId ∨ (s.tcb q).partner = (s.tcb p).myself)
    (hintr : (s.tcb p).intrPending = 0) (hk : ¬isKernelId dest) :
    sysIpc (storeRegs s p 0 w0 w1 w2) p dest 0 0 dope =
      { (s.upd p fun t =>
          { t with
            ipcTimeout := 0, w0 := w0, w1 := w1, w2 := w2, partner := dest, msgDesc := 0
            threadState := .waiting, cont := .recvWait }).upd q fun t =>
          { t with w0 := w0, w1 := w1, w2 := w2, msgDesc := 0, partner := (s.tcb p).myself } with
        current := q } := by
  -- behind the assignment of the partner
  have hs1 : (storeRegs s p 0 w0 w1 w2).upd p (fun t => { t with partner := dest }) =
      s.upd p fun t =>
        { t with ipcTimeout := 0, w0 := w0, w1 := w1, w2 := w2, partner := dest } := by
    rw [storeRegs, Sys.upd_upd_self]
  have hq1 : (storeRegs s p 0 w0 w1 w2).tcb q = s.tcb q := by
    rw [storeRegs, Sys.upd_tcb_other _ hne]
  unfold sysIpc
  dsimp only
  rw [if_neg (by decide), ← hq, hq1, if_pos hmy, hs1, Sys.upd_tcb_other _ hne, Sys.upd_tcb_self,
    if_neg (by simp only [hwait]; tauto)]
  unfold sendTransfer
  dsimp only
  rw [← hq, transferMessage_short, if_neg (by decide), Sys.upd_tcb_other _ hne.symm,
    Sys.upd_tcb_self,
    Sys.upd_upd_self]
  have hp2 : ∀ f : Tcb → Tcb, ((s.upd p fun t =>
      { t with ipcTimeout := 0, w0 := w0, w1 := w1, w2 := w2, partner := dest }).upd q f).tcb p =
      { s.tcb p with ipcTimeout := 0, w0 := w0, w1 := w1, w2 := w2, partner := dest } := by
    intro f
    rw [Sys.upd_tcb_other _ hne.symm, Sys.upd_tcb_self]
  have hq2 : ∀ f : Tcb → Tcb, ((s.upd p fun t =>
      { t with ipcTimeout := 0, w0 := w0, w1 := w1, w2 := w2, partner := dest }).upd q f).tcb q =
      f (s.tcb q) := by
    intro f
    rw [Sys.upd_tcb_self, Sys.upd_tcb_other _ hne]
  rw [recvPhase_waiting (by exact hc) hne hq (by rw [hq2]; exact hmy) (by rw [hq2]; exact hwait)
    (by rw [hp2]; exact hintr) (by rw [hp2]) hk, Sys.upd_comm _ hne, Sys.upd_upd_self]

/-- A receiver that goes on in `sys_ipc` does what `ipc_fastpath_ret` does, unless the message
has not come or it is in the wakeup queue. -/
lemma resume_waited (hcont : (s.tcb q).cont = .recvWait)
    (hstate : (s.tcb q).threadState ≠ .running) (hwakeup : q ∉ s.wakeup) :
    resume s q dope = FastSys.fastRet s q := by
  have hdequeue : ∀ f, threadDequeueWakeup (s.upd q f) q = s.upd q f := by
    intro f
    have hfilter : s.wakeup.filter (· ≠ q) = s.wakeup :=
      List.filter_eq_self.mpr fun r hr => by simpa using fun he : r = q => hwakeup (he ▸ hr)
    unfold threadDequeueWakeup
    rw [Sys.upd_wakeup, hfilter]
    rfl
  unfold resume
  dsimp only
  rw [hcont]
  dsimp only
  rw [if_neg hstate, hdequeue, Sys.upd_upd_self]
  unfold returnIpcArgs returnIpc
  dsimp only
  rw [Sys.upd_tcb_self, Sys.upd_upd_self]
  simp [FastSys.fastRet, Sys.upd]

/-! ### The tests -/

/-- What the tests of the fast path establish. -/
lemma FastSys.FastTaken.cases (h : m.FastTaken dest sndDesc rcvDesc timeout) :
    (sndDesc = 0 ∧ rcvDesc = 0 ∧ timeout = 0) ∧ (m.sys.tcb (tidToTcb dest)).myself = dest ∧
      (m.sys.tcb (tidToTcb dest)).threadState = .waiting ∧
      (m.sys.tcb m.sys.current).intrPending = 0 ∧
      ((m.sys.tcb (tidToTcb dest)).partner = nilId ∨
        (m.sys.tcb (tidToTcb dest)).partner = (m.sys.tcb m.sys.current).myself) := by
  obtain ⟨hdesc, hmy, htest, hpart⟩ := h
  have hzero : ∀ {v w : Word}, v ||| w = 0 → v = 0 ∧ w = 0 := fun h => BitVec.or_eq_zero_iff.mp h
  obtain ⟨hdesc, htime⟩ := hzero hdesc
  obtain ⟨htest, hintr⟩ := hzero htest
  refine ⟨⟨(hzero hdesc).1, (hzero hdesc).2, htime⟩, hmy, ?_, hintr, hpart⟩
  have hraw := (hzero (hzero htest).1).1
  cases hstate : (m.sys.tcb (tidToTcb dest)).threadState with
  | waiting => rfl
  | free | running | polling | lockedWaiting | lockedRunning | aborted =>
      rw [hstate] at hraw
      exact absurd hraw (by decide)

/-- Resources that are not in use need not be saved. -/
lemma savedResources_eq {w : Word} (h : w &&& (trIpcMem ||| trFpu) = 0) : savedResources w = w := by
  unfold savedResources
  refine BitVec.eq_of_getLsbD_eq fun i hi => ?_
  have hbit : (w.getLsbD i && (trIpcMem ||| trFpu).getLsbD i) = false := by
    rw [← BitVec.getLsbD_and, h]
    exact BitVec.getLsbD_zero
  rw [BitVec.getLsbD_and, BitVec.getLsbD_not]
  generalize (trIpcMem ||| trFpu).getLsbD i = b at hbit ⊢
  cases hw : w.getLsbD i <;> simp_all

/-! ### Agreement -/

/-- What the fast path takes for granted: the sender has no resources to be saved, and the
receiver waits in `sys_ipc`, to return from there to `sysenter`, and is not to be taken out of the
wakeup queue; or it waits in the fast path itself. -/
structure FastFits (m : FastSys) (dest : Tid) : Prop where
  resources : m.resources m.sys.current &&& (trIpcMem ||| trFpu) = 0
  cont : (m.sys.tcb (tidToTcb dest)).cont = .recvWait
  stub : m.stub (tidToTcb dest) = .sysenter ∧ tidToTcb dest ∉ m.sys.wakeup ∨
    m.stub (tidToTcb dest) = .fastRet

/-- A thread that goes on behind its wait, by either way. -/
lemma goOn_sys (hc : m.sys.current = q) (hcont : (m.sys.tcb q).cont = .recvWait)
    (hstub : (m.sys.tcb q).threadState ≠ .running ∧ q ∉ m.sys.wakeup ∨ m.stub q = .fastRet)
    (hway : m.stub q = .sysenter ∨ m.stub q = .fastRet) :
    m.goOn dope =
      { m with
        sys := FastSys.fastRet m.sys q
        eip := Function.update m.eip q ((m.sys.tcb q).uip - 2)
        esp := Function.update m.esp q ((m.sys.tcb q).usp + 16) } := by
  have hsys : (if m.stub q = .fastRet then FastSys.fastRet m.sys q else resume m.sys q dope) =
      FastSys.fastRet m.sys q := by
    by_cases hfast : m.stub q = .fastRet
    · rw [if_pos hfast]
    · obtain ⟨hstate, hwakeup⟩ := hstub.resolve_right hfast
      rw [if_neg hfast, resume_waited hcont hstate hwakeup]
  have huser : (FastSys.fastRet m.sys q).tcb q = { m.sys.tcb q with
      threadState := .running
      ret := some (.args (m.sys.tcb q).partner (m.sys.tcb q).msgDesc (m.sys.tcb q).w0
        (m.sys.tcb q).w1 (m.sys.tcb q).w2)
      cont := .user } := Sys.upd_tcb_self ..
  unfold FastSys.goOn
  dsimp only
  rw [hc, hsys]
  unfold FastSys.ran FastSys.leave
  dsimp only
  rw [huser, if_pos rfl, if_pos (show (FastSys.fastRet m.sys q).current = q from hc)]
  rcases hway with hway | hway <;> rw [hway]

/-- The state behind `sys_ipc`, when the receiver has been switched to. -/
def FastSys.handed (m : FastSys) (dest : Tid) (w0 w1 w2 : Word) : Sys :=
  { (m.sys.upd m.sys.current fun t =>
      { t with
        ipcTimeout := 0, w0 := w0, w1 := w1, w2 := w2, partner := dest, msgDesc := 0
        threadState := .waiting, cont := .recvWait }).upd (tidToTcb dest) fun t =>
      { t with
        w0 := w0, w1 := w1, w2 := w2, msgDesc := 0
        partner := (m.sys.tcb m.sys.current).myself } with
    current := tidToTcb dest }

/-- The sender has called `sys_ipc` by `sysenter`, and its resources have been saved. -/
def FastSys.behind (m : FastSys) (dest : Tid) (w0 w1 w2 : Word) : FastSys :=
  { m with
    sys := m.handed dest w0 w1 w2
    stub := Function.update m.stub m.sys.current .sysenter
    resources := Function.update m.resources m.sys.current
      (savedResources (m.resources m.sys.current)) }

lemma slowPath_eq (hne : tidToTcb dest ≠ m.sys.current)
    (htaken : m.FastTaken dest sndDesc rcvDesc timeout) (hdest : ¬isKernelId dest) :
    m.slowPath dest sndDesc rcvDesc timeout w0 w1 w2 dope = m.behind dest w0 w1 w2 := by
  obtain ⟨⟨rfl, rfl, rfl⟩, hmy, hwait, hintr, hpart⟩ := htaken.cases
  unfold FastSys.slowPath
  dsimp only
  rw [sysIpc_waiting rfl hne rfl hmy hwait hpart hintr hdest]
  unfold FastSys.ran FastSys.leave
  dsimp only
  rw [if_neg hne, Sys.upd_tcb_other _ hne.symm, Sys.upd_tcb_self]
  rfl

/-- A field agrees if it does in the control blocks of the sender and the receiver. -/
lemma field_agrees {α : Type} (φ : Tcb → α) (r : TcbPtr)
    (hq : r = tidToTcb dest → φ ((m.fastPath dest w0 w1 w2).sys.tcb (tidToTcb dest)) =
      φ ((FastSys.fastRet (m.handed dest w0 w1 w2) (tidToTcb dest)).tcb (tidToTcb dest)))
    (hp : r = m.sys.current → φ ((m.fastPath dest w0 w1 w2).sys.tcb m.sys.current) =
      φ ((m.handed dest w0 w1 w2).tcb m.sys.current)) :
    φ ((m.fastPath dest w0 w1 w2).sys.tcb r) =
      φ ((FastSys.fastRet (m.handed dest w0 w1 w2) (tidToTcb dest)).tcb r) := by
  by_cases hr : r = tidToTcb dest
  · rw [hr, hq hr]
  · rw [show (FastSys.fastRet (m.handed dest w0 w1 w2) (tidToTcb dest)).tcb r =
      (m.handed dest w0 w1 w2).tcb r from Sys.upd_tcb_other _ hr _]
    by_cases hrp : r = m.sys.current
    · rw [hrp, hp hrp]
    · unfold FastSys.fastPath FastSys.handed
      dsimp only
      rw [Sys.upd_tcb_other _ hr, Sys.upd_tcb_other _ hrp, Sys.upd_tcb_other _ hr,
        Sys.upd_tcb_other _ hrp]

section Blocks

variable (hne : tidToTcb dest ≠ m.sys.current) (w0 w1 w2 : Word)
include hne

lemma handed_receiver : (m.handed dest w0 w1 w2).tcb (tidToTcb dest) =
    { m.sys.tcb (tidToTcb dest) with
      w0 := w0, w1 := w1, w2 := w2, msgDesc := 0
      partner := (m.sys.tcb m.sys.current).myself } := by
  unfold FastSys.handed
  rw [Sys.upd_tcb_self, Sys.upd_tcb_other _ hne]

lemma handed_sender : (m.handed dest w0 w1 w2).tcb m.sys.current =
    { m.sys.tcb m.sys.current with
      ipcTimeout := 0, w0 := w0, w1 := w1, w2 := w2, partner := dest, msgDesc := 0
      threadState := .waiting, cont := .recvWait } := by
  unfold FastSys.handed
  rw [Sys.upd_tcb_other _ hne.symm, Sys.upd_tcb_self]

lemma fastPath_receiver : (m.fastPath dest w0 w1 w2).sys.tcb (tidToTcb dest) =
    { m.sys.tcb (tidToTcb dest) with
      threadState := .running, ret := some (.args (m.sys.tcb m.sys.current).myself 0 w0 w1 w2)
      cont := .user } := by
  unfold FastSys.fastPath
  dsimp only
  rw [Sys.upd_tcb_self, Sys.upd_tcb_other _ hne]

lemma fastPath_sender : (m.fastPath dest w0 w1 w2).sys.tcb m.sys.current =
    { m.sys.tcb m.sys.current with
      partner := dest, msgDesc := 0, threadState := .waiting, cont := .recvWait } := by
  unfold FastSys.fastPath
  dsimp only
  rw [Sys.upd_tcb_other _ hne.symm, Sys.upd_tcb_self]

/-- What the receiver does in the end. -/
lemma returned_receiver : (FastSys.fastRet (m.handed dest w0 w1 w2) (tidToTcb dest)).tcb
      (tidToTcb dest) =
    { (m.handed dest w0 w1 w2).tcb (tidToTcb dest) with
      threadState := .running, ret := some (.args (m.sys.tcb m.sys.current).myself 0 w0 w1 w2)
      cont := .user } := by
  unfold FastSys.fastRet
  rw [Sys.upd_tcb_self, handed_receiver hne w0 w1 w2]

end Blocks

/-- **The fast path agrees with `sys_ipc`.**  The receiver returns with the same registers.  The
sender waits in the one or in the other; whatever the state in which it is switched to with a
message, it returns with the same registers, to the same state. -/
theorem fastPath_agrees (hin : inUser m.sys) (hdest : ¬isKernelId dest)
    (htaken : m.FastTaken dest sndDesc rcvDesc timeout) (hfits : FastFits m dest) (dope' : Word) :
    FastAgree m.sys.current (tidToTcb dest) (m.fastPath dest w0 w1 w2)
      ((m.slowPath dest sndDesc rcvDesc timeout w0 w1 w2 dope).goOn dope') ∧
    ∀ n : FastSys, n.sys.current = m.sys.current → (n.sys.tcb n.sys.current).cont = .recvWait →
      (n.sys.tcb n.sys.current).threadState ≠ .running → n.sys.current ∉ n.sys.wakeup →
      SameReturn
        ((n.setStub n.sys.current ((m.fastPath dest w0 w1 w2).stub n.sys.current)).goOn dope')
        ((n.setStub n.sys.current ((m.slowPath dest sndDesc rcvDesc timeout w0 w1 w2 dope).stub
          n.sys.current)).goOn dope') := by
  have hne : tidToTcb dest ≠ m.sys.current := by
    intro he
    have hcont := hfits.cont
    rw [he, show (m.sys.tcb m.sys.current).cont = .user from hin.2] at hcont
    exact absurd hcont (by decide)
  have hwait := htaken.cases.2.2.1
  rw [slowPath_eq hne htaken hdest]
  refine ⟨?_, fun n hc hcont hstate hwakeup => ?_⟩
  · have hstub : ∀ b, Function.update m.stub m.sys.current b (tidToTcb dest) =
        m.stub (tidToTcb dest) := fun b => Function.update_of_ne hne ..
    have hres : Function.update m.resources m.sys.current
        (savedResources (m.resources m.sys.current)) = m.resources := by
      rw [savedResources_eq hfits.resources, Function.update_eq_self]
    have hrecv := handed_receiver hne w0 w1 w2
    have hcont : ((m.handed dest w0 w1 w2).tcb (tidToTcb dest)).cont = .recvWait := by
      rw [hrecv]
      exact hfits.cont
    have hstate : ((m.handed dest w0 w1 w2).tcb (tidToTcb dest)).threadState ≠ .running := by
      rw [hrecv, hwait]
      decide
    rw [goOn_sys (m := m.behind dest w0 w1 w2) rfl hcont
      (hfits.stub.imp (fun h => ⟨hstate, h.2⟩) fun h => (hstub _).trans h)
      (hfits.stub.imp (fun h => (hstub _).trans h.1) fun h => (hstub _).trans h)]
    have hq := returned_receiver hne w0 w1 w2
    have hfq := fastPath_receiver hne w0 w1 w2
    have hp := handed_sender hne w0 w1 w2
    have hfp := fastPath_sender hne w0 w1 w2
    rw [hrecv] at hq
    -- the fields that both set, or that neither sets
    have hboth : ∀ {α : Type} (φ : Tcb → α),
        φ ((m.fastPath dest w0 w1 w2).sys.tcb (tidToTcb dest)) =
          φ ((FastSys.fastRet (m.handed dest w0 w1 w2) (tidToTcb dest)).tcb (tidToTcb dest)) →
        φ ((m.fastPath dest w0 w1 w2).sys.tcb m.sys.current) =
          φ ((m.handed dest w0 w1 w2).tcb m.sys.current) → ∀ r,
        φ ((m.fastPath dest w0 w1 w2).sys.tcb r) =
          φ ((FastSys.fastRet (m.handed dest w0 w1 w2) (tidToTcb dest)).tcb r) :=
      fun φ h1 h2 r => field_agrees φ r (fun _ => h1) fun _ => h2
    refine ⟨?_, fun r hr => ?_, fun r hr => ?_, fun r hrp hrq => ⟨?_, ?_, ?_⟩,
      ⟨rfl, rfl, fun r => ⟨?_, ?_, ?_⟩⟩, rfl, fun r => ⟨?_, ?_, ?_⟩, ?_, hres.symm, rfl, ?_, ?_, ?_⟩
    · exact hboth (·.threadState) (by rw [hfq, hq]) (by rw [hfp, hp])
    · exact field_agrees (·.partner) r (fun h => absurd h hr) fun _ => by rw [hfp, hp]
    · exact field_agrees (·.msgDesc) r (fun h => absurd h hr) fun _ => by rw [hfp, hp]
    · exact field_agrees (·.w0) r (fun h => absurd h hrq) fun h => absurd h hrp
    · exact field_agrees (·.w1) r (fun h => absurd h hrq) fun h => absurd h hrp
    · exact field_agrees (·.w2) r (fun h => absurd h hrq) fun h => absurd h hrp
    · exact hboth (·.queueReady) (by rw [hfq, hq]) (by rw [hfp, hp]) r
    · exact hboth (·.readyPrev) (by rw [hfq, hq]) (by rw [hfp, hp]) r
    · exact hboth (·.readyNext) (by rw [hfq, hq]) (by rw [hfp, hp]) r
    · exact hboth (·.sendQueue) (by rw [hfq, hq]) (by rw [hfp, hp]) r
    · exact hboth (·.sendPrev) (by rw [hfq, hq]) (by rw [hfp, hp]) r
    · exact hboth (·.sendNext) (by rw [hfq, hq]) (by rw [hfp, hp]) r
    · exact hboth (·.cont) (by rw [hfq, hq]) (by rw [hfp, hp])
    · exact hboth (·.ret) (by rw [hfq, hq]) (by rw [hfp, hp])
    · have huip : (m.sys.tcb (tidToTcb dest)).uip =
          ((m.handed dest w0 w1 w2).tcb (tidToTcb dest)).uip := by rw [hrecv]
      exact congrArg (fun v => Function.update m.eip (tidToTcb dest) (v - 2)) huip
    · have husp : (m.sys.tcb (tidToTcb dest)).usp =
          ((m.handed dest w0 w1 w2).tcb (tidToTcb dest)).usp := by rw [hrecv]
      exact congrArg (fun v => Function.update m.esp (tidToTcb dest) (v + 16)) husp
  · have hgo : ∀ b : Stub, b = .sysenter ∨ b = .fastRet →
        (n.setStub m.sys.current b).goOn dope' =
          { n with
            sys := FastSys.fastRet n.sys m.sys.current
            stub := Function.update n.stub m.sys.current b
            eip := Function.update n.eip m.sys.current ((n.sys.tcb m.sys.current).uip - 2)
            esp := Function.update n.esp m.sys.current ((n.sys.tcb m.sys.current).usp + 16) } := by
      intro b hb
      rw [hc] at hcont hstate hwakeup
      have hself : (n.setStub m.sys.current b).stub m.sys.current = b := Function.update_self ..
      exact goOn_sys (by exact hc) hcont (.inl ⟨hstate, hwakeup⟩) (by rw [hself]; exact hb)
    rw [hc, show (m.fastPath dest w0 w1 w2).stub m.sys.current = .fastRet from
      Function.update_self .., show (m.behind dest w0 w1 w2).stub m.sys.current = .sysenter from
      Function.update_self .., hgo _ (.inr rfl), hgo _ (.inl rfl)]
    exact ⟨rfl, rfl, rfl, rfl⟩

/-- The root task runs, and sigma0 waits for anybody; both have entered by `sysenter`. -/
def openWaitSys : FastSys where
  sys :=
    { (bootSys.upd (tidToTcb sigma0Id) fun t =>
        { t with
          myself := sigma0Id, threadState := .waiting, partner := nilId, cont := .recvWait
          msgDesc := 1 }).upd (tidToTcb rootTaskId) fun t =>
        { t with myself := rootTaskId, threadState := .running, cont := .user } with
      current := tidToTcb rootTaskId }
  resources := fun _ => 0
  unwindIpcSp := fun _ => 0
  stub := fun _ => .sysenter
  eip := fun _ => 0
  esp := fun _ => 0

/-- The words get to sigma0 by the fast path as they do by `sys_ipc`. -/
theorem fastPath_agrees_open :
    FastAgree (tidToTcb rootTaskId) (tidToTcb sigma0Id) (openWaitSys.fastPath sigma0Id 1 2 3)
      ((openWaitSys.slowPath sigma0Id 0 0 0 1 2 3 0).goOn 0) := by
  have htaken : openWaitSys.FastTaken sigma0Id 0 0 0 := by
    refine ⟨by decide, by decide, by decide, .inl (by decide)⟩
  have hfits : FastFits openWaitSys sigma0Id :=
    ⟨by decide, by decide, .inl ⟨by decide, List.not_mem_nil⟩⟩
  exact (fastPath_agrees (by decide) (by decide) htaken hfits 0).1

/-- The fast path does not write the partner and the message descriptor of the receiver. -/
theorem fastPath_leaves_partner : openWaitSys.FastTaken sigma0Id 0 0 0 ∧
    ((openWaitSys.fastPath sigma0Id 1 2 3).sys.tcb (tidToTcb sigma0Id)).partner ≠
      (((openWaitSys.slowPath sigma0Id 0 0 0 1 2 3 0).goOn 0).sys.tcb (tidToTcb sigma0Id)).partner ∧
    ((openWaitSys.fastPath sigma0Id 1 2 3).sys.tcb (tidToTcb sigma0Id)).msgDesc ≠
      (((openWaitSys.slowPath sigma0Id 0 0 0 1 2 3 0).goOn 0).sys.tcb
      (tidToTcb sigma0Id)).msgDesc := by
  refine ⟨⟨by decide, by decide, by decide, .inl (by decide)⟩, by decide, by decide⟩

end Hazelnut
