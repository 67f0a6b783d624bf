import Hazelnut.Thread.Deliver

/-!
Exactly-once delivery.

* `KernelWaits`: a thread that waits for an interrupt, or sleeps, has recorded a partner that
  no thread has as its id, so that no message is delivered to it.
* `DeliveredOnce`: the receiver of a message has been switched to, nothing else can happen
  before it goes on, and then it returns this message.
* `delivered_once`: in every run without a wrong turn, so is every message of a send phase
  that completes.

It does not hold of all runs: `delivered_late` is one in which a send is followed by a
receive with a timeout of zero.
-/

namespace Hazelnut

variable {s s' s'' : Sys} {p q r : TcbPtr}

/-! ### Waiting for an interrupt -/

/-- An id that no thread has. -/
def NoThread (t : Tid) : Prop := isKernelId t ∧ t ≠ nilId ∨ t = invalidId

/-- The partner that a wait for the kernel id `d` records. -/
def WaitsAs (partner d : Tid) : Prop :=
  isKernelId d ∧ partner = if d = nilId then invalidId else d

lemma WaitsAs.noThread {partner d : Tid} (h : WaitsAs partner d) : NoThread partner := by
  obtain ⟨hk, rfl⟩ := h
  split
  · exact .inr rfl
  · rename_i hne
    exact .inl ⟨hk, hne⟩

/-- A thread that waits in `ipc_handle_kernel_id` has a partner that is no thread. -/
def AwaitsKernel (t : IpcPart) : Prop :=
  t.threadState = .waiting → ∀ d, t.cont = .kernelWait d → WaitsAs t.partner d

def KernelWaits (s : Sys) : Prop := ∀ r, AwaitsKernel (s.ipc r)

lemma AwaitsKernel.of_state {t : IpcPart} (h : t.threadState ≠ .waiting) : AwaitsKernel t :=
  fun h1 => absurd h1 h

lemma AwaitsKernel.of_cont {t : IpcPart} (h : ∀ d, t.cont ≠ .kernelWait d) : AwaitsKernel t :=
  fun _ d h1 => absurd h1 (h d)

/-- A sender that goes on without a timeout has been picked by its receiver. -/
lemma Inv.picked (hi : Inv .none s) (hr : Resumes s p) {dest : Tid} {sndDesc rcvDesc : Word}
    (hc : (s.ipc p).cont = .sendPoll dest sndDesc rcvDesc)
    (hst : (s.ipc p).threadState ≠ .running) :
    (s.ipc (tidToTcb dest)).threadState = .lockedWaiting ∧ tidToTcb dest ≠ p := by
  have hlock : (s.ipc p).threadState = .lockedRunning := by
    rcases hi.sendPoll p dest sndDesc rcvDesc hr.existing hc with h | h | h
    · exact absurd hr.current.symm (hi.polling p hr.existing h (not_limbo_none s p)).1
    · exact h
    · exact absurd h hst
  obtain ⟨-, -, -, h4, h5⟩ := hi.locked p dest ⟨hr.existing, hlock, ⟨sndDesc, rcvDesc, hc⟩⟩
  exact ⟨h4, hr.current ▸ h5⟩

namespace KernelWaits

lemma upd (h : KernelWaits s) (q : TcbPtr) {f : Tcb → Tcb}
    (hf : AwaitsKernel (s.ipc q) → AwaitsKernel (f (s.tcb q)).toIpcPart) :
    KernelWaits (s.upd q f) := by
  intro r
  rw [Sys.upd_ipc]
  split
  · exact hf (h q)
  · exact h r

lemma same (h : KernelWaits s) (hs : SameIpc s s') : KernelWaits s' := fun r => by
  rw [hs.ipc]
  exact h r

/-- Links do not matter. -/
lemma ctl (h : KernelWaits s) (hs : SameCtl s s') : KernelWaits s' := fun r => by
  unfold AwaitsKernel
  rw [hs.threadState, hs.cont, hs.partner]
  exact h r

lemma enqueueReady (h : KernelWaits s) (r : TcbPtr) : KernelWaits (threadEnqueueReady s r) :=
  h.same (sameIpc_enqueueReady s r)

lemma enqueueWakeup (h : KernelWaits s) (r : TcbPtr) : KernelWaits (threadEnqueueWakeup s r) :=
  fun q => by rw [ipc_enqueueWakeup]; exact h q

lemma dequeueWakeup (h : KernelWaits s) (r : TcbPtr) : KernelWaits (threadDequeueWakeup s r) := h

lemma switchTo (h : KernelWaits s) (r : TcbPtr) {c : Cont}
    (hc : ∀ d, c = .kernelWait d → WaitsAs (s.ipc s.current).partner d) :
    KernelWaits (switchTo s r c) := by
  have h1 := h.upd s.current (f := fun t => { t with cont := c }) fun _ _ d hd => hc d hd
  exact fun q => h1 q

lemma returnIpc (h : KernelWaits s) (r : TcbPtr) (e : IpcReturn) : KernelWaits (returnIpc s r e) :=
  h.upd r fun _ => .of_cont fun d => by simp

lemma returnIpcArgs (h : KernelWaits s) (r : TcbPtr) (t : Tid) (e : Word) :
    KernelWaits (returnIpcArgs s r t e) := h.returnIpc r _

lemma makeRunning (h : KernelWaits s) (r : TcbPtr) : KernelWaits (makeRunning s r) :=
  (h.upd r fun _ => .of_state (by simp)).enqueueReady r

/-- The wait itself. -/
lemma kernelIdWait (h : KernelWaits s) (hc : s.current = p) (hu : (s.ipc p).cont = .user)
    {dest : Tid}
    (hk : isKernelId dest) : KernelWaits (kernelIdWait s p dest) := by
  unfold Hazelnut.kernelIdWait
  dsimp only
  have h1 := h.upd p (f := fun t =>
      { t with partner := if dest = nilId then invalidId else dest, threadState := .waiting })
    fun _ => .of_cont fun d hd => absurd (hu.symm.trans hd) (by simp)
  refine h1.switchTo _ fun d hd => ?_
  rw [Sys.upd_current, hc, Sys.upd_ipc, if_pos rfl, ← Cont.kernelWait.inj hd]
  exact ⟨hk, rfl⟩

lemma handleKernelId (h : KernelWaits s) (hc : s.current = p) (hu : (s.ipc p).cont = .user)
    {dest : Tid}
    (hk : isKernelId dest) : KernelWaits (ipcHandleKernelId s p dest) := by
  have hown : ∀ o, KernelWaits { s with interruptOwner := o } := fun _ => h
  unfold ipcHandleKernelId
  dsimp only
  split
  · exact (h.upd p fun h => h).returnIpcArgs _ _ _
  · split
    · exact h.kernelIdWait hc hu hk
    · split
      · split
        · split
          · split
            · exact (hown _).returnIpcArgs _ _ _
            · exact (hown _).returnIpcArgs _ _ _
          · split
            · exact (hown _).returnIpcArgs _ _ _
            · exact (hown _).returnIpcArgs _ _ _
        · exact (hown _).returnIpcArgs _ _ _
      · refine ((h.upd p fun h => h).enqueueWakeup p).kernelIdWait
          (by rw [current_enqueueWakeup]; exact hc) ?_ hk
        rw [ipc_enqueueWakeup, Sys.upd_ipc, if_pos rfl]
        exact hu

lemma recvBlock (h : KernelWaits s) (hu : (s.ipc p).cont = .user)
    (toTcb : Option TcbPtr) (partner : Tid) : KernelWaits (recvBlock s p toTcb partner) := by
  have hblock : ∀ {s1 : Sys}, KernelWaits s1 → (s1.ipc p).cont = .user → KernelWaits
      (Hazelnut.switchTo (s1.upd p fun t => { t with partner := partner, threadState := .waiting })
        (toTcb.getD .idle) .recvWait) := fun h1 hu1 =>
    (h1.upd p fun _ => .of_cont fun d hd => absurd (hu1.symm.trans hd) (by simp)).switchTo _
      (by simp)
  unfold Hazelnut.recvBlock
  dsimp only
  split
  · exact hblock h hu
  · split
    · exact h.returnIpc p _
    · refine hblock ((h.upd p fun h => h).enqueueWakeup p) ?_
      rw [ipc_enqueueWakeup, Sys.upd_ipc, if_pos rfl]
      exact hu

lemma recvFromReady (h : KernelWaits s) (toTcb : Option TcbPtr) (src : TcbPtr) :
    KernelWaits (recvFromReady s p toTcb src) := by
  unfold Hazelnut.recvFromReady
  dsimp only
  have h1 := ((h.upd src (f := fun t => { t with threadState := .lockedRunning })
    fun _ => .of_state (by simp)).enqueueReady src).ctl (sameCtl_dequeueSend _ p src)
  exact (((h1.upd p (f := fun t => { t with threadState := .lockedWaiting })
    fun _ => .of_state (by simp)).dequeueWakeup src).switchTo _ (by simp))

lemma recvFrom (h : KernelWaits s) (hu : (s.ipc p).cont = .user)
    (toTcb : Option TcbPtr) (rcvDesc : Word) (src : Option TcbPtr) :
    KernelWaits (recvFrom s p toTcb rcvDesc src) := by
  have h1 : KernelWaits (s.upd p fun t => { t with msgDesc := rcvDesc }) := h.upd p fun h => h
  have hu1 : ((s.upd p fun t => { t with msgDesc := rcvDesc }).ipc p).cont = .user := by
    rw [Sys.upd_ipc, if_pos rfl]; exact hu
  unfold Hazelnut.recvFrom
  dsimp only
  split
  · exact h1.recvBlock hu1 _ _
  · split
    · exact h1.recvBlock hu1 _ _
    · exact h1.recvFromReady _ _

/-- The receive phase. -/
lemma recvPhase (h : KernelWaits s) (hc : s.current = p) (hu : (s.ipc p).cont = .user)
    (toTcb : Option TcbPtr) (dest : Tid) (rcvDesc : Word) :
    KernelWaits (recvPhase s p toTcb dest rcvDesc) := by
  unfold Hazelnut.recvPhase
  dsimp only
  have h0 : KernelWaits (if (s.tcb p).intrPending &&& irqInService ≠ 0 then
      s.upd p fun t => { t with intrPending := 0 } else s) ∧
      (if (s.tcb p).intrPending &&& irqInService ≠ 0 then
        s.upd p fun t => { t with intrPending := 0 } else s).current = p ∧
      ((if (s.tcb p).intrPending &&& irqInService ≠ 0 then
        s.upd p fun t => { t with intrPending := 0 } else s).ipc p).cont = .user := by
    split
    · exact ⟨h.upd p fun h => h, hc, by rw [Sys.upd_ipc, if_pos rfl]; exact hu⟩
    · exact ⟨h, hc, hu⟩
  generalize (if (s.tcb p).intrPending &&& irqInService ≠ 0 then
      s.upd p fun t => { t with intrPending := 0 } else s) = s0 at h0 ⊢
  obtain ⟨h0, hc0, hu0⟩ := h0
  split
  · split
    · split
      · exact (((h0.upd p fun h => h).upd p fun _ => .of_state (by simp)).enqueueReady p).switchTo _
          (by simp)
      · exact ((h0.upd p fun h => h).upd p fun h => h).returnIpcArgs _ _ _
    · exact h0.recvFrom hu0 _ _ _
  · split
    · rename_i hk
      refine (h0.upd p fun h => h).handleKernelId hc0 ?_ hk
      rw [Sys.upd_ipc, if_pos rfl]
      exact hu0
    · split
      · exact h0.returnIpc p _
      · exact h0.recvFrom hu0 _ _ _

/-- The send phase, with what follows it. -/
lemma sendTransfer (h : KernelWaits s) (hc : s.current = p) (hu : (s.ipc p).cont = .user)
    {dest : Tid}
    (hne : tidToTcb dest ≠ p) (hq : (s.ipc (tidToTcb dest)).threadState ≠ .waiting ∨
      ∀ d, (s.ipc (tidToTcb dest)).cont ≠ .kernelWait d) (sndDesc rcvDesc dope : Word) :
    KernelWaits (sendTransfer s p dest sndDesc rcvDesc dope) := by
  have h2 : KernelWaits (transferred s p (tidToTcb dest) sndDesc dope) := fun r => by
    by_cases hrq : r = tidToTcb dest
    · have h3 := congrArg Tcb.toIpcPart (transferred_receiver (s := s) sndDesc dope hne)
      rw [hrq, show (transferred s p (tidToTcb dest) sndDesc dope).ipc (tidToTcb dest) = _ from h3]
      exact hq.elim (fun h => .of_state h) (fun h => .of_cont h)
    · by_cases hrp : r = p
      · obtain ⟨st, h3⟩ := transferred_sender (s := s) sndDesc dope hne
        rw [hrp, show (transferred s p (tidToTcb dest) sndDesc dope).ipc p = _ from
          congrArg Tcb.toIpcPart h3]
        exact .of_cont fun d hd => absurd (hu.symm.trans hd) (by simp)
      · rw [show (transferred s p (tidToTcb dest) sndDesc dope).ipc r = s.ipc r from
          congrArg Tcb.toIpcPart (transferred_other sndDesc dope hrp hrq)]
        exact h r
  have hu2 : ((transferred s p (tidToTcb dest) sndDesc dope).ipc p).cont = .user := by
    obtain ⟨st, h3⟩ := transferred_sender (s := s) sndDesc dope hne
    rw [show (transferred s p (tidToTcb dest) sndDesc dope).ipc p = _ from
      congrArg Tcb.toIpcPart h3]
    exact hu
  have hc2 : (transferred s p (tidToTcb dest) sndDesc dope).current = p :=
    (transferred_current sndDesc dope).trans hc
  rw [show Hazelnut.sendTransfer s p dest sndDesc rcvDesc dope =
    if rcvDesc = noDesc then
      Hazelnut.switchTo (threadEnqueueReady
          ((transferred s p (tidToTcb dest) sndDesc dope).upd p fun t =>
        { t with threadState := .running }) p) (tidToTcb dest) .sendSwitch
    else Hazelnut.recvPhase (transferred s p (tidToTcb dest) sndDesc dope) p
      (some (tidToTcb dest)) dest
      rcvDesc from rfl]
  generalize transferred s p (tidToTcb dest) sndDesc dope = s2 at h2 hu2 hc2 ⊢
  split
  · exact ((h2.upd p fun _ => .of_state (by simp)).enqueueReady p).switchTo _ (by simp)
  · exact h2.recvPhase hc2 hu2 _ _ _

lemma sendPoll (h : KernelWaits s) (dest : Tid) (sndDesc rcvDesc : Word) :
    KernelWaits (sendPoll s p dest sndDesc rcvDesc) := by
  have hpoll : ∀ {s1 : Sys}, KernelWaits s1 → KernelWaits (Hazelnut.switchTo
      ((threadEnqueueSend s1 (tidToTcb dest) p).upd p fun t => { t with threadState := .polling })
      .idle
      (.sendPoll dest sndDesc rcvDesc)) := fun h1 =>
    ((h1.ctl (sameCtl_enqueueSend _ _ _)).upd p fun _ => .of_state (by simp)).switchTo _ (by simp)
  unfold Hazelnut.sendPoll
  dsimp only
  split
  · exact h.returnIpc p _
  · split
    · exact hpoll h
    · split
      · exact h.returnIpc p _
      · exact hpoll ((h.upd p fun h => h).enqueueWakeup p)

/-- A receiver that is ready for `p` does not wait for an interrupt. -/
lemma not_kernelWait (h : KernelWaits s) (hi : Inv .none s) (hp : Existing s p) (hpn : p ≠ nilTcb)
    (hw : (s.ipc q).threadState = .waiting)
    (hq : (s.ipc q).partner = (s.ipc p).myself ∨ (s.ipc q).partner = nilId) (d : Tid) :
    (s.ipc q).cont ≠ .kernelWait d := by
  intro hc
  obtain ⟨-, h1, h2⟩ := hi.ident p hp hpn
  rcases (h q hw d hc).noThread with ⟨h3, h4⟩ | h3
  · rcases hq with hq | hq
    · exact h1 (hq ▸ h3)
    · exact h4 hq
  · rcases hq with hq | hq
    · exact h2 (hq ▸ h3)
    · rw [hq] at h3
      exact absurd h3 (by decide)

/-- The system call. -/
lemma sysIpc (h : KernelWaits s) (hi : Inv .none s) (hc : Calls s p) (dest : Tid)
    (sndDesc rcvDesc dope : Word) : KernelWaits (sysIpc s p dest sndDesc rcvDesc dope) := by
  unfold Hazelnut.sysIpc
  dsimp only
  split
  · exact h.recvPhase hc.current hc.cont _ _ _
  · split
    · have h1 : KernelWaits (s.upd p fun t => { t with partner := dest }) :=
        h.upd p fun _ => .of_cont fun d hd => absurd (hc.cont.symm.trans hd) (by simp)
      obtain ⟨hi1, hc1⟩ := hi.setDest hc dest
      generalize s.upd p (fun t => { t with partner := dest }) = s1 at h1 hi1 hc1 ⊢
      split
      · exact h1.sendPoll _ _ _
      · rename_i hcond
        obtain ⟨hw, hpart⟩ := not_or.mp hcond
        have hw : (s1.ipc (tidToTcb dest)).threadState = .waiting :=
          (isWaiting_iff _).mp (not_not.mp hw)
        refine h1.sendTransfer hc1.current hc1.cont (fun he => hc1.not_waiting hi1 (he ▸ hw))
          (.inr (h1.not_kernelWait hi1 hc1.existing hc1.ne_nil hw ?_)) _ _ _
        by_cases hm : (s1.tcb (tidToTcb dest)).partner = (s1.tcb p).myself
        · exact .inl hm
        · exact .inr (not_not.mp fun hn => hpart ⟨hm, hn⟩)
    · exact h.returnIpc p _

/-- Going on. -/
lemma resume (h : KernelWaits s) (hi : Inv .none s) (hr : Resumes s p) (dope : Word) :
    KernelWaits (resume s p dope) := by
  have hu : KernelWaits (s.upd p fun t => { t with cont := .user }) :=
    h.upd p fun _ => .of_cont (by simp)
  unfold Hazelnut.resume
  dsimp only
  split
  · exact hu
  · exact hu.returnIpc p _
  · exact (hu.upd p fun h => h).returnIpcArgs p _ _
  · split
    · exact hu.returnIpc p _
    · exact ((hu.dequeueWakeup p).upd p fun _ => .of_state (by simp)).returnIpcArgs p _ _
  · exact (hu.upd p fun _ => .of_state (by simp)).returnIpcArgs p _ _
  · split
    · exact hu.returnIpcArgs p _ _
    · exact ((hu.dequeueWakeup p).upd p fun _ => .of_state (by simp)).returnIpcArgs p _ _
  · rename_i dest sndDesc rcvDesc hcont
    split
    · exact hu.returnIpc p _
    · rename_i hrun
      obtain ⟨hq, hne⟩ := hi.picked hr hcont hrun
      have hoth : (s.upd p fun t => { t with cont := .user }).ipc (tidToTcb dest) =
          s.ipc (tidToTcb dest) := by
        rw [Sys.upd_ipc, if_neg hne]
      refine (hu.dequeueWakeup p).sendTransfer hr.current ?_ hne (.inl ?_) _ _ _
      · rw [ipc_dequeueWakeup, Sys.upd_ipc, if_pos rfl]
      · rw [ipc_dequeueWakeup, hoth, hq]
        simp

/-! ### Interrupts, and the other system calls -/

lemma dispatch (h : KernelWaits s) (r : TcbPtr) : KernelWaits (dispatchThread s r) := by
  unfold dispatchThread
  dsimp only
  split
  · exact h
  · split
    · exact h.switchTo _ (by simp)
    · split
      · have h1 : KernelWaits { s with
          prioQueue := Function.update s.prioQueue (s.tcb r).priority (some r) } := h
        exact h1.switchTo _ (by simp)
      · exact h.switchTo _ (by simp)

lemma reschedule (h : KernelWaits s)
    (hf : ((findNextThread s).map fun r => dispatchThread r.1 r.2) = some s') : KernelWaits s' := by
  obtain ⟨⟨s1, q⟩, h1, rfl⟩ := Option.map_eq_some_iff.mp hf
  exact (h.same (findNextThread_spec h1).1).dispatch q

lemma parseWakeup (now : BitVec 64) (l : List TcbPtr) (prio : Nat) (highest : Option TcbPtr)
    (h : KernelWaits s) : KernelWaits (parseWakeup now l prio highest s).1 :=
  parseWakeup_keeps (fun _ q _ h => (h.dequeueWakeup q).makeRunning q) prio highest h

lemma timer (h : KernelWaits s) (ht : handleTimerInterrupt s = some s') : KernelWaits s' := by
  obtain ⟨now, s1, wake, s3, hrun, ⟨h3, -⟩, hcases⟩ := timer_cases ht
  have h1 := KernelWaits.parseWakeup now s.wakeup (s.tcb s.current).priority none
    (show KernelWaits { s with clock := now } from h)
  rw [hrun] at h1
  have h4 := h1.same h3
  rcases hcases with ⟨p, -, rfl⟩ | hres | rfl
  · exact h4.dispatch p
  · exact h4.reschedule hres
  · exact h4

lemma irq (h : KernelWaits s) (number : Nat) : KernelWaits (handleInterrupt s number) := by
  unfold handleInterrupt
  split
  · exact h
  · rename_i p hp
    dsimp only
    have h1 : KernelWaits (s.upd p fun t =>
        { t with intrPending := BitVec.ofNat 32 (number + 1) ||| irqInService }) := h.upd p
          fun h => h
    split
    · split
      · exact (h1.upd p fun _ => .of_state (by simp)).enqueueReady p
      · refine KernelWaits.switchTo ?_ _ (by simp)
        split
        · exact h1
        · exact h1.enqueueReady _
    · exact h.upd p fun h => h

lemma unwindIpc {n : Nat} (h : KernelWaits s) (hu : unwindIpc n s p = some s') : KernelWaits s' :=
  unwindIpc_keeps (fun h => h.dequeueWakeup _)
    (fun h _ => (h.dequeueWakeup _).upd _ fun _ => .of_state (by simp)) (fun h => h.returnIpc _ _)
    (fun h => h.ctl (sameCtl_dequeueSend _ _ _)) (fun h => h.makeRunning _) h hu

lemma unwindSenders {n : Nat} (h : KernelWaits s) (hu : unwindSenders n s p = some s') :
    KernelWaits s' :=
  unwindSenders_keeps unwindIpc h hu

lemma deleteThreads {sp : Nat} {l : List TcbPtr} (h : KernelWaits s)
    (hd : deleteThreads sp l s = some s') : KernelWaits s' := by
  induction l generalizing s with
  | nil =>
      rw [Hazelnut.deleteThreads, Option.some.injEq] at hd
      exact hd ▸ h
  | cons p l ih =>
      rw [Hazelnut.deleteThreads] at hd
      split at hd
      · obtain ⟨s1, h1, h2⟩ := Option.bind_eq_some_iff.mp hd
        obtain ⟨s2, h3, rfl⟩ := Option.map_eq_some_iff.mp h1
        obtain ⟨s3, h4, h5⟩ := Option.bind_eq_some_iff.mp h3
        have h6 := ((h.unwindIpc h4).unwindSenders h5).same (sameIpc_dequeueReady s2 p)
        exact ih (KernelWaits.upd (s := threadDequeuePresent (threadDequeueReady s2 p) p) h6 p
          fun _ => .of_state (by simp)) h2
      · exact ih h hd

lemma create (h : KernelWaits s) (tid : Tid) (space : Option Nat) (uip usp : Word) (pager : Tid)
    (prio : Nat) :
    KernelWaits (startThread (createTcb s tid space) (tidToTcb tid) uip usp pager prio) := by
  intro r
  rw [startThread_ipc]
  split
  · exact .of_state (by simp)
  · exact h r

lemma exRegs (h : KernelWaits s) {threadno uip usp : Word} {pager : Tid}
    (hs : sysLthreadExRegs s threadno uip usp pager = some s') : KernelWaits s' := by
  unfold sysLthreadExRegs at hs
  dsimp only at hs
  split at hs
  · split at hs
    · obtain ⟨s1, h1, rfl⟩ := Option.map_eq_some_iff.mp hs
      exact ((h.unwindIpc h1).upd _ fun _ => .of_state (by simp)).same
        (sameIpc_exchangeRegs _ _ _ _ _)
    · rw [Option.some.injEq] at hs
      exact hs ▸ h.create _ _ _ _ _ _
  · rw [Option.some.injEq] at hs
    exact hs ▸ h.same (sameIpc_exchangeRegs _ _ _ _ _)

lemma taskNew (h : KernelWaits s) {task pager : Tid} {uip usp : Word}
    (hs : sysTaskNew s task pager uip usp = some s') : KernelWaits s' := by
  unfold sysTaskNew at hs
  dsimp only at hs
  split at hs
  · simp at hs
  · split at hs
    · rw [Option.some.injEq] at hs
      exact hs ▸ h
    · obtain ⟨s1, h1, rfl⟩ := Option.map_eq_some_iff.mp hs
      have h2 : KernelWaits s1 := by
        split at h1
        · exact h.deleteThreads h1
        · rw [Option.some.injEq] at h1
          exact h1 ▸ h
      split
      · exact h2
      · exact h2.create _ _ _ _ _ _

/-- **One step.** -/
lemma step (h : KernelWaits s) (hi : Inv .none s) {e : Event} (hs : step s e = some s') :
    KernelWaits s' := by
  cases e with
  | ipc dest sndDesc rcvDesc timeout w0 w1 w2 dope =>
      simp only [Hazelnut.step] at hs
      split at hs
      · rename_i hu
        rw [Option.some.injEq] at hs
        have h1 : SameIpc s (storeRegs s s.current timeout w0 w1 w2) :=
          (SameIpc.refl s).upd _ (by intro _; rfl)
        exact hs ▸ (h.same h1).sysIpc (Inv.congr h1 hi) ((hi.calls hu).congr h1) _ _ _ _
      · simp at hs
  | exRegs threadno uip usp pager =>
      simp only [Hazelnut.step] at hs
      split at hs
      · exact h.exRegs hs
      · simp at hs
  | taskNew task pager uip usp =>
      simp only [Hazelnut.step] at hs
      split at hs
      · exact h.taskNew hs
      · simp at hs
  | threadSwitch tid =>
      simp only [Hazelnut.step] at hs
      split at hs
      · have h1 := h.enqueueReady s.current
        unfold sysThreadSwitch at hs
        dsimp only at hs
        split at hs
        · rw [Option.some.injEq] at hs
          exact hs ▸ h1.dispatch _
        · exact h1.reschedule hs
      · simp at hs
  | schedule param tid =>
      simp only [Hazelnut.step] at hs
      split at hs
      · rw [Option.some.injEq] at hs
        exact hs ▸ h.same (sameIpc_schedule s param tid)
      · simp at hs
  | timer =>
      simp only [Hazelnut.step] at hs
      split at hs
      · exact h.timer hs
      · simp at hs
  | irq number =>
      simp only [Hazelnut.step] at hs
      split at hs
      · rw [Option.some.injEq] at hs
        exact hs ▸ h.irq number
      · simp at hs
  | resume dope =>
      simp only [Hazelnut.step] at hs
      split at hs
      · simp at hs
      · rename_i hint
        rw [Option.some.injEq] at hs
        exact hs ▸ h.resume hi (hi.resumes hint) dope
  | idle =>
      simp only [Hazelnut.step] at hs
      split at hs
      · exact h.reschedule hs
      · simp at hs

end KernelWaits

lemma ReachableOk.kernelWaits (h : ReachableOk s) : KernelWaits s := by
  induction h with
  | init =>
      refine KernelWaits.create (KernelWaits.create ?_ sigma0Id none 0 0 nilId 50)
        rootTaskId none 0 0
        sigma0Id 50
      intro r
      refine .of_state ?_
      have h1 := nilSys_ipc r
      unfold nilSys at h1
      rw [h1]
      split_ifs <;> simp [zeroTcb]
  | step e hs hok hstep ih => exact ih.step hs.inv hstep

/-! ### Delivery -/

/-- The receiver of a completed send is inside a receive operation. -/
lemma Delivers.receiver {e : Event} {w : Word × Word × Word} (hd : Delivers s q w e)
    (hi : Inv .none s)
    (hk : KernelWaits s) (hstep : step s e = some s') : q ≠ s.current ∧
      ((s.ipc q).threadState = .waiting ∧ (s.ipc q).cont = .recvWait ∨
        (s.ipc q).threadState = .lockedWaiting ∧ (s.ipc q).cont = .recvReady) := by
  cases e with
  | ipc dest sndDesc rcvDesc timeout w0 w1 w2 dope =>
      obtain ⟨-, rfl, -, h1, h2, h3⟩ := hd
      have hw : (s.ipc (tidToTcb dest)).threadState = .waiting := (isWaiting_iff _).mp h2
      simp only [step] at hstep
      split at hstep
      · rename_i hu
        have hc := hi.calls hu
        refine ⟨fun he => hc.not_waiting hi (he ▸ hw), .inl ⟨hw, ?_⟩⟩
        rcases hi.waiting _ (hi.existing_of_myself h1).1 hw (not_limbo_none _ _) with h | ⟨d, h⟩
        · exact h
        · exact absurd h (hk.not_kernelWait hi hc.existing hc.ne_nil hw h3 d)
      · simp at hstep
  | resume dope =>
      obtain ⟨dest, sndDesc, rcvDesc, h1, h2, rfl, -⟩ := hd
      simp only [step] at hstep
      split at hstep
      · simp at hstep
      · rename_i hint
        obtain ⟨h3, h4⟩ := hi.picked (hi.resumes hint) h1 h2
        have hex := (hi.existing_of_state (p := tidToTcb dest) (by simp [h3]) (by simp [h3])).1
        exact ⟨h4, .inr ⟨h3, hi.lockedWaiting _ hex h3⟩⟩
  | exRegs | taskNew | threadSwitch | schedule | timer | irq | idle => exact absurd hd (fun h => h)

/-- The message with words `w` from the thread `sender` has been handed to `q`: it has been
switched to, nothing else can happen before it goes on, and it then returns the message. -/
structure DeliveredOnce (sender : Tid) (q : TcbPtr) (w : Word × Word × Word) (s : Sys) : Prop where
  current : s.current = q
  next : ∀ e s', step s e = some s' → ∃ dope faults, e = .resume dope faults
  returns : ∀ dope, ∃ s' d, step s (.resume dope) = some s' ∧ (s'.ipc q).cont = .user ∧
    (s'.tcb q).ret = some (.args sender d w.1 w.2.1 w.2.2)

/-- While the running thread is inside the kernel, all that happens is that it goes on. -/
lemma resume_of_step {e : Event} (hint : ¬interruptible s) (hidle : s.current ≠ .idle)
    (h : step s e = some s') : ∃ dope faults, e = .resume dope faults := by
  have hu : ¬inUser s := fun h => hint h.2
  cases e with
  | resume dope faults => exact ⟨dope, faults, rfl⟩
  | ipc | exRegs | taskNew | threadSwitch | schedule => simp [step, hu] at h
  | timer | irq => simp [step, hint] at h
  | idle => simp [step, hidle] at h

/-- A step without a wrong turn, behind which a completed send goes on. -/
def OnceOk (s : Sys) (e : Event) : Prop := StepOk s e ∧ DeliverOk s e

/-- A send phase that completes hands its message over. -/
lemma Delivers.once (hr : ReachableOk s) {e : Event} (hok : OnceOk s e) {w : Word × Word × Word}
    (hd : Delivers s q w e) (hstep : step s e = some s') :
    DeliveredOnce (s.tcb s.current).myself q w s' := by
  obtain ⟨hne, hrec⟩ := hd.receiver hr.inv hr.kernelWaits hstep
  have hpoll : ¬isPolling (s.tcb q).threadState := by
    rw [isPolling_iff, Sys.toIpcPart_tcb]
    rcases hrec with ⟨h, -⟩ | ⟨h, -⟩ <;> simp [h]
  obtain ⟨hcur, d, hcore⟩ := delivers_handed hd hok.2 hne hpoll hstep
  have hcont : (s'.ipc q).cont = (s.ipc q).cont := by
    have h1 := congrArg (fun t : Tcb => t.cont) hcore
    exact h1
  have hstate : (s'.ipc q).threadState = (s.ipc q).threadState := by
    have h1 := congrArg (fun t : Tcb => t.threadState) hcore
    exact h1
  have hmsg : IpcReturn.args (s'.tcb q).partner (s'.tcb q).msgDesc (s'.tcb q).w0 (s'.tcb q).w1
      (s'.tcb q).w2 = .args (s.tcb s.current).myself d w.1 w.2.1 w.2.2 := by
    have h1 := congrArg (fun t : Tcb => IpcReturn.args t.partner t.msgDesc t.w0 t.w1 t.w2) hcore
    exact h1
  have hint : ¬interruptible s' := by
    unfold interruptible
    rw [hcur, hcont]
    rcases hrec with ⟨-, h⟩ | ⟨-, h⟩ <;> simp [h]
  have hqi : s'.current ≠ .idle := by
    rw [hcur]
    rintro rfl
    rcases hrec with ⟨h, -⟩ | ⟨h, -⟩ <;> simp [hr.inv.idle_state] at h
  refine ⟨hcur, fun e' s'' h1 => resume_of_step hint hqi h1, fun dope => ?_⟩
  refine ⟨resume s' q dope, d, by simp [step, hint, hcur], resume_cont dope ?_, ?_⟩
  · rw [hcont]
    exact hrec.imp (fun h => h.2) (fun h => h.2)
  · rw [← hmsg]
    rcases hrec with ⟨h1, h2⟩ | ⟨h1, h2⟩
    · exact resume_recvWait dope (hcont.trans h2) (by rw [hstate, h1]; simp)
    · exact resume_recvReady dope (hcont.trans h2)

/-- **Every message is delivered once**: in every run without a wrong turn, a send phase that
completes hands its message to a receive operation that returns it, before anything else. -/
theorem delivered_once (h : RunBy OnceOk s) {e : Event} (hok : OnceOk s e) {w : Word × Word × Word}
    (hd : Delivers s q w e) (hstep : step s e = some s') :
    DeliveredOnce (s.tcb s.current).myself q w s' :=
  hd.once (h.reachableOk fun _ _ h => h.1) hok hstep

/-- Sigma0 waits for anybody, and the root task runs. -/
def openWaitRun : List Event :=
  [.idle, .threadSwitch sigma0Id, .ipc nilId noDesc 1 0 0 0 0 0, .idle]

lemma openWaitRun_ok {e : Event} (he : e ∈ openWaitRun) (s : Sys) : OnceOk s e := by
  simp only [openWaitRun, List.mem_cons, List.not_mem_nil, or_false] at he
  rcases he with rfl | rfl | rfl | rfl
  · exact ⟨trivial, trivial⟩
  · exact ⟨trivial, trivial⟩
  · exact ⟨rfl, fun ⟨_, h, _⟩ => absurd rfl h⟩
  · exact ⟨trivial, trivial⟩

/-- The root task sends three words to sigma0. -/
def sendWords (rcvDesc : Word) (timeout : Timeout) : Event :=
  .ipc sigma0Id 0 rcvDesc timeout 1 2 3 0

/-- The first message of the root task to sigma0 is delivered. -/
theorem delivered_once_first : ∃ s s', run initSys openWaitRun = some s ∧ RunBy OnceOk s ∧
    step s (sendWords noDesc 0) = some s' ∧
      DeliveredOnce (s.tcb s.current).myself (tidToTcb sigma0Id) (1, 2, 3) s' := by
  obtain ⟨s, hs, h1, h2, h3, h4⟩ := exists_run openWaitRun
    (P := fun s => (s.tcb (tidToTcb sigma0Id)).myself = sigma0Id ∧
      isWaiting (s.tcb (tidToTcb sigma0Id)).threadState ∧
      (s.tcb (tidToTcb sigma0Id)).partner = nilId ∧ (step s (sendWords noDesc 0)).isSome)
    (by decide +kernel)
  obtain ⟨s', hs'⟩ := Option.isSome_iff_exists.mp h4
  have hok : RunBy OnceOk s := RunBy.init.run (fun e he s => openWaitRun_ok he s) hs
  have hsend : OnceOk s (sendWords noDesc 0) := ⟨rfl, fun _ => .inl rfl⟩
  have hd : Delivers s (tidToTcb sigma0Id) (1, 2, 3) (sendWords noDesc 0) :=
    ⟨by decide, rfl, rfl, h1, h2, .inr h3⟩
  exact ⟨s, s', hs, hok, hs', delivered_once hok hsend hd hs'⟩

/-- A send that is followed by a receive with a timeout of zero leaves the receiver waiting. -/
theorem delivered_late : ¬∀ s, Reachable s → ∀ e q w s', Delivers s q w e → step s e = some s' →
    DeliveredOnce (s.tcb s.current).myself q w s' := by
  intro hall
  obtain ⟨s, hs, h1, h2, h3, h4⟩ := exists_run openWaitRun
    (P := fun s => (s.tcb (tidToTcb sigma0Id)).myself = sigma0Id ∧
      isWaiting (s.tcb (tidToTcb sigma0Id)).threadState ∧
      (s.tcb (tidToTcb sigma0Id)).partner = nilId ∧
      ((step s (sendWords 0 0x0000000f)).map fun s' =>
        decide (s'.current = tidToTcb sigma0Id)) = some false)
    (by decide +kernel)
  obtain ⟨s', hs', h5⟩ := Option.map_eq_some_iff.mp h4
  have hd := hall s (Reachable.init.run hs) (sendWords 0 0x0000000f)
    (tidToTcb sigma0Id) (1, 2, 3) s'
    ⟨by decide, rfl, rfl, h1, h2, .inr h3⟩ hs'
  exact of_decide_eq_false h5 hd.current

end Hazelnut
