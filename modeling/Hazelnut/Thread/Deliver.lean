import Hazelnut.Thread.Reach

/-!
The delivery of a message.

The receiver of a message keeps waiting while the message is transferred, and notices it
when it is switched to.  So delivery rests on the code behind the transfer.

* `Held`: a stretch of kernel code leaves a control block alone, up to its links.
* `Delivers`: the step completes a send phase.
* `GoesOn`: the receive phase behind a completed send switches to the receiver.  The one with
  a timeout of zero does not, if no sender is ready and no interrupt is pending.
* `sendTransfer_handed`: behind a completed send that goes on, the receiver is running and
  holds the message.
-/

namespace Hazelnut

variable {s s' s'' : Sys} {p q r : TcbPtr}

/-! ### Control blocks without links -/

/-- What of a control block no queue operation touches. -/
def Tcb.core (t : Tcb) : Tcb :=
  { t with
    sendQueue := none, sendPrev := none, sendNext := none, readyPrev := none, readyNext := none,
    queueReady := false }

/-- The control block of `q` is left alone, up to its links. -/
def Held (q : TcbPtr) (s s' : Sys) : Prop := (s'.tcb q).core = (s.tcb q).core

lemma Sys.upd_tcb_self (s : Sys) (q : TcbPtr) (f : Tcb → Tcb) :
    (s.upd q f).tcb q = f (s.tcb q) := by
  simp [Sys.upd]

lemma Sys.upd_tcb_other (s : Sys) (h : q ≠ r) (f : Tcb → Tcb) : (s.upd r f).tcb q = s.tcb q := by
  simp [Sys.upd, h]

namespace Held

lemma refl (q : TcbPtr) (s : Sys) : Held q s s := rfl

lemma trans (h : Held q s s') (h' : Held q s' s'') : Held q s s'' := Eq.trans h' h

lemma updOther (h : Held q s s') (hne : q ≠ r) (f : Tcb → Tcb) : Held q s (s'.upd r f) := by
  rw [Held, Sys.upd_tcb_other _ hne]
  exact h

/-- An assignment to links. -/
lemma upd (h : Held q s s') (r : TcbPtr) {f : Tcb → Tcb} (hf : ∀ t, (f t).core = t.core) :
    Held q s (s'.upd r f) := by
  by_cases hne : q = r
  · subst hne
    rw [Held, Sys.upd_tcb_self, hf]
    exact h
  · exact h.updOther hne f

lemma updPtr (h : Held q s s') (r : Option TcbPtr) {f : Tcb → Tcb} (hf : ∀ t, (f t).core = t.core) :
    Held q s (s'.updPtr r f) := by
  cases r with
  | none => exact h
  | some r => exact h.upd r hf

lemma prioQueue (h : Held q s s') (a : Nat → Option TcbPtr) : Held q s
    { s' with prioQueue := a } := h

lemma maxPrio (h : Held q s s') (m : Int) : Held q s { s' with currentMaxPrio := m } := h

lemma enqueueReady (h : Held q s s') (r : TcbPtr) : Held q s (threadEnqueueReady s' r) := by
  unfold threadEnqueueReady
  dsimp only
  split
  · exact h
  · refine Held.maxPrio (Held.upd ?_ r (by intro _; rfl)) _
    split
    · exact ((h.upd _ (by intro _; rfl)).updPtr _ (by intro _; rfl)).upd _ (by intro _; rfl)
    · exact (h.upd r (by intro _; rfl)).prioQueue _

lemma enqueueSend (h : Held q s s') (t r : TcbPtr) : Held q s (threadEnqueueSend s' t r) := by
  unfold threadEnqueueSend
  split
  · exact (h.upd _ (by intro _; rfl)).upd _ (by intro _; rfl)
  · exact ((h.upd _ (by intro _; rfl)).upd _ (by intro _; rfl)).updPtr _ (by intro _; rfl)

lemma dequeueSend (h : Held q s s') (t r : TcbPtr) : Held q s (threadDequeueSend s' t r) := by
  unfold threadDequeueSend
  dsimp only
  split
  · exact h.upd _ (by intro _; rfl)
  · refine Held.updPtr (Held.updPtr ?_ _ (by intro _; rfl)) _ (by intro _; rfl)
    split
    · exact h.upd _ (by intro _; rfl)
    · exact h

lemma enqueueWakeup (h : Held q s s') (r : TcbPtr) : Held q s (threadEnqueueWakeup s' r) := by
  unfold threadEnqueueWakeup
  split
  · exact h
  · exact h

lemma dequeueWakeup (h : Held q s s') (r : TcbPtr) : Held q s (threadDequeueWakeup s' r) := h

lemma dequeueReady (h : Held q s s') (r : TcbPtr) : Held q s (threadDequeueReady s' r) := by
  unfold threadDequeueReady
  dsimp only
  split
  · refine Held.upd ?_ r (by intro _; rfl)
    split
    · exact h.prioQueue _
    · refine Held.updPtr (Held.updPtr ?_ _ (by intro _; rfl)) _ (by intro _; rfl)
      split
      · exact h.prioQueue _
      · exact h
  · exact h

lemma switchTo (h : Held q s s') (hc : q ≠ s'.current) (r : TcbPtr) (c : Cont) :
    Held q s (switchTo s' r c) := by
  rw [Held, Hazelnut.switchTo]
  exact h.updOther hc fun t => { t with cont := c }

lemma dispatch (h : Held q s s') (hc : q ≠ s'.current) (r : TcbPtr) :
    Held q s (dispatchThread s' r) := by
  unfold dispatchThread
  dsimp only
  split
  · exact h
  · split
    · exact h.switchTo hc _ _
    · split
      · have h1 := h.prioQueue (Function.update s'.prioQueue (s'.tcb r).priority (some r))
        exact h1.switchTo hc _ _
      · exact h.switchTo hc _ _

/-- The scheduler only takes threads out of ready queues. -/
lemma findNextThread (h : Held q s s') (hf : findNextThread s' = some (s'', r)) : Held q s s'' :=
  findNextThread_keeps (fun _ _ _ h => h) (fun _ p h => h.dequeueReady p) h hf

end Held

/-! ### The timer -/

/-- What a timer interrupt does: it wakes threads up, and then switches or not. -/
lemma timer_cases (h : handleTimerInterrupt s = some s') : ∃ now s1 wake s3,
    parseWakeup now s.wakeup (s.tcb s.current).priority none { s with clock := now } = (s1, wake) ∧
    (SameIpc s1 s3 ∧ ∀ q, q ≠ s.current → Held q s1 s3) ∧
    ((∃ p, wake = some p ∧ s' = dispatchThread s3 p) ∨
      ((findNextThread s3).map fun r => dispatchThread r.1 r.2) = some s' ∨ s' = s3) := by
  unfold handleTimerInterrupt parseWakeupQueue at h
  dsimp only at h
  generalize s.clock + BitVec.ofNat 64 timeQuantum = now at h
  rcases hrun : Hazelnut.parseWakeup now s.wakeup (s.tcb s.current).priority none
    { s with clock := now } with ⟨s1, wake⟩
  rw [hrun] at h
  dsimp only at h
  have h2 : SameIpc s1 (s1.upd s.current fun t =>
      { t with currentTimeslice := t.currentTimeslice - timeQuantum }) ∧
      ∀ q, q ≠ s.current → Held q s1 (s1.upd s.current fun t =>
        { t with currentTimeslice := t.currentTimeslice - timeQuantum }) :=
    ⟨(SameIpc.refl s1).upd _ (by intro _; rfl), fun q hq => (Held.refl q s1).updOther hq _⟩
  generalize s1.upd s.current (fun t =>
    { t with currentTimeslice := t.currentTimeslice - timeQuantum }) = s2 at h h2
  have h3 : SameIpc s1 (if s.current = .idle then s2 else threadEnqueueReady s2 s.current) ∧
      ∀ q, q ≠ s.current → Held q s1
        (if s.current = .idle then s2 else threadEnqueueReady s2 s.current) := by
    split
    · exact h2
    · exact ⟨h2.1.trans (sameIpc_enqueueReady s2 _), fun q hq => (h2.2 q hq).enqueueReady _⟩
  generalize (if s.current = .idle then s2 else threadEnqueueReady s2 s.current) = s3 at h h3
  cases wake with
  | some p =>
      simp only [Option.some.injEq] at h
      exact ⟨now, s1, some p, s3, hrun, h3, .inl ⟨p, rfl, h.symm⟩⟩
  | none =>
      dsimp only at h
      split at h
      · exact ⟨now, s1, none, _, hrun, ⟨h3.1.upd s.current (by intro _; rfl),
          fun q hq => (h3.2 q hq).updOther hq _⟩, .inr (.inl h)⟩
      · simp only [Option.some.injEq] at h
        exact ⟨now, s1, none, s3, hrun, h3, .inr (.inr h.symm)⟩

/-! ### Behind the transfer -/

/-- A timeout of zero. -/
def zeroTimeout (t : Timeout) : Prop := t.rcvExp ≠ 0 ∧ timeoutUs t.rcvExp t.rcvMan = 0

/-- An interrupt is pending, and not in service. -/
def IrqPending (s : Sys) (p : TcbPtr) : Prop :=
  (s.tcb p).intrPending &&& irqInService = 0 ∧ (s.tcb p).intrPending ≠ 0

/-- The first thread in the send queue of `p` polls for it. -/
def SenderReady (s : Sys) (p : TcbPtr) : Prop :=
  ∃ r, (s.tcb p).sendQueue = some r ∧ r ≠ p ∧ isPolling (s.tcb r).threadState ∧
    (s.tcb r).partner = (s.tcb p).myself

/-- Behind a completed send to `dest`, the call with this receive descriptor goes on to
switch. -/
def GoesOn (s : Sys) (p : TcbPtr) (dest : Tid) (rcvDesc : Word) : Prop :=
  rcvDesc = noDesc ∨
    (if rcvDesc &&& 1 = 1 then IrqPending s p ∨ SenderReady s p ∨ ¬zeroTimeout (s.tcb p).ipcTimeout
      else ¬isKernelId dest ∧ (s.tcb (tidToTcb dest)).myself = dest ∧
        ¬zeroTimeout (s.tcb p).ipcTimeout)

/-- The receiver `q` runs, with its control block as it was. -/
def Handed (q : TcbPtr) (s s' : Sys) : Prop := s'.current = q ∧ Held q s s'

lemma Held.handed (h : Held q s s') (h' : Handed q s' s'') : Handed q s s'' :=
  ⟨h'.1, h.trans h'.2⟩

lemma recvBlock_handed (hc : s.current = p) (hpq : q ≠ p) (partner : Tid)
    (hz : ¬zeroTimeout (s.tcb p).ipcTimeout) : Handed q s (recvBlock s p (some q) partner) := by
  unfold recvBlock
  dsimp only
  split
  · exact ⟨rfl, ((Held.refl q s).updOther hpq _).switchTo
      (by rw [Sys.upd_current, hc]; exact hpq) _ _⟩
  · split
    · rename_i h1 h2
      exact absurd ⟨h1, h2⟩ hz
    · exact ⟨rfl, ((((Held.refl q s).updOther hpq _).enqueueWakeup p).updOther hpq _).switchTo
        (by rw [Sys.upd_current, current_enqueueWakeup, Sys.upd_current, hc]; exact hpq) _ _⟩

lemma recvFromReady_handed (hc : s.current = p) (hpq : q ≠ p) (hr : q ≠ r) :
    Handed q s (recvFromReady s p (some q) r) := by
  unfold recvFromReady
  dsimp only
  have h1 := (((((Held.refl q s).updOther hr
    fun t => { t with threadState := .lockedRunning }).enqueueReady
    r).dequeueSend p r).updOther hpq
    fun t => { t with threadState := .lockedWaiting }).dequeueWakeup r
  refine ⟨rfl, h1.switchTo ?_ _ _⟩
  rw [current_dequeueWakeup, Sys.upd_current, (sameCtl_dequeueSend _ p r).current,
    current_enqueueReady, Sys.upd_current, hc]
  exact hpq

lemma recvFrom_handed (hc : s.current = p) (hpq : q ≠ p) (rcvDesc : Word) (src : Option TcbPtr)
    (hq : ¬isPolling (s.tcb q).threadState)
    (hz : (∃ r, src = some r ∧ isPolling (s.tcb r).threadState ∧
      (s.tcb r).partner = (s.tcb p).myself) ∨
      ¬zeroTimeout (s.tcb p).ipcTimeout) : Handed q s (recvFrom s p (some q) rcvDesc src) := by
  unfold recvFrom
  dsimp only
  have h0 : Held q s (s.upd p fun t => { t with msgDesc := rcvDesc }) :=
    (Held.refl q s).updOther hpq _
  have hc1 : (s.upd p fun t => { t with msgDesc := rcvDesc }).current = p := hc
  have htm : ((s.upd p fun t => { t with msgDesc := rcvDesc }).tcb p).ipcTimeout =
      (s.tcb p).ipcTimeout := by rw [Sys.upd_tcb_self]
  generalize s.upd p (fun t => { t with msgDesc := rcvDesc }) = s1 at h0 hc1 htm ⊢
  have hblock : ∀ pt, ¬zeroTimeout (s.tcb p).ipcTimeout → Handed q s (recvBlock s1 p (some q) pt) :=
    fun pt hz => h0.handed (recvBlock_handed hc1 hpq pt (by rw [htm]; exact hz))
  split
  · exact hblock _ (hz.resolve_left (by simp))
  · rename_i r
    split
    · rename_i hcond
      refine hblock _ (hz.resolve_left ?_)
      rintro ⟨r', hr', h1, h2⟩
      obtain rfl : r = r' := by simpa using hr'
      exact hcond.elim (fun h => h h1) (fun h => h h2)
    · rename_i hcond
      have hqr : q ≠ r := fun he => hcond (.inl (he ▸ hq))
      exact h0.handed (recvFromReady_handed hc1 hpq hqr)

/-- The receive phase behind a completed send. -/
lemma recvPhase_handed (hc : s.current = p) (hpq : q ≠ p) {dest : Tid} {rcvDesc : Word}
    (hq : ¬isPolling (s.tcb q).threadState) (hrd : rcvDesc ≠ noDesc)
    (hg : GoesOn s p dest rcvDesc) :
    Handed q s (recvPhase s p (some q) dest rcvDesc) := by
  have hg := hg.resolve_left hrd
  unfold recvPhase
  dsimp only
  obtain ⟨s0, hs0⟩ : ∃ s0, s0 = if (s.tcb p).intrPending &&& irqInService ≠ 0 then
      s.upd p fun t => { t with intrPending := 0 } else s := ⟨_, rfl⟩
  rw [← hs0]
  have h0 : Held q s s0 := by
    rw [hs0]
    split
    · exact (Held.refl q s).updOther hpq _
    · exact Held.refl q s
  have hc0 : s0.current = p := by rw [hs0]; split <;> exact hc
  have hoth : ∀ r, r ≠ p → s0.tcb r = s.tcb r := fun r hr => by
    rw [hs0]
    split
    · exact Sys.upd_tcb_other _ hr _
    · rfl
  have hself : s0.tcb p = { s.tcb p with intrPending := (s0.tcb p).intrPending } := by
    rw [hs0]
    split
    · rw [Sys.upd_tcb_self]
    · rfl
  have hirq : (s0.tcb p).intrPending = if (s.tcb p).intrPending &&& irqInService ≠ 0 then 0
      else (s.tcb p).intrPending := by
    rw [hs0]
    split
    · rw [Sys.upd_tcb_self]
    · rfl
  have htm : (s0.tcb p).ipcTimeout = (s.tcb p).ipcTimeout := by rw [hself]
  have hmy : (s0.tcb p).myself = (s.tcb p).myself := by rw [hself]
  have hsq : (s0.tcb p).sendQueue = (s.tcb p).sendQueue := by rw [hself]
  have hq0 : ¬isPolling (s0.tcb q).threadState := by rw [hoth q hpq]; exact hq
  have htail : ∀ src, ((∃ r, src = some r ∧ isPolling (s0.tcb r).threadState ∧
      (s0.tcb r).partner = (s0.tcb p).myself) ∨ ¬zeroTimeout (s0.tcb p).ipcTimeout) →
      Handed q s (recvFrom s0 p (some q) rcvDesc src) := fun src hz =>
    h0.handed (recvFrom_handed hc0 hpq rcvDesc src hq0 hz)
  split
  · rename_i hopen
    rw [if_pos hopen] at hg
    split
    · refine ⟨rfl, ((((h0.updOther hpq _).updOther hpq _).enqueueReady p).switchTo ?_ _ _)⟩
      rw [current_enqueueReady, Sys.upd_current, Sys.upd_current, hc0]
      exact hpq
    · rename_i hirq0
      refine htail _ ?_
      rw [htm, hsq, hmy]
      rcases hg with hg | ⟨r, h1, h2, h3, h4⟩ | hg
      · refine absurd ?_ hirq0
        rw [hirq, if_neg (by simp [hg.1])]
        exact hg.2
      · exact .inl ⟨r, h1, by rw [hoth r h2]; exact h3, by rw [hoth r h2]; exact h4⟩
      · exact .inr hg
  · rename_i hopen
    rw [if_neg hopen] at hg
    rw [if_neg hg.1]
    split
    · rename_i hne
      refine absurd ?_ hne
      by_cases hd : tidToTcb dest = p
      · rw [hd, hmy, ← hd]; exact hg.2.1
      · rw [hoth _ hd]; exact hg.2.1
    · exact htail _ (.inr (by rw [htm]; exact hg.2.2))

/-! ### The transfer -/

/-- The descriptor a message arrives with: that of a message in registers is zero. -/
def arrivalDope (sndDesc dope : Word) : Word := if sndDesc &&& 0xfffffffe ≠ 0 then dope else 0

/-- The control block of the receiver, with the message of a sender. -/
def Tcb.receives (t sender : Tcb) (dope : Word) : Tcb :=
  { t with
    w0 := sender.w0, w1 := sender.w1, w2 := sender.w2, msgDesc := dope, partner := sender.myself }

/-- `transfer_message`, with the partner that `sys_ipc` records behind it. -/
def transferred (s : Sys) (p q : TcbPtr) (sndDesc dope : Word) : Sys :=
  let s1 := transferMessage s p q sndDesc dope
  s1.upd q fun t => { t with partner := (s1.tcb p).myself }

section Transferred

variable (sndDesc dope : Word)

lemma transferred_current : (transferred s p q sndDesc dope).current = s.current := by
  unfold transferred transferMessage
  dsimp only
  split <;> rfl

lemma transferred_receiver (hpq : q ≠ p) : (transferred s p q sndDesc dope).tcb q =
    (s.tcb q).receives (s.tcb p) (arrivalDope sndDesc dope) := by
  unfold transferred transferMessage arrivalDope
  dsimp only
  split <;> simp [Sys.upd, hpq, hpq.symm, threadDequeueWakeup, Tcb.receives]

lemma transferred_sender (hpq : q ≠ p) : ∃ st, (transferred s p q sndDesc dope).tcb p =
    { s.tcb p with threadState := st } := by
  unfold transferred transferMessage
  dsimp only
  split
  · exact ⟨.running, by simp [Sys.upd, hpq, hpq.symm, threadDequeueWakeup]⟩
  · refine ⟨(s.tcb p).threadState, ?_⟩
    rw [Sys.upd_tcb_other _ hpq.symm, Sys.upd_tcb_other _ hpq.symm, Sys.upd_tcb_other _ hpq.symm]

lemma transferred_other (hp : r ≠ p) (hq : r ≠ q) :
    (transferred s p q sndDesc dope).tcb r = s.tcb r := by
  unfold transferred transferMessage
  dsimp only
  split <;> simp [Sys.upd, hp, hq, threadDequeueWakeup]

/-- The transfer does not change whether the call goes on. -/
lemma GoesOn.transferred {dest : Tid} {rcvDesc : Word} (hg : GoesOn s p dest rcvDesc) (hpq : q ≠ p)
    (hdest : tidToTcb dest = q) (hq : ¬isPolling (s.tcb q).threadState) :
    GoesOn (transferred s p q sndDesc dope) p dest rcvDesc := by
  obtain ⟨st, hp⟩ := transferred_sender (s := s) sndDesc dope hpq
  have hrec := transferred_receiver (s := s) sndDesc dope hpq
  refine hg.imp id fun hg => ?_
  split at hg
  · rename_i hopen
    rw [if_pos hopen]
    rcases hg with hg | ⟨r, h1, h2, h3, h4⟩ | hg
    · exact .inl (by rw [IrqPending, hp]; exact hg)
    · refine .inr (.inl ⟨r, by rw [hp]; exact h1, h2, ?_⟩)
      have hrq : r ≠ q := fun he => hq (he ▸ h3)
      rw [transferred_other sndDesc dope h2 hrq, hp]
      exact ⟨h3, h4⟩
    · exact .inr (.inr (by rw [hp]; exact hg))
  · rename_i hopen
    rw [if_neg hopen, hdest, hrec, hp]
    rw [hdest] at hg
    exact hg

end Transferred

/-- **A completed send that goes on** switches to the receiver, which holds the message. -/
lemma sendTransfer_handed (hc : s.current = p) {dest : Tid} (hpq : tidToTcb dest ≠ p)
    (sndDesc : Word) {rcvDesc : Word} (dope : Word)
    (hq : ¬isPolling (s.tcb (tidToTcb dest)).threadState)
    (hg : GoesOn s p dest rcvDesc) :
    (sendTransfer s p dest sndDesc rcvDesc dope).current = tidToTcb dest ∧
      ((sendTransfer s p dest sndDesc rcvDesc dope).tcb (tidToTcb dest)).core =
        ((s.tcb (tidToTcb dest)).receives (s.tcb p) (arrivalDope sndDesc dope)).core := by
  have hcur : (transferred s p (tidToTcb dest) sndDesc dope).current = p :=
    (transferred_current sndDesc dope).trans hc
  have hrec := transferred_receiver (s := s) sndDesc dope hpq
  have hq2 : ¬isPolling
      ((transferred s p (tidToTcb dest) sndDesc dope).tcb (tidToTcb dest)).threadState := by
    rw [hrec]; exact hq
  have hg2 := hg.transferred sndDesc dope hpq rfl hq
  rw [← hrec]
  rw [show sendTransfer s p dest sndDesc rcvDesc dope =
    if rcvDesc = noDesc then
      switchTo (threadEnqueueReady ((transferred s p (tidToTcb dest) sndDesc dope).upd p fun t =>
        { t with threadState := .running }) p) (tidToTcb dest) .sendSwitch
    else recvPhase (transferred s p (tidToTcb dest) sndDesc dope) p
      (some (tidToTcb dest)) dest rcvDesc
    from rfl]
  generalize transferred s p (tidToTcb dest) sndDesc dope = s2 at hcur hrec hq2 hg2 ⊢
  split
  · refine ⟨rfl, ((((Held.refl _ s2).updOther hpq _).enqueueReady p).switchTo ?_ _ _)⟩
    rw [current_enqueueReady, Sys.upd_current, hcur]
    exact hpq
  · rename_i hrd
    exact recvPhase_handed hcur hpq hq2 hrd hg2

/-! ### Going on -/

section Resume

variable (dope : Word)

/-- A receiver that has not been woken up by its timeout returns what it holds. -/
lemma resume_recvWait (hc : (s.ipc p).cont = .recvWait) (hst : (s.ipc p).threadState ≠ .running) :
    ((resume s p dope).tcb p).ret = some (.args (s.tcb p).partner (s.tcb p).msgDesc
      (s.tcb p).w0 (s.tcb p).w1 (s.tcb p).w2) := by
  unfold resume
  dsimp only
  rw [show (s.tcb p).cont = .recvWait from hc]
  dsimp only
  rw [if_neg (show (s.tcb p).threadState ≠ .running from hst)]
  simp [returnIpcArgs, returnIpc, threadDequeueWakeup, Sys.upd]

/-- So does one that has picked its sender. -/
lemma resume_recvReady (hc : (s.ipc p).cont = .recvReady) :
    ((resume s p dope).tcb p).ret = some (.args (s.tcb p).partner (s.tcb p).msgDesc
      (s.tcb p).w0 (s.tcb p).w1 (s.tcb p).w2) := by
  unfold resume
  dsimp only
  rw [show (s.tcb p).cont = .recvReady from hc]
  simp [returnIpcArgs, returnIpc, Sys.upd]

/-- One that waits for an interrupt returns its id. -/
lemma resume_kernelWait {d : Tid} (hc : (s.ipc p).cont = .kernelWait d)
    (hst : (s.ipc p).threadState ≠ .running) :
    ((resume s p dope).tcb p).ret = some (.args d (s.tcb p).msgDesc
      (s.tcb p).w0 (s.tcb p).w1 (s.tcb p).w2) := by
  unfold resume
  dsimp only
  rw [show (s.tcb p).cont = .kernelWait d from hc]
  dsimp only
  rw [if_neg (show (s.tcb p).threadState ≠ .running from hst)]
  simp [returnIpcArgs, returnIpc, threadDequeueWakeup, Sys.upd]

/-- A receiver that goes on returns to user mode. -/
lemma resume_cont (hc : (s.ipc p).cont = .recvWait ∨ (s.ipc p).cont = .recvReady) :
    ((resume s p dope).ipc p).cont = .user := by
  unfold resume
  dsimp only
  rcases hc with hc | hc
  · rw [show (s.tcb p).cont = .recvWait from hc]
    dsimp only
    split
    · rw [returnIpc_ipc, if_pos rfl]
    · rw [returnIpcArgs, returnIpc_ipc, if_pos rfl]
  · rw [show (s.tcb p).cont = .recvReady from hc]
    dsimp only
    rw [returnIpcArgs, returnIpc_ipc, if_pos rfl]

end Resume

/-! ### Delivering steps -/

/-- The step completes a send phase of the running thread, to `q` and with words `w`. -/
def Delivers (s : Sys) (q : TcbPtr) (w : Word × Word × Word) : Event → Prop
  | .ipc dest sndDesc _ _ w0 w1 w2 _ _ =>
      sndDesc ≠ noDesc ∧ q = tidToTcb dest ∧ w = (w0, w1, w2) ∧ (s.tcb q).myself = dest ∧
        isWaiting (s.tcb q).threadState ∧
          ((s.tcb q).partner = (s.tcb s.current).myself ∨ (s.tcb q).partner = nilId)
  | .resume _ _ =>
      ∃ dest sndDesc rcvDesc, (s.tcb s.current).cont = .sendPoll dest sndDesc rcvDesc ∧
        (s.tcb s.current).threadState ≠ .running ∧ q = tidToTcb dest ∧
        w = ((s.tcb s.current).w0, (s.tcb s.current).w1, (s.tcb s.current).w2)
  | _ => False

/-- If the step completes a send phase, the call goes on. -/
def DeliverOk (s : Sys) : Event → Prop
  | .ipc dest sndDesc rcvDesc timeout w0 w1 w2 _ _ =>
      (∃ q, Delivers s q (w0, w1, w2) (.ipc dest sndDesc rcvDesc timeout w0 w1 w2 0)) →
        GoesOn (storeRegs s s.current timeout w0 w1 w2) s.current dest rcvDesc
  | .resume _ _ => ∀ dest sndDesc rcvDesc, (s.tcb s.current).cont = .sendPoll dest sndDesc rcvDesc →
      (s.tcb s.current).threadState ≠ .running → GoesOn s s.current dest rcvDesc
  | _ => True

/-- Whether the call goes on does not depend on other fields of the caller. -/
lemma GoesOn.upd {dest : Tid} {rcvDesc : Word} (hg : GoesOn s p dest rcvDesc)
    (hd : tidToTcb dest ≠ p)
    {f : Tcb → Tcb} (hf : ∀ t, (f t).intrPending = t.intrPending ∧ (f t).sendQueue = t.sendQueue ∧
      (f t).myself = t.myself ∧ (f t).ipcTimeout = t.ipcTimeout) :
    GoesOn (s.upd p f) p dest rcvDesc := by
  obtain ⟨h1, h2, h3, h4⟩ := hf (s.tcb p)
  refine hg.imp id fun hg => ?_
  rw [Sys.upd_tcb_self, Sys.upd_tcb_other _ hd, h4]
  split at hg
  · rename_i hopen
    rw [if_pos hopen]
    refine hg.imp (fun hg => ?_)
      (fun hg => hg.imp (fun ⟨r, g1, g2, g3, g4⟩ => ⟨r, ?_, g2, ?_, ?_⟩) id)
    · rw [IrqPending, Sys.upd_tcb_self, h1]; exact hg
    · rw [Sys.upd_tcb_self, h2]; exact g1
    · rw [Sys.upd_tcb_other _ g2]; exact g3
    · rw [Sys.upd_tcb_other _ g2, Sys.upd_tcb_self, h3]; exact g4
  · rename_i hopen
    rw [if_neg hopen]
    exact hg

/-- **A delivering step** switches to the receiver, which holds the message. -/
lemma delivers_handed {e : Event} {w : Word × Word × Word} (hd : Delivers s q w e)
    (hok : DeliverOk s e)
    (hne : q ≠ s.current) (hq : ¬isPolling (s.tcb q).threadState) (h : step s e = some s') :
    s'.current = q ∧ ∃ d, (s'.tcb q).core = ({ s.tcb q with
      w0 := w.1, w1 := w.2.1, w2 := w.2.2, msgDesc := d, partner := (s.tcb s.current).myself } :
      Tcb).core := by
  cases e with
  | ipc dest sndDesc rcvDesc timeout w0 w1 w2 dope =>
      have hg := hok ⟨q, hd.1, hd.2.1, rfl, hd.2.2.2⟩
      obtain ⟨h1, rfl, rfl, h3, h4, h5⟩ := hd
      simp only [step] at h
      split at h
      · rw [Option.some.injEq] at h
        have hoth : (storeRegs s s.current timeout w0 w1 w2).tcb (tidToTcb dest) =
            s.tcb (tidToTcb dest) :=
          Sys.upd_tcb_other _ hne _
        have hself : (storeRegs s s.current timeout w0 w1 w2).tcb s.current = { s.tcb s.current with
          ipcTimeout := timeout, w0 := w0, w1 := w1, w2 := w2 } := Sys.upd_tcb_self _ _ _
        have hc : (storeRegs s s.current timeout w0 w1 w2).current = s.current := rfl
        generalize storeRegs s s.current timeout w0 w1 w2 = s0 at h hg hoth hself hc
        unfold sysIpc at h
        dsimp only at h
        rw [if_neg h1, hoth, if_pos h3, Sys.upd_tcb_other _ hne, Sys.upd_tcb_self, hoth, hself,
          if_neg (by simp only [not_or, not_and, not_not]
                     exact ⟨h4, fun h => h5.resolve_left h⟩)] at h
        have hs := sendTransfer_handed
          (s := s0.upd s.current fun t => { t with partner := dest }) hc hne
          sndDesc dope
          (by rw [Sys.upd_tcb_other _ hne, hoth]; exact hq)
          (hg.upd hne (by intro _; exact ⟨rfl, rfl, rfl, rfl⟩))
        rw [h, Sys.upd_tcb_other _ hne, hoth, Sys.upd_tcb_self, hself] at hs
        exact ⟨hs.1, _, hs.2⟩
      · simp at h
  | resume dope =>
      obtain ⟨dest, sndDesc, rcvDesc, h1, h2, rfl, rfl⟩ := hd
      have hg := hok dest sndDesc rcvDesc h1 h2
      simp only [step] at h
      split at h
      · simp at h
      · rw [Option.some.injEq] at h
        unfold resume at h
        dsimp only at h
        rw [h1] at h
        dsimp only at h
        rw [if_neg h2] at h
        have hs := sendTransfer_handed (p := s.current) (s := threadDequeueWakeup
            (s.upd s.current fun t => { t with cont := .user }) s.current) rfl hne sndDesc dope
          (show ¬isPolling ((s.upd s.current fun t => { t with cont := .user }).tcb
            _).threadState by
            rw [Sys.upd_tcb_other _ hne]; exact hq)
          (show GoesOn (s.upd s.current fun t => { t with cont := .user }) _ _ _ from
            hg.upd hne (by intro _; exact ⟨rfl, rfl, rfl, rfl⟩))
        rw [h, show (threadDequeueWakeup (s.upd s.current fun t => { t with cont := .user })
          s.current).tcb = (s.upd s.current fun t => { t with cont := .user }).tcb from rfl,
          Sys.upd_tcb_other _ hne, Sys.upd_tcb_self] at hs
        exact ⟨hs.1, _, hs.2⟩
  | exRegs | taskNew | threadSwitch | schedule | timer | irq | idle => exact absurd hd (fun h => h)

end Hazelnut
