import Hazelnut.Thread.Reach
import Hazelnut.Thread.ReadyQueue

/-!
Dead threads.

What a deleted thread leaves behind is a control block in state aborted that is in no queue.  The
invariant of the rendezvous says so of the wakeup queue, the present list and the send queues; here
the ready queues are added, and the fact that a control block that has been used once never reads as
zeroes again.

* `ReadyOnly X s s'`: on the way from `s` to `s'` only threads of `X` have entered a ready queue,
  and no id and no time slice has changed.  It holds of IPC and of interrupts (`ReadyOnly.sysIpc`,
  `ReadyOnly.timer`).
* `Roused s s'`: the same for cancelling and deleting, where whoever enters a ready queue ends up
  running (`Roused.unwindIpc`, `Roused.deleteThreads`).
* `Graves.step`: one step.
* `dead_quiet`: a deleted thread is quiet as long as each step takes none of the wrong turns.
-/

namespace Hazelnut

variable {X : TcbPtr → Prop} {s s' s'' : Sys} {p q : TcbPtr}

/-- What of a control block the ready queues and the life of its thread depend on. -/
def Tcb.kept (t : Tcb) : (Bool × Nat × Option TcbPtr × Option TcbPtr) × Tid × Int :=
  (t.readyPart, t.myself, t.timeslice)

/-- Only threads of `X` have entered a ready queue; ids and time slices are as before. -/
structure ReadyOnly (X : TcbPtr → Prop) (s s' : Sys) : Prop where
  rings : ReadyQueues s'
  only : ∀ q, (s'.tcb q).queueReady = true → X q
  myself : ∀ q, (s'.ipc q).myself = (s.ipc q).myself
  timeslice : ∀ q, (s'.ipc q).timeslice = (s.ipc q).timeslice

namespace ReadyOnly

/-- The ready queues are untouched. -/
lemma same (h : ReadyOnly X s s') (hr : SameReady s' s'')
    (hm : ∀ q, (s''.ipc q).myself = (s'.ipc q).myself)
    (ht : ∀ q, (s''.ipc q).timeslice = (s'.ipc q).timeslice) : ReadyOnly X s s'' :=
  ⟨h.rings.same hr, fun q hq => h.only q (hr.queueReady q ▸ hq), fun q => (hm q).trans (h.myself q),
    fun q => (ht q).trans (h.timeslice q)⟩

lemma upd (h : ReadyOnly X s s') (p : TcbPtr) {f : Tcb → Tcb} (hf : ∀ t, (f t).kept = t.kept) :
    ReadyOnly X s (s'.upd p f) := by
  have hk : ∀ q, ((s'.upd p f).tcb q).kept = (s'.tcb q).kept := fun q => by
    unfold Sys.upd
    by_cases hq : q = p
    · subst hq; simp [hf]
    · simp [hq]
  exact h.same ⟨fun q => congrArg Prod.fst (hk q), rfl⟩ (fun q => congrArg (fun b => b.2.1) (hk q))
    fun q => congrArg (fun b => b.2.2) (hk q)

/-- Only variables outside the control blocks change. -/
lemma globals (h : ReadyOnly X s s') (ht : s''.tcb = s'.tcb) (hq : s''.prioQueue = s'.prioQueue) :
    ReadyOnly X s s'' := by
  refine h.same ⟨fun q => by rw [ht], hq⟩ (fun q => ?_) fun q => ?_
  · unfold Sys.ipc; rw [ht]
  · unfold Sys.ipc; rw [ht]

lemma enqueue (h : ReadyOnly X s s') (hp : X p) : ReadyOnly X s (threadEnqueueReady s' p) := by
  obtain ⟨hr, hq, -⟩ := h.rings.enqueue p
  refine ⟨hr, fun q h1 => ?_, fun q => ?_, fun q => ?_⟩
  · rw [hq] at h1
    split at h1
    · rename_i he; exact he ▸ hp
    · exact h.only q h1
  · rw [ipc_enqueueReady]; exact h.myself q
  · rw [ipc_enqueueReady]; exact h.timeslice q

lemma dequeue (h : ReadyOnly X s s') (p : TcbPtr) : ReadyOnly X s (threadDequeueReady s' p) := by
  obtain ⟨hr, hq, -⟩ := h.rings.dequeue p
  have hs := sameIpc_dequeueReady s' p
  refine ⟨hr, fun q h1 => ?_, fun q => ?_, fun q => ?_⟩
  · rw [hq] at h1
    split at h1
    · simp at h1
    · exact h.only q h1
  · rw [hs.ipc]; exact h.myself q
  · rw [hs.ipc]; exact h.timeslice q

lemma enqueueWakeup (h : ReadyOnly X s s') (p : TcbPtr) :
    ReadyOnly X s (threadEnqueueWakeup s' p) := by
  unfold threadEnqueueWakeup
  split
  · exact h
  · exact h.globals rfl rfl

lemma dequeueWakeup (h : ReadyOnly X s s') (p : TcbPtr) :
    ReadyOnly X s (threadDequeueWakeup s' p) :=
  h.globals rfl rfl

lemma enqueueSend (h : ReadyOnly X s s') (r p : TcbPtr) :
    ReadyOnly X s (threadEnqueueSend s' r p) :=
  h.same ((SameReady.refl s').enqueueSend r p) (sameCtl_enqueueSend s' r p).myself
    (sameCtl_enqueueSend s' r p).timeslice

lemma dequeueSend (h : ReadyOnly X s s') (r p : TcbPtr) :
    ReadyOnly X s (threadDequeueSend s' r p) :=
  h.same ((SameReady.refl s').dequeueSend r p) (sameCtl_dequeueSend s' r p).myself
    (sameCtl_dequeueSend s' r p).timeslice

lemma switchTo (h : ReadyOnly X s s') (q : TcbPtr) (c : Cont) : ReadyOnly X s (switchTo s' q c) :=
  (h.upd s'.current (f := fun t => { t with cont := c }) (by intro _; rfl)).globals rfl rfl

lemma returnIpc (h : ReadyOnly X s s') (p : TcbPtr) (r : IpcReturn) :
    ReadyOnly X s (returnIpc s' p r) :=
  h.upd p (by intro _; rfl)

lemma returnIpcArgs (h : ReadyOnly X s s') (p : TcbPtr) (t : Tid) (e : Word) :
    ReadyOnly X s (returnIpcArgs s' p t e) := h.returnIpc p _

/-! ### The scheduler -/

lemma rotate (h : ReadyOnly X s s') (hp : (s'.tcb p).queueReady = true) (m : Int) :
    ReadyOnly X s { s' with
      prioQueue := Function.update s'.prioQueue (s'.tcb p).priority (some p)
      currentMaxPrio := m } :=
  ⟨h.rings.rotate ⟨hp, rfl⟩ m, h.only, h.myself, h.timeslice⟩

lemma dispatch (h : ReadyOnly X s s') (p : TcbPtr) : ReadyOnly X s (dispatchThread s' p) := by
  unfold dispatchThread
  split
  · exact h
  · split
    · exact h.switchTo .idle .user
    · refine ReadyOnly.switchTo ?_ p .user
      split
      · rename_i hr
        exact h.rotate hr s'.currentMaxPrio
      · exact h

lemma findInQueue {i fuel : Nat} {r : Option TcbPtr} (h : ReadyOnly X s s')
    (hf : findInQueue i fuel s' = some (s'', r)) : ReadyOnly X s s'' := by
  induction fuel generalizing s' with
  | zero => simp [Hazelnut.findInQueue] at hf
  | succ fuel ih =>
      rw [Hazelnut.findInQueue] at hf
      cases hq : s'.prioQueue i with
      | none =>
          simp only [hq, Option.some.injEq, Prod.mk.injEq] at hf
          exact hf.1 ▸ h
      | some a =>
          simp only [hq] at hf
          cases hn : (s'.tcb a).readyNext with
          | none => simp [hn] at hf
          | some p =>
              simp only [hn] at hf
              split at hf
              · simp only [Option.some.injEq, Prod.mk.injEq] at hf
                obtain ⟨l, hl, hmem⟩ := h.rings i
                have ha : a ∈ l := List.mem_of_mem_head? (by rw [← hl.head, hq]; rfl)
                obtain ⟨hpr, rfl⟩ : InReady s' i p := (hmem p).mp (hl.ring.next_mem ha hn)
                exact hf.1 ▸ h.rotate hpr _
              · exact ih (h.dequeue p) hf

lemma findFrom {i : Nat} (h : ReadyOnly X s s') (hf : findFrom i s' = some (s'', p)) :
    ReadyOnly X s s'' := by
  induction i generalizing s' with
  | zero =>
      rw [Hazelnut.findFrom] at hf
      split at hf
      · simp at hf
      · rename_i s1 q hq
        simp only [Option.some.injEq, Prod.mk.injEq] at hf
        exact hf.1 ▸ h.findInQueue hq
      · rename_i s1 hq
        simp only [Option.some.injEq, Prod.mk.injEq] at hf
        exact hf.1 ▸ (h.findInQueue hq).globals rfl rfl
  | succ i ih =>
      rw [Hazelnut.findFrom] at hf
      split at hf
      · simp at hf
      · rename_i s1 q hq
        simp only [Option.some.injEq, Prod.mk.injEq] at hf
        exact hf.1 ▸ h.findInQueue hq
      · rename_i s1 hq
        exact ih (h.findInQueue hq) hf

lemma reschedule (h : ReadyOnly X s s')
    (hf : ((findNextThread s').map fun r => dispatchThread r.1 r.2) = some s'') :
    ReadyOnly X s s'' := by
  obtain ⟨⟨s1, r⟩, hr, rfl⟩ := Option.map_eq_some_iff.mp hf
  refine ReadyOnly.dispatch ?_ r
  unfold findNextThread at hr
  split at hr
  · simp only [Option.some.injEq, Prod.mk.injEq] at hr
    exact hr.1 ▸ h.globals rfl rfl
  · exact h.findFrom hr

/-! ### Interrupts -/

lemma parseWakeup (now : BitVec 64) (l : List TcbPtr) (prio : Nat) (highest : Option TcbPtr)
    (h : ReadyOnly X s s') (hl : ∀ q ∈ l, X q) :
    ReadyOnly X s (parseWakeup now l prio highest s').1 :=
  parseWakeup_keeps (fun _ q hq h => ((h.dequeueWakeup q).upd q (by intro _; rfl)).enqueue
    (hl q hq)) prio highest h

lemma timer (h : ReadyOnly X s s') (hc : s'.current = .idle ∨ X s'.current)
    (hw : ∀ q ∈ s'.wakeup, X q)
    (ht : handleTimerInterrupt s' = some s'') : ReadyOnly X s s'' := by
  unfold handleTimerInterrupt parseWakeupQueue at ht
  dsimp only at ht
  generalize s'.clock + BitVec.ofNat 64 timeQuantum = now at ht
  have h0 : ReadyOnly X s { s' with clock := now } := h.globals rfl rfl
  have h1 := ReadyOnly.parseWakeup now s'.wakeup (s'.tcb s'.current).priority none h0 hw
  rcases hrun : Hazelnut.parseWakeup now s'.wakeup (s'.tcb s'.current).priority none
    { s' with clock := now } with ⟨s1, wake⟩
  rw [hrun] at ht h1
  have h2 := h1.upd s'.current
    (f := fun t => { t with currentTimeslice := t.currentTimeslice - timeQuantum })
    (by intro _; rfl)
  dsimp only at ht h2
  generalize s1.upd s'.current (fun t =>
    { t with currentTimeslice := t.currentTimeslice - timeQuantum }) = s2 at ht h2
  have h3 : ReadyOnly X s (if s'.current = .idle then s2
      else threadEnqueueReady s2 s'.current) := by
    split
    · exact h2
    · rename_i hi
      exact h2.enqueue (hc.resolve_left hi)
  generalize (if s'.current = .idle then s2 else threadEnqueueReady s2 s'.current) = s3 at ht h3
  cases wake with
  | some p => exact Option.some.inj ht ▸ h3.dispatch p
  | none =>
      dsimp only at ht
      split at ht
      · exact (h3.upd s'.current (by intro _; rfl)).reschedule ht
      · exact Option.some.inj ht ▸ h3

/-- The owner of the interrupt is enqueued only if it waits. -/
lemma irq (h : ReadyOnly X s s') (hc : s'.current = .idle ∨ X s'.current)
    (hw : ∀ q, (s'.ipc q).threadState = .waiting → X q) (number : Nat) :
    ReadyOnly X s (handleInterrupt s' number) := by
  unfold handleInterrupt
  split
  · exact h
  · rename_i p hown
    dsimp only
    split
    · rename_i hcond
      have hp : X p := hw p ((isWaiting_iff _).mp hcond.1)
      split
      · exact ((h.upd p (by intro _; rfl)).upd p (by intro _; rfl)).enqueue hp
      · refine ReadyOnly.switchTo ?_ p .user
        split
        · exact h.upd p (by intro _; rfl)
        · rename_i hi
          exact (h.upd p (by intro _; rfl)).enqueue (hc.resolve_left hi)
    · exact h.upd p (by intro _; rfl)

lemma threadSwitch (h : ReadyOnly X s s') (hc : X s'.current) {tid : Tid}
    (ht : sysThreadSwitch s' tid = some s'') : ReadyOnly X s s'' := by
  have h1 := h.enqueue hc
  unfold sysThreadSwitch at ht
  dsimp only at ht
  split at ht
  · exact Option.some.inj ht ▸ h1.dispatch _
  · exact h1.reschedule ht

/-- The priority of a thread outside the ready queues changes. -/
lemma updPriority (h : ReadyOnly X s s') (hp : (s'.tcb p).queueReady = false) (n : Nat) :
    ReadyOnly X s (s'.upd p fun t => { t with priority := n }) := by
  have hs := (SameIpc.refl s').upd p (f := fun t => { t with priority := n }) (by intro _; rfl)
  refine ⟨h.rings.updOut hp fun t => Or.inl rfl, fun q hq => h.only q ?_, fun q => ?_, fun q => ?_⟩
  · rw [← hq]
    unfold Sys.upd
    by_cases he : q = p
    · subst he; simp
    · simp [he]
  · rw [hs.ipc]; exact h.myself q
  · rw [hs.ipc]; exact h.timeslice q

lemma schedule (h : ReadyOnly X s s') (param : Word) (tid : Tid) :
    ReadyOnly X s (sysSchedule s' param tid) := by
  unfold sysSchedule
  dsimp only
  split
  · exact h
  · split
    · rename_i hr
      obtain ⟨-, hout, -⟩ := h.rings.dequeue (tidToTcb tid)
      exact ((h.dequeue _).updPriority (by rw [hout, if_pos rfl]) _).enqueue (h.only _ hr)
    · rename_i hr
      exact h.updPriority (by simpa using hr) _

/-! ### IPC -/

lemma kernelIdWait (h : ReadyOnly X s s') (p : TcbPtr) (dest : Tid) :
    ReadyOnly X s (kernelIdWait s' p dest) :=
  (h.upd p (by intro _; rfl)).switchTo .idle _

lemma ipcHandleKernelId (h : ReadyOnly X s s') (p : TcbPtr) (dest : Tid) :
    ReadyOnly X s (ipcHandleKernelId s' p dest) := by
  have hown : ∀ o e, ReadyOnly X s
      (Hazelnut.returnIpcArgs { s' with interruptOwner := o } p dest e) :=
    fun o e => by
      have h1 : ReadyOnly X s { s' with interruptOwner := o } := h.globals rfl rfl
      exact h1.returnIpcArgs p dest e
  unfold Hazelnut.ipcHandleKernelId
  dsimp only
  split
  · exact (h.upd p (by intro _; rfl)).returnIpcArgs p _ _
  · split
    · exact h.kernelIdWait p dest
    · split
      · split
        · split_ifs <;> exact hown _ _
        · exact hown _ _
      · exact ((h.upd p (by intro _; rfl)).enqueueWakeup p).kernelIdWait p dest

lemma recvBlock (h : ReadyOnly X s s') (p : TcbPtr) (toTcb : Option TcbPtr) (partner : Tid) :
    ReadyOnly X s (recvBlock s' p toTcb partner) := by
  unfold Hazelnut.recvBlock
  dsimp only
  split
  · exact (h.upd p (by intro _; rfl)).switchTo _ _
  · split
    · exact h.returnIpc p _
    · exact (((h.upd p (by intro _; rfl)).enqueueWakeup p).upd p (by intro _; rfl)).switchTo _ _

lemma recvFromReady (h : ReadyOnly X s s') (p : TcbPtr) (toTcb : Option TcbPtr) (hq : X q) :
    ReadyOnly X s (recvFromReady s' p toTcb q) := by
  have h1 := ((h.upd q (f := fun t => { t with threadState := .lockedRunning })
    (by intro _; rfl)).enqueue hq).dequeueSend p q
  exact ((h1.upd p (by intro _; rfl)).dequeueWakeup q).switchTo _ _

lemma recvFrom (h : ReadyOnly X s s') (p : TcbPtr) (toTcb : Option TcbPtr) (rcvDesc : Word)
    {src : Option TcbPtr} (hsrc : ∀ q, src = some q → X q) :
    ReadyOnly X s (recvFrom s' p toTcb rcvDesc src) := by
  have h1 := h.upd p (f := fun t => { t with msgDesc := rcvDesc }) (by intro _; rfl)
  unfold Hazelnut.recvFrom
  dsimp only
  split
  · exact h1.recvBlock p toTcb nilId
  · rename_i q
    split
    · exact h1.recvBlock p toTcb _
    · exact h1.recvFromReady p toTcb (hsrc q rfl)

/-- The running thread, the head of its send queue and whoever answers to its id belong to `X`. -/
structure Sees (X : TcbPtr → Prop) (s : Sys) (p : TcbPtr) : Prop where
  self : X p
  head : ∀ q, (s.ipc p).sendQueue = some q → X q
  named : ∀ dest, ¬isKernelId dest → (s.ipc (tidToTcb dest)).myself = dest → X (tidToTcb dest)

lemma Sees.upd (h : Sees X s' p) (q : TcbPtr) {f : Tcb → Tcb}
    (hf : ∀ t, (f t).sendQueue = t.sendQueue)
    (hm : ∀ t, (f t).myself = t.myself) : Sees X (s'.upd q f) p := by
  refine ⟨h.self, fun r hr => h.head r ?_, fun dest hk hd => h.named dest hk ?_⟩
  · rw [Sys.upd_ipc] at hr
    split at hr
    · rename_i he
      rw [he, ← hr]
      exact (hf _).symm
    · exact hr
  · rw [Sys.upd_ipc] at hd
    split at hd
    · rename_i he
      rw [he, ← hd]
      exact (hm _).symm
    · exact hd

lemma recvPhase (h : ReadyOnly X s s') (hs : Sees X s' p) {toTcb : Option TcbPtr} (dest : Tid)
    (rcvDesc : Word) : ReadyOnly X s (recvPhase s' p toTcb dest rcvDesc) := by
  unfold Hazelnut.recvPhase
  dsimp only
  have h0 : ReadyOnly X s (if (s'.tcb p).intrPending &&& irqInService ≠ 0 then
      s'.upd p fun t => { t with intrPending := 0 } else s') ∧
      Sees X (if (s'.tcb p).intrPending &&& irqInService ≠ 0 then
        s'.upd p fun t => { t with intrPending := 0 } else s') p := by
    split
    · exact ⟨h.upd p (by intro _; rfl), hs.upd p (by intro _; rfl) (by intro _; rfl)⟩
    · exact ⟨h, hs⟩
  generalize (if (s'.tcb p).intrPending &&& irqInService ≠ 0 then
      s'.upd p fun t => { t with intrPending := 0 } else s') = s0 at h0 ⊢
  obtain ⟨h0, hs0⟩ := h0
  split
  · split
    · have h1 := h0.upd p
        (f := fun t => { t with intrPending := irqInService ||| (s0.tcb p).intrPending })
        (by intro _; rfl)
      split
      · exact ((h1.upd p (by intro _; rfl)).enqueue hs0.self).switchTo _ _
      · exact (h1.upd p (by intro _; rfl)).returnIpcArgs p _ _
    · exact h0.recvFrom p toTcb rcvDesc hs0.head
  · split
    · exact (h0.upd p (by intro _; rfl)).ipcHandleKernelId p dest
    · rename_i hk
      split
      · exact h0.returnIpc p _
      · rename_i hmy
        exact h0.recvFrom p toTcb rcvDesc fun q hq => Option.some.inj hq ▸ hs0.named dest hk
          (not_not.mp hmy)

lemma sendTransfer (h : ReadyOnly X s s') (hs : Sees X s' p) (dest : Tid)
    (sndDesc rcvDesc dope : Word) :
    ReadyOnly X s (sendTransfer s' p dest sndDesc rcvDesc dope) := by
  have h1 : ReadyOnly X s (transferMessage s' p (tidToTcb dest) sndDesc dope) ∧
      Sees X (transferMessage s' p (tidToTcb dest) sndDesc dope) p := by
    have h2 := h.upd (tidToTcb dest) (f := fun t =>
      { t with w0 := (s'.tcb p).w0, w1 := (s'.tcb p).w1, w2 := (s'.tcb p).w2 }) (by intro _; rfl)
    have hs2 := hs.upd (tidToTcb dest) (f := fun t =>
      { t with w0 := (s'.tcb p).w0, w1 := (s'.tcb p).w1, w2 := (s'.tcb p).w2 }) (by intro _; rfl)
      (by intro _; rfl)
    unfold transferMessage
    dsimp only
    split
    · have hs3 : Sees X (threadDequeueWakeup (s'.upd (tidToTcb dest) fun t =>
          { t with w0 := (s'.tcb p).w0, w1 := (s'.tcb p).w1, w2 := (s'.tcb p).w2 })
              (tidToTcb dest)) p :=
        ⟨hs2.self, hs2.head, hs2.named⟩
      exact ⟨((h2.dequeueWakeup _).upd _ (by intro _; rfl)).upd p (by intro _; rfl),
        (hs3.upd _ (by intro _; rfl) (by intro _; rfl)).upd p (by intro _; rfl) (by intro _; rfl)⟩
    · exact ⟨h2.upd _ (by intro _; rfl), hs2.upd _ (by intro _; rfl) (by intro _; rfl)⟩
  unfold Hazelnut.sendTransfer
  dsimp only
  generalize transferMessage s' p (tidToTcb dest) sndDesc dope = s1 at h1 ⊢
  have h2 := h1.1.upd (tidToTcb dest) (f := fun t => { t with partner := (s1.tcb p).myself })
    (by intro _; rfl)
  have hs2 := h1.2.upd (tidToTcb dest) (f := fun t => { t with partner := (s1.tcb p).myself })
    (by intro _; rfl) (by intro _; rfl)
  split
  · exact ((h2.upd p (by intro _; rfl)).enqueue hs.self).switchTo _ _
  · exact h2.recvPhase hs2 dest rcvDesc

lemma sendPoll (h : ReadyOnly X s s') (p : TcbPtr) (dest : Tid) (sndDesc rcvDesc : Word) :
    ReadyOnly X s (sendPoll s' p dest sndDesc rcvDesc) := by
  unfold Hazelnut.sendPoll
  dsimp only
  split
  · exact h.returnIpc p _
  · split
    · exact ((h.enqueueSend _ p).upd p (by intro _; rfl)).switchTo _ _
    · split
      · exact h.returnIpc p _
      · exact (((((h.upd p (by intro _; rfl)).enqueueWakeup p).enqueueSend _ p)).upd p
          (by intro _; rfl)).switchTo _ _

/-- **IPC** enqueues the caller and existing senders only. -/
lemma sysIpc (h : ReadyOnly X s s') (hs : Sees X s' p) (dest : Tid) (sndDesc rcvDesc dope : Word) :
    ReadyOnly X s (sysIpc s' p dest sndDesc rcvDesc dope) := by
  unfold Hazelnut.sysIpc
  dsimp only
  split
  · exact h.recvPhase hs dest rcvDesc
  · split
    · split
      · exact (h.upd p (by intro _; rfl)).sendPoll p dest sndDesc rcvDesc
      · exact (h.upd p (by intro _; rfl)).sendTransfer
          (hs.upd p (by intro _; rfl) (by intro _; rfl))
          dest sndDesc rcvDesc dope
    · exact h.returnIpc p _

lemma resume (h : ReadyOnly X s s') (hs : Sees X s' p) (dope : Word) :
    ReadyOnly X s (resume s' p dope) := by
  have h1 := h.upd p (f := fun t => { t with cont := .user }) (by intro _; rfl)
  have hs1 := hs.upd p (f := fun t => { t with cont := .user }) (by intro _; rfl) (by intro _; rfl)
  unfold Hazelnut.resume
  dsimp only
  cases (s'.tcb p).cont with
  | user => exact h1
  | sendSwitch => exact h1.returnIpc p _
  | irqSwitch irq => exact (h1.upd p (by intro _; rfl)).returnIpcArgs p _ _
  | recvWait =>
      dsimp only
      split
      · exact h1.returnIpc p _
      · exact ((h1.dequeueWakeup p).upd p (by intro _; rfl)).returnIpcArgs p _ _
  | recvReady => exact (h1.upd p (by intro _; rfl)).returnIpcArgs p _ _
  | kernelWait dest =>
      dsimp only
      split
      · exact h1.returnIpcArgs p _ _
      · exact ((h1.dequeueWakeup p).upd p (by intro _; rfl)).returnIpcArgs p _ _
  | sendPoll dest sndDesc rcvDesc =>
      dsimp only
      split
      · exact h1.returnIpc p _
      · have hs2 : Sees X (threadDequeueWakeup (s'.upd p fun t => { t with cont := .user }) p) p :=
          ⟨hs1.self, hs1.head, hs1.named⟩
        exact (h1.dequeueWakeup p).sendTransfer hs2 dest sndDesc rcvDesc dope

end ReadyOnly

/-! ### Cancelling and deleting -/

/-- Whoever is in a ready queue exists or is running; nobody is new and time slices are as before.
-/
structure Roused (s s' : Sys) : Prop where
  rings : ReadyQueues s'
  only : ∀ q, (s'.tcb q).queueReady = true → Existing s' q ∨ (s'.ipc q).threadState = .running
  old : ∀ q, Existing s' q → Existing s q
  timeslice : ∀ q, (s'.ipc q).timeslice = (s.ipc q).timeslice

namespace Roused

/-- An assignment that sets no thread aside that was running. -/
lemma upd (h : Roused s s') (p : TcbPtr) {f : Tcb → Tcb} (hf : ∀ t, (f t).kept = t.kept)
    (hs : (s'.ipc p).threadState = .running → (f (s'.tcb p)).threadState = .running) :
    Roused s (s'.upd p f) := by
  have hk : ∀ q, ((s'.upd p f).tcb q).kept = (s'.tcb q).kept := fun q => by
    unfold Sys.upd
    by_cases hq : q = p
    · subst hq; simp [hf]
    · simp [hq]
  have hr : SameReady s' (s'.upd p f) := ⟨fun q => congrArg Prod.fst (hk q), rfl⟩
  have hex : ∀ q, Existing (s'.upd p f) q ↔ Existing s' q := fun q => by
    rw [Existing, Existing,
      show ((s'.upd p f).ipc q).myself = (s'.ipc q).myself from congrArg (fun b => b.2.1) (hk q)]
  refine ⟨h.rings.same hr, fun q hq => ?_, fun q hq => h.old q ((hex q).mp hq),
    fun q => (congrArg (fun b => b.2.2) (hk q)).trans (h.timeslice q)⟩
  rw [hr.queueReady] at hq
  refine (h.only q hq).imp (hex q).mpr fun h1 => ?_
  · rw [Sys.upd_ipc]
    split
    · rename_i he
      exact hs (he ▸ h1)
    · exact h1

lemma enqueue (h : Roused s s') (hp : Existing s' p ∨ (s'.ipc p).threadState = .running) :
    Roused s (threadEnqueueReady s' p) := by
  obtain ⟨hr, hq, -⟩ := h.rings.enqueue p
  have hex := existing_congr (ipc_enqueueReady s' p)
  refine ⟨hr, fun q h1 => ?_, fun q hq => h.old q (hex ▸ hq), fun q => ?_⟩
  · rw [hex, ipc_enqueueReady]
    rw [hq] at h1
    split at h1
    · rename_i he; exact he ▸ hp
    · exact h.only q h1
  · rw [ipc_enqueueReady]; exact h.timeslice q

lemma dequeue (h : Roused s s') (p : TcbPtr) : Roused s (threadDequeueReady s' p) := by
  obtain ⟨hr, hq, -⟩ := h.rings.dequeue p
  have hs := sameIpc_dequeueReady s' p
  refine ⟨hr, fun q h1 => ?_, fun q hq => h.old q (existing_congr hs.ipc ▸ hq), fun q => ?_⟩
  · rw [existing_congr hs.ipc, hs.ipc]
    rw [hq] at h1
    split at h1
    · simp at h1
    · exact h.only q h1
  · rw [hs.ipc]; exact h.timeslice q

lemma dequeueWakeup (h : Roused s s') (p : TcbPtr) : Roused s (threadDequeueWakeup s' p) :=
  ⟨h.rings.same ⟨fun _ => rfl, rfl⟩, h.only, h.old, h.timeslice⟩

lemma dequeueSend (h : Roused s s') (r p : TcbPtr) : Roused s (threadDequeueSend s' r p) := by
  have hr := (SameReady.refl s').dequeueSend r p
  have hc := sameCtl_dequeueSend s' r p
  have hex : ∀ q, Existing (threadDequeueSend s' r p) q ↔ Existing s' q := fun q => by
    rw [Existing, Existing, hc.myself]
  refine ⟨h.rings.same hr, fun q hq => ?_, fun q hq => h.old q ((hex q).mp hq),
    fun q => (hc.timeslice q).trans (h.timeslice q)⟩
  rw [hr.queueReady] at hq
  rw [hex, hc.threadState]
  exact h.only q hq

lemma makeRunning (h : Roused s s') (p : TcbPtr) : Roused s (makeRunning s' p) := by
  have h1 := h.upd p (f := fun t => { t with threadState := .running }) (by intro _; rfl)
    fun _ => rfl
  refine h1.enqueue (Or.inr ?_)
  rw [Sys.upd_ipc, if_pos rfl]

lemma returnIpc (h : Roused s s') (p : TcbPtr) (r : IpcReturn) : Roused s (returnIpc s' p r) :=
  h.upd p (by intro _; rfl) fun h => h

/-- `unwind_ipc` leaves whomever it enqueues running. -/
lemma unwindIpc {n : Nat} (h : Roused s s') (hu : unwindIpc n s' p = some s'') : Roused s s'' :=
  unwindIpc_keeps (fun h => h.dequeueWakeup _)
    (fun h hst => (h.dequeueWakeup _).upd _ (by intro _; rfl) fun hr => by
      rw [ipc_dequeueWakeup] at hr
      rcases hst with h2 | h2 <;> simp [h2] at hr)
    (fun h => h.returnIpc _ _) (fun h => h.dequeueSend _ _) (fun h => h.makeRunning _) h hu

lemma unwindSenders {n : Nat} (h : Roused s s') (hu : unwindSenders n s' p = some s'') :
    Roused s s'' :=
  unwindSenders_keeps unwindIpc h hu

/-- A thread is deleted. -/
lemma freeTcb (h : Roused s s') (hu : freeThread s' p = some s'') : Roused s (freeTcb s'' p) := by
  unfold freeThread at hu
  obtain ⟨s2, h2, rfl⟩ := Option.map_eq_some_iff.mp hu
  obtain ⟨s1, h1, h2⟩ := Option.bind_eq_some_iff.mp h2
  have h3 := (h.unwindIpc h1).unwindSenders h2
  obtain ⟨-, hq, -⟩ := h3.rings.dequeue p
  have h4 := h3.dequeue p
  have hout : ((threadDequeueReady s2 p).tcb p).queueReady = false := by rw [hq, if_pos rfl]
  have hready : ∀ q, ((Hazelnut.freeTcb (threadDequeueReady s2 p) p).tcb q).queueReady =
      ((threadDequeueReady s2 p).tcb q).queueReady := fun q => by
    by_cases hqp : q = p
    · subst hqp; simp [Hazelnut.freeTcb, Sys.upd, threadDequeuePresent]
    · simp [Hazelnut.freeTcb, Sys.upd, threadDequeuePresent, hqp]
  have hr1 : ReadyQueues (threadDequeuePresent (threadDequeueReady s2 p) p) :=
    h4.rings.same ⟨fun _ => rfl, rfl⟩
  refine ⟨hr1.updOut hout fun t => Or.inl rfl, fun q h5 => ?_, fun q h5 => ?_, fun q => ?_⟩
  · have hqp : q ≠ p := fun he => by
      rw [hready, he, hout] at h5
      simp at h5
    rw [Existing, freeTcb_ipc, if_neg hqp]
    exact h4.only q (by rw [← hready]; exact h5)
  · have hqp : q ≠ p := fun he => h5.2 (by rw [freeTcb_ipc, if_pos he])
    rw [Existing, freeTcb_ipc, if_neg hqp] at h5
    exact h4.old q h5
  · rw [freeTcb_ipc, ← h4.timeslice]
    split
    · rename_i he; rw [he]
    · rfl

lemma deleteThreads {sp : Nat} {l : List TcbPtr} (h : Roused s s')
    (hu : deleteThreads sp l s' = some s'') :
    Roused s s'' := by
  induction l generalizing s' with
  | nil => exact Option.some.inj hu ▸ h
  | cons p l ih =>
      rw [Hazelnut.deleteThreads] at hu
      split at hu
      · obtain ⟨s1, h1, h2⟩ := Option.bind_eq_some_iff.mp hu
        exact ih (h.freeTcb h1) h2
      · exact ih h hu

end Roused

/-! ### Steps -/

/-- Only existing threads are in a ready queue, and they, as well as the threads `x`, have a time
slice. -/
structure Graves (x : TcbPtr → Prop) (s : Sys) : Prop where
  inv : Inv .none s
  rings : ReadyQueues s
  only : ∀ q, (s.tcb q).queueReady = true → Existing s q
  slice : ∀ q, Existing s q ∨ x q → 0 < (s.ipc q).timeslice

namespace Graves

variable {x : TcbPtr → Prop}

lemma readyOnly (h : Graves x s) : ReadyOnly (Existing s) s s :=
  ⟨h.rings, h.only, fun _ => rfl, fun _ => rfl⟩

lemma roused (h : Graves x s) : Roused s s :=
  ⟨h.rings, fun q hq => Or.inl (h.only q hq), fun _ h => h, fun _ => rfl⟩

lemma of_readyOnly (h : Graves x s) (hr : ReadyOnly (Existing s) s s') (hi : Inv .none s') :
    Graves x s' := by
  have hex : ∀ q, Existing s' q ↔ Existing s q := fun q => by rw [Existing, Existing, hr.myself]
  refine ⟨hi, hr.rings, fun q hq => (hex q).mpr (hr.only q hq), fun q hq => ?_⟩
  rw [hr.timeslice]
  exact h.slice q (hq.imp (hex q).mp id)

lemma of_roused (h : Graves x s) (hr : Roused s s') (hi : Inv .none s') : Graves x s' := by
  refine ⟨hi, hr.rings, fun q hq => (hr.only q hq).elim id fun h1 => ?_, fun q hq => ?_⟩
  · exact (hi.existing_of_state (by simp [h1]) (by simp [h1])).1
  · rw [hr.timeslice]
    exact h.slice q (hq.imp (hr.old q) id)

/-- A new thread is created in a TCB that is in no ready queue. -/
lemma create (h : Graves x s) {tid : Tid} (hp : ¬Existing s (tidToTcb tid)) (space : Option Nat)
    (uip usp : Word) (pager : Tid) (prio : Nat)
    (hi : Inv .none (startThread (createTcb s tid space) (tidToTcb tid) uip usp pager prio)) :
    Graves x (startThread (createTcb s tid space) (tidToTcb tid) uip usp pager prio) := by
  have hipc := startThread_ipc s tid space uip usp pager prio
  have hnew := hi.existing_of_state (p := tidToTcb tid) (by rw [hipc, if_pos rfl]; simp)
    (by rw [hipc, if_pos rfl]; simp)
  have hout : (s.tcb (tidToTcb tid)).queueReady = false := by
    rw [← Bool.not_eq_true]
    exact fun h1 => hp (h.only _ h1)
  have h1 : ReadyQueues (createTcb s tid space) :=
    (h.rings.updOut hout (f := fun t =>
      { t with
        myself := tid, threadState := .aborted, queueReady := false, sendQueue := none,
        intrPending := 0, timeslice := defaultTimeslice, currentTimeslice := 0,
        space := space.getD s.nextSpace }) fun t => Or.inr rfl).same ⟨fun _ => rfl, rfl⟩
  have hout1 : ((createTcb s tid space).tcb (tidToTcb tid)).queueReady = false := by
    simp [createTcb, threadEnqueuePresent, Sys.upd]
  have h2 : ReadyQueues ((createTcb s tid space).upd (tidToTcb tid) fun t =>
      { t with
        uip := uip, usp := usp, cont := .user, pager := pager, priority := prio, threadState :=
        .running }) :=
    h1.updOut hout1 fun t => Or.inl rfl
  obtain ⟨h3, hq, -⟩ := h2.enqueue (tidToTcb tid)
  refine ⟨hi, h3, fun q h4 => ?_, fun q h4 => ?_⟩
  · by_cases hqp : q = tidToTcb tid
    · exact hqp ▸ hnew.1
    · have h5 := (hq q).symm.trans h4
      rw [if_neg hqp] at h5
      have h6 : (s.tcb q).queueReady = true := by
        rw [← h5]
        simp [createTcb, threadEnqueuePresent, Sys.upd, hqp]
      rw [Existing, hipc, if_neg hqp]
      exact h.only q h6
  · by_cases hqp : q = tidToTcb tid
    · rw [hipc, if_pos hqp]
      show 0 < defaultTimeslice
      decide
    · rw [Existing, hipc, if_neg hqp] at h4
      rw [hipc, if_neg hqp]
      exact h.slice q h4

/-- What the running thread sees. -/
lemma sees (h : Graves x s) (hc : s.current ≠ .idle) : ReadyOnly.Sees (Existing s) s s.current := by
  have hex := (h.inv.current.resolve_left hc).1
  obtain ⟨l, hl, hmem⟩ := h.inv.ring _ hex
  refine ⟨hex, fun q hq => ?_, fun dest hk hd => ⟨by simp [tidToTcb], fun he => ?_⟩⟩
  · exact ((hmem q).mp (List.mem_of_mem_head? (by rw [← hl.head]; exact hq))).existing
  · rw [hd] at he
    rw [he] at hk
    exact hk (by decide)

/-- `sys_lthread_ex_regs`. -/
lemma exRegs (h : Graves x s) (hu : inUser s) {threadno uip usp : Word} {pager : Tid}
    (hok : ExRegsOk s threadno uip usp) (hx : sysLthreadExRegs s threadno uip usp pager = some s') :
    Graves x s' := by
  have hi := h.inv.exRegs hu hok hx
  have hex : ∀ {s1 : Sys} p, Roused s s1 → Roused s (exchangeRegs s1 p uip usp pager) :=
    fun {s1} p h1 => by
    have h2 := h1.upd p (f := fun t =>
      { t with
        usp := if usp = noDesc then t.usp else usp
        uip := if uip = noDesc then t.uip else uip
        pager := if pager = invalidId then t.pager else pager }) (by intro _; rfl) fun h => h
    unfold exchangeRegs
    dsimp only
    generalize s1.upd p _ = s2 at h2 ⊢
    split
    · rename_i hr
      exact h2.enqueue (Or.inr hr)
    · exact h2
  unfold sysLthreadExRegs at hx
  dsimp only at hx
  generalize setThread (s.tcb s.current).myself threadno = tid at hx
  split at hx
  · split at hx
    · obtain ⟨s1, h1, rfl⟩ := Option.map_eq_some_iff.mp hx
      exact h.of_roused (hex _ ((h.roused.unwindIpc h1).upd _ (by intro _; rfl) fun _ => rfl)) hi
    · rename_i hne
      obtain rfl := Option.some.inj hx
      exact h.create (fun hp => hne hp.2) _ uip usp pager _ hi
  · obtain rfl := Option.some.inj hx
    exact h.of_roused (hex _ h.roused) hi

/-- The task is gone before it is created. -/
lemma taskGone (h : Graves x s) {task : Tid} (hk : tidTask task ≠ 0)
    (hne : tidTask (s.ipc s.current).myself ≠ tidTask task)
    (hok : tcbExist s (tidToTcb task) → DeleteOk s (tidToTcb task))
    (hd : (if tcbExist s (tidToTcb task) then deleteThreads
      (s.tcb (tidToTcb task)).space s.present s
      else some s) = some s') : Graves x s' ∧ ¬Existing s' (tidToTcb task) := by
  obtain ⟨s1, h1, hi, hgone⟩ := h.inv.taskGone hk hne hok
  obtain rfl := Option.some.inj (h1.symm.trans hd)
  refine ⟨?_, hgone⟩
  split at hd
  · exact h.of_roused (h.roused.deleteThreads hd) hi
  · exact Option.some.inj hd ▸ h

/-- `sys_task_new`. -/
lemma taskNew (h : Graves x s) {task pager : Tid} {uip usp : Word} (hok : TaskNewOk s task)
    (hx : sysTaskNew s task pager uip usp = some s') : Graves x s' := by
  have hi := h.inv.taskNew hok hx
  unfold TaskNewOk at hok
  unfold sysTaskNew at hx
  dsimp only at hx
  generalize setThread task 0 = task at hx hok
  split at hx
  · simp at hx
  · rename_i hk
    split at hx
    · exact Option.some.inj hx ▸ h
    · rename_i hne
      obtain ⟨s1, h1, h2⟩ := Option.map_eq_some_iff.mp hx
      obtain ⟨h3, hgone⟩ := h.taskGone hk hne hok h1
      rw [← h2] at hi ⊢
      split
      · exact h3
      · rename_i hpager
        rw [if_neg hpager] at hi
        exact h3.create hgone none uip usp pager _ hi

/-- **Each step** keeps the dead out of the ready queues. -/
lemma step (h : Graves x s) {e : Event} (hok : StepOk s e) (hstep : step s e = some s') :
    Graves x s' := by
  have hi := h.inv.step hok hstep
  have hw : ∀ q ∈ s.wakeup, Existing s q := fun q hq => (h.inv.wakeup q hq).1
  have hcur : s.current = .idle ∨ Existing s s.current := h.inv.current.imp id And.left
  have hro := h.readyOnly
  cases e with
  | ipc dest sndDesc rcvDesc timeout w0 w1 w2 dope =>
      simp only [Hazelnut.step] at hstep
      split at hstep
      · rename_i hu
        obtain rfl := Option.some.inj hstep
        exact h.of_readyOnly ((hro.upd s.current (by intro _; rfl)).sysIpc
          ((h.sees hu.1).upd s.current (by intro _; rfl) (by intro _; rfl)) dest sndDesc
          rcvDesc dope) hi
      · simp at hstep
  | exRegs threadno uip usp pager =>
      simp only [Hazelnut.step] at hstep
      split at hstep
      · exact h.exRegs (by assumption) hok hstep
      · simp at hstep
  | taskNew task pager uip usp =>
      simp only [Hazelnut.step] at hstep
      split at hstep
      · exact h.taskNew hok hstep
      · simp at hstep
  | threadSwitch tid =>
      simp only [Hazelnut.step] at hstep
      split at hstep
      · rename_i hu
        exact h.of_readyOnly (hro.threadSwitch (hcur.resolve_left hu.1) hstep) hi
      · simp at hstep
  | schedule param tid =>
      simp only [Hazelnut.step] at hstep
      split at hstep
      · obtain rfl := Option.some.inj hstep
        exact h.of_readyOnly (hro.schedule param tid) hi
      · simp at hstep
  | timer =>
      simp only [Hazelnut.step] at hstep
      split at hstep
      · exact h.of_readyOnly (hro.timer hcur hw hstep) hi
      · simp at hstep
  | irq number =>
      simp only [Hazelnut.step] at hstep
      split at hstep
      · obtain rfl := Option.some.inj hstep
        refine h.of_readyOnly (hro.irq hcur (fun q hq => ?_) number) hi
        exact (h.inv.existing_of_state (by simp [hq]) (by simp [hq])).1
      · simp at hstep
  | resume dope =>
      simp only [Hazelnut.step] at hstep
      split at hstep
      · simp at hstep
      · rename_i hint
        obtain rfl := Option.some.inj hstep
        have hc : s.current ≠ .idle :=
          fun hc => hint (by unfold interruptible; rw [hc]; exact h.inv.idle_cont)
        exact h.of_readyOnly (hro.resume (h.sees hc) dope) hi
  | idle =>
      simp only [Hazelnut.step] at hstep
      split at hstep
      · exact h.of_readyOnly (hro.reschedule hstep) hi
      · simp at hstep

end Graves

lemma graves_nilSys : Graves (fun _ => False) nilSys := by
  have hr : ∀ t, (nilSys.tcb t).queueReady = false := fun t => by
    cases t with
    | idle => rfl
    | slot n =>
        by_cases hn : TcbPtr.slot n = tidToTcb nilId
        · rw [hn]; rfl
        · simp [nilSys, createTcb, threadEnqueuePresent, Sys.upd, hn, bootSys, zeroTcb]
  refine ⟨inv_nilSys, fun i => ⟨[], ⟨List.nodup_nil, rfl, trivial⟩, fun t => ?_⟩, fun q hq => ?_,
    fun q hq => ?_⟩
  · simp [InReady, hr]
  · rw [hr] at hq
    simp at hq
  · have hn := (existing_nilSys q).mp (hq.resolve_right fun h => h)
    rw [hn, nilSys_ipc, if_pos rfl]
    show 0 < defaultTimeslice
    decide

lemma graves_initSys : Graves (fun _ => False) initSys := by
  have hi := inv_nilSys.create sigma0Id none
    (fun h => absurd ((existing_nilSys _).mp h) (by decide)) (by decide) (by decide)
    (by simp) 0 0 nilId 50
  have h1 := graves_nilSys.create (fun h => absurd ((existing_nilSys _).mp h) (by decide)) none
    0 0 nilId 50 hi
  refine h1.create (fun h => h.2 ?_) none 0 0 sigma0Id 50 inv_initSys
  rw [startThread_ipc, if_neg (by decide), nilSys_ipc, if_neg (by decide), if_neg (by decide)]
  rfl

/-! ### Runs -/

/-- The TCB is in none of the queues. -/
structure NoQueue (s : Sys) (p : TcbPtr) : Prop where
  mark : (s.tcb p).queueReady = false
  ready : ∀ i, ∃ l, ReadyRing s i l ∧ p ∉ l
  wakeup : p ∉ s.wakeup
  present : p ∉ s.present
  send : ∀ t, Existing s t → ∃ l, SendRing s t l ∧ p ∉ l

lemma Graves.noQueue {x : TcbPtr → Prop} (h : Graves x s) (hp : ¬Existing s p) : NoQueue s p := by
  refine ⟨?_, fun i => ?_, fun hw => hp (h.inv.wakeup p hw).1,
    fun hpr => hp ((h.inv.present p).mp hpr),
    fun t ht => ?_⟩
  · rw [← Bool.not_eq_true]
    exact fun h1 => hp (h.only p h1)
  · obtain ⟨l, hl, hmem⟩ := h.rings i
    exact ⟨l, hl, fun hpl => hp (h.only p ((hmem p).mp hpl).1)⟩
  · obtain ⟨l, hl, hmem⟩ := h.inv.ring t ht
    exact ⟨l, hl, fun hpl => hp ((hmem p).mp hpl).existing⟩

/-- **The dead are quiet**: whoever existed in `s` and does not in `s'` is aborted and in no queue.
-/
def DeadQuiet (s s' : Sys) : Prop :=
  ∀ p, Existing s p → ¬Existing s' p → (s'.ipc p).threadState = .aborted ∧ NoQueue s' p

/-- The event reaches `create_tcb` for the TCB `p` in the state `s'`. -/
def CreatesIn (s : Sys) (p : TcbPtr) (s' : Sys) : Event → Prop
  | .exRegs threadno uip usp _ =>
      let tid := setThread (s.tcb s.current).myself threadno
      p = tidToTcb tid ∧ s' = s ∧ inUser s ∧
        (~~~(uip &&& usp) ≠ 0 ∧ tid ≠ (s.tcb s.current).myself) ∧
        ¬tcbExist s p
  | .taskNew task pager _ _ =>
      let task := setThread task 0
      p = tidToTcb task ∧ inUser s ∧ tidTask task ≠ 0 ∧
        tidTask (s.tcb s.current).myself ≠ tidTask task ∧
        pager ≠ nilId ∧
        (if tcbExist s p then deleteThreads (s.tcb p).space s.present s else some s) = some s'
  | _ => False

lemma Graves.creates {x : TcbPtr → Prop} (h : Graves x s) {e : Event} (hok : StepOk s e)
    (hc : CreatesIn s p s' e) : NoQueue s' p := by
  cases e with
  | exRegs threadno uip usp pager =>
      obtain ⟨rfl, rfl, -, -, hne⟩ := hc
      exact h.noQueue fun hp => hne hp.2
  | taskNew task pager uip usp =>
      obtain ⟨rfl, -, hk, hne, -, hd⟩ := hc
      obtain ⟨h1, hgone⟩ := h.taskGone hk hne hok hd
      exact h1.noQueue hgone
  | ipc => exact absurd hc fun h => h
  | threadSwitch => exact absurd hc fun h => h
  | schedule => exact absurd hc fun h => h
  | timer => exact absurd hc fun h => h
  | irq => exact absurd hc fun h => h
  | resume => exact absurd hc fun h => h
  | idle => exact absurd hc fun h => h

/-- **A deleted thread is never runnable**: in a run whose steps take none of the wrong turns, it is
aborted and in no queue for as long as it is dead, and `create_tcb` finds the TCB it makes a thread
of in no queue. -/
theorem dead_quiet (h : RunBy StepOk s) (h' : RunOn StepOk s s') :
    DeadQuiet s s' ∧ ∀ e p s'', StepOk s' e → CreatesIn s' p s'' e → NoQueue s'' p := by
  have h0 : Graves (fun _ => False) s :=
    h.invariant graves_initSys fun s e s' hs hok hstep => hs.step hok hstep
  -- whoever exists in `s` has a time slice from there on
  have h1 : Graves (Existing s) s :=
    ⟨h0.inv, h0.rings, h0.only, fun q hq => h0.slice q (Or.inl (hq.elim id id))⟩
  have h2 : Graves (Existing s) s' := by
    induction h' with
    | refl => exact h1
    | tail _ hstep ih =>
        obtain ⟨e, hok, hs⟩ := hstep
        exact ih.step hok hs
  refine ⟨fun p hp hd => ⟨?_, h2.noQueue hd⟩, fun e p s'' hok hc => h2.creates hok hc⟩
  refine (h2.inv.dead p hd hp.1).resolve_right fun hf => ?_
  have h3 := h2.slice p (Or.inr hp)
  omega

/-- Nobody is in the middle of an IPC. -/
def Resting (s : Sys) : Prop :=
  ∀ q, (s.ipc q).threadState = .free ∨ (s.ipc q).threadState = .aborted ∨
    (s.ipc q).threadState = .running

lemma resting_initSys : Resting initSys := by
  intro q
  have h1 := startThread_ipc
    (startThread (createTcb nilSys sigma0Id none) (tidToTcb sigma0Id) 0 0 nilId 50)
    rootTaskId none 0 0 sigma0Id 50 q
  have h2 := startThread_ipc nilSys sigma0Id none 0 0 nilId 50 q
  rw [show initSys.ipc q = _ from h1]
  split
  · exact Or.inr (Or.inr rfl)
  · rw [h2]
    split
    · exact Or.inr (Or.inr rfl)
    · rw [nilSys_ipc]
      split
      · exact Or.inr (Or.inl rfl)
      · split
        · exact Or.inl rfl
        · exact Or.inl rfl

/-- Switching to another thread changes no thread state. -/
lemma Resting.dispatch (h : Resting s) (p : TcbPtr) : Resting (dispatchThread s p) := by
  have hswitch : ∀ {s : Sys}, Resting s → ∀ p, Resting (switchTo s p .user) := fun {s} h p q => by
    rw [switchTo_ipc]
    split
    · exact h q
    · exact h q
  unfold dispatchThread
  split
  · exact h
  · split
    · exact hswitch h _
    · refine hswitch ?_ _
      split
      · exact h
      · exact h

lemma Resting.reschedule (h : Resting s)
    (hf : ((findNextThread s).map fun r => dispatchThread r.1 r.2) = some s') : Resting s' := by
  obtain ⟨⟨s1, r⟩, hr, rfl⟩ := Option.map_eq_some_iff.mp hf
  refine Resting.dispatch (fun q => ?_) r
  rw [(findNextThread_spec hr).1.ipc]
  exact h q

lemma Resting.idle (h : Resting s) (hs : step s .idle = some s') : Resting s' := by
  simp only [step] at hs
  split at hs
  · exact h.reschedule hs
  · simp at hs

lemma Resting.threadSwitch (h : Resting s) {tid : Tid} (hs : step s (.threadSwitch tid) = some s') :
    Resting s' := by
  simp only [step] at hs
  split at hs
  · have hr : Resting (threadEnqueueReady s s.current) := fun q => by
      rw [ipc_enqueueReady]
      exact h q
    unfold sysThreadSwitch at hs
    dsimp only at hs
    split at hs
    · exact Option.some.inj hs ▸ hr.dispatch _
    · exact hr.reschedule hs
  · simp at hs

/-- Then the deletion of a task takes no wrong turn. -/
lemma Resting.deleteOk (h : Resting s) (p : TcbPtr) : DeleteOk s p := by
  refine ⟨fun q _ _ => ⟨fun hs => ?_, fun hs => ?_⟩, fun t q _ _ _ hs => ?_⟩
  · rcases h q with h1 | h1 | h1 <;> simp [h1] at hs
  · rcases h q with h1 | h1 | h1 <;> simp [h1] at hs
  · rcases h q with h1 | h1 | h1 <;> simp [h1] at hs

/-- Sigma0 runs, and deletes the root task. -/
def rootDeletedRun : List Event := [.idle, .threadSwitch sigma0Id, .taskNew rootTaskId nilId 0 0]

theorem dead_quiet_root : ∃ s', run initSys rootDeletedRun = some s' ∧ RunOn StepOk initSys s' ∧
    Existing initSys (tidToTcb rootTaskId) ∧ ¬Existing s' (tidToTcb rootTaskId) ∧
    (s'.ipc (tidToTcb rootTaskId)).threadState = .aborted ∧ NoQueue s' (tidToTcb rootTaskId) := by
  obtain ⟨s', hrun, hdead⟩ := exists_run rootDeletedRun
    (P := fun s => ¬(s.ipc (tidToTcb rootTaskId)).myself ≠ nilId) (by decide +kernel)
  have hex : Existing initSys (tidToTcb rootTaskId) := by
    refine ⟨by simp [tidToTcb], ?_⟩
    decide +kernel
  have hon : RunOn StepOk initSys s' := by
    obtain ⟨s1, h1, h2⟩ := Option.bind_eq_some_iff.mp hrun
    obtain ⟨s2, h3, h4⟩ := Option.bind_eq_some_iff.mp h2
    obtain ⟨s3, h5, h6⟩ := Option.bind_eq_some_iff.mp h4
    obtain rfl := Option.some.inj h6
    have hr2 : Resting s2 := (resting_initSys.idle h1).threadSwitch h3
    exact ((Relation.ReflTransGen.single ⟨.idle, trivial, h1⟩).tail
      ⟨.threadSwitch sigma0Id, trivial, h3⟩).tail
      ⟨.taskNew rootTaskId nilId 0 0, fun _ => hr2.deleteOk _, h5⟩
  have hgone : ¬Existing s' (tidToTcb rootTaskId) := fun h => hdead h.2
  obtain ⟨h1, h2⟩ := (dead_quiet RunBy.init hon).1 _ hex hgone
  exact ⟨s', hrun, hon, hex, hgone, h1, h2⟩

/-- The root task's second thread. -/
def rootThread1 : Tid := setThread rootTaskId 1

/-- The root task has a second thread, which waits for anybody. -/
def twoThreadsRun : List Event :=
  [.idle, .exRegs 1 0 0 nilId, .threadSwitch rootThread1, .ipc nilId noDesc 1 0 0 0 0 0, .idle]

/-- Sigma0 creates a second thread and polls for the root task, which sends to its own second thread
and picks sigma0 up.  Sigma0's second thread deletes the root task before sigma0 goes on: the second
thread of the root task dies first, and unwinding the first one sets it running again. -/
def roamingRun : List Event :=
  [.threadSwitch sigma0Id, .exRegs 1 0 0 nilId, .ipc rootTaskId 0 noDesc 0 0 0 0 0, .idle,
    .threadSwitch rootTaskId, .ipc rootThread1 0 1 0 0 0 0 0, .resume 0,
    .threadSwitch (setThread sigma0Id 1), .taskNew rootTaskId nilId 0 0]

theorem dead_runs : ¬∀ s s', Reachable s → RunOn (fun _ _ => True) s s' → DeadQuiet s s' := by
  intro h
  have hall : ∀ {es : List Event} {s s' : Sys}, run s es = some s' →
      RunOn (fun _ _ => True) s s' := by
    intro es
    induction es with
    | nil =>
        intro s s' hr
        obtain rfl : s = s' := by simpa [run] using hr
        exact .refl
    | cons e es ih =>
        intro s s' hr
        rw [run, Option.bind_eq_some_iff] at hr
        obtain ⟨s1, h1, h2⟩ := hr
        exact .head ⟨e, trivial, h1⟩ (ih h2)
  obtain ⟨s, hs, hex, hlast⟩ := exists_run twoThreadsRun
    (P := fun s => (s.ipc (tidToTcb rootThread1)).myself ≠ nilId ∧
      ((run s roamingRun).map fun s' => decide (¬(s'.ipc (tidToTcb rootThread1)).myself ≠ nilId ∧
        (s'.ipc (tidToTcb rootThread1)).threadState = .running)) = some true) (by decide +kernel)
  obtain ⟨s', hs', hdead⟩ := Option.map_eq_some_iff.mp hlast
  obtain ⟨hdead, hrunning⟩ := of_decide_eq_true hdead
  have hquiet := h s s' (Reachable.init.run hs) (hall hs') _ ⟨by simp [tidToTcb], hex⟩
    fun h1 => hdead h1.2
  rw [hrunning] at hquiet
  exact absurd hquiet.1 (by simp)

end Hazelnut
