import Hazelnut.Thread.Deliver

/-!
Interrupt ownership.

A thread takes an interrupt by receiving from its id with a timeout of zero, which is the
only place where `interrupt_owner` is written.

* `SameOwner`: a stretch of kernel code leaves the owners alone.
* `Associates`: what a call does to the owners.
* `OwnerOk`: a step that takes none of the wrong turns.  `ipc_handle_kernel_id` takes every id
  with task number zero, other than the nil id, for the id of an interrupt, and the deletion of
  a task leaves its threads in `interrupt_owner`.
* `owners_sound`: in every run of such steps, no thread but the idle one owns two interrupts,
  the interrupts that are owned exist, and so do the owners.

The idle thread owns the interrupts 0, 2 and 8 from the start, so that nobody else gets them.
-/

namespace Hazelnut

variable {s s' s'' : Sys} {p q r : TcbPtr}

/-- `MAX_INTERRUPTS`. -/
def maxInterrupts : Nat := 32

/-! ### Frames -/

/-- What of a control block an association depends on. -/
def Tcb.badge (t : Tcb) : Tid × Timeout × Nat := (t.myself, t.ipcTimeout, t.space)

/-- The owners are left alone, and what an association depends on. -/
structure SameOwner (s s' : Sys) : Prop where
  owner : s'.interruptOwner = s.interruptOwner
  badge : ∀ r, (s'.tcb r).badge = (s.tcb r).badge

namespace SameOwner

lemma refl (s : Sys) : SameOwner s s := ⟨rfl, fun _ => rfl⟩

lemma trans (h : SameOwner s s') (h' : SameOwner s' s'') : SameOwner s s'' :=
  ⟨h'.owner.trans h.owner, fun r => (h'.badge r).trans (h.badge r)⟩

lemma myself (h : SameOwner s s') (r : TcbPtr) : (s'.tcb r).myself = (s.tcb r).myself :=
  congrArg Prod.fst (h.badge r)

lemma timeout (h : SameOwner s s') (r : TcbPtr) : (s'.tcb r).ipcTimeout = (s.tcb r).ipcTimeout :=
  congrArg (fun b => b.2.1) (h.badge r)

lemma space (h : SameOwner s s') (r : TcbPtr) : (s'.tcb r).space = (s.tcb r).space :=
  congrArg (fun b => b.2.2) (h.badge r)

lemma upd (h : SameOwner s s') (q : TcbPtr) {f : Tcb → Tcb} (hf : ∀ t, (f t).badge = t.badge) :
    SameOwner s (s'.upd q f) := by
  refine ⟨h.owner, fun r => ?_⟩
  by_cases hr : r = q
  · subst hr
    rw [Sys.upd_tcb_self, hf]
    exact h.badge r
  · rw [Sys.upd_tcb_other _ hr]
    exact h.badge r

lemma updPtr (h : SameOwner s s') (q : Option TcbPtr) {f : Tcb → Tcb}
    (hf : ∀ t, (f t).badge = t.badge) : SameOwner s (s'.updPtr q f) := by
  cases q with
  | none => exact h
  | some q => exact h.upd q hf

lemma prioQueue (h : SameOwner s s') (a : Nat → Option TcbPtr) :
    SameOwner s { s' with prioQueue := a } := ⟨h.owner, h.badge⟩

lemma maxPrio (h : SameOwner s s') (m : Int) : SameOwner s { s' with currentMaxPrio := m } :=
  ⟨h.owner, h.badge⟩

lemma enqueueReady (h : SameOwner s s') (r : TcbPtr) : SameOwner s (threadEnqueueReady s' r) := by
  unfold threadEnqueueReady
  dsimp only
  split
  · exact h
  · refine SameOwner.maxPrio (SameOwner.upd ?_ r (by intro _; rfl)) _
    split
    · exact ((h.upd _ (by intro _; rfl)).updPtr _ (by intro _; rfl)).upd _ (by intro _; rfl)
    · exact (h.upd r (by intro _; rfl)).prioQueue _

lemma dequeueReady (h : SameOwner s s') (r : TcbPtr) : SameOwner s (threadDequeueReady s' r) := by
  unfold threadDequeueReady
  dsimp only
  split
  · refine SameOwner.upd ?_ r (by intro _; rfl)
    split
    · exact h.prioQueue _
    · refine SameOwner.updPtr (SameOwner.updPtr ?_ _ (by intro _; rfl)) _ (by intro _; rfl)
      split
      · exact h.prioQueue _
      · exact h
  · exact h

lemma enqueueSend (h : SameOwner s s') (t r : TcbPtr) : SameOwner s (threadEnqueueSend s' t r) := by
  unfold threadEnqueueSend
  split
  · exact (h.upd _ (by intro _; rfl)).upd _ (by intro _; rfl)
  · exact ((h.upd _ (by intro _; rfl)).upd _ (by intro _; rfl)).updPtr _ (by intro _; rfl)

lemma dequeueSend (h : SameOwner s s') (t r : TcbPtr) : SameOwner s (threadDequeueSend s' t r) := by
  unfold threadDequeueSend
  dsimp only
  split
  · exact h.upd _ (by intro _; rfl)
  · refine SameOwner.updPtr (SameOwner.updPtr ?_ _ (by intro _; rfl)) _ (by intro _; rfl)
    split
    · exact h.upd _ (by intro _; rfl)
    · exact h

lemma enqueueWakeup (h : SameOwner s s') (r : TcbPtr) : SameOwner s (threadEnqueueWakeup s' r) := by
  unfold threadEnqueueWakeup
  split
  · exact h
  · exact ⟨h.owner, h.badge⟩

lemma dequeueWakeup (h : SameOwner s s') (r : TcbPtr) : SameOwner s (threadDequeueWakeup s' r) :=
  ⟨h.owner, h.badge⟩

lemma switchTo (h : SameOwner s s') (r : TcbPtr) (c : Cont) : SameOwner s (switchTo s' r c) := by
  have h1 := h.upd s'.current (f := fun t => { t with cont := c }) (by intro _; rfl)
  exact ⟨h1.owner, h1.badge⟩

lemma dispatch (h : SameOwner s s') (r : TcbPtr) : SameOwner s (dispatchThread s' r) := by
  unfold dispatchThread
  dsimp only
  split
  · exact h
  · split
    · exact h.switchTo _ _
    · split
      · exact (h.prioQueue _).switchTo _ _
      · exact h.switchTo _ _

/-- Running the scheduler. -/
lemma reschedule (h : SameOwner s s')
    (hf : ((findNextThread s').map fun r => dispatchThread r.1 r.2) = some s'') :
    SameOwner s s'' := by
  obtain ⟨⟨s1, q⟩, h1, rfl⟩ := Option.map_eq_some_iff.mp hf
  refine SameOwner.dispatch ?_ q
  exact findNextThread_keeps (fun _ _ _ h => ⟨h.owner, h.badge⟩)
    (fun _ p h => h.dequeueReady p) h h1

lemma makeRunning (h : SameOwner s s') (r : TcbPtr) : SameOwner s (makeRunning s' r) :=
  (h.upd r (by intro _; rfl)).enqueueReady r

lemma returnIpc (h : SameOwner s s') (r : TcbPtr) (e : IpcReturn) :
    SameOwner s (returnIpc s' r e) :=
  h.upd r (by intro _; rfl)

lemma returnIpcArgs (h : SameOwner s s') (r : TcbPtr) (t : Tid) (e : Word) :
    SameOwner s (returnIpcArgs s' r t e) := h.returnIpc r _

lemma kernelIdWait (h : SameOwner s s') (p : TcbPtr) (dest : Tid) :
    SameOwner s (kernelIdWait s' p dest) := (h.upd p (by intro _; rfl)).switchTo _ _

lemma recvBlock (h : SameOwner s s') (p : TcbPtr) (toTcb : Option TcbPtr) (partner : Tid) :
    SameOwner s (recvBlock s' p toTcb partner) := by
  unfold Hazelnut.recvBlock
  dsimp only
  split
  · exact (h.upd p (by intro _; rfl)).switchTo _ _
  · split
    · exact h.returnIpc p _
    · exact (((h.upd p (by intro _; rfl)).enqueueWakeup p).upd p (by intro _; rfl)).switchTo _ _

lemma recvFrom (h : SameOwner s s') (p : TcbPtr) (toTcb : Option TcbPtr) (rcvDesc : Word)
    (src : Option TcbPtr) : SameOwner s (recvFrom s' p toTcb rcvDesc src) := by
  unfold Hazelnut.recvFrom
  dsimp only
  split
  · exact (h.upd p (by intro _; rfl)).recvBlock _ _ _
  · split
    · exact (h.upd p (by intro _; rfl)).recvBlock _ _ _
    · exact ((((((h.upd p (by intro _; rfl)).upd _ (by intro _; rfl)).enqueueReady _).dequeueSend
        _ _).upd
        _ (by intro _; rfl)).dequeueWakeup _).switchTo _ _

lemma sendPoll (h : SameOwner s s') (p : TcbPtr) (dest : Tid) (sndDesc rcvDesc : Word) :
    SameOwner s (sendPoll s' p dest sndDesc rcvDesc) := by
  unfold Hazelnut.sendPoll
  dsimp only
  split
  · exact h.returnIpc p _
  · split
    · exact ((h.enqueueSend _ _).upd p (by intro _; rfl)).switchTo _ _
    · split
      · exact h.returnIpc p _
      · exact ((((h.upd p (by intro _; rfl)).enqueueWakeup p).enqueueSend _ _).upd p
          (by intro _; rfl)).switchTo _ _

lemma transferMessage (h : SameOwner s s') (p q : TcbPtr) (sndDesc dope : Word) :
    SameOwner s (transferMessage s' p q sndDesc dope) := by
  unfold Hazelnut.transferMessage
  dsimp only
  split
  · exact (((h.upd q (by intro _; rfl)).dequeueWakeup q).upd q (by intro _; rfl)).upd p
      (by intro _; rfl)
  · exact (h.upd q (by intro _; rfl)).upd q (by intro _; rfl)

lemma parseWakeup (now : BitVec 64) (l : List TcbPtr) (prio : Nat) (highest : Option TcbPtr)
    (h : SameOwner s s') : SameOwner s (parseWakeup now l prio highest s').1 :=
  parseWakeup_keeps (fun _ q _ h => (h.dequeueWakeup q).makeRunning q) prio highest h

lemma unwindIpc {n : Nat} (h : SameOwner s s') (hu : unwindIpc n s' p = some s'') :
    SameOwner s s'' :=
  unwindIpc_keeps (fun h => h.dequeueWakeup _)
    (fun h _ => (h.dequeueWakeup _).upd _ (by intro _; rfl))
    (fun h => h.returnIpc _ _) (fun h => h.dequeueSend _ _) (fun h => h.makeRunning _) h hu

lemma unwindSenders {n : Nat} (h : SameOwner s s') (hu : unwindSenders n s' p = some s'') :
    SameOwner s s'' :=
  unwindSenders_keeps unwindIpc h hu

lemma freeThread (h : SameOwner s s') (hu : freeThread s' p = some s'') : SameOwner s s'' := by
  obtain ⟨s2, h2, rfl⟩ := Option.map_eq_some_iff.mp hu
  obtain ⟨s1, h1, h2⟩ := Option.bind_eq_some_iff.mp h2
  exact ((h.unwindIpc h1).unwindSenders h2).dequeueReady p

end SameOwner

/-! ### Associations -/

/-- The owners, once `p` has been detached from all interrupts. -/
def detach (s : Sys) (p : TcbPtr) : Nat → Option TcbPtr :=
  fun i => if s.interruptOwner i = some p then none else s.interruptOwner i

/-- `p` receives from `dest` in a way that is an association. -/
def Requests (s : Sys) (p : TcbPtr) (dest : Tid) (rcvDesc : Word) : Prop :=
  rcvDesc &&& 1 ≠ 1 ∧ isKernelId dest ∧ zeroTimeout (s.tcb p).ipcTimeout

/-- What a call of `p` does to the owners: nothing, or it detaches `p`, and attaches it to an
interrupt that nobody owns. -/
structure Associates (s : Sys) (p : TcbPtr) (dest : Tid) (rcvDesc : Word) (s' : Sys) : Prop where
  badge : ∀ r, (s'.tcb r).badge = (s.tcb r).badge
  owner : s'.interruptOwner = s.interruptOwner ∨
    Requests s p dest rcvDesc ∧ (s'.interruptOwner = detach s p ∨
      isInterruptId dest ∧ detach s p (interruptId dest) = none ∧
        s'.interruptOwner = Function.update (detach s p) (interruptId dest) (some p))

namespace SameOwner

variable {dest : Tid} {rcvDesc : Word}

lemma associates (h : SameOwner s s') (p : TcbPtr) (dest : Tid) (rcvDesc : Word) :
    Associates s p dest rcvDesc s' := ⟨h.badge, .inl h.owner⟩

lemma detach (h : SameOwner s s') (p : TcbPtr) : detach s' p = detach s p := by
  unfold Hazelnut.detach
  rw [h.owner]

/-- `ipc_handle_kernel_id`. -/
lemma handleKernelId (h : SameOwner s s') (hrd : rcvDesc &&& 1 ≠ 1) (hk : isKernelId dest) :
    Associates s p dest rcvDesc (ipcHandleKernelId s' p dest) := by
  unfold ipcHandleKernelId
  dsimp only
  split
  · exact ((h.upd p (by intro _; rfl)).returnIpcArgs p _ _).associates p dest rcvDesc
  · split
    · exact (h.kernelIdWait p dest).associates p dest rcvDesc
    · rename_i hexp
      split
      · rename_i hus
        have hreq : Requests s p dest rcvDesc := ⟨hrd, hk, by rw [← h.timeout p]; exact ⟨hexp, hus⟩⟩
        have hret : ∀ (o : Nat → Option TcbPtr) (e : Word),
            (Hazelnut.returnIpcArgs { s' with interruptOwner := o } p dest e).interruptOwner = o ∧
            ∀ r, ((Hazelnut.returnIpcArgs { s' with interruptOwner := o } p dest e).tcb r).badge =
              (s.tcb r).badge := fun o e => by
          have h1 := (SameOwner.refl { s' with interruptOwner := o }).returnIpcArgs p dest e
          exact ⟨h1.owner, fun r => (h1.badge r).trans (h.badge r)⟩
        have hdet := h.detach p
        split
        · rename_i hirq
          by_cases hnone : Hazelnut.detach s' p (interruptId dest) = none
          · rw [if_pos (show (if s'.interruptOwner (interruptId dest) = some p then none
              else s'.interruptOwner (interruptId dest)) = none from hnone)]
            refine ⟨(hret _ _).2, .inr ⟨hreq, .inr ⟨hirq, ?_, (hret _ _).1.trans ?_⟩⟩⟩
            · rw [← hdet]; exact hnone
            · rw [← hdet]; rfl
          · rw [if_neg (show ¬(if s'.interruptOwner (interruptId dest) = some p then none
              else s'.interruptOwner (interruptId dest)) = none from hnone)]
            exact ⟨(hret _ _).2, .inr ⟨hreq, .inl ((hret _ _).1.trans hdet)⟩⟩
        · exact ⟨(hret _ _).2, .inr ⟨hreq, .inl ((hret _ _).1.trans hdet)⟩⟩
      · exact (((h.upd p (by intro _; rfl)).enqueueWakeup p).kernelIdWait p dest).associates p dest
          rcvDesc

/-- The receive phase. -/
lemma recvPhase (h : SameOwner s s') (toTcb : Option TcbPtr) :
    Associates s p dest rcvDesc (recvPhase s' p toTcb dest rcvDesc) := by
  unfold Hazelnut.recvPhase
  dsimp only
  have h0 : SameOwner s (if (s'.tcb p).intrPending &&& irqInService ≠ 0 then
      s'.upd p fun t => { t with intrPending := 0 } else s') := by
    split
    · exact h.upd p (by intro _; rfl)
    · exact h
  generalize (if (s'.tcb p).intrPending &&& irqInService ≠ 0 then
      s'.upd p fun t => { t with intrPending := 0 } else s') = s0 at h0 ⊢
  split
  · split
    · split
      · exact ((((h0.upd p (by intro _; rfl)).upd p (by intro _; rfl)).enqueueReady p).switchTo
          _ _).associates _ _ _
      · exact (((h0.upd p (by intro _; rfl)).upd p (by intro _; rfl)).returnIpcArgs p
          _ _).associates _ _ _
    · exact (h0.recvFrom p _ _ _).associates _ _ _
  · rename_i hopen
    split
    · rename_i hk
      exact (h0.upd p (by intro _; rfl)).handleKernelId hopen hk
    · split
      · exact (h0.returnIpc p _).associates _ _ _
      · exact (h0.recvFrom p _ _ _).associates _ _ _

/-- The send phase, with what follows it. -/
lemma sendTransfer (h : SameOwner s s') (sndDesc dope : Word) :
    Associates s p dest rcvDesc (sendTransfer s' p dest sndDesc rcvDesc dope) := by
  unfold Hazelnut.sendTransfer
  dsimp only
  have h1 := (h.transferMessage p (tidToTcb dest) sndDesc dope).upd (tidToTcb dest) (f := fun t =>
    { t with
      partner := ((Hazelnut.transferMessage s' p (tidToTcb dest) sndDesc dope).tcb p).myself })
    (by intro _; rfl)
  split
  · exact (((h1.upd p (by intro _; rfl)).enqueueReady p).switchTo _ _).associates _ _ _
  · exact h1.recvPhase _

/-- The system call. -/
lemma sysIpc (h : SameOwner s s') (sndDesc dope : Word) :
    Associates s p dest rcvDesc (sysIpc s' p dest sndDesc rcvDesc dope) := by
  unfold Hazelnut.sysIpc
  dsimp only
  split
  · exact h.recvPhase _
  · split
    · split
      · exact ((h.upd p (by intro _; rfl)).sendPoll p _ _ _).associates _ _ _
      · exact (h.upd p (by intro _; rfl)).sendTransfer _ _
    · exact (h.returnIpc p _).associates _ _ _

end SameOwner

/-- Going on, which is an association only behind a send that was picked. -/
lemma resume_associates (dope : Word) : (SameOwner s (resume s p dope)) ∨
    ∃ dest sndDesc rcvDesc, (s.tcb p).cont = .sendPoll dest sndDesc rcvDesc ∧
      Associates s p dest rcvDesc (resume s p dope) := by
  have h : SameOwner s (s.upd p fun t => { t with cont := .user }) :=
    (SameOwner.refl s).upd p (by intro _; rfl)
  unfold resume
  dsimp only
  split
  · exact .inl h
  · exact .inl (h.returnIpc p _)
  · exact .inl ((h.upd p (by intro _; rfl)).returnIpcArgs p _ _)
  · split
    · exact .inl (h.returnIpc p _)
    · exact .inl (((h.dequeueWakeup p).upd p (by intro _; rfl)).returnIpcArgs p _ _)
  · exact .inl ((h.upd p (by intro _; rfl)).returnIpcArgs p _ _)
  · split
    · exact .inl (h.returnIpcArgs p _ _)
    · exact .inl (((h.dequeueWakeup p).upd p (by intro _; rfl)).returnIpcArgs p _ _)
  · rename_i dest sndDesc rcvDesc hc
    split
    · exact .inl (h.returnIpc p _)
    · exact .inr ⟨dest, sndDesc, rcvDesc, hc, (h.dequeueWakeup p).sendTransfer _ _⟩

/-! ### Interrupts, the timer and the deletion of threads -/

lemma sameOwner_irq (s : Sys) (number : Nat) : SameOwner s (handleInterrupt s number) := by
  unfold handleInterrupt
  split
  · exact SameOwner.refl s
  · rename_i p hp
    dsimp only
    have h1 : SameOwner s (s.upd p fun t =>
        { t with intrPending := BitVec.ofNat 32 (number + 1) ||| irqInService }) :=
      (SameOwner.refl s).upd p (by intro _; rfl)
    split
    · split
      · exact (h1.upd p (by intro _; rfl)).enqueueReady p
      · refine SameOwner.switchTo ?_ _ _
        split
        · exact h1
        · exact h1.enqueueReady _
    · exact (SameOwner.refl s).upd p (by intro _; rfl)

lemma sameOwner_timer (h : handleTimerInterrupt s = some s') : SameOwner s s' := by
  unfold handleTimerInterrupt parseWakeupQueue at h
  dsimp only at h
  generalize s.clock + BitVec.ofNat 64 timeQuantum = now at h
  have h1 := SameOwner.parseWakeup now s.wakeup (s.tcb s.current).priority none
    (show SameOwner s { s with clock := now } from ⟨rfl, fun _ => rfl⟩)
  rcases hrun : Hazelnut.parseWakeup now s.wakeup (s.tcb s.current).priority none
    { s with clock := now } with ⟨s1, wake⟩
  rw [hrun] at h h1
  dsimp only at h
  have h2 : SameOwner s (s1.upd s.current fun t =>
      { t with currentTimeslice := t.currentTimeslice - timeQuantum }) := h1.upd _ (by intro _; rfl)
  generalize s1.upd s.current (fun t =>
    { t with currentTimeslice := t.currentTimeslice - timeQuantum }) = s2 at h h2
  have h3 : SameOwner s (if s.current = .idle then s2 else threadEnqueueReady s2 s.current) := by
    split
    · exact h2
    · exact h2.enqueueReady _
  generalize (if s.current = .idle then s2 else threadEnqueueReady s2 s.current) = s3 at h h3
  cases wake with
  | some p =>
      simp only [Option.some.injEq] at h
      exact h ▸ h3.dispatch p
  | none =>
      dsimp only at h
      split at h
      · exact (h3.upd s.current (by intro _; rfl)).reschedule h
      · simp only [Option.some.injEq] at h
        exact h ▸ h3

/-- The deletion of a task leaves the owners alone, and the names of other threads. -/
lemma deleteThreads_owner {sp : Nat} {l : List TcbPtr} (h : deleteThreads sp l s = some s') :
    s'.interruptOwner = s.interruptOwner ∧ (∀ r, (s'.tcb r).space = (s.tcb r).space) ∧
      ∀ r, (s.tcb r).space ≠ sp → (s'.tcb r).myself = (s.tcb r).myself := by
  induction l generalizing s with
  | nil =>
      rw [deleteThreads, Option.some.injEq] at h
      exact h ▸ ⟨rfl, fun _ => rfl, fun _ _ => rfl⟩
  | cons p l ih =>
      rw [deleteThreads] at h
      split at h
      · rename_i hsp
        obtain ⟨s1, h1, h2⟩ := Option.bind_eq_some_iff.mp h
        obtain ⟨h3, h4, h5⟩ := ih h2
        have h6 := (SameOwner.refl s).freeThread h1
        have hsp1 : ∀ r, ((freeTcb s1 p).tcb r).space = (s.tcb r).space := fun r => by
          rw [← h6.space r, freeTcb]
          by_cases hr : r = p
          · subst hr
            rw [Sys.upd_tcb_self]; rfl
          · rw [Sys.upd_tcb_other _ hr]; rfl
        refine ⟨h3.trans h6.owner, fun r => (h4 r).trans (hsp1 r), fun r hr => ?_⟩
        have hne : r ≠ p := fun he => hr (he ▸ hsp)
        rw [h5 r (by rw [hsp1]; exact hr), freeTcb, Sys.upd_tcb_other _ hne]
        exact h6.myself r
      · exact ih h

/-! ### Steps -/

/-- The step asks for an association with `dest`. -/
def Attaches (s : Sys) (dest : Tid) : Event → Prop
  | .ipc d sndDesc rcvDesc timeout _ _ _ _ _ =>
      d = dest ∧ (sndDesc = noDesc ∨ (s.tcb (tidToTcb d)).myself = d) ∧ rcvDesc &&& 1 ≠ 1 ∧
        isKernelId d ∧ zeroTimeout timeout
  | .resume _ _ =>
      ∃ sndDesc rcvDesc, (s.tcb s.current).cont = .sendPoll dest sndDesc rcvDesc ∧
        rcvDesc &&& 1 ≠ 1 ∧ isKernelId dest ∧ zeroTimeout (s.tcb s.current).ipcTimeout
  | _ => False

/-- The task that the step deletes. -/
def Deletes (s : Sys) (space : Nat) : Event → Prop
  | .taskNew task _ _ _ =>
      tcbExist s (tidToTcb (setThread task 0)) ∧ space = (s.tcb (tidToTcb (setThread task 0))).space
  | _ => False

/-- What a step does to the owners. -/
def OwnerStep (s : Sys) (e : Event) (s' : Sys) : Prop :=
  s'.interruptOwner = s.interruptOwner ∨
    ∃ dest, Attaches s dest e ∧ (s'.interruptOwner = detach s s.current ∨
      isInterruptId dest ∧ detach s s.current (interruptId dest) = none ∧
        s'.interruptOwner = Function.update (detach s s.current) (interruptId dest)
        (some s.current))

/-- What a step does to the names of threads: one that exists keeps existing, unless its task
is deleted. -/
def NameStep (s : Sys) (e : Event) (s' : Sys) : Prop :=
  ∀ q, tcbExist s q → (∀ sp, Deletes s sp e → (s.tcb q).space ≠ sp) → tcbExist s' q

lemma SameOwner.nameStep (h : SameOwner s s') (e : Event) : NameStep s e s' := fun q hq _ => by
  unfold tcbExist
  rw [h.myself]
  exact hq

/-- Creating a thread. -/
lemma startThread_owner (s : Sys) (tid : Tid) (space : Option Nat) (uip usp : Word) (pager : Tid)
    (prio : Nat) :
    (startThread (createTcb s tid space) (tidToTcb tid) uip usp pager prio).interruptOwner =
        s.interruptOwner ∧
      ∀ r, ((startThread (createTcb s tid space) (tidToTcb tid) uip usp pager prio).tcb r).myself =
        if r = tidToTcb tid then tid else (s.tcb r).myself := by
  refine ⟨?_, fun r => ?_⟩
  · rw [startThread, (SameOwner.enqueueReady (SameOwner.refl _) _).owner]
    rfl
  · have h1 := congrArg IpcPart.myself (startThread_ipc s tid space uip usp pager prio r)
    rw [show ((startThread (createTcb s tid space) (tidToTcb tid) uip usp pager prio).tcb
      r).myself =
      _ from h1]
    split <;> rfl

lemma exRegs_owner {threadno uip usp : Word} {pager : Tid} {e : Event}
    (h : sysLthreadExRegs s threadno uip usp pager = some s') :
    s'.interruptOwner = s.interruptOwner ∧ NameStep s e s' := by
  have hex : ∀ (s1 : Sys) p, SameOwner s1 (exchangeRegs s1 p uip usp pager) := fun s1 p => by
    have h1 := (SameOwner.refl s1).upd p (f := fun t =>
      { t with
        usp := if usp = noDesc then t.usp else usp
        uip := if uip = noDesc then t.uip else uip
        pager := if pager = invalidId then t.pager else pager }) (by intro _; rfl)
    unfold exchangeRegs
    dsimp only
    generalize s1.upd p _ = s2 at h1 ⊢
    split
    · exact h1.enqueueReady p
    · exact h1
  unfold sysLthreadExRegs at h
  dsimp only at h
  generalize setThread (s.tcb s.current).myself threadno = tid at h
  split at h
  · split at h
    · obtain ⟨s1, h1, rfl⟩ := Option.map_eq_some_iff.mp h
      have h2 := (((SameOwner.refl s).unwindIpc h1).upd (tidToTcb tid) (by intro _; rfl)).trans
        (hex (s1.upd (tidToTcb tid) fun t => { t with threadState := .running }) (tidToTcb tid))
      exact ⟨h2.owner, h2.nameStep e⟩
    · rename_i hne
      rw [Option.some.injEq] at h
      obtain ⟨h1, h2⟩ := startThread_owner s tid (some (s.tcb s.current).space) uip usp pager
        (s.tcb s.current).priority
      rw [h] at h1 h2
      refine ⟨h1, fun q hq _ => ?_⟩
      unfold tcbExist
      have hqt : q ≠ tidToTcb tid := fun he => hne (he ▸ hq)
      rw [h2, if_neg hqt]
      exact hq
  · rw [Option.some.injEq] at h
    have h1 := hex s (tidToTcb tid)
    rw [h] at h1
    exact ⟨h1.owner, h1.nameStep e⟩

lemma taskNew_owner {task pager : Tid} {uip usp : Word}
    (h : sysTaskNew s task pager uip usp = some s') :
    s'.interruptOwner = s.interruptOwner ∧ NameStep s (.taskNew task pager uip usp) s' := by
  unfold sysTaskNew at h
  unfold NameStep Deletes
  dsimp only at h ⊢
  generalize setThread task 0 = tid at h ⊢
  split at h
  · simp at h
  · rename_i hk
    split at h
    · rw [Option.some.injEq] at h
      exact h ▸ ⟨rfl, fun q hq _ => hq⟩
    · obtain ⟨s1, h1, h2⟩ := Option.map_eq_some_iff.mp h
      have hs1 : s1.interruptOwner = s.interruptOwner ∧ ∀ q, tcbExist s q →
          (∀ sp, tcbExist s (tidToTcb tid) ∧ sp = (s.tcb (tidToTcb tid)).space →
          (s.tcb q).space ≠ sp) →
          tcbExist s1 q := by
        split at h1
        · rename_i hex
          obtain ⟨h3, -, h5⟩ := deleteThreads_owner h1
          refine ⟨h3, fun q hq hsp => ?_⟩
          unfold tcbExist
          rw [h5 q (hsp _ ⟨hex, rfl⟩)]
          exact hq
        · rw [Option.some.injEq] at h1
          exact h1 ▸ ⟨rfl, fun q hq _ => hq⟩
      split at h2
      · exact h2 ▸ hs1
      · obtain ⟨h3, h4⟩ := startThread_owner s1 tid none uip usp pager (s1.tcb s1.current).priority
        rw [h2] at h3 h4
        refine ⟨h3.trans hs1.1, fun q hq hsp => ?_⟩
        unfold tcbExist
        rw [h4]
        split
        · exact fun he => hk (he ▸ by decide)
        · exact hs1.2 q hq hsp

/-- The system call `ipc`, as seen by the owners. -/
lemma ipc_owner (s : Sys) (dest : Tid) (sndDesc rcvDesc : Word) (timeout : Timeout)
    (w0 w1 w2 dope : Word)
    (faults : Bool) :
    OwnerStep s (.ipc dest sndDesc rcvDesc timeout w0 w1 w2 dope faults)
        (sysIpc (storeRegs s s.current timeout w0 w1 w2) s.current dest sndDesc rcvDesc dope) ∧
      NameStep s (.ipc dest sndDesc rcvDesc timeout w0 w1 w2 dope faults)
        (sysIpc (storeRegs s s.current timeout w0 w1 w2) s.current dest sndDesc rcvDesc dope) := by
  generalize h :
    sysIpc (storeRegs s s.current timeout w0 w1 w2) s.current dest sndDesc rcvDesc dope = s'
  have hbadge : ∀ r, ((storeRegs s s.current timeout w0 w1 w2).tcb r).myself =
      (s.tcb r).myself := fun r => by
    by_cases hr : r = s.current
    · rw [storeRegs, hr, Sys.upd_tcb_self]
    · rw [storeRegs, Sys.upd_tcb_other _ hr]
  have htm : ((storeRegs s s.current timeout w0 w1 w2).tcb s.current).ipcTimeout = timeout := by
    rw [storeRegs, Sys.upd_tcb_self]
  have hown : (storeRegs s s.current timeout w0 w1 w2).interruptOwner = s.interruptOwner := rfl
  generalize storeRegs s s.current timeout w0 w1 w2 = s0 at h hbadge htm hown
  by_cases hc : sndDesc = noDesc ∨ (s.tcb (tidToTcb dest)).myself = dest
  · have hass : Associates s0 s.current dest rcvDesc s' :=
      h ▸ (SameOwner.refl s0).sysIpc sndDesc dope
    have hdet : detach s0 s.current = detach s s.current := by
      unfold detach
      rw [hown]
    refine ⟨hass.owner.imp (fun h1 => h1.trans hown) ?_, fun q hq _ => ?_⟩
    · rintro ⟨hreq, h2⟩
      exact ⟨dest, ⟨rfl, hc, hreq.1, hreq.2.1, htm ▸ hreq.2.2⟩, hdet ▸ h2⟩
    · unfold tcbExist
      rw [show (s'.tcb q).myself = (s0.tcb q).myself from congrArg Prod.fst (hass.badge q), hbadge]
      exact hq
  · -- there is no such thread, and the call returns
    obtain ⟨h1, h2⟩ := not_or.mp hc
    unfold sysIpc at h
    dsimp only at h
    rw [if_neg h1, if_neg (by rw [hbadge]; exact h2)] at h
    have h3 := h ▸ (SameOwner.refl s0).returnIpc s.current (.err ipcErrExist)
    refine ⟨.inl (h3.owner.trans hown), fun q hq _ => ?_⟩
    unfold tcbExist
    rw [h3.myself, hbadge]
    exact hq

/-- A thread that goes on in the kernel, as seen by the owners. -/
lemma resume_owner (s : Sys) (dope : Word) (faults : Bool) :
    OwnerStep s (.resume dope faults) (resume s s.current dope) ∧
      NameStep s (.resume dope faults) (resume s s.current dope) := by
  rcases resume_associates (s := s) (p := s.current) dope with h1 | ⟨dest, sd, rd, hc, h1⟩
  · exact ⟨.inl h1.owner, h1.nameStep _⟩
  · refine ⟨h1.owner.imp id ?_, fun q hq _ => ?_⟩
    · rintro ⟨hreq, h2⟩
      exact ⟨dest, ⟨sd, rd, hc, hreq⟩, h2⟩
    · unfold tcbExist
      rw [show ((resume s s.current dope).tcb q).myself = (s.tcb q).myself from
        congrArg Prod.fst (h1.badge q)]
      exact hq

lemma sameOwner_threadSwitch {tid : Tid} (h : sysThreadSwitch s tid = some s') :
    SameOwner s s' := by
  have h1 := (SameOwner.refl s).enqueueReady s.current
  unfold sysThreadSwitch at h
  dsimp only at h
  split at h
  · rw [Option.some.injEq] at h
    exact h ▸ h1.dispatch _
  · exact h1.reschedule h

lemma sameOwner_schedule (s : Sys) (param : Word) (tid : Tid) :
    SameOwner s (sysSchedule s param tid) := by
  unfold sysSchedule
  dsimp only
  split
  · exact SameOwner.refl s
  · split
    · exact (((SameOwner.refl s).dequeueReady _).upd _ (by intro _; rfl)).enqueueReady _
    · exact (SameOwner.refl s).upd _ (by intro _; rfl)

/-- **One step**, as seen by the owners. -/
lemma owner_step {e : Event} (h : step s e = some s') : OwnerStep s e s' ∧ NameStep s e s' := by
  have hsame : SameOwner s s' → OwnerStep s e s' ∧ NameStep s e s' := fun h =>
    ⟨.inl h.owner, h.nameStep e⟩
  cases e with
  | ipc dest sndDesc rcvDesc timeout w0 w1 w2 dope faults =>
      simp only [Hazelnut.step] at h
      split at h
      · rw [Option.some.injEq] at h
        exact h ▸ ipc_owner s dest sndDesc rcvDesc timeout w0 w1 w2 dope faults
      · simp at h
  | exRegs threadno uip usp pager =>
      simp only [Hazelnut.step] at h
      split at h
      · obtain ⟨h1, h2⟩ := exRegs_owner h
        exact ⟨.inl h1, h2⟩
      · simp at h
  | taskNew task pager uip usp =>
      simp only [Hazelnut.step] at h
      split at h
      · obtain ⟨h1, h2⟩ := taskNew_owner h
        exact ⟨.inl h1, h2⟩
      · simp at h
  | threadSwitch tid =>
      simp only [Hazelnut.step] at h
      split at h
      · exact hsame (sameOwner_threadSwitch h)
      · simp at h
  | schedule param tid =>
      simp only [Hazelnut.step] at h
      split at h
      · rw [Option.some.injEq] at h
        exact hsame (h ▸ sameOwner_schedule s param tid)
      · simp at h
  | timer =>
      simp only [Hazelnut.step] at h
      split at h
      · exact hsame (sameOwner_timer h)
      · simp at h
  | irq number =>
      simp only [Hazelnut.step] at h
      split at h
      · rw [Option.some.injEq] at h
        exact hsame (h ▸ sameOwner_irq s number)
      · simp at h
  | resume dope faults =>
      simp only [Hazelnut.step] at h
      split at h
      · simp at h
      · rw [Option.some.injEq] at h
        exact h ▸ resume_owner s dope faults
  | idle =>
      simp only [Hazelnut.step] at h
      split at h
      · exact hsame ((SameOwner.refl s).reschedule h)
      · simp at h

/-! ### Owners along a run -/

/-- The step takes none of the wrong turns: an association is with an interrupt that the
hardware has, by a thread that exists, and no thread of a deleted task owns an interrupt. -/
def OwnerOk (s : Sys) (e : Event) : Prop :=
  (∀ dest, Attaches s dest e → dest.toNat ≤ maxInterrupts ∧ tcbExist s s.current) ∧
    ∀ sp i q, Deletes s sp e → s.interruptOwner i = some q → (s.tcb q).space ≠ sp

/-- **The owners are sound**: no index is out of bounds, neither of those recorded nor of one
that is looked up; owners exist; no thread but the idle one owns two interrupts; and no step changes
what another thread owns. -/
structure OwnersSound (s : Sys) : Prop where
  bound : ∀ i q, s.interruptOwner i = some q → i < maxInterrupts
  access : ∀ e dest, OwnerOk s e → Attaches s dest e → isInterruptId dest →
    interruptId dest < maxInterrupts
  existing : ∀ i q, s.interruptOwner i = some q → tcbExist s q
  unique : ∀ i j q, q ≠ .idle → s.interruptOwner i = some q → s.interruptOwner j = some q → i = j
  others : ∀ e s' i q, step s e = some s' → q ≠ s.current →
    (s'.interruptOwner i = some q ↔ s.interruptOwner i = some q)

lemma interruptId_lt {dest : Tid} (h : dest.toNat ≤ maxInterrupts) (hi : isInterruptId dest) :
    interruptId dest < maxInterrupts := by
  have hpos : 0 < dest.toNat := by
    rcases Nat.eq_zero_or_pos dest.toNat with h0 | h0
    · exact absurd (BitVec.eq_of_toNat_eq (by simpa using h0)) hi
    · exact h0
  have hsub : (dest - 1).toNat = dest.toNat - 1 := by
    rw [BitVec.toNat_sub_of_le (by rw [BitVec.le_def]; exact hpos)]
    rfl
  unfold interruptId
  omega

lemma detach_eq_some {i : Nat} : detach s p i = some q ↔ s.interruptOwner i = some q ∧ q ≠ p := by
  unfold detach
  split
  · rename_i h
    simp only [reduceCtorEq, h, Option.some.injEq, false_iff, not_and, not_not]
    exact fun h => h.symm
  · rename_i h
    exact ⟨fun h1 => ⟨h1, fun he => h (he ▸ h1)⟩, fun h1 => h1.1⟩

/-- No step changes what a thread owns that is not running. -/
lemma OwnerStep.others {e : Event} (h : OwnerStep s e s') {i : Nat} (hq : q ≠ s.current) :
    s'.interruptOwner i = some q ↔ s.interruptOwner i = some q := by
  rcases h with h | ⟨dest, -, h | ⟨-, hnone, h⟩⟩
  · rw [h]
  · rw [h, detach_eq_some]
    exact and_iff_left hq
  · rw [h]
    by_cases hi : i = interruptId dest
    · subst hi
      rw [Function.update_self]
      refine ⟨fun h1 => absurd (Option.some.inj h1).symm hq, fun h1 => ?_⟩
      rw [detach_eq_some.mpr ⟨h1, hq⟩] at hnone
      simp at hnone
    · rw [Function.update_of_ne hi, detach_eq_some]
      exact and_iff_left hq

/-- What the running thread owns behind a step, it owned before, or it is the interrupt that it
asked for. -/
lemma OwnerStep.current {e : Event} (h : OwnerStep s e s') {i : Nat}
    (hi : s'.interruptOwner i = some s.current) : s'.interruptOwner = s.interruptOwner ∨
      ∃ dest, Attaches s dest e ∧ isInterruptId dest ∧ i = interruptId dest := by
  rcases h with h | ⟨dest, hd, h | ⟨hirq, -, h⟩⟩
  · exact .inl h
  · rw [h, detach_eq_some] at hi
    exact absurd rfl hi.2
  · refine .inr ⟨dest, hd, hirq, ?_⟩
    by_contra hne
    rw [h, Function.update_of_ne hne, detach_eq_some] at hi
    exact hi.2 rfl

/-- The part of it that is an invariant. -/
structure Owners (s : Sys) : Prop where
  bound : ∀ i q, s.interruptOwner i = some q → i < maxInterrupts
  existing : ∀ i q, s.interruptOwner i = some q → tcbExist s q
  unique : ∀ i j q, q ≠ .idle → s.interruptOwner i = some q → s.interruptOwner j = some q → i = j

/-- A step asks for one association. -/
lemma Attaches.unique {dest dest' : Tid} {e : Event} (h : Attaches s dest e)
    (h' : Attaches s dest' e) :
    dest = dest' := by
  cases e with
  | ipc => exact h.1.symm.trans h'.1
  | resume =>
      obtain ⟨_, _, h1, -⟩ := h
      obtain ⟨_, _, h2, -⟩ := h'
      rw [h1] at h2
      exact (Cont.sendPoll.inj h2).1
  | exRegs | taskNew | threadSwitch | schedule | timer | irq | idle => exact absurd h (fun h => h)

/-- **One step** keeps the owners sound. -/
lemma Owners.step (ho : Owners s) {e : Event} (hok : OwnerOk s e) (h : step s e = some s') :
    Owners s' := by
  obtain ⟨h1, h2⟩ := owner_step h
  have hexist : ∀ q, tcbExist s q → (∃ i, s.interruptOwner i = some q) → tcbExist s' q :=
    fun q hq ⟨i, hi⟩ => h2 q hq fun sp hd => hok.2 sp i q hd hi
  -- an interrupt of the running thread is an old one, or the one it asked for
  have hcur : ∀ i, s'.interruptOwner i = some s.current → s'.interruptOwner = s.interruptOwner ∨
      ∃ dest, Attaches s dest e ∧ isInterruptId dest ∧ i = interruptId dest :=
    fun i hi => h1.current hi
  refine ⟨fun i q hi => ?_, fun i q hi => ?_, fun i j q hidle hi hj => ?_⟩
  · by_cases hq : q = s.current
    · rw [hq] at hi
      rcases hcur i hi with h3 | ⟨dest, hd, hirq, rfl⟩
      · exact ho.bound i _ (h3 ▸ hi)
      · exact interruptId_lt (hok.1 dest hd).1 hirq
    · exact ho.bound i q ((h1.others hq).mp hi)
  · by_cases hq : q = s.current
    · rw [hq] at hi ⊢
      rcases hcur i hi with h3 | ⟨dest, hd, hirq, rfl⟩
      · rw [h3] at hi
        exact hexist _ (ho.existing i _ hi) ⟨i, hi⟩
      · refine h2 _ (hok.1 dest hd).2 fun sp hdel => ?_
        cases e with
        | taskNew => exact absurd hd (fun h => h)
        | ipc | exRegs | threadSwitch | schedule | timer | irq | resume | idle =>
            exact absurd hdel (fun h => h)
    · have hi := (h1.others hq).mp hi
      exact hexist _ (ho.existing i q hi) ⟨i, hi⟩
  · by_cases hq : q = s.current
    · rw [hq] at hi hj hidle
      rcases hcur i hi with h3 | ⟨dest, hd, -, rfl⟩
      · rw [h3] at hi hj
        exact ho.unique i j _ hidle hi hj
      · rcases hcur j hj with h3 | ⟨dest', hd', -, rfl⟩
        · rw [h3] at hi hj
          exact ho.unique _ j _ hidle hi hj
        · rw [hd.unique hd']
    · exact ho.unique i j q hidle ((h1.others hq).mp hi) ((h1.others hq).mp hj)

/-- Who owns what in the booted system. -/
lemma initSys_owner (i : Nat) :
    initSys.interruptOwner i = if i = 0 ∨ i = 2 ∨ i = 8 then some .idle else none := by
  unfold initSys
  dsimp only
  rw [(startThread_owner _ _ _ _ _ _ _).1, (startThread_owner _ _ _ _ _ _ _).1]
  rfl

lemma owners_initSys : Owners initSys := by
  have hidle : ∀ i q, initSys.interruptOwner i = some q → (i = 0 ∨ i = 2 ∨ i = 8) ∧ q = .idle := by
    intro i q h
    rw [initSys_owner] at h
    split at h
    · exact ⟨by assumption, (Option.some.inj h).symm⟩
    · simp at h
  refine ⟨fun i q h => ?_, fun i q h => ?_, fun i j q hq h => absurd (hidle i q h).2 hq⟩
  · rcases (hidle i q h).1 with rfl | rfl | rfl <;> decide
  · rw [(hidle i q h).2]
    decide +kernel

/-- **Ownership** is sound in every state of a run without a wrong turn. -/
theorem owners_sound (h : RunBy OwnerOk s) : OwnersSound s := by
  have ho : Owners s := h.invariant owners_initSys fun _ _ _ ho hok hstep => ho.step hok hstep
  exact ⟨ho.bound, fun e dest hok hd hi => interruptId_lt (hok.1 dest hd).1 hi, ho.existing,
    ho.unique,
    fun e s' i q hstep hq => (owner_step hstep).1.others hq⟩

/-- The running thread receives from `dest` with a timeout of zero. -/
def associate (dest : Tid) : Event := .ipc dest noDesc 0 0x0000000f 0 0 0 0

/-- The root task takes interrupt 3, and then interrupt 5 in its place; sigma0 takes
interrupt 3. -/
def associateRun : List Event :=
  [.idle, associate 4, associate 6, .threadSwitch sigma0Id, associate 4]

/-- Who owns what behind that run. -/
theorem owners_sound_first : ∃ s, run initSys associateRun = some s ∧ RunBy OwnerOk s ∧
    s.interruptOwner 3 = some (tidToTcb sigma0Id) ∧
    s.interruptOwner 5 = some (tidToTcb rootTaskId) ∧ OwnersSound s := by
  have hass : ∀ s dest, dest.toNat ≤ maxInterrupts → tcbExist s s.current →
      OwnerOk s (associate dest) := fun s dest hd hex =>
    ⟨fun dest' h => ⟨h.1 ▸ hd, hex⟩, fun _ _ _ h => absurd h (fun h => h)⟩
  obtain ⟨s, hs, hok, h3, h5⟩ := exists_checkedRun OwnerOk
    (fun s e => decide (e = .idle ∨ tcbExist s s.current)) associateRun (fun s e he hc => by
      have hc := of_decide_eq_true hc
      simp only [associateRun, List.mem_cons, List.not_mem_nil, or_false] at he
      rcases he with rfl | rfl | rfl | rfl | rfl
      · exact ⟨fun _ h => absurd h (fun h => h), fun _ _ _ h => absurd h (fun h => h)⟩
      · exact hass s 4 (by decide) (hc.resolve_left (by decide))
      · exact hass s 6 (by decide) (hc.resolve_left (by decide))
      · exact ⟨fun _ h => absurd h (fun h => h), fun _ _ _ h => absurd h (fun h => h)⟩
      · exact hass s 4 (by decide) (hc.resolve_left (by decide)))
    (P := fun s => s.interruptOwner 3 = some (tidToTcb sigma0Id) ∧
      s.interruptOwner 5 = some (tidToTcb rootTaskId)) (by decide +kernel)
  exact ⟨s, hs, hok, h3, h5, owners_sound hok⟩

/-- The idle thread owns two interrupts; and an id with task number zero and a chief is taken
for an interrupt the table has no room for. -/
theorem owners_not_single :
    (∃ s, Reachable s ∧ s.interruptOwner 0 = some .idle ∧ s.interruptOwner 2 = some .idle) ∧
      ∃ s i q, Reachable s ∧ s.interruptOwner i = some q ∧ ¬i < maxInterrupts := by
  refine ⟨⟨initSys, .init, by rw [initSys_owner]; rfl, by rw [initSys_owner]; rfl⟩, ?_⟩
  obtain ⟨s, hs, hb⟩ := exists_run [.idle, associate 0x01000000]
    (P := fun s => s.interruptOwner 0x00ffffff = some (tidToTcb rootTaskId)) (by decide +kernel)
  exact ⟨s, _, _, Reachable.init.run hs, hb, by decide⟩

end Hazelnut
