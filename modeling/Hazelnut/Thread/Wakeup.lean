import Hazelnut.Thread.Deliver

/-!
The wakeup queue.

A thread enters the wakeup queue when it starts to wait or to poll with a timeout, and
leaves it when it goes on.  What happens in between is up to others.

* `Still`: a stretch of kernel code leaves the threads in the wakeup queue alone, except
  for those of a list.
* `Asleep`: the threads in the wakeup queue wait or poll, at a place in the kernel where
  they leave the queue when they go on.
* `WakeOk`: a step that does not make a thread runnable while its timeout runs.
  `handle_interrupt` does, when it delivers to a thread that does not preempt the running
  one.
* `Asleep.step`: such a step keeps the sleeping threads asleep.
-/

namespace Hazelnut

variable {s s' s'' : Sys} {p q : TcbPtr} {X : List TcbPtr}

/-! ### Frames -/

@[simp] lemma Sys.updPtr_wakeup (s : Sys) (q : Option TcbPtr) (f : Tcb → Tcb) :
    (s.updPtr q f).wakeup = s.wakeup := by
  cases q <;> rfl

@[simp] lemma Sys.updPtr_current (s : Sys) (q : Option TcbPtr) (f : Tcb → Tcb) :
    (s.updPtr q f).current = s.current := by
  cases q <;> rfl

@[simp] lemma wakeup_enqueueSend (s : Sys) (q p : TcbPtr) :
    (threadEnqueueSend s q p).wakeup = s.wakeup := by
  unfold threadEnqueueSend
  split <;> simp

@[simp] lemma current_enqueueSend (s : Sys) (q p : TcbPtr) :
    (threadEnqueueSend s q p).current = s.current := by
  unfold threadEnqueueSend
  split <;> simp

@[simp] lemma wakeup_dequeueSend (s : Sys) (q p : TcbPtr) :
    (threadDequeueSend s q p).wakeup = s.wakeup := by
  unfold threadDequeueSend
  dsimp only
  split_ifs <;> simp

@[simp] lemma current_dequeueSend (s : Sys) (q p : TcbPtr) :
    (threadDequeueSend s q p).current = s.current := by
  unfold threadDequeueSend
  dsimp only
  split_ifs <;> simp

/-- The threads in the wakeup queue of `s'`, but for those of `X`, were there in `s`, in the
same state and at the same place. -/
def Still (X : List TcbPtr) (s s' : Sys) : Prop :=
  ∀ r, r ∉ X → r ∈ s'.wakeup → r ∈ s.wakeup ∧
    (s'.ipc r).threadState = (s.ipc r).threadState ∧ (s'.ipc r).cont = (s.ipc r).cont

namespace Still

lemma refl (X : List TcbPtr) (s : Sys) : Still X s s := fun _ _ hr => ⟨hr, rfl, rfl⟩

lemma trans (h : Still X s s') (h' : Still X s' s'') : Still X s s'' := by
  intro r hX hr
  obtain ⟨h1, h2, h3⟩ := h' r hX hr
  obtain ⟨g1, g2, g3⟩ := h r hX h1
  exact ⟨g1, h2.trans g2, h3.trans g3⟩

lemma mono {Y : List TcbPtr} (h : Still X s s') (hXY : ∀ r ∈ X, r ∈ Y) : Still Y s s' :=
  fun r hr => h r fun hX => hr (hXY r hX)

/-- A thread that is not in the queue afterwards need not be excepted. -/
lemma drop (h : Still (q :: X) s s') (hq : q ∉ s'.wakeup) : Still X s s' := by
  intro r hX hr
  refine h r (fun hm => ?_) hr
  rcases List.mem_cons.mp hm with rfl | hm
  · exact hq hr
  · exact hX hm

lemma same (h : Still X s s') (hs : SameIpc s' s'') : Still X s s'' := by
  intro r hX hr
  rw [hs.wakeup] at hr
  rw [hs.ipc]
  exact h r hX hr

/-- An assignment that leaves state and place alone. -/
lemma upd (h : Still X s s') (q : TcbPtr) {f : Tcb → Tcb}
    (hf : ∀ t, (f t).threadState = t.threadState ∧ (f t).cont = t.cont) :
    Still X s (s'.upd q f) := by
  intro r hX hr
  have hr' := h r hX hr
  rw [Sys.upd_ipc]
  split
  · rename_i heq
    subst heq
    exact ⟨hr'.1, (hf _).1.trans hr'.2.1, (hf _).2.trans hr'.2.2⟩
  · exact hr'

lemma updPtr (h : Still X s s') (q : Option TcbPtr) {f : Tcb → Tcb}
    (hf : ∀ t, (f t).threadState = t.threadState ∧ (f t).cont = t.cont) :
    Still X s (s'.updPtr q f) := by
  cases q with
  | none => exact h
  | some q => exact h.upd q hf

/-- An assignment to an excepted thread. -/
lemma updMem (h : Still X s s') (hq : q ∈ X) (f : Tcb → Tcb) : Still X s (s'.upd q f) := by
  intro r hX hr
  have hne : r ≠ q := fun heq => hX (heq ▸ hq)
  rw [Sys.upd_ipc, if_neg hne]
  exact h r hX hr

lemma dequeueWakeup (h : Still X s s') (q : TcbPtr) : Still X s (threadDequeueWakeup s' q) := by
  intro r hX hr
  rw [mem_dequeueWakeup] at hr
  exact h r hX hr.1

lemma enqueueWakeup (h : Still X s s') (hq : q ∈ X) : Still X s (threadEnqueueWakeup s' q) := by
  intro r hX hr
  rw [mem_enqueueWakeup] at hr
  rw [ipc_enqueueWakeup]
  rcases hr with rfl | hr
  · exact absurd hq hX
  · exact h r hX hr

lemma enqueueReady (h : Still X s s') (q : TcbPtr) : Still X s (threadEnqueueReady s' q) :=
  h.same (sameIpc_enqueueReady s' q)

lemma enqueueSend (h : Still X s s') (q r : TcbPtr) : Still X s (threadEnqueueSend s' q r) := by
  unfold threadEnqueueSend
  split
  · exact (h.upd _ (by intro _; exact ⟨rfl, rfl⟩)).upd _ (by intro _; exact ⟨rfl, rfl⟩)
  · exact ((h.upd _ (by intro _; exact ⟨rfl, rfl⟩)).upd _ (by intro _; exact ⟨rfl, rfl⟩)).updPtr
      _ (by intro _; exact ⟨rfl, rfl⟩)

lemma dequeueSend (h : Still X s s') (q r : TcbPtr) : Still X s (threadDequeueSend s' q r) := by
  unfold threadDequeueSend
  dsimp only
  split
  · exact h.upd _ (by intro _; exact ⟨rfl, rfl⟩)
  · refine Still.updPtr (Still.updPtr ?_ _ (by intro _; exact ⟨rfl, rfl⟩))
      _ (by intro _; exact ⟨rfl, rfl⟩)
    split
    · exact h.upd _ (by intro _; exact ⟨rfl, rfl⟩)
    · exact h

lemma switchTo (h : Still X s s') (hc : s'.current ∈ X) (q : TcbPtr) (c : Cont) :
    Still X s (switchTo s' q c) := by
  have h1 := h.updMem hc fun t => { t with cont := c }
  exact fun r hX hr => h1 r hX hr

end Still

/-! ### The sleeping threads -/

/-- A place in the kernel behind which a thread leaves the wakeup queue. -/
def Parked (c : Cont) : Prop :=
  c = .recvWait ∨ (∃ d, c = .kernelWait d) ∨ ∃ d sd rd, c = .sendPoll d sd rd

/-- A thread waits or polls, and stands where it leaves the wakeup queue.  The idle TCB is
only the anchor of the queue. -/
def SleepsWell (s : Sys) (r : TcbPtr) : Prop :=
  r = .idle ∨
    ((s.ipc r).threadState = .waiting ∨ (s.ipc r).threadState = .polling) ∧ Parked (s.ipc r).cont

/-- The threads in the wakeup queue sleep well. -/
def Asleep (s : Sys) : Prop := ∀ r ∈ s.wakeup, SleepsWell s r

lemma Asleep.still (h : Asleep s) (hs : Still X s s')
    (hX : ∀ r ∈ X, r ∈ s'.wakeup → SleepsWell s' r) : Asleep s' := by
  intro r hr
  by_cases hm : r ∈ X
  · exact hX r hm hr
  · obtain ⟨h1, h2, h3⟩ := hs r hm hr
    refine (h r h1).imp id fun ⟨g1, g2⟩ => ⟨by rw [h2]; exact g1, by rw [h3]; exact g2⟩

/-- A thread in user mode is not in the wakeup queue. -/
lemma Asleep.idle_of_user (h : Asleep s) (hc : (s.ipc p).cont = .user) (hp : p ∈ s.wakeup) :
    p = .idle := by
  refine (h p hp).resolve_right fun h1 => ?_
  rcases h1.2 with h1 | ⟨d, h1⟩ | ⟨d, sd, rd, h1⟩ <;> simp [hc] at h1

/-- Nor is a running one. -/
lemma Asleep.idle_of_running (h : Asleep s) (hc : (s.ipc p).threadState = .running)
    (hp : p ∈ s.wakeup) : p = .idle := by
  refine (h p hp).resolve_right fun h1 => ?_
  rcases h1.1 with h1 | h1 <;> simp [hc] at h1

/-! ### System calls -/

/-- The running thread `p` is about to do something, and out of the wakeup queue. -/
structure Mid (p : TcbPtr) (s s' : Sys) : Prop where
  still : Still [p] s s'
  mem : p ∈ s'.wakeup → p = .idle
  current : s'.current = p

/-- What `p` has done. -/
def Fin (p : TcbPtr) (s s' : Sys) : Prop := Still [p] s s' ∧ (p ∈ s'.wakeup → SleepsWell s' p)

namespace Mid

lemma fin (h : Mid p s s') : Fin p s s' := ⟨h.still, fun hp => .inl (h.mem hp)⟩

lemma upd (h : Mid p s s') (f : Tcb → Tcb) : Mid p s (s'.upd p f) :=
  ⟨h.still.updMem (by simp) f, h.mem, h.current⟩

lemma updOther (h : Mid p s s') (q : TcbPtr) {f : Tcb → Tcb}
    (hf : ∀ t, (f t).threadState = t.threadState ∧ (f t).cont = t.cont) :
    Mid p s (s'.upd q f) := ⟨h.still.upd q hf, h.mem, h.current⟩

lemma enqueueReady (h : Mid p s s') (q : TcbPtr) : Mid p s (threadEnqueueReady s' q) :=
  ⟨h.still.enqueueReady q, by rw [wakeup_enqueueReady]; exact h.mem,
    by rw [current_enqueueReady]; exact h.current⟩

lemma dequeueWakeup (h : Mid p s s') (q : TcbPtr) : Mid p s (threadDequeueWakeup s' q) :=
  ⟨h.still.dequeueWakeup q, fun hp => h.mem ((mem_dequeueWakeup _ _ _).mp hp).1, h.current⟩

lemma owner (h : Mid p s s') (o : Nat → Option TcbPtr) :
    Mid p s { s' with interruptOwner := o } :=
  ⟨fun r hX hr => h.still r hX hr, h.mem, h.current⟩

lemma returnIpc (h : Mid p s s') (e : IpcReturn) : Mid p s (returnIpc s' p e) := h.upd _

lemma returnIpcArgs (h : Mid p s s') (t : Tid) (e : Word) : Mid p s (returnIpcArgs s' p t e) :=
  h.returnIpc _

/-- The thread goes out of the way without a timeout. -/
lemma switchTo (h : Mid p s s') (q : TcbPtr) (c : Cont) : Fin p s (switchTo s' q c) :=
  ⟨h.still.switchTo (by simp [h.current]) q c, fun hp => .inl (h.mem hp)⟩

/-- The thread blocks, whether its timeout runs or not. -/
lemma park (h : Still [p] s s') (hc : s'.current = p) {g : Tcb → Tcb} (q : TcbPtr) {c : Cont}
    (hg : ∀ t, (g t).threadState = .waiting ∨ (g t).threadState = .polling) (hk : Parked c) :
    Fin p s (Hazelnut.switchTo (s'.upd p g) q c) := by
  have hcur : (s'.upd p g).current = p := hc
  refine ⟨(h.updMem (by simp) g).switchTo (List.mem_singleton.mpr hcur) q c, fun _ => ?_⟩
  rw [SleepsWell, switchTo_ipc, if_pos hcur.symm, Sys.upd_ipc, if_pos rfl]
  exact .inr ⟨hg _, hk⟩

/-- The thread enters the wakeup queue. -/
lemma enqueueWakeup (h : Mid p s s') : Still [p] s (threadEnqueueWakeup s' p) ∧
    (threadEnqueueWakeup s' p).current = p :=
  ⟨h.still.enqueueWakeup (by simp), by rw [current_enqueueWakeup]; exact h.current⟩

lemma kernelIdWait (h : Mid p s s') (dest : Tid) : Fin p s (kernelIdWait s' p dest) :=
  (h.upd _).switchTo _ _

/-- The kernel ids. -/
lemma handleKernelId (h : Mid p s s') (dest : Tid) : Fin p s (ipcHandleKernelId s' p dest) := by
  unfold ipcHandleKernelId
  dsimp only
  split
  · exact ((h.upd _).returnIpcArgs _ _).fin
  · split
    · exact h.kernelIdWait dest
    · split
      · split
        · split
          · split
            · exact ((h.owner _).returnIpcArgs _ _).fin
            · exact ((h.owner _).returnIpcArgs _ _).fin
          · split
            · exact ((h.owner _).returnIpcArgs _ _).fin
            · exact ((h.owner _).returnIpcArgs _ _).fin
        · exact ((h.owner _).returnIpcArgs _ _).fin
      · exact park (h.upd _).enqueueWakeup.1 (h.upd _).enqueueWakeup.2 _ (fun _ => .inl rfl)
          (.inr (.inl ⟨dest, rfl⟩))

lemma recvBlock (h : Mid p s s') (toTcb : Option TcbPtr) (partner : Tid) :
    Fin p s (recvBlock s' p toTcb partner) := by
  unfold Hazelnut.recvBlock
  dsimp only
  split
  · exact (h.upd _).switchTo _ _
  · split
    · exact (h.returnIpc _).fin
    · exact park (h.upd _).enqueueWakeup.1
        (h.upd _).enqueueWakeup.2 _ (fun _ => .inl rfl) (.inl rfl)

lemma enqueueSend (h : Mid p s s') (q r : TcbPtr) : Mid p s (threadEnqueueSend s' q r) :=
  ⟨h.still.enqueueSend q r, by rw [wakeup_enqueueSend]; exact h.mem,
    by rw [current_enqueueSend]; exact h.current⟩

/-- A sender that is picked leaves the wakeup queue. -/
lemma recvFromReady (h : Mid p s s') (toTcb : Option TcbPtr) (src : TcbPtr) :
    Fin p s (recvFromReady s' p toTcb src) := by
  have h1 : Still [src, p] s s' := h.still.mono (by simp)
  have h2 := ((((h1.updMem (q := src) (by simp) fun t =>
    { t with threadState := .lockedRunning }).enqueueReady src).dequeueSend p src).updMem
      (q := p) (by simp) fun t => { t with threadState := .lockedWaiting }).dequeueWakeup src
  refine Mid.switchTo ⟨h2.drop (by simp), ?_, ?_⟩ _ _
  · simpa using fun hp _ => h.mem hp
  · simpa using h.current

lemma recvFrom (h : Mid p s s') (toTcb : Option TcbPtr) (rcvDesc : Word) (src : Option TcbPtr) :
    Fin p s (recvFrom s' p toTcb rcvDesc src) := by
  unfold Hazelnut.recvFrom
  dsimp only
  split
  · exact (h.upd _).recvBlock _ _
  · split
    · exact (h.upd _).recvBlock _ _
    · exact (h.upd _).recvFromReady _ _

/-- The receive phase. -/
lemma recvPhase (h : Mid p s s') (toTcb : Option TcbPtr) (dest : Tid) (rcvDesc : Word) :
    Fin p s (recvPhase s' p toTcb dest rcvDesc) := by
  unfold Hazelnut.recvPhase
  dsimp only
  have h0 : Mid p s (if (s'.tcb p).intrPending &&& irqInService ≠ 0 then
      s'.upd p fun t => { t with intrPending := 0 } else s') := by
    split
    · exact h.upd _
    · exact h
  generalize (if (s'.tcb p).intrPending &&& irqInService ≠ 0 then
      s'.upd p fun t => { t with intrPending := 0 } else s') = s0 at h0 ⊢
  split
  · split
    · split
      · exact (((h0.upd _).upd _).enqueueReady p).switchTo _ _
      · exact (((h0.upd _).upd _).returnIpcArgs _ _).fin
    · exact h0.recvFrom _ _ _
  · split
    · exact (h0.upd _).handleKernelId dest
    · split
      · exact (h0.returnIpc _).fin
      · exact h0.recvFrom _ _ _

lemma transferMessage (h : Mid p s s') (q : TcbPtr) (sndDesc dope : Word) :
    Mid p s (transferMessage s' p q sndDesc dope) := by
  unfold Hazelnut.transferMessage
  dsimp only
  have h1 := h.updOther q (f := fun t =>
    { t with w0 := (s'.tcb p).w0, w1 := (s'.tcb p).w1, w2 := (s'.tcb p).w2 })
    (by intro _; exact ⟨rfl, rfl⟩)
  split
  · exact ((h1.dequeueWakeup q).updOther q (by intro _; exact ⟨rfl, rfl⟩)).upd _
  · exact h1.updOther q (by intro _; exact ⟨rfl, rfl⟩)

/-- The send phase, with what follows it. -/
lemma sendTransfer (h : Mid p s s') (dest : Tid) (sndDesc rcvDesc dope : Word) :
    Fin p s (sendTransfer s' p dest sndDesc rcvDesc dope) := by
  unfold Hazelnut.sendTransfer
  dsimp only
  have h1 := (h.transferMessage (tidToTcb dest) sndDesc dope).updOther (tidToTcb dest)
      (f := fun t =>
    { t with
      partner := ((Hazelnut.transferMessage s' p (tidToTcb dest) sndDesc dope).tcb p).myself })
    (by intro _; exact ⟨rfl, rfl⟩)
  split
  · exact ((h1.upd _).enqueueReady p).switchTo _ _
  · exact h1.recvPhase _ _ _

lemma sendPoll (h : Mid p s s') (dest : Tid) (sndDesc rcvDesc : Word) :
    Fin p s (sendPoll s' p dest sndDesc rcvDesc) := by
  unfold Hazelnut.sendPoll
  dsimp only
  split
  · exact (h.returnIpc _).fin
  · split
    · exact ((h.enqueueSend _ _).upd _).switchTo _ _
    · split
      · exact (h.returnIpc _).fin
      · exact park ((h.upd _).enqueueWakeup.1.enqueueSend _ _)
          ((current_enqueueSend _ _ _).trans (h.upd _).enqueueWakeup.2) _ (fun _ => .inr rfl)
          (.inr (.inr ⟨_, _, _, rfl⟩))

lemma sysIpc (h : Mid p s s') (dest : Tid) (sndDesc rcvDesc dope : Word) :
    Fin p s (sysIpc s' p dest sndDesc rcvDesc dope) := by
  unfold Hazelnut.sysIpc
  dsimp only
  split
  · exact h.recvPhase _ _ _
  · split
    · split
      · exact (h.upd _).sendPoll _ _ _
      · exact (h.upd _).sendTransfer _ _ _ _
    · exact (h.returnIpc _).fin

end Mid

/-! ### Going on -/

/-- The thread that has been switched to leaves the wakeup queue, if it was there. -/
lemma resume_still (ha : Asleep s) (hc : s.current = p) (dope : Word) :
    Fin p s (resume s p dope) := by
  have hu := (Still.refl [p] s).updMem (q := p) (by simp) fun t => { t with cont := .user }
  have hmem : (p ∈ s.wakeup → p = .idle) → Mid p s (s.upd p fun t => { t with cont := .user }) :=
    fun hp => ⟨hu, hp, hc⟩
  have hleave : Mid p s (threadDequeueWakeup (s.upd p fun t => { t with cont := .user }) p) :=
    ⟨hu.dequeueWakeup p, by simp, hc⟩
  -- a place where no thread of the wakeup queue stands
  have hout : ∀ c, (s.ipc p).cont = c → ¬ Parked c → p ∈ s.wakeup → p = .idle :=
    fun c h1 h2 hp => (ha p hp).resolve_right fun h3 => h2 (h1 ▸ h3.2)
  have hrun : (s.tcb p).threadState = .running → p ∈ s.wakeup → p = .idle := ha.idle_of_running
  unfold resume
  dsimp only
  split
  · rename_i h
    exact (hmem (hout _ h (by simp [Parked]))).fin
  · rename_i h
    exact ((hmem (hout _ h (by simp [Parked]))).returnIpc _).fin
  · rename_i h
    exact (((hmem (hout _ h (by simp [Parked]))).upd _).returnIpcArgs _ _).fin
  · split
    · exact ((hmem (hrun (by assumption))).returnIpc _).fin
    · exact ((hleave.upd _).returnIpcArgs _ _).fin
  · rename_i h
    exact (((hmem (hout _ h (by simp [Parked]))).upd _).returnIpcArgs _ _).fin
  · split
    · exact ((hmem (hrun (by assumption))).returnIpcArgs _ _).fin
    · exact ((hleave.upd _).returnIpcArgs _ _).fin
  · split
    · exact ((hmem (hrun (by assumption))).returnIpc _).fin
    · exact hleave.sendTransfer _ _ _ _

/-! ### Scheduling and interrupts -/

lemma Still.dispatch (h : Still X s s') (hc : s'.current ∈ X) (q : TcbPtr) :
    Still X s (dispatchThread s' q) := by
  unfold dispatchThread
  split
  · exact h
  · split
    · exact h.switchTo hc _ _
    · dsimp only
      split
      · have h1 : Still X s { s' with
            prioQueue := Function.update s'.prioQueue (s'.tcb q).priority (some q) } :=
          fun r hX hr => h r hX hr
        exact h1.switchTo hc q .user
      · exact h.switchTo hc _ _

@[simp] lemma wakeup_dispatch (s : Sys) (q : TcbPtr) :
    (dispatchThread s q).wakeup = s.wakeup := by
  unfold dispatchThread
  dsimp only
  split_ifs <;> rfl

lemma Asleep.same (ha : Asleep s) (h : SameIpc s s') : Asleep s' :=
  ha.still ((Still.refl [] s).same h) (by simp)

/-- Switching away from a thread that is not in the wakeup queue. -/
lemma Asleep.dispatch (ha : Asleep s) (hc : s.current ∈ s.wakeup → s.current = .idle) (q : TcbPtr) :
    Asleep (dispatchThread s q) := by
  refine ha.still ((Still.refl [s.current] s).dispatch (by simp) q) fun r hr hm => ?_
  obtain rfl := List.mem_singleton.mp hr
  rw [wakeup_dispatch] at hm
  exact .inl (hc hm)

/-- Running the scheduler. -/
lemma Asleep.reschedule (ha : Asleep s) (hc : s.current ∈ s.wakeup → s.current = .idle)
    (hf : ((findNextThread s).map fun r => dispatchThread r.1 r.2) = some s') : Asleep s' := by
  obtain ⟨⟨s1, q⟩, h1, rfl⟩ := Option.map_eq_some_iff.mp hf
  have hs := (findNextThread_spec h1).1
  exact (ha.same hs).dispatch (by rw [hs.current, hs.wakeup]; exact hc) q

/-- Threads that are woken up leave the queue. -/
lemma Still.parseWakeup (now : BitVec 64) (l : List TcbPtr) (prio : Nat)
    (highest : Option TcbPtr) (h : Still X s s') : Still X s (parseWakeup now l prio highest s').1 ∧
      (parseWakeup now l prio highest s').1.current = s'.current := by
  refine parseWakeup_keeps
    (P := fun t => Still X s t ∧ t.current = s'.current) (fun t q _ h => ?_) prio highest
    ⟨h, rfl⟩
  have h2 : Still (q :: X) s (wakeUp t q) :=
    (((h.1.mono fun r hr => List.mem_cons_of_mem q hr).dequeueWakeup q).updMem (q := q)
      (by simp) _).enqueueReady q
  exact ⟨h2.drop (by simp [wakeUp]), by rw [← h.2]; simp [wakeUp]⟩

/-- The timer interrupt. -/
lemma Asleep.timer (ha : Asleep s) (hint : interruptible s)
    (h : handleTimerInterrupt s = some s') : Asleep s' := by
  have hc : s.current ∈ s.wakeup → s.current = .idle := ha.idle_of_user hint
  obtain ⟨now, s1, wake, s3, hrun, ⟨h3, -⟩, hcases⟩ := timer_cases h
  have h0 : Still [] s { s with clock := now } := fun r hX hr => Still.refl _ s r hX hr
  have h1 := h0.parseWakeup now s.wakeup (s.tcb s.current).priority none
  rw [hrun] at h1
  have ha3 : Asleep s3 := ha.still (h1.1.same h3) (by simp)
  have hc3 : s3.current ∈ s3.wakeup → s3.current = .idle := by
    rw [h3.current, h1.2]
    exact fun hm => hc ((h1.1.same h3) _ (by simp) hm).1
  rcases hcases with ⟨p, -, rfl⟩ | hres | rfl
  · exact ha3.dispatch hc3 p
  · exact ha3.reschedule hc3 hres
  · exact ha3

/-- An interrupt may find its owner in a closed wait only, for an open one does not return it;
and it may make the owner ready only if no timeout of it runs. -/
def IrqOk (s : Sys) (number : Nat) : Prop :=
  ∀ p, s.interruptOwner number = some p → isWaiting (s.tcb p).threadState →
    ((s.tcb p).partner = BitVec.ofNat 32 (number + 1) ∨ (s.tcb p).partner = nilId) →
    (s.tcb p).partner = BitVec.ofNat 32 (number + 1) ∧
      ((s.tcb p).priority ≤ (s.tcb s.current).priority → p ∉ s.wakeup)

/-- Device interrupts. -/
lemma Asleep.irq (ha : Asleep s) (hint : interruptible s) {number : Nat} (hok : IrqOk s number) :
    Asleep (handleInterrupt s number) := by
  have hc : s.current ∈ s.wakeup → s.current = .idle := ha.idle_of_user hint
  unfold handleInterrupt
  split
  · exact ha
  · rename_i p hp
    dsimp only
    split
    · rename_i hw
      split
      · rename_i hle
        refine ha.still (((((Still.refl [p] s).updMem (by simp) _).updMem
          (by simp) _).enqueueReady p))
          fun r hr hm => ?_
        rw [wakeup_enqueueReady, List.mem_singleton.mp hr] at hm
        exact absurd hm ((hok p hp hw.1 hw.2).2 hle)
      · -- the thread is switched to, and leaves the queue when it goes on
        have h1 : SameIpc s (s.upd p fun t =>
            { t with intrPending := BitVec.ofNat 32 (number + 1) ||| irqInService }) :=
          (SameIpc.refl s).upd p (by intro _; rfl)
        generalize s.upd p _ = s1 at h1 ⊢
        have h2 : SameIpc s (if s.current = .idle then s1
            else threadEnqueueReady s1 s.current) := by
          split
          · exact h1
          · exact h1.trans (sameIpc_enqueueReady s1 _)
        generalize (if s.current = .idle then s1 else threadEnqueueReady s1 s.current) = s2 at h2 ⊢
        refine ha.still (((Still.refl [s.current] s).same h2).switchTo
          (by simp [h2.current]) p .user)
          fun r hr hm => ?_
        obtain rfl := List.mem_singleton.mp hr
        rw [switchTo_wakeup, h2.wakeup] at hm
        exact .inl (hc hm)
    · exact ha.still ((Still.refl [] s).upd p (by intro _; exact ⟨rfl, rfl⟩)) (by simp)

/-! ### Cancelling and deleting -/

/-- What the deletion of threads leaves of the wakeup queue: nobody enters it. -/
structure Leaves (s s' : Sys) : Prop where
  still : Still [] s s'
  current : s'.current = s.current
  space : ∀ r, (s'.ipc r).space = (s.ipc r).space

namespace Leaves

lemma refl (s : Sys) : Leaves s s := ⟨Still.refl [] s, rfl, fun _ => rfl⟩

lemma trans (h : Leaves s s') (h' : Leaves s' s'') : Leaves s s'' :=
  ⟨h.still.trans h'.still, h'.current.trans h.current, fun r => (h'.space r).trans (h.space r)⟩

lemma not_mem (h : Leaves s s') {r : TcbPtr} (hr : r ∉ s.wakeup) : r ∉ s'.wakeup :=
  fun hm => hr (h.still r (by simp) hm).1

lemma dequeueWakeup (s : Sys) (p : TcbPtr) : Leaves s (threadDequeueWakeup s p) :=
  ⟨(Still.refl [] s).dequeueWakeup p, rfl, fun _ => rfl⟩

lemma same (h : SameIpc s s') : Leaves s s' :=
  ⟨(Still.refl [] s).same h, h.current, fun r => by rw [h.ipc]⟩

/-- An assignment to a thread that is not in the queue. -/
lemma upd (hp : p ∉ s.wakeup) {f : Tcb → Tcb} (hf : ∀ t, (f t).space = t.space) :
    Leaves s (s.upd p f) := by
  refine ⟨((Still.refl [p] s).updMem (by simp) f).drop hp, rfl, fun r => ?_⟩
  rw [Sys.upd_ipc]
  split
  · rename_i heq
    rw [heq]
    exact hf _
  · rfl

lemma dequeueSend (s : Sys) (q r : TcbPtr) : Leaves s (threadDequeueSend s q r) :=
  ⟨(Still.refl [] s).dequeueSend q r, current_dequeueSend s q r, (sameCtl_dequeueSend s q r).space⟩

lemma makeRunning (hp : p ∉ s.wakeup) : Leaves s (makeRunning s p) :=
  (Leaves.upd hp (by intro _; rfl)).trans (same (sameIpc_enqueueReady _ p))

lemma returnIpc (hp : p ∉ s.wakeup) (e : IpcReturn) : Leaves s (returnIpc s p e) :=
  Leaves.upd hp (by intro _; rfl)

end Leaves

/-- The locked states, in which the partner is unwound as well. -/
lemma unwindIpc_leaves_locked {n : Nat}
    (ih : ∀ {s p s'}, unwindIpc n s p = some s' → Leaves s s' ∧ p ∉ s'.wakeup)
    (hst : (s.ipc p).threadState = .lockedWaiting ∨ (s.ipc p).threadState = .lockedRunning)
    (h : unwindIpc (n + 1) s p = some s') : Leaves s s' ∧ p ∉ s'.wakeup := by
  have hp : p ∉ (markAborted s p).wakeup := fun hm => ((mem_markAborted s p p).mp hm).2 rfl
  have h0 : Leaves s (markAborted s p) :=
    (Leaves.dequeueWakeup s p).trans (Leaves.upd (by simp) (by intro _; rfl))
  obtain ⟨e, -, he⟩ := unwindIpc_locked n hst
  rw [he] at h
  obtain ⟨s2, h2, rfl⟩ := Option.map_eq_some_iff.mp h
  have hs2 : Leaves s s2 ∧ p ∉ s2.wakeup := by
    split at h2
    · rw [Option.some.injEq] at h2
      exact h2 ▸ ⟨h0, hp⟩
    · obtain ⟨s3, h3, rfl⟩ := Option.map_eq_some_iff.mp h2
      obtain ⟨h4, h5⟩ := ih h3
      have h6 := h4.trans (Leaves.makeRunning h5)
      exact ⟨h0.trans h6, h6.not_mem hp⟩
  exact ⟨hs2.1.trans (Leaves.returnIpc hs2.2 (.err e)), hs2.2⟩

/-- `unwind_ipc` takes the thread out of the wakeup queue, and the threads it meets. -/
lemma unwindIpc_leaves {n : Nat} (h : unwindIpc n s p = some s') :
    Leaves s s' ∧ p ∉ s'.wakeup := by
  induction n generalizing s p s' with
  | zero => simp [unwindIpc] at h
  | succ n ih =>
      have h0 := Leaves.dequeueWakeup s p
      have hp : p ∉ (threadDequeueWakeup s p).wakeup := by simp
      rcases hst : (s.ipc p).threadState with _ | _ | _ | _ | _ | _ | _
      · rw [unwindIpc, show ((threadDequeueWakeup s p).tcb p).threadState = .free from hst] at h
        simp at h
      · rw [unwindIpc_still n (.inl hst), Option.some.injEq] at h
        exact h ▸ ⟨h0, hp⟩
      · rw [unwindIpc_polling n hst, Option.some.injEq] at h
        have h1 := h0.trans (Leaves.dequeueSend _ (tidToTcb (s.ipc p).partner) p)
        have h2 : p ∉ (threadDequeueSend (threadDequeueWakeup s p)
          (tidToTcb (s.ipc p).partner) p).wakeup := by simp
        exact h ▸ ⟨h1.trans (Leaves.returnIpc h2 _), h2⟩
      · exact unwindIpc_leaves_locked ih (.inl hst) h
      · exact unwindIpc_leaves_locked ih (.inr hst) h
      · rw [unwindIpc_still n (.inr hst), Option.some.injEq] at h
        exact h ▸ ⟨h0, hp⟩
      · rw [unwindIpc_waiting n hst, Option.some.injEq] at h
        exact h ▸ ⟨h0.trans (Leaves.returnIpc hp _), hp⟩

/-- Nor does anybody enter it in the loop over the send queue. -/
lemma unwindSenders_leaves {n : Nat} (h : unwindSenders n s p = some s') : Leaves s s' := by
  induction n generalizing s with
  | zero => simp [unwindSenders] at h
  | succ n ih =>
      rw [unwindSenders] at h
      split at h
      · rw [Option.some.injEq] at h
        exact h ▸ Leaves.refl s
      · obtain ⟨s1, h1, h2⟩ := Option.bind_eq_some_iff.mp h
        exact (unwindIpc_leaves h1).1.trans (ih h2)

/-- A deleted thread is out of the queue. -/
lemma freeThread_leaves (h : freeThread s p = some s') :
    Leaves s (freeTcb s' p) ∧ p ∉ (freeTcb s' p).wakeup := by
  obtain ⟨s2, h2, rfl⟩ := Option.map_eq_some_iff.mp h
  obtain ⟨s1, h1, h2⟩ := Option.bind_eq_some_iff.mp h2
  obtain ⟨h3, h4⟩ := unwindIpc_leaves h1
  have h5 := unwindSenders_leaves h2
  have h6 := Leaves.same (sameIpc_dequeueReady s2 p)
  have h7 : p ∉ (threadDequeueReady s2 p).wakeup := h6.not_mem (h5.not_mem h4)
  have h8 : Leaves (threadDequeueReady s2 p) (threadDequeuePresent (threadDequeueReady s2 p) p) :=
    ⟨fun r hX hr => Still.refl [] _ r hX hr, rfl, fun _ => rfl⟩
  exact ⟨(h3.trans (h5.trans (h6.trans h8))).trans
    (Leaves.upd (s := threadDequeuePresent (threadDequeueReady s2 p) p) h7 (by intro _; rfl)), h7⟩

/-- The deletion of a task takes its threads out of the queue. -/
lemma deleteThreads_leaves {sp : Nat} {l : List TcbPtr} (h : deleteThreads sp l s = some s') :
    Leaves s s' ∧ ∀ r ∈ l, (s.ipc r).space = sp → r ∉ s'.wakeup := by
  induction l generalizing s with
  | nil =>
      rw [deleteThreads, Option.some.injEq] at h
      exact h ▸ ⟨Leaves.refl s, by simp⟩
  | cons p l ih =>
      rw [deleteThreads] at h
      split at h
      · obtain ⟨s1, h1, h2⟩ := Option.bind_eq_some_iff.mp h
        obtain ⟨h3, h4⟩ := freeThread_leaves h1
        obtain ⟨h5, h6⟩ := ih h2
        refine ⟨h3.trans h5, fun r hr hsp => ?_⟩
        rcases List.mem_cons.mp hr with rfl | hr
        · exact h5.not_mem h4
        · exact h6 r hr ((h3.space r).trans hsp)
      · rename_i hne
        obtain ⟨h5, h6⟩ := ih h
        refine ⟨h5, fun r hr hsp => ?_⟩
        rcases List.mem_cons.mp hr with rfl | hr
        · exact absurd hsp hne
        · exact h6 r hr hsp

lemma Asleep.leaves (ha : Asleep s) (h : Leaves s s') : Asleep s' := ha.still h.still (by simp)

/-- A thread that is not in the queue is created. -/
lemma Asleep.create (ha : Asleep s) {tid : Tid} (hp : tidToTcb tid ∉ s.wakeup) (space : Option Nat)
    (uip usp : Word) (pager : Tid) (prio : Nat) :
    Asleep (startThread (createTcb s tid space) (tidToTcb tid) uip usp pager prio) := by
  intro r hr
  have hr' : r ∈ s.wakeup := by
    rw [startThread, wakeup_enqueueReady] at hr
    exact hr
  have hne : r ≠ tidToTcb tid := fun he => hp (he ▸ hr')
  rw [SleepsWell, startThread_ipc, if_neg hne]
  exact ha r hr'

/-- `sys_lthread_ex_regs` does not create a thread in a TCB that is in the queue. -/
def ExRegsWake (s : Sys) (threadno : Word) : Prop :=
  let p := tidToTcb (setThread (s.tcb s.current).myself threadno)
  tcbExist s p ∨ p ∉ s.wakeup

/-- `sys_lthread_ex_regs`. -/
lemma Asleep.exRegs (ha : Asleep s) {threadno uip usp : Word} {pager : Tid}
    (hok : ExRegsWake s threadno) (h : sysLthreadExRegs s threadno uip usp pager = some s') :
    Asleep s' := by
  unfold sysLthreadExRegs at h
  unfold ExRegsWake at hok
  dsimp only at h hok
  generalize setThread (s.tcb s.current).myself threadno = tid at h hok
  split at h
  · split at h
    · obtain ⟨s1, h1, rfl⟩ := Option.map_eq_some_iff.mp h
      obtain ⟨h2, h3⟩ := unwindIpc_leaves h1
      exact ((ha.leaves h2).leaves (Leaves.upd h3 (by intro _; rfl))).same
        (sameIpc_exchangeRegs _ _ _ _ _)
    · rename_i hex
      rw [Option.some.injEq] at h
      exact h ▸ ha.create (hok.resolve_left hex) _ _ _ _ _
  · rw [Option.some.injEq] at h
    exact h ▸ ha.same (sameIpc_exchangeRegs _ _ _ _ _)

/-- Neither does `sys_task_new`: the TCB is not in the queue, or the deletion of the task
takes it out. -/
def TaskNewWake (s : Sys) (task : Tid) : Prop :=
  let p := tidToTcb (setThread task 0)
  tcbExist s p ∧ p ∈ s.present ∨ p ∉ s.wakeup

/-- `sys_task_new`. -/
lemma Asleep.taskNew (ha : Asleep s) {task pager : Tid} {uip usp : Word} (hok : TaskNewWake s task)
    (h : sysTaskNew s task pager uip usp = some s') : Asleep s' := by
  unfold sysTaskNew at h
  unfold TaskNewWake at hok
  dsimp only at h hok
  generalize setThread task 0 = tid at h hok
  split at h
  · simp at h
  · split at h
    · rw [Option.some.injEq] at h
      exact h ▸ ha
    · obtain ⟨s1, h1, rfl⟩ := Option.map_eq_some_iff.mp h
      have hs1 : Asleep s1 ∧ tidToTcb tid ∉ s1.wakeup := by
        split at h1
        · obtain ⟨h2, h3⟩ := deleteThreads_leaves h1
          refine ⟨ha.leaves h2, ?_⟩
          rcases hok with hok | hok
          · exact h3 _ hok.2 rfl
          · exact h2.not_mem hok
        · rename_i hex
          rw [Option.some.injEq] at h1
          exact h1 ▸ ⟨ha, hok.resolve_left fun h => hex h.1⟩
      split
      · exact hs1.1
      · exact hs1.1.create hs1.2 _ _ _ _ _

/-! ### Runs -/

/-- The step makes no thread runnable while its timeout runs, nor does it leave behind a
receiver that has got its message; and it takes none of the wrong turns. -/
def WakeOk (s : Sys) (e : Event) : Prop :=
  StepOk s e ∧ match e with
    | .irq number => IrqOk s number
    | .exRegs threadno _ _ _ => ExRegsWake s threadno
    | .taskNew task _ _ _ => TaskNewWake s task
    | e => DeliverOk s e

/-- **One step** keeps the sleeping threads asleep. -/
lemma Asleep.step (ha : Asleep s) {e : Event} (hok : WakeOk s e) (h : step s e = some s') :
    Asleep s' := by
  cases e with
  | ipc dest sndDesc rcvDesc timeout w0 w1 w2 dope =>
      simp only [Hazelnut.step] at h
      split at h
      · rename_i hu
        rw [Option.some.injEq] at h
        have hm : Mid s.current s (storeRegs s s.current timeout w0 w1 w2) :=
          ⟨(Still.refl _ s).updMem (by simp) _, ha.idle_of_user hu.2, rfl⟩
        have hf := hm.sysIpc dest sndDesc rcvDesc dope
        rw [← h]
        exact ha.still hf.1 fun r hr hw => List.mem_singleton.mp hr ▸ hf.2
          (List.mem_singleton.mp hr ▸ hw)
      · simp at h
  | exRegs threadno uip usp pager =>
      simp only [Hazelnut.step] at h
      split at h
      · exact ha.exRegs hok.2 h
      · simp at h
  | taskNew task pager uip usp =>
      simp only [Hazelnut.step] at h
      split at h
      · exact ha.taskNew hok.2 h
      · simp at h
  | threadSwitch tid =>
      simp only [Hazelnut.step] at h
      split at h
      · rename_i hu
        have h1 := sameIpc_enqueueReady s s.current
        have ha1 := ha.same h1
        have hc1 : (threadEnqueueReady s s.current).current ∈
          (threadEnqueueReady s s.current).wakeup →
            (threadEnqueueReady s s.current).current = .idle := by
          rw [h1.current, h1.wakeup]
          exact ha.idle_of_user hu.2
        unfold sysThreadSwitch at h
        dsimp only at h
        split at h
        · rw [Option.some.injEq] at h
          exact h ▸ ha1.dispatch hc1 _
        · exact ha1.reschedule hc1 h
      · simp at h
  | schedule param tid =>
      simp only [Hazelnut.step] at h
      split at h
      · rw [Option.some.injEq] at h
        exact h ▸ ha.same (sameIpc_schedule s param tid)
      · simp at h
  | timer =>
      simp only [Hazelnut.step] at h
      split at h
      · exact ha.timer (by assumption) h
      · simp at h
  | irq number =>
      simp only [Hazelnut.step] at h
      split at h
      · rw [Option.some.injEq] at h
        exact h ▸ ha.irq (by assumption) hok.2
      · simp at h
  | resume dope =>
      simp only [Hazelnut.step] at h
      split at h
      · simp at h
      · rw [Option.some.injEq] at h
        have hf := resume_still ha rfl dope
        rw [← h]
        exact ha.still hf.1 fun r hr hw => List.mem_singleton.mp hr ▸ hf.2
          (List.mem_singleton.mp hr ▸ hw)
  | idle =>
      simp only [Hazelnut.step] at h
      split at h
      · rename_i hidle
        exact ha.reschedule (fun _ => hidle) h
      · simp at h

lemma asleep_initSys : Asleep initSys := fun r hr => absurd hr (by
  simp [initSys, startThread, createTcb, threadEnqueuePresent, bootSys])

lemma RunBy.asleep (h : RunBy WakeOk s) : Asleep s :=
  h.invariant asleep_initSys fun _ _ _ ha hok hstep => ha.step hok hstep

/-! ### The timer -/

/-- Waking up others leaves a thread alone. -/
lemma Held.parseWakeup (now : BitVec 64) (l : List TcbPtr) (prio : Nat) (highest : Option TcbPtr)
    (h : Held q s s') (hq : q ∉ l) : Held q s (parseWakeup now l prio highest s').1 :=
  parseWakeup_keeps (fun _ r hr h =>
    ((h.dequeueWakeup r).updOther (fun he => hq (he ▸ hr)) _).enqueueReady r)
    prio highest h

/-- The timer interrupt leaves a thread alone that is not in the wakeup queue. -/
lemma held_timer (h : handleTimerInterrupt s = some s') (hq : q ∉ s.wakeup) (hc : q ≠ s.current) :
    Held q s s' := by
  obtain ⟨now, s1, wake, s3, hrun, ⟨h3, h4⟩, hcases⟩ := timer_cases h
  have h1 := Held.parseWakeup now s.wakeup (s.tcb s.current).priority none
    (show Held q s { s with clock := now } from Held.refl q s) hq
  have hc1 := (Still.parseWakeup now s.wakeup (s.tcb s.current).priority none
    (Still.refl [] { s with clock := now })).2
  rw [hrun] at h1 hc1
  have h5 := h1.trans (h4 q hc)
  have hc3 : q ≠ s3.current := by rw [h3.current, hc1]; exact hc
  rcases hcases with ⟨p, -, rfl⟩ | hres | rfl
  · exact h5.dispatch hc3 p
  · obtain ⟨⟨s4, p⟩, h6, rfl⟩ := Option.map_eq_some_iff.mp hres
    refine (h5.findNextThread h6).dispatch ?_ p
    rw [(findNextThread_spec h6).1.current]
    exact hc3
  · exact h5

end Hazelnut
