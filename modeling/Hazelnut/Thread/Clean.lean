import Hazelnut.Thread.Once

/-!
A thread returns from an IPC clean.

* `Tidy`: a thread that is in user mode, or about to return there, is running.
* `CleanOk`: a step without a wrong turn that does not return with a timeout of zero behind a
  send for which the thread has polled, for the thread would be left `TS_LOCKED_RUNNING`.
* `returns_clean`: in every run of such steps, every thread in user mode is running, and in
  neither the wakeup queue nor a send queue.
-/

namespace Hazelnut

variable {D : TcbPtr → Prop} {s s' s'' : Sys} {p q r : TcbPtr}

/-! ### Threads that are done with their IPC -/

/-- The thread is in user mode, or returns to it as soon as it is switched to. -/
def Plain (c : Cont) : Prop := c = .user ∨ c = .sendSwitch ∨ ∃ i, c = .irqSwitch i

/-- The control block is not that of a thread, or the thread is running. -/
def Runs (t : IpcPart) : Prop := t.myself ≠ nilId → t.myself ≠ invalidId → t.threadState = .running

/-- A thread that is done with its IPC is running. -/
def Tidy (t : IpcPart) : Prop := Plain t.cont → Runs t

/-- All threads are tidy, but for the idle thread and those of `D`. -/
def TidyBut (D : TcbPtr → Prop) (s : Sys) : Prop := ∀ r, r ≠ .idle → ¬D r → Tidy (s.ipc r)

lemma Tidy.of_running {t : IpcPart} (h : t.threadState = .running) : Tidy t := fun _ _ _ => h

lemma Tidy.of_cont {t : IpcPart} (h : ¬Plain t.cont) : Tidy t := fun h1 => absurd h1 h

namespace TidyBut

lemma mono {D' : TcbPtr → Prop} (h : TidyBut D s) (hD : ∀ r, D r → D' r) : TidyBut D' s :=
  fun r hi hr => h r hi fun h => hr (hD r h)

lemma upd (h : TidyBut D s) (q : TcbPtr) {f : Tcb → Tcb}
    (hf : ¬D q → Tidy (s.ipc q) → Tidy (f (s.tcb q)).toIpcPart) : TidyBut D (s.upd q f) := by
  intro r hi hr
  rw [Sys.upd_ipc]
  split
  · rename_i heq
    exact hf (heq ▸ hr) (h q (heq ▸ hi) (heq ▸ hr))
  · exact h r hi hr

lemma same (h : TidyBut D s) (hs : SameIpc s s') : TidyBut D s' := fun r => by
  rw [hs.ipc]
  exact h r

/-- Links do not matter. -/
lemma ctl (h : TidyBut D s) (hs : SameCtl s s') : TidyBut D s' := fun r => by
  unfold Tidy Runs
  rw [hs.threadState, hs.cont, hs.myself]
  exact h r

lemma enqueueReady (h : TidyBut D s) (r : TcbPtr) : TidyBut D (threadEnqueueReady s r) :=
  h.same (sameIpc_enqueueReady s r)

lemma enqueueWakeup (h : TidyBut D s) (r : TcbPtr) : TidyBut D (threadEnqueueWakeup s r) :=
  fun q => by rw [ipc_enqueueWakeup]; exact h q

lemma dequeueWakeup (h : TidyBut D s) (r : TcbPtr) : TidyBut D (threadDequeueWakeup s r) := h

/-- Switching away from a thread in user mode. -/
lemma switchUser (h : TidyBut D s) (hint : interruptible s) (r : TcbPtr) :
    TidyBut D (Hazelnut.switchTo s r .user) := by
  have h1 := h.upd s.current (f := fun t => { t with cont := .user }) fun _ h _ => h (.inl hint)
  exact fun q => h1 q

/-- A thread of `D` returns to user mode. -/
lemma returnIpc (h : TidyBut D s) (hr : D r) (e : IpcReturn) : TidyBut D (returnIpc s r e) :=
  h.upd r fun hD => absurd hr hD

lemma makeRunning (h : TidyBut (fun x => D x ∨ x = r) s) : TidyBut D (makeRunning s r) := by
  intro q hi hq
  rw [makeRunning_ipc]
  split
  · exact .of_running rfl
  · rename_i hne
    exact h q hi fun h => h.elim hq hne

end TidyBut

/-! ### System calls -/

/-- All threads are tidy. -/
def AllTidy (s : Sys) : Prop := TidyBut (fun _ => False) s

/-- All threads are tidy, except for the running one. -/
def OthersTidy (p : TcbPtr) (s : Sys) : Prop := TidyBut (· = p) s

/-- The sender that a receive phase picks. -/
def Picks (s : Sys) (p : TcbPtr) (src : Option TcbPtr) : Prop :=
  ∃ r, src = some r ∧ isPolling (s.tcb r).threadState ∧ (s.tcb r).partner = (s.tcb p).myself

namespace OthersTidy

lemma done (h : OthersTidy p s) (hp : Tidy (s.ipc p)) : AllTidy s := fun r hi _ => by
  by_cases hr : r = p
  · rw [hr]; exact hp
  · exact h r hi hr

lemma upd (h : OthersTidy p s) (f : Tcb → Tcb) : OthersTidy p (s.upd p f) :=
  TidyBut.upd h p fun hn => absurd rfl hn

lemma enqueueWakeup (h : OthersTidy p s) : OthersTidy p (threadEnqueueWakeup s p) :=
  TidyBut.enqueueWakeup h p

lemma returnIpc (h : OthersTidy p s) (hp : Runs (s.ipc p)) (e : IpcReturn) :
    AllTidy (returnIpc s p e) := by
  refine OthersTidy.done (h.upd _) ?_
  rw [returnIpc_ipc, if_pos rfl]
  exact fun _ => hp

lemma returnIpcArgs (h : OthersTidy p s) (hp : Runs (s.ipc p)) (t : Tid) (e : Word) :
    AllTidy (returnIpcArgs s p t e) := h.returnIpc hp _

/-- The thread is switched away from. -/
lemma switchTo (h : OthersTidy p s) (hc : s.current = p) (r : TcbPtr) {c : Cont}
    (hk : ¬Plain c ∨ Runs (s.ipc p)) : AllTidy (switchTo s r c) := by
  intro q hi _
  rw [switchTo_ipc, hc]
  split
  · rename_i hq
    rw [hq]
    exact hk.elim (fun hk => .of_cont hk) (fun hk _ => hk)
  · rename_i hq
    exact h q hi hq

lemma recvBlock (h : OthersTidy p s) (hc : s.current = p)
    (hp : Runs (s.ipc p) ∨ ¬zeroTimeout (s.tcb p).ipcTimeout) (toTcb : Option TcbPtr)
    (partner : Tid) :
    AllTidy (recvBlock s p toTcb partner) := by
  unfold Hazelnut.recvBlock
  dsimp only
  split
  · exact (h.upd _).switchTo hc _ (.inl (by simp [Plain]))
  · split
    · rename_i h1 h2
      exact h.returnIpc (hp.resolve_right fun hz => hz ⟨h1, h2⟩) _
    · exact ((h.upd _).enqueueWakeup.upd _).switchTo
        (by rw [Sys.upd_current, current_enqueueWakeup]; exact hc) _ (.inl (by simp [Plain]))

lemma recvFromReady (h : OthersTidy p s) (hc : s.current = p) (toTcb : Option TcbPtr) {src : TcbPtr}
    (hsrc : isPolling (s.tcb src).threadState) : AllTidy (recvFromReady s p toTcb src) := by
  have h1 : OthersTidy p (s.upd src fun t => { t with threadState := .lockedRunning }) :=
    TidyBut.upd h src fun _ ht hplain h1 h2 => by
      have h3 := ht hplain h1 h2
      rw [isPolling_iff, Sys.toIpcPart_tcb, h3] at hsrc
      simp at hsrc
  have h2 : OthersTidy p (threadDequeueSend (threadEnqueueReady (s.upd src fun t =>
      { t with threadState := .lockedRunning }) src) p src) :=
    (TidyBut.enqueueReady h1 src).ctl (sameCtl_dequeueSend _ p src)
  refine OthersTidy.switchTo (TidyBut.dequeueWakeup (h2.upd _) src) ?_ _ (.inl (by simp [Plain]))
  rw [current_dequeueWakeup, Sys.upd_current, (sameCtl_dequeueSend _ p src).current,
    current_enqueueReady]
  exact hc

lemma recvFrom (h : OthersTidy p s) (hc : s.current = p) (toTcb : Option TcbPtr) (rcvDesc : Word)
    (src : Option TcbPtr)
    (hp : Runs (s.ipc p) ∨ Picks s p src ∨ ¬zeroTimeout (s.tcb p).ipcTimeout) :
    AllTidy (recvFrom s p toTcb rcvDesc src) := by
  have h1 : OthersTidy p (s.upd p fun t => { t with msgDesc := rcvDesc }) := h.upd _
  have hst : ∀ r, ((s.upd p fun t => { t with msgDesc := rcvDesc }).tcb r).threadState =
      (s.tcb r).threadState := fun r => by
    by_cases hr : r = p
    · rw [hr, Sys.upd_tcb_self]
    · rw [Sys.upd_tcb_other _ hr]
  have hp1 : Runs (s.ipc p) ∨ ¬zeroTimeout (s.tcb p).ipcTimeout →
      Runs ((s.upd p fun t => { t with msgDesc := rcvDesc }).ipc p) ∨
      ¬zeroTimeout ((s.upd p fun t => { t with msgDesc := rcvDesc }).tcb p).ipcTimeout := by
    rw [Sys.upd_ipc, if_pos rfl, Sys.upd_tcb_self]
    exact id
  have hc1 : (s.upd p fun t => { t with msgDesc := rcvDesc }).current = p := hc
  unfold Hazelnut.recvFrom
  dsimp only
  generalize s.upd p (fun t => { t with msgDesc := rcvDesc }) = s1 at h1 hst hp1 hc1 ⊢
  have hno : ¬Picks s p src → Runs (s1.ipc p) ∨ ¬zeroTimeout (s1.tcb p).ipcTimeout := fun hn =>
    hp1 (hp.imp id fun h => h.resolve_left hn)
  split
  · exact h1.recvBlock hc1 (hno (fun ⟨r, hr, _⟩ => by simp at hr)) _ _
  · rename_i r
    split
    · rename_i hcond
      refine h1.recvBlock hc1 (hno ?_) _ _
      rintro ⟨r', hr', h2, h3⟩
      obtain rfl : r = r' := by simpa using hr'
      exact hcond.elim (fun h => h h2) (fun h => h h3)
    · rename_i hcond
      refine h1.recvFromReady hc1 _ ?_
      rw [hst]
      exact not_not.mp fun hn => hcond (.inl hn)

lemma kernelIdWait (h : OthersTidy p s) (hc : s.current = p) (dest : Tid) :
    AllTidy (kernelIdWait s p dest) := (h.upd _).switchTo hc _ (.inl (by simp [Plain]))

lemma handleKernelId (h : OthersTidy p s) (hc : s.current = p) (hp : Runs (s.ipc p)) (dest : Tid) :
    AllTidy (ipcHandleKernelId s p dest) := by
  have hown : ∀ o e, AllTidy (Hazelnut.returnIpcArgs { s with interruptOwner := o } p dest e) :=
    fun o e => OthersTidy.returnIpcArgs (s := { s with interruptOwner := o }) h hp dest e
  unfold ipcHandleKernelId
  dsimp only
  split
  · refine (h.upd _).returnIpcArgs ?_ _ _
    rw [Sys.upd_ipc, if_pos rfl]
    exact hp
  · split
    · exact h.kernelIdWait hc dest
    · split
      · split
        · split
          · split
            · exact hown _ _
            · exact hown _ _
          · split
            · exact hown _ _
            · exact hown _ _
        · exact hown _ _
      · exact (h.upd _).enqueueWakeup.kernelIdWait (by rw [current_enqueueWakeup]; exact hc) dest

/-- The receive phase, of a running thread or behind a send that goes on. -/
lemma recvPhase (h : OthersTidy p s) (hc : s.current = p) (toTcb : Option TcbPtr) {dest : Tid}
    {rcvDesc : Word}
    (hp : Runs (s.ipc p) ∨ (∃ q, toTcb = some q) ∧ rcvDesc ≠ noDesc ∧ GoesOn s p dest rcvDesc) :
    AllTidy (recvPhase s p toTcb dest rcvDesc) := by
  unfold Hazelnut.recvPhase
  dsimp only
  obtain ⟨s0, hs0⟩ : ∃ s0, s0 = if (s.tcb p).intrPending &&& irqInService ≠ 0 then
      s.upd p fun t => { t with intrPending := 0 } else s := ⟨_, rfl⟩
  rw [← hs0]
  have h0 : OthersTidy p s0 := by
    rw [hs0]
    split
    · exact h.upd _
    · exact h
  have hc0 : s0.current = p := by rw [hs0]; split <;> exact hc
  have hoth : ∀ r, r ≠ p → s0.tcb r = s.tcb r := fun r hr => by
    rw [hs0]
    split
    · exact Sys.upd_tcb_other _ hr _
    · rfl
  have hself : s0.tcb p = { s.tcb p with intrPending := (s0.tcb p).intrPending } := by
    rw [hs0]
    split
    · rw [Sys.upd_tcb_self]
    · rfl
  have hirq : (s0.tcb p).intrPending = if (s.tcb p).intrPending &&& irqInService ≠ 0 then 0
      else (s.tcb p).intrPending := by
    rw [hs0]
    split
    · rw [Sys.upd_tcb_self]
    · rfl
  have hruns : Runs (s.ipc p) → Runs (s0.ipc p) := by
    have h1 : s0.ipc p = s.ipc p := by
      have h2 := congrArg Tcb.toIpcPart hself
      exact h2
    rw [h1]
    exact id
  have htm : (s0.tcb p).ipcTimeout = (s.tcb p).ipcTimeout := by rw [hself]
  have hmy : (s0.tcb p).myself = (s.tcb p).myself := by rw [hself]
  have hsq : (s0.tcb p).sendQueue = (s.tcb p).sendQueue := by rw [hself]
  split
  · rename_i hopen
    split
    · split
      · refine OthersTidy.switchTo
          (p := p) (TidyBut.enqueueReady ((h0.upd _).upd _) p) ?_ _ (.inr ?_)
        · rw [current_enqueueReady]
          exact hc0
        · rw [ipc_enqueueReady, Sys.upd_ipc, if_pos rfl]
          exact fun _ _ => rfl
      · have hp := hruns (hp.resolve_right fun h => by simp at h)
        refine ((h0.upd _).upd _).returnIpcArgs ?_ _ _
        rw [Sys.upd_ipc, if_pos rfl, Sys.upd_tcb_self]
        exact hp
    · rename_i hirq0
      refine h0.recvFrom hc0 _ _ _ (hp.imp hruns fun hp => ?_)
      have hg := hp.2.2.resolve_left hp.2.1
      rw [if_pos hopen] at hg
      rcases hg with hg | ⟨r, h1, h2, h3, h4⟩ | hg
      · refine absurd ?_ hirq0
        rw [hirq, if_neg (by simp [hg.1])]
        exact hg.2
      · exact .inl ⟨r, by rw [hsq]; exact h1, by rw [hoth r h2]; exact h3,
          by rw [hoth r h2, hmy]; exact h4⟩
      · exact .inr (by rw [htm]; exact hg)
  · rename_i hopen
    by_cases hr : Runs (s.ipc p)
    · split
      · refine (h0.upd _).handleKernelId hc0 ?_ dest
        rw [Sys.upd_ipc, if_pos rfl]
        exact hruns hr
      · split
        · exact h0.returnIpc (hruns hr) _
        · exact h0.recvFrom hc0 _ _ _ (.inl (hruns hr))
    · have hp := hp.resolve_left hr
      have hg := hp.2.2.resolve_left hp.2.1
      rw [if_neg hopen] at hg
      rw [if_neg hg.1]
      split
      · rename_i hne
        refine absurd ?_ hne
        by_cases hd : tidToTcb dest = p
        · rw [hd, hmy, ← hd]; exact hg.2.1
        · rw [hoth _ hd]; exact hg.2.1
      · exact h0.recvFrom hc0 _ _ _ (.inr (.inr (by rw [htm]; exact hg.2.2)))

/-- The send phase, with what follows it. -/
lemma sendTransfer (h : OthersTidy p s) (hc : s.current = p) {dest : Tid} (hne : tidToTcb dest ≠ p)
    (sndDesc : Word) {rcvDesc : Word} (dope : Word)
    (hq : ¬isPolling (s.tcb (tidToTcb dest)).threadState)
    (hp : Runs (s.ipc p) ∨ sndDesc &&& 0xfffffffe ≠ 0 ∨ GoesOn s p dest rcvDesc) :
    AllTidy (sendTransfer s p dest sndDesc rcvDesc dope) := by
  have hruns : Runs (s.ipc p) ∨ sndDesc &&& 0xfffffffe ≠ 0 →
      Runs ((transferred s p (tidToTcb dest) sndDesc dope).ipc p) := fun hr => by
    unfold transferred transferMessage
    dsimp only
    split
    · rw [Sys.upd_ipc, if_neg hne.symm, Sys.upd_ipc, if_pos rfl]
      exact fun _ _ => rfl
    · rename_i hshort
      rw [Sys.upd_ipc, if_neg hne.symm, Sys.upd_ipc, if_neg hne.symm, Sys.upd_ipc, if_neg hne.symm]
      exact hr.resolve_right hshort
  have h2 : OthersTidy p (transferred s p (tidToTcb dest) sndDesc dope) := fun r hi hr => by
    by_cases hrq : r = tidToTcb dest
    · have h3 := congrArg Tcb.toIpcPart (transferred_receiver (s := s) sndDesc dope hne)
      rw [hrq, show (transferred s p (tidToTcb dest) sndDesc dope).ipc (tidToTcb dest) = _ from h3]
      exact h _ (hrq ▸ hi) (hrq ▸ hr)
    · rw [show (transferred s p (tidToTcb dest) sndDesc dope).ipc r = s.ipc r from
        congrArg Tcb.toIpcPart (transferred_other sndDesc dope hr hrq)]
      exact h r hi hr
  have hc2 : (transferred s p (tidToTcb dest) sndDesc dope).current = p :=
    (transferred_current sndDesc dope).trans hc
  have hg2 : GoesOn s p dest rcvDesc →
      GoesOn (transferred s p (tidToTcb dest) sndDesc dope) p dest rcvDesc :=
    fun hg => hg.transferred sndDesc dope hne rfl hq
  rw [show Hazelnut.sendTransfer s p dest sndDesc rcvDesc dope =
    if rcvDesc = noDesc then
      Hazelnut.switchTo (threadEnqueueReady
          ((transferred s p (tidToTcb dest) sndDesc dope).upd p fun t =>
        { t with threadState := .running }) p) (tidToTcb dest) .sendSwitch
    else Hazelnut.recvPhase (transferred s p (tidToTcb dest) sndDesc dope) p
      (some (tidToTcb dest)) dest
      rcvDesc from rfl]
  generalize transferred s p (tidToTcb dest) sndDesc dope = s2 at h2 hc2 hg2 hruns ⊢
  split
  · refine OthersTidy.switchTo (p := p) (TidyBut.enqueueReady (h2.upd _) p) ?_ _ (.inr ?_)
    · rw [current_enqueueReady]
      exact hc2
    · rw [ipc_enqueueReady, Sys.upd_ipc, if_pos rfl]
      exact fun _ _ => rfl
  · rename_i hrd
    refine h2.recvPhase hc2 _ ?_
    rcases hp with hp | hp | hp
    · exact .inl (hruns (.inl hp))
    · exact .inl (hruns (.inr hp))
    · exact .inr ⟨⟨_, rfl⟩, hrd, hg2 hp⟩

lemma sendPoll (h : OthersTidy p s) (hc : s.current = p) (hp : Runs (s.ipc p)) (dest : Tid)
    (sndDesc rcvDesc : Word) : AllTidy (sendPoll s p dest sndDesc rcvDesc) := by
  have hpoll : ∀ {s1 : Sys}, OthersTidy p s1 → s1.current = p → AllTidy (Hazelnut.switchTo
      ((threadEnqueueSend s1 (tidToTcb dest) p).upd p fun t => { t with threadState := .polling })
      .idle
      (.sendPoll dest sndDesc rcvDesc)) := fun h1 hc1 => by
    have h2 : OthersTidy p (threadEnqueueSend _ (tidToTcb dest) p) :=
      TidyBut.ctl h1 (sameCtl_enqueueSend _ _ _)
    refine (h2.upd _).switchTo ?_ _ (.inl (by simp [Plain]))
    rw [Sys.upd_current, (sameCtl_enqueueSend _ _ _).current]
    exact hc1
  unfold Hazelnut.sendPoll
  dsimp only
  split
  · exact h.returnIpc hp _
  · split
    · exact hpoll h hc
    · split
      · exact h.returnIpc hp _
      · exact hpoll (h.upd _).enqueueWakeup (by rw [current_enqueueWakeup]; exact hc)

/-- The system call. -/
lemma sysIpc (h : OthersTidy p s) (hi : Inv .none s) (hc : Calls s p) (hp : Runs (s.ipc p))
    (dest : Tid)
    (sndDesc rcvDesc dope : Word) : AllTidy (sysIpc s p dest sndDesc rcvDesc dope) := by
  unfold Hazelnut.sysIpc
  dsimp only
  split
  · exact h.recvPhase hc.current _ (.inl hp)
  · split
    · have h1 : OthersTidy p (s.upd p fun t => { t with partner := dest }) := h.upd _
      have hp1 : Runs ((s.upd p fun t => { t with partner := dest }).ipc p) := by
        rw [Sys.upd_ipc, if_pos rfl]
        exact hp
      obtain ⟨hi1, hc1⟩ := hi.setDest hc dest
      generalize s.upd p (fun t => { t with partner := dest }) = s1 at h1 hp1 hi1 hc1 ⊢
      split
      · exact h1.sendPoll hc1.current hp1 _ _ _
      · rename_i hcond
        have hw : (s1.ipc (tidToTcb dest)).threadState = .waiting :=
          (isWaiting_iff _).mp (not_not.mp (not_or.mp hcond).1)
        refine h1.sendTransfer hc1.current (fun he => hc1.not_waiting hi1 (he ▸ hw))
          _ _ ?_ (.inl hp1)
        rw [isPolling_iff, Sys.toIpcPart_tcb, hw]
        simp
    · exact h.returnIpc hp _

end OthersTidy

/-- Behind a send for which the thread has polled, it was a long message or the call goes on. -/
def PolledOk (s : Sys) (p : TcbPtr) : Prop :=
  ∀ dest sndDesc rcvDesc, (s.tcb p).cont = .sendPoll dest sndDesc rcvDesc →
    (s.tcb p).threadState ≠ .running → sndDesc &&& 0xfffffffe ≠ 0 ∨ GoesOn s p dest rcvDesc

/-- Going on. -/
lemma AllTidy.resume (h : AllTidy s) (hi : Inv .none s) (hr : Resumes s p)
    (hk : (s.ipc p).cont ≠ .user)
    (hok : PolledOk s p) (dope : Word) : AllTidy (resume s p dope) := by
  have hself := h p hr.existing.1 (fun h => h)
  have hu : OthersTidy p (s.upd p fun t => { t with cont := .user }) :=
    OthersTidy.upd (h.mono fun _ h => absurd h (fun h => h)) _
  have hrun : Runs (s.ipc p) → Runs ((s.upd p fun t => { t with cont := .user }).ipc p) := by
    rw [Sys.upd_ipc, if_pos rfl]
    exact id
  have hset : ∀ {s1 : Sys}, OthersTidy p s1 → ∀ t e, AllTidy (Hazelnut.returnIpcArgs
      (s1.upd p fun t => { t with threadState := .running }) p t e) := fun h1 t e => by
    refine (h1.upd _).returnIpcArgs ?_ t e
    rw [Sys.upd_ipc, if_pos rfl]
    exact fun _ _ => rfl
  unfold Hazelnut.resume
  dsimp only
  split
  · rename_i hc
    exact absurd hc hk
  · rename_i hc
    exact hu.returnIpc (hrun (hself (.inr (.inl hc)))) _
  · rename_i i hc
    refine (hu.upd _).returnIpcArgs ?_ _ _
    rw [Sys.upd_ipc, if_pos rfl]
    exact hrun (hself (.inr (.inr ⟨i, hc⟩)))
  · split
    · rename_i hst
      exact hu.returnIpc (hrun fun _ _ => hst) _
    · exact hset (TidyBut.dequeueWakeup hu p) _ _
  · exact hset hu _ _
  · split
    · rename_i hst
      exact hu.returnIpcArgs (hrun fun _ _ => hst) _ _
    · exact hset (TidyBut.dequeueWakeup hu p) _ _
  · rename_i dest sndDesc rcvDesc hc
    split
    · rename_i hst
      exact hu.returnIpc (hrun fun _ _ => hst) _
    · rename_i hst
      obtain ⟨hq, hne⟩ := hi.picked hr hc hst
      refine OthersTidy.sendTransfer (TidyBut.dequeueWakeup hu p) hr.current hne _ _ ?_ (.inr ?_)
      · show ¬isPolling ((s.upd p fun t => { t with cont := .user }).tcb
          (tidToTcb dest)).threadState
        rw [Sys.upd_tcb_other _ hne, isPolling_iff, Sys.toIpcPart_tcb, hq]
        simp
      · exact (hok dest sndDesc rcvDesc hc hst).imp id fun hg =>
          (hg.upd hne (f := fun t => { t with cont := .user })
            (by intro _; exact ⟨rfl, rfl, rfl, rfl⟩))

/-! ### Interrupts and the scheduler -/

namespace TidyBut

lemma dispatch (h : TidyBut D s) (hint : interruptible s) (r : TcbPtr) :
    TidyBut D (dispatchThread s r) := by
  unfold dispatchThread
  dsimp only
  split
  · exact h
  · split
    · exact h.switchUser hint _
    · split
      · have h1 : TidyBut D { s with
          prioQueue := Function.update s.prioQueue (s.tcb r).priority (some r) } := h
        exact h1.switchUser hint _
      · exact h.switchUser hint _

lemma reschedule (h : TidyBut D s) (hint : interruptible s)
    (hf : ((findNextThread s).map fun r => dispatchThread r.1 r.2) = some s') : TidyBut D s' := by
  obtain ⟨⟨s1, q⟩, h1, rfl⟩ := Option.map_eq_some_iff.mp hf
  have hs := (findNextThread_spec h1).1
  refine (h.same hs).dispatch ?_ q
  unfold interruptible
  rw [hs.current, hs.ipc]
  exact hint

lemma wakeUp (h : TidyBut D s) (q : TcbPtr) : TidyBut D (wakeUp s q) :=
  TidyBut.makeRunning ((h.dequeueWakeup q).mono fun _ h => .inl h)

lemma parseWakeup (now : BitVec 64) (l : List TcbPtr) (prio : Nat) (highest : Option TcbPtr)
    (h : TidyBut D s) (hint : interruptible s) :
    TidyBut D (parseWakeup now l prio highest s).1 ∧
        interruptible (parseWakeup now l prio highest s).1 := by
  refine parseWakeup_keeps
    (P := fun s => TidyBut D s ∧ interruptible s) (fun s q _ h => ⟨h.1.wakeUp q, ?_⟩) prio
    highest ⟨h, hint⟩
  unfold interruptible
  rw [wakeUp_current, wakeUp_cont]
  exact h.2

lemma timer (h : TidyBut D s) (hint : interruptible s) (ht : handleTimerInterrupt s = some s') :
    TidyBut D s' := by
  obtain ⟨now, s1, wake, s3, hrun, ⟨h3, -⟩, hcases⟩ := timer_cases ht
  have h1 := TidyBut.parseWakeup now s.wakeup (s.tcb s.current).priority none
    (show TidyBut D { s with clock := now } from h) hint
  rw [hrun] at h1
  have h4 := h1.1.same h3
  have hint3 : interruptible s3 := by
    unfold interruptible
    rw [h3.current, h3.ipc]
    exact h1.2
  rcases hcases with ⟨p, -, rfl⟩ | hres | rfl
  · exact h4.dispatch hint3 p
  · exact h4.reschedule hint3 hres
  · exact h4

lemma irq (h : TidyBut D s) (hint : interruptible s) (number : Nat) :
    TidyBut D (handleInterrupt s number) := by
  unfold handleInterrupt
  split
  · exact h
  · rename_i p hp
    dsimp only
    split
    · rename_i hw
      have hw : (s.ipc p).threadState = .waiting := (isWaiting_iff _).mp hw.1
      split
      · refine ((h.upd p fun _ h => h).upd p fun _ ht hplain h1 h2 => ?_).enqueueReady p
        have h3 := ht hplain h1 h2
        rw [Sys.upd_ipc, if_pos rfl] at h3
        exact absurd (hw.symm.trans h3) (by simp)
      · have h1 : SameIpc s (s.upd p fun t =>
            { t with intrPending := BitVec.ofNat 32 (number + 1) ||| irqInService }) :=
          (SameIpc.refl s).upd p (by intro _; rfl)
        generalize s.upd p _ = s1 at h1 ⊢
        have h2 : SameIpc s (if s.current = .idle then s1
            else threadEnqueueReady s1 s.current) := by
          split
          · exact h1
          · exact h1.trans (sameIpc_enqueueReady s1 _)
        generalize (if s.current = .idle then s1 else threadEnqueueReady s1 s.current) = s2 at h2 ⊢
        refine (h.same h2).switchUser ?_ p
        unfold interruptible
        rw [h2.current, h2.ipc]
        exact hint
    · exact h.upd p fun _ h => h

/-! ### Cancelling and deleting -/

lemma unwindIpc {n : Nat} (h : TidyBut D s) (hp : D p) (hu : unwindIpc n s p = some s') :
    TidyBut D s' := by
  induction n generalizing D s s' p with
  | zero => simp [Hazelnut.unwindIpc] at hu
  | succ n ih =>
      have hlocked : (s.ipc p).threadState = .lockedWaiting ∨
        (s.ipc p).threadState = .lockedRunning →
          TidyBut D s' := fun hst => by
        obtain ⟨e, -, he⟩ := unwindIpc_locked n hst
        have h1 : TidyBut D (markAborted s p) := (h.dequeueWakeup p).upd p fun hn => absurd hp hn
        rw [he] at hu
        obtain ⟨s2, h2, rfl⟩ := Option.map_eq_some_iff.mp hu
        refine TidyBut.returnIpc ?_ hp (.err e)
        split at h2
        · rw [Option.some.injEq] at h2
          exact h2 ▸ h1
        · -- the partner is untidy until it is set running
          obtain ⟨s3, h3, rfl⟩ := Option.map_eq_some_iff.mp h2
          exact TidyBut.makeRunning (ih (h1.mono fun _ h => .inl h) (.inr rfl) h3)
      rcases hst : (s.ipc p).threadState with _ | _ | _ | _ | _ | _ | _
      · rw [Hazelnut.unwindIpc, show ((threadDequeueWakeup s p).tcb p).threadState =
          .free from hst] at hu
        simp at hu
      · rw [unwindIpc_still n (.inl hst), Option.some.injEq] at hu
        exact hu ▸ h.dequeueWakeup p
      · rw [unwindIpc_polling n hst, Option.some.injEq] at hu
        exact hu ▸ ((h.dequeueWakeup p).ctl (sameCtl_dequeueSend _ _ _)).returnIpc hp _
      · exact hlocked (.inl hst)
      · exact hlocked (.inr hst)
      · rw [unwindIpc_still n (.inr hst), Option.some.injEq] at hu
        exact hu ▸ h.dequeueWakeup p
      · rw [unwindIpc_waiting n hst, Option.some.injEq] at hu
        exact hu ▸ (h.dequeueWakeup p).returnIpc hp _

lemma create (h : TidyBut D s) (tid : Tid) (space : Option Nat) (uip usp : Word) (pager : Tid)
    (prio : Nat) : TidyBut D
    (startThread (createTcb s tid space) (tidToTcb tid) uip usp pager prio) := by
  intro r hi hr
  rw [startThread_ipc]
  split
  · exact .of_running rfl
  · exact h r hi hr

end TidyBut

/-- The loop over the send queue of a dying thread meets threads of the deletion only. -/
lemma Inv.tidy_unwindSenders {d : Deletion} {n : Nat} (hi : Inv d s) (ht : TidyBut d.dead s)
    (hp : Existing s p) (hpn : p ≠ nilTcb) (hdy : d.dying p) (hall : ∀ q, Poller d s p q → d.dead q)
    (hu : Hazelnut.unwindSenders n s p = some s') : TidyBut d.dead s' := by
  induction n generalizing s with
  | zero => simp [Hazelnut.unwindSenders] at hu
  | succ n ih =>
      rw [Hazelnut.unwindSenders] at hu
      split at hu
      · rw [Option.some.injEq] at hu
        exact hu ▸ ht
      · rename_i q hq
        obtain ⟨s1, h1, h2⟩ := Option.bind_eq_some_iff.mp hu
        obtain ⟨hpoll, s1', hrun, hi1, hunw⟩ := hi.unwindHead hp hpn hdy hall hq
        rw [h1, Option.some.injEq] at hrun
        subst hrun
        exact ih hi1 (ht.unwindIpc (hall q hpoll) h1) ((hunw.existing_iff p).mpr hp)
          (fun r hr => hall r (hunw.poller p r hr)) h2

/-- The deletion of one thread of a task being deleted. -/
lemma Deletable.tidy {R : TcbPtr → Prop} (h : Deletable D R s p) (ht : TidyBut D s)
    (hf : Hazelnut.freeThread s p = some s') : TidyBut D (Hazelnut.freeTcb s' p) := by
  obtain ⟨s2, h2, rfl⟩ := Option.map_eq_some_iff.mp hf
  obtain ⟨s1, h1, h2⟩ := Option.bind_eq_some_iff.mp h2
  obtain ⟨s1', hrun1, hi1', hunw⟩ := h.unwound
  rw [h1, Option.some.injEq] at hrun1
  subst hrun1
  have ht2 : TidyBut D s2 := hi1'.tidy_unwindSenders (ht.unwindIpc h.dead h1)
    ((hunw.existing_iff p).mpr h.existing) h.ne_nil rfl
    (fun q hq => h.senders q (hunw.poller p q hq.relabel)) h2
  have ht3 := ht2.same (sameIpc_dequeueReady s2 p)
  exact TidyBut.upd (s := threadDequeuePresent (threadDequeueReady s2 p) p) ht3 p
    fun hn => absurd h.dead hn

/-- `sys_lthread_ex_regs`. -/
lemma AllTidy.exRegs (h : AllTidy s) {threadno uip usp : Word} {pager : Tid}
    (hs : sysLthreadExRegs s threadno uip usp pager = some s') : AllTidy s' := by
  unfold sysLthreadExRegs at hs
  dsimp only at hs
  generalize setThread (s.tcb s.current).myself threadno = tid at hs
  split at hs
  · split at hs
    · obtain ⟨s1, h1, rfl⟩ := Option.map_eq_some_iff.mp hs
      have h2 : OthersTidy (tidToTcb tid) s1 :=
        TidyBut.unwindIpc (h.mono fun _ h => absurd h (fun h => h)) rfl h1
      refine TidyBut.same (OthersTidy.done (h2.upd fun t => { t with threadState := .running }) ?_)
        (sameIpc_exchangeRegs _ _ _ _ _)
      rw [Sys.upd_ipc, if_pos rfl]
      exact .of_running rfl
    · rw [Option.some.injEq] at hs
      exact hs ▸ TidyBut.create h _ _ _ _ _ _
  · rw [Option.some.injEq] at hs
    exact hs ▸ TidyBut.same h (sameIpc_exchangeRegs _ _ _ _ _)

/-- `sys_task_new`. -/
lemma AllTidy.taskNew (h : AllTidy s) (hi : Inv .none s) {task pager : Tid} {uip usp : Word}
    (hok : TaskNewOk s task) (hs : sysTaskNew s task pager uip usp = some s') : AllTidy s' := by
  unfold sysTaskNew at hs
  unfold TaskNewOk at hok
  dsimp only at hs
  generalize setThread task 0 = task at hs hok
  split at hs
  · simp at hs
  · rename_i hk
    split at hs
    · rw [Option.some.injEq] at hs
      exact hs ▸ h
    · rename_i hne
      obtain ⟨s1, h1, rfl⟩ := Option.map_eq_some_iff.mp hs
      have h2 : AllTidy s1 := by
        split at h1
        · rename_i hex
          have hp : Existing s (tidToTcb task) := ⟨by simp [tidToTcb], hex⟩
          have hpn : tidToTcb task ≠ nilTcb := fun he => hk (tidTask_eq_of_tidToTcb he)
          have hcur : s.current ≠ .idle →
              tidTask (s.ipc s.current).myself ≠ tidTask (s.ipc (tidToTcb task)).myself :=
              fun _ he =>
            hne (by
              rw [Sys.toIpcPart_tcb, he]
              exact tidTask_eq_of_tidToTcb (hi.ident _ hp hpn).1)
          obtain ⟨s1', hrun, -, hex1, -⟩ := hi.deleteTask hp hpn hcur (hok hex)
          rw [show Hazelnut.deleteThreads (s.ipc (tidToTcb task)).space s.present s =
            some s1 from h1,
            Option.some.injEq] at hrun
          subst hrun
          have ht := (hi.deletion hp hpn hcur (hok hex)).invariant (P := TidyBut _)
            (fun hd ht h1 => hd.tidy ht h1) (h.mono fun _ h => absurd h (fun h => h)) h1
          intro r hri _
          by_cases hD : TaskOf s (tidToTcb task) r
          · -- the thread is gone
            refine fun _ hm => absurd ?_ hm
            by_contra hm
            exact ((hex1 r).mp ⟨hri, hm⟩).2 hD
          · exact ht r hri hD
        · rw [Option.some.injEq] at h1
          exact h1 ▸ h
      split
      · exact h2
      · exact TidyBut.create h2 _ _ _ _ _ _

/-! ### Runs -/

/-- A step without a wrong turn, behind which a thread that has polled is left clean. -/
def CleanOk (s : Sys) (e : Event) : Prop :=
  StepOk s e ∧ match e with
    | .resume _ _ => PolledOk s s.current
    | _ => True

/-- **One step** leaves all threads tidy. -/
lemma AllTidy.step (h : AllTidy s) (hi : Inv .none s) {e : Event} (hok : CleanOk s e)
    (hs : step s e = some s') : AllTidy s' := by
  cases e with
  | ipc dest sndDesc rcvDesc timeout w0 w1 w2 dope =>
      simp only [Hazelnut.step] at hs
      split at hs
      · rename_i hu
        rw [Option.some.injEq] at hs
        have h1 : SameIpc s (storeRegs s s.current timeout w0 w1 w2) :=
          (SameIpc.refl s).upd _ (by intro _; rfl)
        have h2 := TidyBut.same h h1
        refine hs ▸ OthersTidy.sysIpc (h2.mono fun _ h => absurd h (fun h => h)) (Inv.congr h1 hi)
          ((hi.calls hu).congr h1) ?_ _ _ _ _
        rw [h1.ipc]
        exact h _ hu.1 (fun h => h) (.inl hu.2)
      · simp at hs
  | exRegs threadno uip usp pager =>
      simp only [Hazelnut.step] at hs
      split at hs
      · exact h.exRegs hs
      · simp at hs
  | taskNew task pager uip usp =>
      simp only [Hazelnut.step] at hs
      split at hs
      · exact h.taskNew hi hok.1 hs
      · simp at hs
  | threadSwitch tid =>
      simp only [Hazelnut.step] at hs
      split at hs
      · rename_i hu
        have h1 := sameIpc_enqueueReady s s.current
        have h2 := TidyBut.same h h1
        have hint : interruptible (threadEnqueueReady s s.current) := by
          unfold interruptible
          rw [h1.current, h1.ipc]
          exact hu.2
        unfold sysThreadSwitch at hs
        dsimp only at hs
        split at hs
        · rw [Option.some.injEq] at hs
          exact hs ▸ h2.dispatch hint _
        · exact h2.reschedule hint hs
      · simp at hs
  | schedule param tid =>
      simp only [Hazelnut.step] at hs
      split at hs
      · rw [Option.some.injEq] at hs
        exact hs ▸ TidyBut.same h (sameIpc_schedule s param tid)
      · simp at hs
  | timer =>
      simp only [Hazelnut.step] at hs
      split at hs
      · exact TidyBut.timer h (by assumption) hs
      · simp at hs
  | irq number =>
      simp only [Hazelnut.step] at hs
      split at hs
      · rw [Option.some.injEq] at hs
        exact hs ▸ TidyBut.irq h (by assumption) number
      · simp at hs
  | resume dope =>
      simp only [Hazelnut.step] at hs
      split at hs
      · simp at hs
      · rename_i hint
        rw [Option.some.injEq] at hs
        exact hs ▸ h.resume hi (hi.resumes hint) hint hok.2 dope
  | idle =>
      simp only [Hazelnut.step] at hs
      split at hs
      · rename_i hidle
        refine TidyBut.reschedule h ?_ hs
        unfold interruptible
        rw [hidle]
        exact hi.idle_cont
      · simp at hs

lemma allTidy_initSys : AllTidy initSys := by
  refine TidyBut.create (TidyBut.create ?_ sigma0Id none 0 0 nilId 50) rootTaskId none
    0 0 sigma0Id 50
  intro r hi _ _ h1 h2
  have hr := nilSys_ipc r
  unfold nilSys at hr
  rw [hr] at h1 h2
  split_ifs at h1 h2 <;> simp [zeroTcb] at h1 h2

/-- **A clean thread** is running, and in neither the wakeup queue nor a send queue. -/
structure CleanThread (s : Sys) (p : TcbPtr) : Prop where
  running : (s.ipc p).threadState = .running
  not_wakeup : p ∉ s.wakeup
  not_send : ∀ t, Existing s t → ∃ l, SendRing s t l ∧ p ∉ l

/-- **Threads return clean**: in every state of a run without a wrong turn, every thread in user
mode is clean. -/
theorem returns_clean (h : RunBy CleanOk s) (hp : Existing s p) (hpn : p ≠ nilTcb)
    (hu : (s.ipc p).cont = .user) : CleanThread s p := by
  have hi := (h.reachableOk fun _ _ h => h.1).inv
  have ht : AllTidy s ∧ ReachableOk s := h.invariant (P := fun s => AllTidy s ∧ ReachableOk s)
    ⟨allTidy_initSys, .init⟩ fun s e s' hs hok hstep =>
      ⟨hs.1.step hs.2.inv hok hstep, hs.2.step e hok.1 hstep⟩
  refine ⟨ht.1 p hp.1 (fun h => h) (.inl hu) hp.2 (hi.ident p hp hpn).2.2, fun hw => ?_,
    fun t htx => ?_⟩
  · rcases (hi.wakeup p hw).2 with ⟨h1, h2⟩ | ⟨h1, -⟩
    · obtain ⟨-, -, -, sd, rd, hc⟩ := hi.polling p hp h1 h2
      simp [hu] at hc
    · rcases h1 with h1 | ⟨d, h1⟩ <;> simp [hu] at h1
  · obtain ⟨l, hl, hmem⟩ := hi.ring t htx
    refine ⟨l, hl, fun hm => ?_⟩
    obtain ⟨-, -, -, sd, rd, hc⟩ := hi.polling p hp ((hmem p).mp hm).polling (not_limbo_none s p)
    simp [hu] at hc

/-- The root task polls for sigma0 and waits for the reply, which comes. -/
def answeredRun : List Event :=
  [.idle, .ipc sigma0Id 0 0 0 1 2 3 0, .idle, .ipc nilId noDesc 1 0 0 0 0 0, .resume 0, .resume 0,
    .ipc rootTaskId 0 noDesc 0 4 5 6 0, .resume 0]

/-- A test for `PolledOk`: a thread that has polled goes on to wait for its receiver. -/
def waitsForReply (s : Sys) (p : TcbPtr) : Bool :=
  match (s.tcb p).cont with
  | .sendPoll dest _ rcvDesc => decide (rcvDesc &&& 1 ≠ 1 ∧ ¬isKernelId dest ∧
      (s.tcb (tidToTcb dest)).myself = dest ∧ (s.tcb p).ipcTimeout.rcvExp = 0)
  | _ => true

lemma PolledOk.of_test (h : waitsForReply s p = true) : PolledOk s p := by
  intro dest sndDesc rcvDesc hc _
  unfold waitsForReply at h
  rw [hc] at h
  obtain ⟨h1, h2, h3, h4⟩ := of_decide_eq_true h
  refine .inr (.inr ?_)
  rw [if_neg h1]
  exact ⟨h2, h3, fun hz => hz.1 h4⟩

/-- A call that blocks twice, and comes back, is such a run. -/
theorem returns_clean_answered : ∃ s, run initSys answeredRun = some s ∧ RunBy CleanOk s ∧
    (s.tcb (tidToTcb rootTaskId)).ret = some (.args sigma0Id 0 4 5 6) ∧
      CleanThread s (tidToTcb rootTaskId) := by
  obtain ⟨s, hs, hok, h1, h2, h3⟩ := exists_checkedRun CleanOk
    (fun s _ => waitsForReply s s.current) answeredRun (fun s e he hc => by
      have hpolled := PolledOk.of_test hc
      simp only [answeredRun, List.mem_cons, List.not_mem_nil, or_false] at he
      rcases he with rfl | rfl | rfl | rfl | rfl | rfl | rfl | rfl
      · exact ⟨trivial, trivial⟩
      · exact ⟨rfl, trivial⟩
      · exact ⟨trivial, trivial⟩
      · exact ⟨rfl, trivial⟩
      · exact ⟨rfl, hpolled⟩
      · exact ⟨rfl, hpolled⟩
      · exact ⟨rfl, trivial⟩
      · exact ⟨rfl, hpolled⟩)
    (P := fun s => (s.tcb (tidToTcb rootTaskId)).myself = rootTaskId ∧
      (s.tcb (tidToTcb rootTaskId)).cont = .user ∧
      (s.tcb (tidToTcb rootTaskId)).ret = some (.args sigma0Id 0 4 5 6)) (by decide +kernel)
  have hex : Existing s (tidToTcb rootTaskId) :=
    ⟨by decide, fun h => absurd (h1.symm.trans h) (by decide)⟩
  exact ⟨s, hs, hok, h3, returns_clean hok hex (by decide) h2⟩

/-- The root task polls for sigma0, and does not want to wait for the reply. -/
def lockedReturnRun : List Event :=
  [.idle, .ipc sigma0Id 0 0 0x0000000f 1 2 3 0, .idle, .ipc nilId noDesc 1 0 0 0 0 0, .resume 0]

/-- The root task returns to user mode while it is locked. -/
theorem returns_locked : ¬∀ s, Reachable s → ∀ p, Existing s p → p ≠ nilTcb →
    (s.ipc p).cont = .user → CleanThread s p := by
  intro hall
  obtain ⟨s, hs, h1, h2, h3⟩ := exists_run lockedReturnRun
    (P := fun s => (s.tcb (tidToTcb rootTaskId)).myself = rootTaskId ∧
      (s.tcb (tidToTcb rootTaskId)).cont = .user ∧
      (s.tcb (tidToTcb rootTaskId)).threadState = .lockedRunning) (by decide +kernel)
  have hc := hall s (Reachable.init.run hs) (tidToTcb rootTaskId)
    ⟨by decide, fun h => absurd (h1.symm.trans h) (by decide)⟩ (by decide) h2
  exact absurd (h3.symm.trans hc.running) (by decide)

end Hazelnut
