import Hazelnut.Thread.Invariant

/-!
The IPC system call keeps the invariant.

* `Inv.recvPhase`, `Inv.sendTransfer`, `Inv.sendNotReady`: the phases of `sys_ipc`, each
  from a state in which the running thread is in user mode as far as the rendezvous
  can tell.
* `Inv.sysIpc`: the whole call.
* `Inv.resume`: a thread that has been switched to goes on.
* `Inv.timer`, `Inv.irq`: interrupts; a timer interrupt only as long as it does not
  wake up a polling sender.
-/

namespace Hazelnut

variable {s : Sys} {p : TcbPtr}

/-- `p` is the running thread and has no IPC in progress. -/
structure Calls (s : Sys) (p : TcbPtr) : Prop where
  current : s.current = p
  existing : Existing s p
  ne_nil : p ≠ nilTcb
  cont : (s.ipc p).cont = .user

lemma Inv.calls (hi : Inv .none s) (hu : inUser s) : Calls s s.current := by
  rcases hi.current with h | h
  · exact absurd h hu.1
  · exact ⟨rfl, h.1, h.2.1, hu.2⟩

lemma Calls.congr {s' : Sys} (h : Calls s p) (hs : SameIpc s s') : Calls s' p :=
  ⟨hs.current.trans h.current, by rw [existing_congr hs.ipc]; exact h.existing, h.ne_nil,
    by rw [hs.ipc]; exact h.cont⟩

section Calls

variable (hi : Inv .none s) (hc : Calls s p)
include hi hc

lemma Calls.not_polling : (s.ipc p).threadState ≠ .polling := fun h =>
  (hi.polling p hc.existing h (not_limbo_none s p)).1 hc.current.symm

lemma Calls.not_waiting : (s.ipc p).threadState ≠ .waiting := fun h => by
  rcases hi.waiting p hc.existing h (not_limbo_none s p) with h | ⟨dst, h⟩ <;>
    simp [hc.cont] at h

lemma Calls.not_lockedWaiting : (s.ipc p).threadState ≠ .lockedWaiting := fun h => by
  simpa [hc.cont] using hi.lockedWaiting p hc.existing h

lemma Calls.not_target (x : TcbPtr) : ¬Sends s x (s.ipc p).myself :=
  hi.not_sends_of_state hc.existing hc.ne_nil (hc.not_lockedWaiting hi)

end Calls

/-- A change of the running thread alone. -/
lemma Inv.update_calls {s' : Sys} (hi : Inv .none s) (hc : Calls s p) {st : ThreadState} {pt : Tid}
    {c : Cont} (h : Change s s' p st pt c) (hlinks : SameLinks s s')
    (hnew : st ≠ .polling) (hfree : st ≠ .free) (hcont : ∀ dst sd rd, c ≠ .sendPoll dst sd rd)
    (hlw : st = .lockedWaiting → c = .recvReady) (hw : st = .waiting → Receiving c)
    (hwake : ∀ q ∈ s'.wakeup, q ∈ s.wakeup ∧ q ≠ p ∨ q = p ∧ Receiving c ∧ st ≠ .running)
    (hrv : st = .waiting → ∀ x, Poller .none s p x → pt ≠ nilId ∧ pt ≠ (s.ipc x).myself)
    (hcur : s'.current = .idle ∨ s'.current = p ∨ Runnable .none s s'.current) :
    Inv .none s' := by
  refine hi.update h hlinks hc.existing hc.ne_nil (Or.inl (hc.not_polling hi)) hnew hfree hcont hlw
    (fun he => Or.inl (hw he)) (hc.not_target hi) hwake hrv ?_
  rcases hcur with h1 | h1 | h1
  · exact Or.inl h1
  · exact Or.inr (Or.inl ⟨h1, fun h => h⟩)
  · exact Or.inr (Or.inr (Or.inr h1))

/-- The running thread is not in the wakeup queue. -/
lemma Calls.not_wakeup (hi : Inv .none s) (hc : Calls s p) : p ∉ s.wakeup := fun h => by
  rcases (hi.wakeup p h).2 with h1 | h1
  · exact hc.not_polling hi h1.1
  · rcases h1.1 with h1 | ⟨dst, h1⟩ <;> simp [hc.cont] at h1

/-! ### The receive phase -/

/-- `return_ipc` of a thread without an IPC in progress. -/
lemma sameIpc_returnIpc (hc : (s.ipc p).cont = .user) (r : IpcReturn) :
    SameIpc s (returnIpc s p r) := by
  refine ⟨funext fun q => ?_, rfl, rfl, rfl, rfl⟩
  rw [returnIpc, Sys.upd_ipc]
  split
  · rename_i hq; rw [hq, ← Sys.toIpcPart_tcb] at *; rw [← hc]
  · rfl

/-- Nothing the rendezvous depends on differs, except that `p` may have been put into
the wakeup queue. -/
structure SameBut (p : TcbPtr) (s s' : Sys) : Prop where
  ipc : s'.ipc = s.ipc
  current : s'.current = s.current
  present : s'.present = s.present
  nextSpace : s'.nextSpace = s.nextSpace
  wakeup : ∀ q ∈ s'.wakeup, q ∈ s.wakeup ∨ q = p

lemma SameIpc.sameBut {s' : Sys} (h : SameIpc s s') (p : TcbPtr) : SameBut p s s' :=
  ⟨h.ipc, h.current, h.present, h.nextSpace, fun _ hq => Or.inl (h.wakeup ▸ hq)⟩

lemma sameBut_enqueueWakeup (s : Sys) (p : TcbPtr) {f : Tcb → Tcb}
    (hf : ∀ t, (f t).toIpcPart = t.toIpcPart) :
    SameBut p s (threadEnqueueWakeup (s.upd p f) p) := by
  have h := (SameIpc.refl s).upd p hf
  refine ⟨?_, ?_, ?_, ?_, fun q hq => ?_⟩
  · rw [ipc_enqueueWakeup, h.ipc]
  · simp
  · simp
  · simp
  · simpa [or_comm] using hq

/-- The running thread waits. -/
lemma Inv.block {s1 : Sys} (hi : Inv .none s) (hc : Calls s p) (h1 : SameBut p s s1) {pt : Tid}
    {c : Cont} {x : TcbPtr} (hrec : Receiving c)
    (hrv : ∀ x, Poller .none s p x → pt ≠ nilId ∧ pt ≠ (s.ipc x).myself)
    (hx : x = .idle ∨ Runnable .none s x) :
    Inv .none
      (switchTo (s1.upd p fun t => { t with partner := pt, threadState := .waiting }) x c) := by
  have hcp : s1.current = p := h1.current.trans hc.current
  obtain ⟨hch, hl⟩ : _ ∧ _ :=
    Change.of_ipc s (switchTo (s1.upd p fun t => { t with partner := pt, threadState := .waiting })
    x c) p .waiting pt c
    (fun q => by
      rw [switchTo_ipc, Sys.upd_ipc, Sys.upd_current, hcp, ← h1.ipc]
      by_cases hq : q = p <;> simp [hq]) h1.present h1.nextSpace
  refine hi.update_calls hc hch hl (by simp) (by simp) ?_ (by simp) (fun _ => hrec) ?_
    (fun _ => hrv) ?_
  · rintro dst sd rd rfl
    rcases hrec with h | ⟨_, h⟩ <;> simp at h
  · intro q hq
    rcases h1.wakeup q hq with h | h
    · exact Or.inl ⟨h, fun he => hc.not_wakeup hi (he ▸ h)⟩
    · exact Or.inr ⟨h, hrec, by simp⟩
  · rcases hx with h | h
    · exact Or.inl h
    · exact Or.inr (Or.inr h)

/-- The waiting branch. -/
lemma Inv.recvBlock (hi : Inv .none s) (hc : Calls s p) {toTcb : Option TcbPtr} {pt : Tid}
    (hrv : ∀ x, Poller .none s p x → pt ≠ nilId ∧ pt ≠ (s.ipc x).myself)
    (hto : ∀ q, toTcb = some q → Runnable .none s q) : Inv .none (recvBlock s p toTcb pt) := by
  have hcur : toTcb.getD .idle = .idle ∨ Runnable .none s (toTcb.getD .idle) := by
    cases toTcb with
    | none => exact Or.inl rfl
    | some q => exact Or.inr (hto q rfl)
  unfold Hazelnut.recvBlock
  dsimp only
  split
  · exact hi.block hc ((SameIpc.refl s).sameBut p) (Or.inl rfl) hrv hcur
  · split
    · exact Inv.congr (sameIpc_returnIpc hc.cont _) hi
    · exact hi.block hc (sameBut_enqueueWakeup s p (by intro _; rfl)) (Or.inl rfl) hrv hcur

/-- What the branch does whose partner is ready to send. -/
lemma recvFromReady_eq {q : TcbPtr} (hcur : s.current = p) (toTcb : Option TcbPtr) :
    ∃ s2 : Sys, SameCtl (s.upd q fun t => { t with threadState := .lockedRunning }) s2 ∧
      SameLinks (threadDequeueSend s p q) s2 ∧
      (∀ r, (recvFromReady s p toTcb q).ipc r =
        if r = p then { s2.ipc p with threadState := .lockedWaiting, cont := .recvReady }
        else s2.ipc r) ∧
      (∀ r ∈ (recvFromReady s p toTcb q).wakeup, r ∈ s.wakeup ∧ r ≠ q) ∧
      (recvFromReady s p toTcb q).current = toTcb.getD q ∧
      (recvFromReady s p toTcb q).present = s.present ∧
      (recvFromReady s p toTcb q).nextSpace = s.nextSpace := by
  set s1 := threadEnqueueReady
    (s.upd q fun t => { t with threadState := .lockedRunning }) q with hs1
  have hs := sameIpc_enqueueReady (s.upd q fun t => { t with threadState := .lockedRunning }) q
  have hctl := sameCtl_dequeueSend s1 p q
  have hlinks : SameLinks s s1 := fun r => by
    rw [hs1, hs.ipc, Sys.upd_ipc]
    split
    · rename_i hr; rw [hr]; exact ⟨rfl, rfl, rfl⟩
    · exact ⟨rfl, rfl, rfl⟩
  have hc : (threadDequeueSend s1 p q).current = p := by
    rw [hctl.current, hs1, hs.current]; exact hcur
  refine ⟨threadDequeueSend s1 p q, ⟨?_, ?_, ?_, ?_, ?_, ?_, ?_, ?_, ?_, ?_⟩,
    hlinks.dequeueSend p q, ?_, ?_, rfl, ?_, ?_⟩
  · exact fun r => by rw [hctl.myself, hs1, hs.ipc]
  · exact fun r => by rw [hctl.threadState, hs1, hs.ipc]
  · exact fun r => by rw [hctl.partner, hs1, hs.ipc]
  · exact fun r => by rw [hctl.space, hs1, hs.ipc]
  · exact fun r => by rw [hctl.cont, hs1, hs.ipc]
  · exact fun r => by rw [hctl.timeslice, hs1, hs.ipc]
  · rw [hctl.wakeup, hs1, hs.wakeup]
  · rw [hctl.current, hs1, hs.current]
  · rw [hctl.present, hs1, hs.present]
  · rw [hctl.nextSpace, hs1, hs.nextSpace]
  · intro r
    simp only [recvFromReady, ← hs1, switchTo_ipc, ipc_dequeueWakeup, Sys.upd_ipc,
      current_dequeueWakeup, Sys.upd_current, hc]
    by_cases hr : r = p <;> simp [hr]
  · intro r hr
    simp only [recvFromReady, ← hs1, switchTo_wakeup, mem_dequeueWakeup, Sys.upd_wakeup,
      hctl.wakeup] at hr
    rw [hs1, hs.wakeup] at hr
    exact hr
  · simp only [recvFromReady, ← hs1, switchTo_present, present_dequeueWakeup, Sys.upd_present,
      hctl.present]
    rw [hs1, hs.present]; rfl
  · simp only [recvFromReady, ← hs1, switchTo_nextSpace, nextSpace_dequeueWakeup,
      Sys.upd_nextSpace, hctl.nextSpace]
    rw [hs1, hs.nextSpace]; rfl

/-- The partner is ready to send. -/
lemma Inv.recvFromReady (hi : Inv .none s) (hc : Calls s p) {toTcb : Option TcbPtr} {q : TcbPtr}
    (hq : Poller .none s p q) (hto : ∀ r, toTcb = some r → Runnable .none s r ∧ r ≠ p) :
    Inv .none (recvFromReady s p toTcb q) := by
  have hqp : q ≠ p := fun he => hc.not_polling hi (he ▸ hq.polling)
  have hqn := hi.poller_ne_nil hq
  -- first the receiver is locked, then the sender leaves the queue
  set s1 := { s.upd p fun t => { t with threadState := .lockedWaiting, cont := .recvReady } with
    current := toTcb.getD .idle } with hs1
  have hs1ipc : ∀ r, s1.ipc r =
      if r = p then
        { s.ipc p with
          threadState := .lockedWaiting, partner := (s.ipc p).partner, cont := .recvReady }
      else s.ipc r := fun r => by
    have h : s1.ipc r = (s.upd p fun t =>
      { t with threadState := .lockedWaiting, cont := .recvReady }).ipc r := rfl
    rw [h, Sys.upd_ipc]
    by_cases hr : r = p <;> simp [hr]
  obtain ⟨hch, hl⟩ := Change.of_ipc _ s1 _ _ _ _ hs1ipc rfl rfl
  have hi1 : Inv .none s1 := by
    refine hi.update_calls hc hch hl (by simp) (by simp) (by simp) (fun _ => rfl) (by simp) ?_
      (by simp) ?_
    · exact fun r hr => Or.inl ⟨hr, fun he => hc.not_wakeup hi (he ▸ hr)⟩
    · cases htc : toTcb with
      | none => exact Or.inl (by simp [hs1, htc])
      | some r => exact Or.inr (Or.inr (by simpa [hs1, htc] using (hto r htc).1))
  have hq1 : Poller .none s1 p q := (hch.poller_other hqp p).mpr hq
  obtain ⟨-, hpe, hpm, sd, rd, hqc⟩ := hi.polling q hq.existing hq.polling (not_limbo_none s q)
  obtain ⟨s2, hctl, hlinks, h3, hwake, hcur, hpr, hns⟩ := recvFromReady_eq (q := q) hc.current toTcb
  set s3 := Hazelnut.recvFromReady s p toTcb q with hs3
  have hmy := (hi.ident p hc.existing hc.ne_nil).1
  have hcont : (s.ipc q).cont = .sendPoll (s.ipc p).myself sd rd := by rw [hqc, hq.partner]
  have hpart := hq.partner
  have hchange : Change s1 s3 q .lockedRunning (s.ipc p).myself
      (.sendPoll (s.ipc p).myself sd rd) := by
    refine ⟨?_, ?_, ?_, ?_, ?_, ?_, hpr, hns⟩
    all_goals
      intro r
      rw [h3, hs1ipc]
    · by_cases hr : r = p <;> by_cases hr' : r = q <;> simp_all [hctl.myself, Sys.upd_ipc]
    · by_cases hr : r = p <;> by_cases hr' : r = q <;> simp_all [hctl.space, Sys.upd_ipc]
    · by_cases hr : r = p <;> by_cases hr' : r = q <;> simp_all [hctl.timeslice, Sys.upd_ipc]
    · by_cases hr : r = p <;> by_cases hr' : r = q <;> simp_all [hctl.threadState, Sys.upd_ipc]
    · by_cases hr : r = p <;> by_cases hr' : r = q <;> simp_all [hctl.partner, Sys.upd_ipc]
    · by_cases hr : r = p <;> by_cases hr' : r = q <;> simp_all [hctl.cont, Sys.upd_ipc]
  have hl3 : SameLinks (threadDequeueSend s1 p q) s3 := by
    refine (hl.dequeueSend p q).symm.trans (hlinks.trans fun r => ?_)
    rw [h3]
    by_cases hr : r = p
    · subst hr; simp
    · simp [hr]
  have hpe1 : Existing s1 p := (hch.existing_iff p).mpr hc.existing
  have hcur3 : p ≠ s3.current := by
    rw [hcur]
    cases htc : toTcb with
    | none => exact hqp.symm
    | some r => exact (hto r htc).2.symm
  refine hi1.unpoll hq1 hpe1 hc.ne_nil hchange hl3 (Or.inl (by simp)) (by simp) (by simp) (by simp)
    ?_ hwake ?_
  · rintro dst sd' rd' he
    obtain ⟨rfl, -, -⟩ : (s.ipc p).myself = dst ∧ _ := by simpa using he
    rw [hmy]
    refine Or.inr ⟨rfl, rfl, hpe1, hch.myself p, hch.state_self, hcur3, hqp.symm, fun x hx => ?_⟩
    by_cases hxp : x = p
    · subst hxp
      exact absurd (hch.state_self.symm.trans hx.state) (by simp)
    · exact hc.not_target hi x ((hch.sends_other hxp _).mp hx)
  · cases htc : toTcb with
    | none => exact Or.inr (Or.inl ⟨by rw [hcur, htc]; rfl, fun h => h⟩)
    | some r => exact Or.inr (Or.inr (Or.inl (by rw [hcur, hs1, htc]; rfl)))

lemma Runnable.congr {d : Deletion} {s' : Sys} {q : TcbPtr} (h : Runnable d s q)
    (hs : s'.ipc = s.ipc) : Runnable d s' q := by
  refine ⟨?_, h.ne_nil, h.live, ?_, fun x => ?_⟩
  · rw [existing_congr hs]; exact h.existing
  · rw [hs]; exact h.not_polling
  · rw [sends_congr hs, hs]; exact h.not_target x

/-- The open wait looks at the head of the send queue. -/
lemma Inv.recvFrom_open (hi : Inv .none s) (hc : Calls s p) {toTcb : Option TcbPtr} {rcvDesc : Word}
    (hto : ∀ r, toTcb = some r → Runnable .none s r ∧ r ≠ p) :
    Inv .none (recvFrom s p toTcb rcvDesc (s.ipc p).sendQueue) := by
  have h1 : SameIpc s (s.upd p fun t => { t with msgDesc := rcvDesc }) :=
    (SameIpc.refl s).upd p (by intro _; rfl)
  have hto1 := fun r hr => (hto r hr).1.congr h1.ipc
  obtain ⟨l, hl, hmem⟩ := hi.ring p hc.existing
  cases hq : (s.ipc p).sendQueue with
  | none =>
      refine (Inv.congr h1 hi).recvBlock (hc.congr h1) (fun x hx => ?_) hto1
      rw [poller_congr h1.ipc, ← hmem, hl.eq_nil_iff.mp hq] at hx
      simp at hx
  | some q =>
      have hql : Poller .none s p q := by
        rw [← hmem]
        exact List.mem_of_mem_head? (by rw [← hl.head, hq]; rfl)
      have hcond : ¬(¬isPolling (s.tcb q).threadState ∨ (s.tcb q).partner ≠ (s.tcb p).myself) := by
        simp [hql.polling, hql.partner]
      unfold recvFrom
      dsimp only
      rw [if_neg hcond]
      refine (Inv.congr h1 hi).recvFromReady (hc.congr h1) ?_ fun r hr => ⟨hto1 r hr, (hto r hr).2⟩
      rw [poller_congr h1.ipc]; exact hql

/-- The closed wait looks at the partner it names. -/
lemma Inv.recvFrom_closed (hi : Inv .none s) (hc : Calls s p) {toTcb : Option TcbPtr}
    {rcvDesc : Word}
    (ho : rcvDesc &&& 1 ≠ 1) {dest : Tid} (hd : (s.ipc (tidToTcb dest)).myself = dest)
    (hto : ∀ r, toTcb = some r → Runnable .none s r ∧ r ≠ p) :
    Inv .none (recvFrom s p toTcb rcvDesc (some (tidToTcb dest))) := by
  have h1 : SameIpc s (s.upd p fun t => { t with msgDesc := rcvDesc }) :=
    (SameIpc.refl s).upd p (by intro _; rfl)
  have hto1 := fun r hr => (hto r hr).1.congr h1.ipc
  obtain ⟨hq, hqn⟩ := hi.existing_of_myself hd
  unfold recvFrom
  dsimp only
  split
  · rename_i hcond
    refine (Inv.congr h1 hi).recvBlock (hc.congr h1) (fun x hx => ?_) hto1
    rw [poller_congr h1.ipc] at hx
    rw [h1.ipc]
    refine ⟨hq.2, fun he => ?_⟩
    obtain rfl := hi.myself_inj hq hx.existing hqn he
    exact hcond.elim (fun h => h (by simp [hx.polling])) fun h => h hx.partner
  · rename_i hcond
    obtain ⟨hpoll, hpart⟩ := not_or.mp hcond
    have hpoll := (isPolling_iff _).mp (not_not.mp hpoll)
    refine (Inv.congr h1 hi).recvFromReady (hc.congr h1) ?_ fun r hr => ⟨hto1 r hr, (hto r hr).2⟩
    rw [poller_congr h1.ipc]
    exact ⟨hq, hpoll.resolve_right (hi.not_free _ hq), not_not.mp hpart, not_limbo_none _ _⟩

/-- Waiting for an interrupt. -/
lemma Inv.kernelIdWait {s1 : Sys} (hi : Inv .none s) (hc : Calls s p) (h1 : SameBut p s s1)
    {dest : Tid} (hk : isKernelId dest) : Inv .none (kernelIdWait s1 p dest) := by
  refine hi.block hc h1 (Or.inr ⟨dest, rfl⟩) (fun x hx => ?_) (Or.inl rfl)
  have hid := hi.ident x hx.existing (hi.poller_ne_nil hx)
  split
  · exact ⟨by decide, hid.2.2.symm⟩
  · rename_i hd
    exact ⟨hd, fun he => hid.2.1 (he ▸ hk)⟩

/-- `return_ipc_args` of a thread without an IPC in progress. -/
lemma sameIpc_returnIpcArgs {s1 : Sys} (h : SameIpc s s1) (hc : Calls s p) (sender : Tid)
    (error : Word) : SameIpc s (returnIpcArgs s1 p sender error) :=
  h.trans (sameIpc_returnIpc (hc.congr h).cont _)

lemma Inv.ipcHandleKernelId (hi : Inv .none s) (hc : Calls s p) {dest : Tid}
    (hk : isKernelId dest) : Inv .none (ipcHandleKernelId s p dest) := by
  have howner : ∀ f, SameIpc s { s with interruptOwner := f } := fun f => ⟨rfl, rfl, rfl, rfl, rfl⟩
  unfold Hazelnut.ipcHandleKernelId
  dsimp only
  split
  · exact Inv.congr (sameIpc_returnIpcArgs ((SameIpc.refl s).upd p (by intro _; rfl)) hc _ _) hi
  · split
    · exact hi.kernelIdWait hc ((SameIpc.refl s).sameBut p) hk
    · split
      · split_ifs
        all_goals exact Inv.congr (sameIpc_returnIpcArgs (howner _) hc _ _) hi
      · exact hi.kernelIdWait hc (sameBut_enqueueWakeup s p (by intro _; rfl)) hk

/-- The running thread is made running and leaves for `q`. -/
lemma Inv.leave {s1 : Sys} (hi : Inv .none s) (hc : Calls s p) (h1 : SameIpc s s1) {c : Cont}
    {q : TcbPtr} (hcont : ∀ dst sd rd, c ≠ .sendPoll dst sd rd) (hq : Runnable .none s q) :
    Inv .none (switchTo (threadEnqueueReady
      (s1.upd p fun t => { t with threadState := .running }) p)
      q c) := by
  have hcp : s1.current = p := h1.current.trans hc.current
  obtain ⟨hch, hl⟩ := Change.of_ipc s
    (switchTo (threadEnqueueReady (s1.upd p fun t => { t with threadState := .running }) p) q c) p
    .running ((s.ipc p).partner) c
    (fun r => by
      rw [switchTo_ipc, ipc_enqueueReady, Sys.upd_ipc, current_enqueueReady, Sys.upd_current, hcp,
        ← h1.ipc]
      by_cases hr : r = p <;> simp [hr]) (by simpa using h1.present) (by simpa using h1.nextSpace)
  refine hi.update_calls hc hch hl (by simp) (by simp) hcont (by simp) (by simp) ?_ (by simp)
    (Or.inr (Or.inr hq))
  intro r hr
  have hr' : r ∈ s.wakeup := by simpa [h1.wakeup] using hr
  exact Or.inl ⟨hr', fun he => hc.not_wakeup hi (he ▸ hr')⟩

/-- **The receive phase** of `sys_ipc`. -/
lemma Inv.recvPhase (hi : Inv .none s) (hc : Calls s p) {toTcb : Option TcbPtr} {dest : Tid}
    {rcvDesc : Word} (hto : ∀ r, toTcb = some r → Runnable .none s r ∧ r ≠ p) :
    Inv .none (recvPhase s p toTcb dest rcvDesc) := by
  unfold Hazelnut.recvPhase
  dsimp only
  set s0 := if (s.tcb p).intrPending &&& irqInService ≠ 0 then
    s.upd p fun t => { t with intrPending := 0 } else s with hs0
  have h0 : SameIpc s s0 := by
    rw [hs0]; split
    · exact (SameIpc.refl s).upd p (by intro _; rfl)
    · exact SameIpc.refl s
  have hi0 := Inv.congr h0 hi
  have hc0 := hc.congr h0
  have hto0 : ∀ r, toTcb = some r → Runnable .none s0 r ∧ r ≠ p := fun r hr =>
    ⟨(hto r hr).1.congr h0.ipc, (hto r hr).2⟩
  clear_value s0
  split
  · rename_i ho
    split
    · have h1 : SameIpc s0 (s0.upd p fun t =>
          { t with intrPending := irqInService ||| (s0.tcb p).intrPending }) :=
        (SameIpc.refl s0).upd p (by intro _; rfl)
      cases htc : toTcb with
      | none => exact Inv.congr (sameIpc_returnIpcArgs (h1.upd p (by intro _; rfl)) hc0 _ _) hi0
      | some r => exact hi0.leave hc0 h1 (by simp) (hto0 r htc).1
    · exact hi0.recvFrom_open hc0 hto0
  · rename_i ho
    split
    · rename_i hk
      have h1 : SameIpc s0 (s0.upd p fun t => { t with msgDesc := 0 }) :=
        (SameIpc.refl s0).upd p (by intro _; rfl)
      exact (Inv.congr h1 hi0).ipcHandleKernelId (hc0.congr h1) hk
    · split
      · exact Inv.congr (sameIpc_returnIpc hc0.cont _) hi0
      · rename_i hd
        exact hi0.recvFrom_closed hc0 ho (by simpa using hd) hto0

/-! ### The send phase -/

/-- `q` is ready to receive from the running thread `p`. -/
structure Ready (s : Sys) (p q : TcbPtr) : Prop where
  existing : Existing s q
  ne_nil : q ≠ nilTcb
  ne : q ≠ p
  state : (s.ipc q).threadState = .waiting ∨ (s.ipc q).threadState = .lockedWaiting
  not_target : ∀ x, ¬Sends s x (s.ipc q).myself

lemma Ready.not_polling {q : TcbPtr} (h : Ready s p q) : (s.ipc q).threadState ≠ .polling := by
  rcases h.state with h | h <;> simp [h]

lemma Ready.runnable {q : TcbPtr} (h : Ready s p q) : Runnable .none s q :=
  ⟨h.existing, h.ne_nil, fun h => h, h.not_polling, h.not_target⟩

/-- The message is transferred. -/
lemma Inv.transferMessage (hi : Inv .none s) (hc : Calls s p) {q : TcbPtr} (hq : Ready s p q)
    (sd dope : Word) :
    Inv .none (transferMessage s p q sd dope) ∧ Calls (transferMessage s p q sd dope) p
      ∧ Ready (transferMessage s p q sd dope) p q := by
  unfold Hazelnut.transferMessage
  dsimp only
  split
  · set s0 := (threadDequeueWakeup (s.upd q fun t =>
      { t with w0 := (s.tcb p).w0, w1 := (s.tcb p).w1, w2 := (s.tcb p).w2 }) q).upd q
        fun t => { t with msgDesc := dope } with hs0
    have h0 : s0.ipc = s.ipc := by
      have h1 := (SameIpc.refl s).upd q (f := fun t =>
        { t with w0 := (s.tcb p).w0, w1 := (s.tcb p).w1, w2 := (s.tcb p).w2 }) (by intro _; rfl)
      rw [hs0, ((SameIpc.refl _).upd q (by intro _; rfl)).ipc, ipc_dequeueWakeup, h1.ipc]
    have hwake : ∀ r ∈ s0.wakeup, r ∈ s.wakeup := fun r hr =>
      ((mem_dequeueWakeup (s.upd q fun t =>
        { t with w0 := (s.tcb p).w0, w1 := (s.tcb p).w1, w2 := (s.tcb p).w2 }) q r).mp hr).1
    have hcur : s0.current = s.current := rfl
    have hpr : s0.present = s.present := rfl
    have hns : s0.nextSpace = s.nextSpace := rfl
    clear_value s0
    obtain ⟨hch, hl⟩ := Change.of_ipc s
      (s0.upd p fun t => { t with threadState := .running }) p .running ((s.ipc p).partner) .user
      (fun r => by
        rw [Sys.upd_ipc, ← h0, ← hc.cont]
        by_cases hr : r = p <;> simp [hr, h0]) hpr hns
    have hi1 : Inv .none (s0.upd p fun t => { t with threadState := .running }) := by
      refine hi.update_calls hc hch hl (by simp) (by simp) (by simp) (by simp) (by simp) ?_
        (by simp) (Or.inr (Or.inl (hcur.trans hc.current)))
      intro r hr
      exact Or.inl ⟨hwake r hr, fun he => hc.not_wakeup hi (he ▸ hwake r hr)⟩
    refine ⟨hi1, ⟨hcur.trans hc.current, (hch.existing_iff p).mpr hc.existing, hc.ne_nil,
        hch.cont_self⟩,
      ⟨(hch.existing_iff q).mpr hq.existing, hq.ne_nil, hq.ne, ?_, fun x hx => ?_⟩⟩
    · rw [hch.state_other hq.ne]; exact hq.state
    · rw [hch.myself] at hx
      by_cases hxp : x = p
      · subst hxp
        exact absurd (hch.state_self.symm.trans hx.state) (by simp)
      · exact hq.not_target x ((hch.sends_other hxp _).mp hx)
  · have h1 : SameIpc s ((s.upd q fun t =>
        { t with w0 := (s.tcb p).w0, w1 := (s.tcb p).w1, w2 := (s.tcb p).w2 }).upd q
        fun t => { t with msgDesc := 0 }) :=
      ((SameIpc.refl s).upd q (by intro _; rfl)).upd q (by intro _; rfl)
    refine ⟨Inv.congr h1 hi, hc.congr h1, ?_, hq.ne_nil, hq.ne, ?_, fun x => ?_⟩
    · rw [existing_congr h1.ipc]; exact hq.existing
    · rw [h1.ipc]; exact hq.state
    · rw [sends_congr h1.ipc, h1.ipc]; exact hq.not_target x

/-- The receiver learns who its partner is. -/
lemma Inv.setPartner (hi : Inv .none s) (hc : Calls s p) {q : TcbPtr} (hq : Ready s p q) {pt : Tid}
    (hpt : pt = (s.ipc p).myself) :
    Inv .none (s.upd q fun t => { t with partner := pt })
      ∧ Calls (s.upd q fun t => { t with partner := pt }) p
      ∧ Ready (s.upd q fun t => { t with partner := pt }) p q := by
  have hqp := hq.ne
  obtain ⟨hch, hl⟩ := Change.of_ipc s (s.upd q fun t => { t with partner := pt }) q
    ((s.ipc q).threadState) pt ((s.ipc q).cont) (fun r => by
      rw [Sys.upd_ipc]
      by_cases hr : r = q <;> simp [hr]) rfl rfl
  have hrec : (s.ipc q).threadState = .waiting → Receiving (s.ipc q).cont := fun h =>
    hi.waiting q hq.existing h (not_limbo_none s q)
  have hready := hi.lockedWaiting q hq.existing
  have hnc : ∀ dst sd rd, (s.ipc q).cont ≠ .sendPoll dst sd rd := by
    intro dst sd rd he
    rcases hq.state with h | h
    · rcases hrec h with h | ⟨_, h⟩ <;> simp [he] at h
    · simp [he] at *
      exact hready h
  have hnot : ∀ x dst, Sends (s.upd q fun t => { t with partner := pt }) x dst → Sends s x dst := by
    intro x dst hx
    by_cases hxq : x = q
    · subst hxq
      have := hx.state
      rw [hch.state_self] at this
      rcases hq.state with h | h <;> simp [h] at this
    · exact (hch.sends_other hxq dst).mp hx
  refine ⟨?_, ⟨hc.current, (hch.existing_iff p).mpr hc.existing, hc.ne_nil, ?_⟩,
    ⟨(hch.existing_iff q).mpr hq.existing, hq.ne_nil, hqp, ?_, fun x hx => ?_⟩⟩
  · refine hi.update hch hl hq.existing hq.ne_nil (Or.inl hq.not_polling) hq.not_polling
      (hi.not_free q hq.existing) hnc hready (fun h => Or.inl (hrec h)) hq.not_target
      ?_ ?_ (Or.inr (Or.inr (Or.inl rfl)))
    · intro r hr
      by_cases hrq : r = q
      · subst hrq
        exact Or.inr ⟨rfl, (hi.wakeup r hr).2.resolve_left fun h => hq.not_polling h.1⟩
      · exact Or.inl ⟨hr, hrq⟩
    · intro _ x hx
      rw [hpt]
      refine ⟨hc.existing.2, fun he => ?_⟩
      obtain rfl := hi.myself_inj hc.existing hx.existing hc.ne_nil he
      exact hc.not_polling hi hx.polling
  · rw [hch.cont_other hqp.symm]; exact hc.cont
  · rw [hch.state_self]; exact hq.state
  · rw [hch.myself] at hx
    exact hq.not_target x (hnot x _ hx)

/-- **The send phase** towards a receiver that is ready. -/
lemma Inv.sendTransfer (hi : Inv .none s) (hc : Calls s p) {dest : Tid}
    (hq : Ready s p (tidToTcb dest)) (sd rd dope : Word) :
    Inv .none (sendTransfer s p dest sd rd dope) := by
  obtain ⟨hi1, hc1, hq1⟩ := hi.transferMessage hc hq sd dope
  obtain ⟨hi2, hc2, hq2⟩ := hi1.setPartner hc1 hq1 rfl
  unfold Hazelnut.sendTransfer
  dsimp only
  split
  · exact hi2.leave hc2 (SameIpc.refl _) (by simp) hq2.runnable
  · refine hi2.recvPhase hc2 fun r hr => ?_
    obtain rfl : tidToTcb dest = r := by simpa using hr
    exact ⟨hq2.runnable, hq2.ne⟩

/-- The running thread enters the send queue of a receiver that is not ready. -/
lemma Inv.enqueue {s1 : Sys} (hi : Inv .none s) (hc : Calls s p) (h1 : SameBut p s s1) {dest : Tid}
    (hpart : (s.ipc p).partner = dest) (hd : (s.ipc (tidToTcb dest)).myself = dest)
    (hrv : (s.ipc (tidToTcb dest)).threadState = .waiting →
      (s.ipc (tidToTcb dest)).partner ≠ nilId ∧ (s.ipc (tidToTcb dest)).partner ≠ (s.ipc p).myself)
    (sd rd : Word) :
    Inv .none (switchTo ((threadEnqueueSend s1 (tidToTcb dest) p).upd p
      fun t => { t with threadState := .polling }) .idle (.sendPoll dest sd rd)) := by
  obtain ⟨hq, hqn⟩ := hi.existing_of_myself hd
  have hctl := sameCtl_enqueueSend s1 (tidToTcb dest) p
  have hlinks : SameLinks s s1 := fun r => by rw [h1.ipc]; exact ⟨rfl, rfl, rfl⟩
  have hcur : (threadEnqueueSend s1 (tidToTcb dest) p).current = p := by
    rw [hctl.current, h1.current, hc.current]
  have hipc : ∀ r, (switchTo ((threadEnqueueSend s1 (tidToTcb dest) p).upd p
      fun t => { t with threadState := .polling }) .idle (.sendPoll dest sd rd)).ipc r =
      if r = p then { (threadEnqueueSend s1 (tidToTcb dest) p).ipc p with
        threadState := .polling, cont := .sendPoll dest sd rd }
      else (threadEnqueueSend s1 (tidToTcb dest) p).ipc r := fun r => by
    rw [switchTo_ipc, Sys.upd_ipc, Sys.upd_current, hcur]
    by_cases hr : r = p <;> simp [hr]
  refine hi.poll (p := p) (tidToTcb dest) sd rd ⟨?_, ?_, ?_, ?_, ?_, ?_, ?_, ?_⟩
    ((hlinks.enqueueSend _ p).trans fun r => ?_) (fun x h => h) hc.existing hc.ne_nil hq hqn
    (hc.not_polling hi) (hc.not_target hi) hrv ?_ rfl
  · intro r
    rw [hipc]; by_cases hr : r = p <;> simp [hr, hctl.myself, h1.ipc]
  · intro r
    rw [hipc]; by_cases hr : r = p <;> simp [hr, hctl.space, h1.ipc]
  · intro r
    rw [hipc]; by_cases hr : r = p <;> simp [hr, hctl.timeslice, h1.ipc]
  · intro r
    rw [hipc]; by_cases hr : r = p <;> simp [hr, hctl.threadState, h1.ipc]
  · intro r
    rw [hipc]; by_cases hr : r = p <;> simp [hr, hctl.partner, h1.ipc, hpart, hd]
  · intro r
    rw [hipc]; by_cases hr : r = p <;> simp [hr, hctl.cont, h1.ipc, hd]
  · exact hctl.present.trans h1.present
  · exact hctl.nextSpace.trans h1.nextSpace
  · rw [hipc]; by_cases hr : r = p <;> simp [hr]
  · intro r hr
    have hr' : r ∈ s1.wakeup := hctl.wakeup ▸ hr
    rcases h1.wakeup r hr' with h | h
    · exact Or.inl ⟨h, fun he => hc.not_wakeup hi (he ▸ h)⟩
    · exact Or.inr h

/-- **The send phase** towards a receiver that is not ready. -/
lemma Inv.sendNotReady (hi : Inv .none s) (hc : Calls s p) {dest : Tid}
    (hpart : (s.ipc p).partner = dest) (hd : (s.ipc (tidToTcb dest)).myself = dest)
    (hrv : (s.ipc (tidToTcb dest)).threadState = .waiting →
      (s.ipc (tidToTcb dest)).partner ≠ nilId ∧ (s.ipc (tidToTcb dest)).partner ≠ (s.ipc p).myself)
    (sd rd : Word) : Inv .none (Hazelnut.sendPoll s p dest sd rd) := by
  unfold Hazelnut.sendPoll
  dsimp only
  split
  · exact Inv.congr (sameIpc_returnIpc hc.cont _) hi
  · split
    · exact hi.enqueue hc ((SameIpc.refl s).sameBut p) hpart hd hrv sd rd
    · split
      · exact Inv.congr (sameIpc_returnIpc hc.cont _) hi
      · exact hi.enqueue hc (sameBut_enqueueWakeup s p (by intro _; rfl)) hpart hd hrv sd rd

/-- The partner of the running thread, which matters only once it polls. -/
lemma Inv.setDest (hi : Inv .none s) (hc : Calls s p) (dest : Tid) :
    Inv .none (s.upd p fun t => { t with partner := dest })
      ∧ Calls (s.upd p fun t => { t with partner := dest }) p := by
  obtain ⟨hch, hl⟩ := Change.of_ipc s (s.upd p fun t => { t with partner := dest }) p
    ((s.ipc p).threadState) dest ((s.ipc p).cont) (fun r => by
      rw [Sys.upd_ipc]
      by_cases hr : r = p <;> simp [hr]) rfl rfl
  refine ⟨?_, hc.current, (hch.existing_iff p).mpr hc.existing, hc.ne_nil, ?_⟩
  · refine hi.update_calls hc hch hl (hc.not_polling hi) (hi.not_free p hc.existing)
      (by simp [hc.cont]) (fun h => absurd h (hc.not_lockedWaiting hi))
      (fun h => absurd h (hc.not_waiting hi)) ?_ (fun h => absurd h (hc.not_waiting hi))
      (Or.inr (Or.inl hc.current))
    exact fun r hr => Or.inl ⟨hr, fun he => hc.not_wakeup hi (he ▸ hr)⟩
  · rw [hch.cont_self]; exact hc.cont

/-- **The system call** keeps the invariant. -/
lemma Inv.sysIpc (hi : Inv .none s) (hc : Calls s p) (dest : Tid) (sd rd dope : Word) :
    Inv .none (sysIpc s p dest sd rd dope) := by
  unfold Hazelnut.sysIpc
  dsimp only
  split
  · exact hi.recvPhase hc (by simp)
  · split
    · rename_i hd
      have hd : (s.ipc (tidToTcb dest)).myself = dest := hd
      obtain ⟨hi1, hc1⟩ := hi.setDest hc dest
      have hst : ((s.upd p fun t => { t with partner := dest }).ipc (tidToTcb dest)).threadState
          = (s.ipc (tidToTcb dest)).threadState := by
        rw [Sys.upd_ipc]; split
        · rename_i h; rw [h]; rfl
        · rfl
      have hmy : ∀ r, ((s.upd p fun t => { t with partner := dest }).ipc r).myself
          = (s.ipc r).myself := fun r => by
        rw [Sys.upd_ipc]; split
        · rename_i h; rw [h]; rfl
        · rfl
      have hp1 : ((s.upd p fun t => { t with partner := dest }).ipc p).partner = dest := by
        rw [Sys.upd_ipc, if_pos rfl]
      have hd1 := (hmy (tidToTcb dest)).trans hd
      generalize s.upd p (fun t => { t with partner := dest }) = s1 at hi1 hc1 hst hmy hp1 hd1 ⊢
      split
      · rename_i hcond
        refine hi1.sendNotReady hc1 hp1 hd1 (fun hw => ?_) sd rd
        rcases hcond with h | h
        · exact absurd ((isWaiting_iff _).mpr hw) h
        · exact ⟨h.2, h.1⟩
      · rename_i hcond
        have hw := (isWaiting_iff _).mp (not_not.mp (not_or.mp hcond).1)
        obtain ⟨hq, hqn⟩ := hi1.existing_of_myself hd1
        refine hi1.sendTransfer hc1 ⟨hq, hqn, fun he => ?_, Or.inl hw, fun x => ?_⟩ sd rd dope
        · exact hc1.not_waiting hi1 (he ▸ hw)
        · exact hi1.not_sends_of_state hq hqn (by rw [Sys.toIpcPart_tcb] at hw; simp [hw])
    · exact Inv.congr (sameIpc_returnIpc hc.cont _) hi

/-! ### Going on inside the kernel -/

/-- A thread that has been switched to and is not in user mode. -/
structure Resumes (s : Sys) (p : TcbPtr) : Prop where
  current : s.current = p
  existing : Existing s p
  ne_nil : p ≠ nilTcb

lemma Inv.resumes (hi : Inv .none s) (hr : ¬interruptible s) : Resumes s s.current := by
  rcases hi.current with h | h
  · exact absurd (show (s.ipc s.current).cont = .user by rw [h]; exact hi.idle_cont) hr
  · exact ⟨rfl, h.1, h.2.1⟩

/-- The thread leaves the kernel, in a state that has nothing to do with IPC. -/
lemma Inv.finish (hi : Inv .none s) (hr : Resumes s p) (s' : Sys) (st : ThreadState)
    (h : ∀ q, s'.ipc q = if q = p then { s.ipc p with threadState := st, cont := .user }
    else s.ipc q)
    (hpr : s'.present = s.present) (hns : s'.nextSpace = s.nextSpace)
    (hst : st ≠ .polling ∧ st ≠ .free ∧ st ≠ .lockedWaiting ∧ st ≠ .waiting)
    (hwake : ∀ q ∈ s'.wakeup, q ∈ s.wakeup) (hp : p ∉ s'.wakeup)
    (hcur : s'.current = s.current) : Inv .none s' ∧ Calls s' p := by
  obtain ⟨hch, hl⟩ := Change.of_ipc _ s' _ _ ((s.ipc p).partner) _ h hpr hns
  have hpoll : (s.ipc p).threadState ≠ .polling := fun h =>
    (hi.polling p hr.existing h (not_limbo_none s p)).1 hr.current.symm
  refine ⟨hi.update hch hl hr.existing hr.ne_nil (Or.inl hpoll) hst.1 hst.2.1 (by simp)
    (fun h => absurd h hst.2.2.1) (fun h => absurd h hst.2.2.2) ?_
    (fun q hq => Or.inl ⟨hwake q hq, fun he => hp (he ▸ hq)⟩) (fun h => absurd h hst.2.2.2)
    (Or.inr (Or.inr (Or.inl hcur))),
    hcur.trans hr.current, (hch.existing_iff p).mpr hr.existing, hr.ne_nil, hch.cont_self⟩
  rw [← hr.current]
  exact fun x => hi.not_sends_current (by rw [hr.current]; exact hr.existing.1)

/-- A thread is in the wakeup queue only while it polls or receives. -/
lemma Inv.not_wakeup (hi : Inv .none s) (hr : Resumes s p)
    (h : ¬Receiving (s.ipc p).cont ∨ (s.ipc p).threadState = .running) : p ∉ s.wakeup :=
    fun hw => by
  rcases (hi.wakeup p hw).2 with h1 | h1
  · exact (hi.polling p hr.existing h1.1 h1.2).1 hr.current.symm
  · rcases h with h | h
    · exact h h1.1
    · exact h1.2 h

/-- The state of a thread that was switched to and neither sends nor receives. -/
lemma Inv.resume_state (hi : Inv .none s) (hr : Resumes s p) (h1 : ¬Receiving (s.ipc p).cont)
    (h2 : (s.ipc p).cont ≠ .recvReady) :
    (s.ipc p).threadState ≠ .polling ∧ (s.ipc p).threadState ≠ .free
      ∧ (s.ipc p).threadState ≠ .lockedWaiting ∧ (s.ipc p).threadState ≠ .waiting :=
  ⟨fun h => (hi.polling p hr.existing h (not_limbo_none s p)).1 hr.current.symm,
    hi.not_free p hr.existing, fun h => h2 (hi.lockedWaiting p hr.existing h),
    fun h => h1 (hi.waiting p hr.existing h (not_limbo_none s p))⟩

/-- A sender that has been picked goes on: its receiver is ready. -/
lemma Inv.resume_ready (hi : Inv .none s) (hr : Resumes s p) {dst : Tid} {sd rd : Word}
    (hcont : (s.ipc p).cont = .sendPoll dst sd rd) (hnr : (s.ipc p).threadState ≠ .running) :
    Inv .none (threadDequeueWakeup (s.upd p fun t => { t with cont := .user }) p) ∧
      Calls (threadDequeueWakeup (s.upd p fun t => { t with cont := .user }) p) p ∧
      Ready (threadDequeueWakeup (s.upd p fun t => { t with cont := .user }) p) p
          (tidToTcb dst) := by
  have hst : (s.ipc p).threadState = .lockedRunning := by
    have hnp := (hi.resume_state hr (by simp [Receiving, hcont]) (by simp [hcont])).1
    rcases hi.sendPoll p dst sd rd hr.existing hcont with h | h | h
    · exact absurd h hnp
    · exact h
    · exact absurd h hnr
  have hsends : Sends s p dst := ⟨hr.existing, hst, sd, rd, hcont⟩
  obtain ⟨-, hq, hqm, hqs, -⟩ := hi.locked p dst hsends
  have hqp : tidToTcb dst ≠ p := fun he => by rw [he, hst] at hqs; simp at hqs
  have hqn : tidToTcb dst ≠ nilTcb := fun he => by rw [he, hi.nil_state] at hqs; simp at hqs
  set s1 := threadDequeueWakeup (s.upd p fun t => { t with cont := .user }) p with hs1
  have hipc : ∀ q, s1.ipc q = if q = p then { s.ipc p with
      threadState := (s.ipc p).threadState, cont := .user } else s.ipc q := fun q => by
    rw [hs1, ipc_dequeueWakeup, Sys.upd_ipc]; rfl
  obtain ⟨hi1, hc1⟩ := hi.finish hr s1 _ hipc rfl rfl
    (hi.resume_state hr (by simp [Receiving, hcont]) (by simp [hcont]))
    (fun q hq => ((mem_dequeueWakeup _ p q).mp hq).1)
    (fun hq => ((mem_dequeueWakeup _ p p).mp hq).2 rfl) rfl
  have hmy : (s1.ipc (tidToTcb dst)).myself = dst := by rw [hipc, if_neg hqp]; exact hqm
  refine ⟨hi1, hc1, (hi1.existing_of_myself hmy).1, hqn, hqp, Or.inr ?_, fun x hx => ?_⟩
  · rw [hipc, if_neg hqp]; exact hqs
  · rw [hmy] at hx
    obtain ⟨hch, -⟩ := Change.of_ipc _ s1 _ _ ((s.ipc p).partner) _ hipc rfl rfl
    have hxp : x ≠ p := fun he => by
      subst he
      obtain ⟨_, _, h⟩ := hx.cont
      rw [hch.cont_self] at h
      simp at h
    exact hxp (hi.locked_unique x p dst ((hch.sends_other hxp dst).mp hx) hsends)

/-- **Going on** behind a switch keeps the invariant. -/
lemma Inv.resume (hi : Inv .none s) (hr : Resumes s p) (hk : (s.ipc p).cont ≠ .user) (dope : Word) :
    Inv .none (resume s p dope) := by
  have hu : ∀ q, (s.upd p fun t => { t with cont := .user }).ipc q =
      if q = p then { s.ipc p with threadState := (s.ipc p).threadState, cont := .user }
      else s.ipc q := fun q => by
    rw [Sys.upd_ipc]; rfl
  -- the two ways in which a receiver goes on
  have hrun : ∀ s1 : Sys, SameIpc (s.upd p fun t => { t with cont := .user }) s1 →
      (s.ipc p).threadState = .running → Inv .none s1 := fun s1 h1 hst => by
    refine (hi.finish hr s1 .running (fun q => ?_) h1.present h1.nextSpace (by simp)
      (fun q hq => h1.wakeup ▸ hq) ?_ h1.current).1
    · rw [h1.ipc, hu, hst]
    · rw [h1.wakeup]; exact hi.not_wakeup hr (Or.inr hst)
  have hgot : ∀ s1 : Sys, SameIpc ((threadDequeueWakeup (s.upd p fun t => { t with cont := .user })
      p).upd p fun t => { t with threadState := .running }) s1 → Inv .none s1 := fun s1 h1 => by
    refine (hi.finish hr s1 .running (fun q => ?_) h1.present h1.nextSpace (by simp)
      (fun q hq => ?_) (fun hq => ?_) h1.current).1
    · rw [h1.ipc, Sys.upd_part _ _ _ (fun t => { t with threadState := .running })
        (by intro _; rfl),
        ipc_dequeueWakeup, hu, hu]
      by_cases hq : q = p <;> simp [hq]
    · rw [h1.wakeup] at hq
      exact ((mem_dequeueWakeup _ p q).mp hq).1
    · rw [h1.wakeup] at hq
      exact ((mem_dequeueWakeup _ p p).mp hq).2 rfl
  have hus : ((s.upd p fun t => { t with cont := .user }).ipc p).cont = .user := by
    rw [hu, if_pos rfl]
  have hgotc : (((threadDequeueWakeup (s.upd p fun t => { t with cont := .user })
      p).upd p fun t => { t with threadState := .running }).ipc p).cont = .user := by
    rw [Sys.upd_part _ _ _ (fun t => { t with threadState := .running })
      (by intro _; rfl), if_pos rfl]
    exact hus
  -- a thread that was only switched away
  have hplain : ∀ s1 : Sys, SameIpc (s.upd p fun t => { t with cont := .user }) s1 →
      ¬Receiving (s.ipc p).cont → (s.ipc p).cont ≠ .recvReady → Inv .none s1 ∧ Calls s1 p :=
    fun s1 h1 hnr hnk => by
    refine hi.finish hr s1 _ (fun q => ?_) h1.present h1.nextSpace
      (hi.resume_state hr hnr hnk) (fun q hq => h1.wakeup ▸ hq) ?_ h1.current
    · rw [h1.ipc, hu]
    · rw [h1.wakeup]; exact hi.not_wakeup hr (Or.inl hnr)
  unfold Hazelnut.resume
  dsimp only
  cases hcont : (s.tcb p).cont with
  | user => exact absurd hcont hk
  | sendSwitch =>
      have hcont : (s.ipc p).cont = .sendSwitch := hcont
      exact (hplain _ (sameIpc_returnIpc hus _) (by simp [Receiving, hcont]) (by simp [hcont])).1
  | irqSwitch irq =>
      have hcont : (s.ipc p).cont = .irqSwitch irq := hcont
      have h1 := (SameIpc.refl (s.upd p fun t => { t with cont := .user })).upd p
        (f := fun t => { t with msgDesc := 0 }) (by intro _; rfl)
      exact (hplain _ (h1.trans (sameIpc_returnIpc (by rw [h1.ipc]; exact hus) _))
        (by simp [Receiving, hcont]) (by simp [hcont])).1
  | recvWait =>
      dsimp only
      split
      · exact hrun _ (sameIpc_returnIpc hus _) (by assumption)
      · exact hgot _ (sameIpc_returnIpc hgotc _)
  | kernelWait dst =>
      dsimp only
      split
      · exact hrun _ (sameIpc_returnIpc hus _) (by assumption)
      · exact hgot _ (sameIpc_returnIpc hgotc _)
  | recvReady =>
      have hcont : (s.ipc p).cont = .recvReady := hcont
      have hq : ∀ q, ((s.upd p fun t => { t with cont := .user }).upd p
          fun t => { t with threadState := .running }).ipc q =
          if q = p then { s.ipc p with threadState := .running, cont := .user } else s.ipc q := by
        intro q
        rw [Sys.upd_part _ _ _ (fun t => { t with threadState := .running }) (by intro _; rfl), hu,
          hu]
        by_cases hq : q = p <;> simp [hq]
      have hs := sameIpc_returnIpc (s := (s.upd p fun t => { t with cont := .user }).upd p
        fun t => { t with threadState := .running }) (p := p) (by rw [hq, if_pos rfl])
      have hnw := hi.not_wakeup hr (Or.inl (by simp [Receiving, hcont]))
      refine Inv.congr (hs _) (hi.finish hr _ .running hq ?_ ?_ (by simp) ?_ ?_ ?_).1
      · rfl
      · rfl
      · exact fun q hq => hq
      · exact hnw
      · rfl
  | sendPoll dst sd rd =>
      have hcont : (s.ipc p).cont = .sendPoll dst sd rd := hcont
      dsimp only
      split
      · exact hrun _ (sameIpc_returnIpc hus _) (by assumption)
      · rename_i hnr
        obtain ⟨hi1, hc1, hq⟩ := hi.resume_ready hr hcont hnr
        exact hi1.sendTransfer hc1 hq sd rd dope

end Hazelnut
