import Hazelnut.Thread.Preempt

/-!
Cancelling an IPC: `unwind_ipc` and its callers.

A thread whose IPC is unwound keeps its thread state; its callers overwrite it, or
delete the thread.  In between it is in limbo, so the lemmas are about a `Deletion`
to which the thread belongs; `sys_lthread_ex_regs` is the case of a deletion of one
thread that is then set running.

* `UnwindOk`: the partner recorded for a locked thread is the thread it is locked
  with.  `sys_ipc` does not record the partner when a receiver finds a sender
  polling, so this does not hold by itself.
* `Inv.unwindIpc`: unwinding a thread for which it holds.
* `Inv.exRegs`: `sys_lthread_ex_regs`.
-/

namespace Hazelnut

variable {d : Deletion} {s s' : Sys} {p q : TcbPtr}

/-- A thread that is running, and in its ready queue: to unwind it changes nothing. -/
structure Steady (s : Sys) (p : TcbPtr) : Prop where
  running : (s.ipc p).threadState = .running
  ready : (s.tcb p).queueReady = true

/-- The partner recorded for a thread that is locked is the one it is locked with, and
a receiver locked with it records nobody else, or still the thread of another task
that it sent to and that has gone on. -/
structure UnwindOk (s : Sys) (p : TcbPtr) : Prop where
  waiting : (s.ipc p).threadState = .lockedWaiting →
    Sends s (tidToTcb (s.ipc p).partner) (s.ipc p).myself
  running : (s.ipc p).threadState = .lockedRunning → isKernelId (s.ipc p).partner ∨
    Sends s p (s.ipc p).partner ∧ (isKernelId (s.ipc (tidToTcb (s.ipc p).partner)).partner ∨
      (s.ipc (tidToTcb (s.ipc p).partner)).partner = (s.ipc p).myself ∨
      Steady s (tidToTcb (s.ipc (tidToTcb (s.ipc p).partner)).partner) ∧
        (s.ipc (tidToTcb (s.ipc (tidToTcb (s.ipc p).partner)).partner)).space ≠ (s.ipc p).space)

/-! ### Relabelling -/

/-- The deletion in progress matters for threads that poll or wait only. -/
lemma Inv.relabel {d' : Deletion} (hi : Inv d s)
    (hl : ∀ q, Existing s q → (s.ipc q).threadState = .polling ∨ (s.ipc q).threadState = .waiting →
      (Limbo d' s q ↔ Limbo d s q))
    (hcur : s.current ≠ .idle → ¬d'.dead s.current)
    (hz : ∀ q, d'.rest q → Existing s q → Limbo d' s q → (s.ipc q).threadState = .polling →
      (¬Existing s (tidToTcb (s.ipc q).partner) ∨ d'.dying (tidToTcb (s.ipc q).partner))
      ∧ ∀ x t, ((s.ipc q).sendNext = some x ∨ (s.ipc q).sendPrev = some x) → Existing s t →
        Poller d s t x → d'.dying t) : Inv d' s := by
  have hpoll : ∀ t x, Poller d' s t x ↔ Poller d s t x := fun t x =>
    ⟨fun h => ⟨h.existing, h.polling, h.partner,
        fun hx => h.live ((hl x h.existing (Or.inl h.polling)).mpr hx)⟩,
      fun h => ⟨h.existing, h.polling, h.partner,
        fun hx => h.live ((hl x h.existing (Or.inl h.polling)).mp hx)⟩⟩
  refine ⟨hi.toWf, ?_, ?_, hi.sendPoll, hi.locked, hi.locked_unique, hi.lockedWaiting, ?_, ?_, ?_,
    ?_, ?_⟩
  · intro t ht
    obtain ⟨l, h1, h2⟩ := hi.ring t ht
    exact ⟨l, h1, fun x => (h2 x).trans (hpoll t x).symm⟩
  · exact fun x hx hs hnl => hi.polling x hx hs fun h => hnl ((hl x hx (Or.inl hs)).mpr h)
  · exact fun x hx hs hnl => hi.waiting x hx hs fun h => hnl ((hl x hx (Or.inr hs)).mpr h)
  · intro x hx
    obtain ⟨h1, h2⟩ := hi.wakeup x hx
    refine ⟨h1, h2.imp (fun h => ⟨h.1, fun hx => h.2 ((hl x h1 (Or.inl h.1)).mp hx)⟩) id⟩
  · rcases hi.current with h | h
    · exact Or.inl h
    · exact Or.inr ⟨h.1, h.2.1, hcur h.1.1⟩
  · exact fun x r hr hx => hi.rendezvous x r hr ((hpoll r x).mp hx)
  · intro x h1 h2 h3 h4
    obtain ⟨h5, h6⟩ := hz x h1 h2 h3 h4
    exact ⟨h5, fun y t hy ht hyt => h6 y t hy ht ((hpoll t y).mp hyt)⟩

/-- Taking a thread out of the wakeup queue. -/
lemma Inv.dequeueWakeup (hi : Inv d s) (p : TcbPtr) : Inv d (threadDequeueWakeup s p) := by
  have h : (threadDequeueWakeup s p).ipc = s.ipc := rfl
  refine ⟨hi.toWf.states (fun _ => rfl) (fun _ => rfl) (fun _ => rfl) rfl rfl rfl rfl
    fun _ => Or.inl rfl, ?_, ?_, ?_, ?_, ?_, ?_, ?_, ?_, ?_, ?_, ?_⟩
  all_goals
    simp only [existing_congr h, limbo_congr h, poller_congr h, sends_congr h, sendRing_congr h, h,
      current_dequeueWakeup]
  exacts [hi.ring, hi.polling, hi.sendPoll, hi.locked, hi.locked_unique, hi.lockedWaiting,
    hi.waiting, fun q hq => hi.wakeup q ((mem_dequeueWakeup s p q).mp hq).1, hi.current,
    hi.rendezvous, hi.zombie]

/-! ### Unlocking a pair -/

/-- **Unlocking**: a sender and the receiver that has picked it are both released. -/
lemma Inv.unlock {a b : TcbPtr} (hi : Inv d s) (hs : Sends s a (s.ipc b).myself)
    (hb : Existing s b) (hbn : b ≠ nilTcb) {sa : ThreadState} (hsa : sa = .running ∨ sa = .aborted)
    (hipc : ∀ r, s'.ipc r = if r = a then { s.ipc a with threadState := sa, cont := .user }
      else if r = b then { s.ipc b with threadState := .running, cont := .user } else s.ipc r)
    (hpr : s'.present = s.present) (hns : s'.nextSpace = s.nextSpace)
    (hwake : ∀ r ∈ s'.wakeup, r ∈ s.wakeup ∧ r ≠ a ∧ r ≠ b) (hcur : s'.current = s.current) :
    Inv d s' := by
  have hmy := (hi.ident b hb hbn).1
  have hbl : (s.ipc b).threadState = .lockedWaiting := by
    have := (hi.locked a _ hs).2.2.2.1
    rwa [hmy] at this
  have hab : a ≠ b := fun he => by
    have := hs.state
    rw [he, hbl] at this
    simp at this
  have han : a ≠ nilTcb := fun he => by
    have := hs.state
    rw [he, hi.nil_state] at this
    simp at this
  -- the sender first
  set s1 := threadDequeueWakeup
    (s.upd a fun t => { t with threadState := sa, cont := .user }) a with hs1
  have h1 : ∀ r, s1.ipc r = if r = a then
      { s.ipc a with threadState := sa, partner := (s.ipc a).partner, cont := .user }
          else s.ipc r :=
    fun r => by
      rw [hs1, ipc_dequeueWakeup,
        Sys.upd_part _ _ _ (fun t => { t with threadState := sa, cont := .user })
        (by intro _; rfl)]
  obtain ⟨hch, hl⟩ := Change.of_ipc _ s1 _ _ _ _ h1 rfl rfl
  have hi1 : Inv d s1 := by
    refine hi.update hch hl hs.existing han (Or.inl (by simp [hs.state])) ?_ ?_ (by simp) ?_ ?_ ?_
      (fun r hr => Or.inl ((mem_dequeueWakeup _ a r).mp hr)) ?_ (Or.inr (Or.inr (Or.inl rfl)))
    · rcases hsa with rfl | rfl <;> simp
    · rcases hsa with rfl | rfl <;> simp
    · rcases hsa with rfl | rfl <;> simp
    · rcases hsa with rfl | rfl <;> simp
    · exact fun x => hi.not_sends_of_state hs.existing han (by simp [hs.state])
    · rcases hsa with rfl | rfl <;> simp
  -- then the receiver, to which nobody sends any more
  have h2 : ∀ r, s'.ipc r = if r = b then { s1.ipc b with
      threadState := .running, partner := (s1.ipc b).partner, cont := .user }
      else s1.ipc r := fun r => by
    rw [hipc, h1, h1, if_neg hab.symm]
    by_cases hrb : r = b
    · simp [hrb, hab.symm]
    · simp [hrb]
  obtain ⟨hch2, hl2⟩ := Change.of_ipc _ s' _ _ _ _ h2 hpr hns
  refine hi1.update hch2 hl2 ((hch.existing_iff b).mpr hb) hbn (Or.inl ?_) (by simp) (by simp)
    (by simp) (by simp) (by simp) ?_ ?_ (by simp) (Or.inr (Or.inr (Or.inl hcur)))
  · rw [hch.state_other hab.symm, hbl]; simp
  · intro x hx
    rw [hch.myself] at hx
    have hxa : x ≠ a := fun he => by
      subst he
      have := hx.cont
      rw [hch.cont_self] at this
      simp at this
    exact hxa (hi.locked_unique x a _ ((hch.sends_other hxa _).mp hx) hs)
  · intro r hr
    obtain ⟨h3, h4, h5⟩ := hwake r hr
    exact Or.inl ⟨(mem_dequeueWakeup _ a r).mpr ⟨h3, h4⟩, h5⟩

/-! ### What `unwind_ipc` computes -/

section Compute

variable (n : Nat)

lemma unwindIpc_still (h : (s.ipc p).threadState = .running ∨ (s.ipc p).threadState = .aborted) :
    unwindIpc (n + 1) s p = some (threadDequeueWakeup s p) := by
  rw [unwindIpc]
  rcases h with h | h
  · rw [show ((threadDequeueWakeup s p).tcb p).threadState = .running from h]
  · rw [show ((threadDequeueWakeup s p).tcb p).threadState = .aborted from h]

lemma unwindIpc_waiting (h : (s.ipc p).threadState = .waiting) :
    unwindIpc (n + 1) s p =
      some (returnIpc (threadDequeueWakeup s p) p (.err (ipcErrCanceled ||| ipcErrRecv))) := by
  rw [unwindIpc, show ((threadDequeueWakeup s p).tcb p).threadState = .waiting from h]

lemma unwindIpc_polling (h : (s.ipc p).threadState = .polling) :
    unwindIpc (n + 1) s p = some (returnIpc (threadDequeueSend (threadDequeueWakeup s p)
      (tidToTcb (s.ipc p).partner) p) p (.err (ipcErrCanceled ||| ipcErrSend))) := by
  rw [unwindIpc, show ((threadDequeueWakeup s p).tcb p).threadState = .polling from h]
  rfl

/-- The thread leaves the wakeup queue and is marked, so that the unwinding of its
partner does not come back to it. -/
def markAborted (s : Sys) (p : TcbPtr) : Sys :=
  (threadDequeueWakeup s p).upd p fun t => { t with threadState := .aborted }

/-- The error words of an IPC that is aborted. -/
def IsAborted (e : Word) : Prop := e = ipcErrAborted ||| ipcErrRecv ∨
    e = ipcErrAborted ||| ipcErrSend

/-- One call for a locked thread, whatever the fuel. -/
lemma unwindIpc_isLocked (h : (s.ipc p).threadState = .lockedWaiting ∨
    (s.ipc p).threadState = .lockedRunning) :
    ∃ e, IsAborted e ∧ ∀ n, unwindIpc (n + 1) s p =
      (if isKernelId (s.ipc p).partner then some (markAborted s p)
        else (unwindIpc n (markAborted s p) (tidToTcb (s.ipc p).partner)).map fun s2 =>
          makeRunning s2 (tidToTcb (s.ipc p).partner)).map fun s2 => returnIpc s2 p (.err e) := by
  rcases h with h | h
  · refine ⟨_, .inl rfl, fun n => ?_⟩
    rw [unwindIpc, show ((threadDequeueWakeup s p).tcb p).threadState = .lockedWaiting from h]
    rfl
  · refine ⟨_, .inr rfl, fun n => ?_⟩
    rw [unwindIpc, show ((threadDequeueWakeup s p).tcb p).threadState = .lockedRunning from h]
    rfl

lemma unwindIpc_locked (h : (s.ipc p).threadState = .lockedWaiting ∨
    (s.ipc p).threadState = .lockedRunning) :
    ∃ e, IsAborted e ∧ unwindIpc (n + 1) s p =
      (if isKernelId (s.ipc p).partner then some (markAborted s p)
        else (unwindIpc n (markAborted s p) (tidToTcb (s.ipc p).partner)).map fun s2 =>
          makeRunning s2 (tidToTcb (s.ipc p).partner)).map fun s2 => returnIpc s2 p (.err e) := by
  obtain ⟨e, he, hn⟩ := unwindIpc_isLocked h
  exact ⟨e, he, hn n⟩

lemma markAborted_ipc (s : Sys) (p r : TcbPtr) : (markAborted s p).ipc r =
    if r = p then { s.ipc p with threadState := .aborted } else s.ipc r := by
  rw [markAborted, Sys.upd_part _ _ _ (fun t => { t with threadState := .aborted })
    (by intro _; rfl)]
  rfl

lemma mem_markAborted (s : Sys) (p r : TcbPtr) :
    r ∈ (markAborted s p).wakeup ↔ r ∈ s.wakeup ∧ r ≠ p := mem_dequeueWakeup s p r

lemma returnIpc_ipc (s : Sys) (p r : TcbPtr) (e : IpcReturn) : (returnIpc s p e).ipc r =
    if r = p then { s.ipc p with cont := .user } else s.ipc r := by
  rw [returnIpc, Sys.upd_part _ _ _ (fun t => { t with cont := .user }) (by intro _; rfl)]

/-- Two threads that are locked with each other: both end up in user mode, the partner
running, the thread itself running unless the partner recorded nobody. -/
lemma unwindIpc_pair (hqp : q ≠ p) (hpart : tidToTcb (s.ipc p).partner = q)
    (hk : ¬isKernelId (s.ipc p).partner)
    (hp : (s.ipc p).threadState = .lockedWaiting ∨ (s.ipc p).threadState = .lockedRunning)
    (hq : (s.ipc q).threadState = .lockedWaiting ∨ (s.ipc q).threadState = .lockedRunning)
    (hqq : isKernelId (s.ipc q).partner ∨ ¬isKernelId (s.ipc q).partner ∧
      (tidToTcb (s.ipc q).partner = p ∨ Steady s (tidToTcb (s.ipc q).partner))) :
    ∃ s' sp, unwindIpc (n + 3) s p = some s' ∧ (sp = .running ∨ sp = .aborted)
      ∧ (¬isKernelId (s.ipc q).partner → tidToTcb (s.ipc q).partner = p → sp = .running)
      ∧ (∀ r, s'.ipc r = if r = p then { s.ipc p with threadState := sp, cont := .user }
        else if r = q then { s.ipc q with threadState := .running, cont := .user } else s.ipc r)
      ∧ (∀ r ∈ s'.wakeup, r ∈ s.wakeup ∧ r ≠ p ∧ r ≠ q) ∧ s'.current = s.current
      ∧ s'.present = s.present ∧ s'.nextSpace = s.nextSpace := by
  obtain ⟨e, -, he⟩ := unwindIpc_locked (n + 2) hp
  rw [if_neg hk, hpart] at he
  have h1q : (markAborted s p).ipc q = s.ipc q := by rw [markAborted_ipc, if_neg hqp]
  obtain ⟨e', -, he'⟩ := unwindIpc_locked (s := markAborted s p)
    (p := q) (n + 1) (by rw [h1q]; exact hq)
  rw [h1q] at he'
  rcases hqq with hqk | ⟨hqk, hqp' | hc⟩
  · rw [if_pos hqk] at he'
    rw [he'] at he
    refine ⟨_, .aborted, he, Or.inr rfl, fun h => absurd hqk h, fun r => ?_, fun r hr => ?_, ?_, ?_,
      ?_⟩
    · by_cases hr : r = p
      · subst hr
        simp [returnIpc_ipc, markAborted_ipc, hqp.symm]
      · by_cases hrq : r = q
        · subst hrq
          simp [returnIpc_ipc, markAborted_ipc, hqp]
        · simp [returnIpc_ipc, markAborted_ipc, hr, hrq]
    · simp only [returnIpc, Sys.upd_wakeup, makeRunning_wakeup, mem_markAborted] at hr
      exact ⟨hr.1.1, hr.1.2, hr.2⟩
    · simp [returnIpc, markAborted]
    · simp [returnIpc, markAborted]
    · simp [returnIpc, markAborted]
  · have h2p : ((markAborted (markAborted s p) q).ipc p).threadState = .aborted := by
      rw [markAborted_ipc, if_neg hqp.symm, markAborted_ipc, if_pos rfl]
    rw [if_neg hqk, hqp', unwindIpc_still n (Or.inr h2p)] at he'
    rw [he'] at he
    refine ⟨_, .running, he, Or.inl rfl, fun _ _ => rfl, fun r => ?_, fun r hr => ?_, ?_, ?_, ?_⟩
    · by_cases hr : r = p
      · subst hr
        simp [returnIpc_ipc, markAborted_ipc, hqp.symm]
      · by_cases hrq : r = q
        · subst hrq
          simp [returnIpc_ipc, markAborted_ipc, hqp]
        · simp [returnIpc_ipc, markAborted_ipc, hr, hrq]
    · simp only [returnIpc, Sys.upd_wakeup, makeRunning_wakeup, mem_dequeueWakeup,
        mem_markAborted] at hr
      exact ⟨hr.1.1.1, hr.1.1.2, hr.1.2⟩
    · simp [returnIpc, markAborted]
    · simp [returnIpc, markAborted]
    · simp [returnIpc, markAborted]
  · -- the partner records a thread that has gone on
    obtain ⟨c, hcq⟩ : ∃ c, c = tidToTcb (s.ipc q).partner := ⟨_, rfl⟩
    rw [← hcq] at hc he'
    have hcp : c ≠ p := fun h => by
      have := hc.running
      rw [h] at this
      rcases hp with hp | hp <;> simp [hp] at this
    have hcq : c ≠ q := fun h => by
      have := hc.running
      rw [h] at this
      rcases hq with hq | hq <;> simp [hq] at this
    have h2c : ((markAborted (markAborted s p) q).ipc c).threadState = .running := by
      rw [markAborted_ipc, if_neg hcq, markAborted_ipc, if_neg hcp]
      exact hc.running
    rw [if_neg hqk, unwindIpc_still n (Or.inl h2c)] at he'
    rw [he'] at he
    refine ⟨_, .aborted, he, Or.inr rfl, fun _ h => ?_, fun r => ?_, fun r hr => ?_, ?_, ?_, ?_⟩
    · simp_all
    · by_cases hr : r = p
      · subst hr
        simp [returnIpc_ipc, markAborted_ipc, hqp.symm, hcp.symm]
      · by_cases hrq : r = q
        · subst hrq
          simp [returnIpc_ipc, markAborted_ipc, hqp, hcq.symm]
        · by_cases hrc : r = c
          · subst hrc
            simp [returnIpc_ipc, markAborted_ipc, hr, hrq, ← hc.running]
          · simp [returnIpc_ipc, markAborted_ipc, hr, hrq, hrc]
    · simp only [returnIpc, Sys.upd_wakeup, makeRunning_wakeup, mem_dequeueWakeup,
        mem_markAborted] at hr
      exact ⟨hr.1.1.1, hr.1.1.2, hr.1.2⟩
    · simp [returnIpc, markAborted]
    · simp [returnIpc, markAborted]
    · simp [returnIpc, markAborted]

/-- What each step of `unwind_ipc` keeps, `unwind_ipc` keeps. -/
lemma unwindIpc_keeps {P : Sys → Prop} (hw : ∀ {s p}, P s → P (threadDequeueWakeup s p))
    (hm : ∀ {s p}, P s → (s.ipc p).threadState = .lockedWaiting ∨
      (s.ipc p).threadState = .lockedRunning → P (markAborted s p))
    (hr : ∀ {s p e}, P s → P (returnIpc s p (.err e)))
    (hd : ∀ {s t p}, P s → P (threadDequeueSend s t p)) (hk : ∀ {s p}, P s → P (makeRunning s p))
    {n : Nat} (h : P s) (hu : unwindIpc n s p = some s') : P s' := by
  induction n generalizing s s' p with
  | zero => simp [unwindIpc] at hu
  | succ n ih =>
      have hlocked : (s.ipc p).threadState = .lockedWaiting ∨
        (s.ipc p).threadState = .lockedRunning →
          P s' := fun hst => by
        obtain ⟨e, -, he⟩ := unwindIpc_locked n hst
        rw [he] at hu
        obtain ⟨s2, h2, rfl⟩ := Option.map_eq_some_iff.mp hu
        refine hr ?_
        split at h2
        · exact Option.some.inj h2 ▸ hm h hst
        · obtain ⟨s3, h3, rfl⟩ := Option.map_eq_some_iff.mp h2
          exact hk (ih (hm h hst) h3)
      cases hst : (s.ipc p).threadState with
      | free =>
          rw [unwindIpc, show ((threadDequeueWakeup s p).tcb p).threadState = .free from hst] at hu
          simp at hu
      | running =>
          rw [unwindIpc_still n (Or.inl hst)] at hu
          exact Option.some.inj hu ▸ hw h
      | aborted =>
          rw [unwindIpc_still n (Or.inr hst)] at hu
          exact Option.some.inj hu ▸ hw h
      | waiting =>
          rw [unwindIpc_waiting n hst] at hu
          exact Option.some.inj hu ▸ hr (hw h)
      | polling =>
          rw [unwindIpc_polling n hst] at hu
          exact Option.some.inj hu ▸ hr (hd (hw h))
      | lockedWaiting => exact hlocked (Or.inl hst)
      | lockedRunning => exact hlocked (Or.inr hst)

/-- What `unwind_ipc` keeps, the loop over a send queue keeps. -/
lemma unwindSenders_keeps {P : Sys → Prop}
    (hP : ∀ {n s s' q}, P s → unwindIpc n s q = some s' → P s') {n : Nat} (h : P s)
    (hu : unwindSenders n s p = some s') : P s' := by
  induction n generalizing s with
  | zero => simp [unwindSenders] at hu
  | succ n ih =>
      rw [unwindSenders] at hu
      split at hu
      · exact Option.some.inj hu ▸ h
      · obtain ⟨s1, h1, h2⟩ := Option.bind_eq_some_iff.mp hu
        exact ih (hP h h1) h2

end Compute

namespace Steady

variable {c : TcbPtr} {n : Nat}

/-- An assignment to another thread, or to other fields. -/
lemma upd (h : Steady s c) (p : TcbPtr) {f : Tcb → Tcb}
    (hf : c = p → ∀ t, (f t).threadState = t.threadState ∧ (f t).queueReady = t.queueReady) :
    Steady (s.upd p f) c := by
  constructor
  · show ((s.upd p f).tcb c).threadState = .running
    unfold Sys.upd
    by_cases hc : c = p
    · subst hc; simp [(hf rfl _).1, h.running]
    · simp [hc, h.running]
  · unfold Sys.upd
    by_cases hc : c = p
    · subst hc; simp [(hf rfl _).2, h.ready]
    · simp [hc, h.ready]

lemma updPtr (h : Steady s c) (p : Option TcbPtr) {f : Tcb → Tcb}
    (hf : ∀ t, (f t).threadState = t.threadState ∧ (f t).queueReady = t.queueReady) :
    Steady (s.updPtr p f) c := by
  cases p with
  | none => exact h
  | some p => exact h.upd p fun _ => hf

lemma globals (h : Steady s c) (ht : s'.tcb = s.tcb) : Steady s' c := by
  refine ⟨?_, by rw [ht]; exact h.ready⟩
  show (s'.tcb c).threadState = .running
  rw [ht]
  exact h.running

lemma dequeueWakeup (h : Steady s c) (p : TcbPtr) : Steady (threadDequeueWakeup s p) c :=
  h.globals rfl

lemma returnIpc (h : Steady s c) (p : TcbPtr) (r : IpcReturn) : Steady (returnIpc s p r) c :=
  h.upd p fun _ => by simp

lemma dequeueSend (h : Steady s c) (t p : TcbPtr) : Steady (threadDequeueSend s t p) c := by
  unfold threadDequeueSend
  dsimp only
  split
  · exact h.upd t fun _ => by simp
  · refine Steady.updPtr (Steady.updPtr ?_ _ (by simp)) _ (by simp)
    split
    · exact h.upd t fun _ => by simp
    · exact h

lemma enqueueReady (h : Steady s c) (p : TcbPtr) : Steady (threadEnqueueReady s p) c := by
  unfold threadEnqueueReady
  split
  · exact h
  · rename_i hp
    refine Steady.globals (s := Sys.upd _ p fun t => { t with queueReady := true })
      (Steady.upd ?_ p fun hc => absurd h.ready (hc ▸ hp)) rfl
    split
    · exact ((h.upd p fun _ => by simp).updPtr _ (by simp)).upd _ fun _ => by simp
    · exact (h.upd p (f := fun t => { t with readyNext := some p, readyPrev := some p })
        fun _ => by simp).globals rfl

lemma dequeueReady (h : Steady s c) (hc : c ≠ p) : Steady (threadDequeueReady s p) c := by
  unfold threadDequeueReady
  split
  · dsimp only
    refine Steady.upd ?_ p fun he => absurd he hc
    split
    · exact h.globals rfl
    · refine Steady.updPtr (Steady.updPtr ?_ _ (by simp)) _ (by simp)
      split
      · exact h.globals rfl
      · exact h
  · exact h

lemma freeTcb (h : Steady s c) (hc : c ≠ p) : Steady (freeTcb s p) c :=
  (h.globals rfl : Steady (threadDequeuePresent s p) c).upd p fun he => absurd he hc

lemma makeRunning (h : Steady s c) (p : TcbPtr) : Steady (makeRunning s p) c := by
  refine Steady.enqueueReady ⟨?_, ?_⟩ p
  · show (Sys.tcb (s.upd p _) c).threadState = .running
    unfold Sys.upd
    by_cases hc : c = p
    · simp [hc]
    · simpa [hc] using h.running
  · unfold Sys.upd
    by_cases hc : c = p
    · subst hc; simpa using h.ready
    · simpa [hc] using h.ready

/-- Unwinding leaves a running thread in its ready queue. -/
lemma unwindIpc (h : Steady s c) (hu : unwindIpc n s p = some s') : Steady s' c :=
  unwindIpc_keeps (P := fun s => Steady s c) (fun h => h.dequeueWakeup _)
    (fun h hp => (h.dequeueWakeup _).upd _ fun he => by
      have := h.running
      rw [he] at this
      rcases hp with hp | hp <;> simp [hp] at this)
    (fun h => h.returnIpc _ _) (fun h => h.dequeueSend _ _) (fun h => h.makeRunning _) h hu

lemma unwindSenders (h : Steady s c) (hu : unwindSenders n s p = some s') : Steady s' c :=
  unwindSenders_keeps (P := fun s => Steady s c) (fun h hu => h.unwindIpc hu) h hu

end Steady

/-! ### What unwinding leaves alone -/

/-- Unwinding leads to a state in which nothing is locked, polling or waiting for a
timeout that was not so before, and those that still are have kept their partners. -/
structure Calmer (d : Deletion) (s s' : Sys) : Prop where
  myself : ∀ q, (s'.ipc q).myself = (s.ipc q).myself
  space : ∀ q, (s'.ipc q).space = (s.ipc q).space
  partner : ∀ q, (s'.ipc q).partner = (s.ipc q).partner
  present : s'.present = s.present
  nextSpace : s'.nextSpace = s.nextSpace
  current : s'.current = s.current
  wakeup : ∀ q ∈ s'.wakeup, q ∈ s.wakeup
  locked : ∀ q, (s'.ipc q).threadState = .lockedWaiting ∨ (s'.ipc q).threadState = .lockedRunning →
    (s.ipc q).threadState = (s'.ipc q).threadState
  sends : ∀ x y, Existing s x → x ≠ nilTcb → Sends s y (s.ipc x).myself →
    (s'.ipc x).threadState = .lockedWaiting ∨ (s'.ipc y).threadState = .lockedRunning →
    Sends s' y (s.ipc x).myself
  poller : ∀ t q, Poller d s' t q → Poller d s t q
  cont : ∀ q, (s'.ipc q).cont = (s.ipc q).cont ∨ (s'.ipc q).cont = .user

/-- The IPC of `p` has been unwound. -/
structure Unwound (d : Deletion) (s s' : Sys) (p : TcbPtr) : Prop extends Calmer d s s' where
  not_wakeup : p ∉ s'.wakeup
  state : (s'.ipc p).threadState ≠ .lockedWaiting ∧ (s'.ipc p).threadState ≠ .lockedRunning
  limbo : (s'.ipc p).threadState = .polling ∨ (s'.ipc p).threadState = .waiting → Limbo d s' p
  poller_iff : ∀ t q, Poller d s' t q ↔ Poller d s t q ∧ q ≠ p

namespace Calmer

lemma refl (d : Deletion) (s : Sys) : Calmer d s s :=
  ⟨fun _ => rfl, fun _ => rfl, fun _ => rfl, rfl, rfl, rfl, fun _ h => h, fun _ _ => rfl,
    fun _ _ _ _ h _ => h, fun _ _ h => h, fun _ => Or.inl rfl⟩

lemma existing_iff (h : Calmer d s s') (q : TcbPtr) : Existing s' q ↔ Existing s q := by
  rw [Existing, Existing, h.myself]

lemma trans {s'' : Sys} (h : Calmer d s s') (h' : Calmer d s' s'') : Calmer d s s'' := by
  refine ⟨fun q => (h'.myself q).trans (h.myself q), fun q => (h'.space q).trans (h.space q),
    fun q => (h'.partner q).trans (h.partner q), h'.present.trans h.present,
    h'.nextSpace.trans h.nextSpace, h'.current.trans h.current,
    fun q hq => h.wakeup q (h'.wakeup q hq), fun q hq => ?_, fun x y hx hxn hy hl => ?_,
    fun t q hq => h.poller t q (h'.poller t q hq), fun q => ?_⟩
  · have h1 := h'.locked q hq
    exact (h.locked q (by rw [h1]; exact hq)).trans h1
  · have h1 : Sends s' y (s.ipc x).myself := by
      refine h.sends x y hx hxn hy (hl.imp (fun h2 => ?_) fun h2 => ?_)
      · exact (h'.locked x (Or.inl h2)).trans h2
      · exact (h'.locked y (Or.inr h2)).trans h2
    rw [← h.myself x] at h1 ⊢
    exact h'.sends x y ((h.existing_iff x).mpr hx) hxn h1 hl
  · rcases h'.cont q with h1 | h1
    · exact (h.cont q).imp (fun h2 => h1.trans h2) (fun h2 => h1.trans h2)
    · exact Or.inr h1

/-- Those that are still locked can be unwound as well. -/
lemma unwindOk (h : Calmer d s s') (hi : Inv d s) (hsteady : ∀ c, Steady s c → Steady s' c)
    (hq : Existing s q) (hqn : q ≠ nilTcb) (hok : UnwindOk s q) : UnwindOk s' q := by
  constructor
  · intro hst
    have hst0 := (h.locked q (Or.inl hst)).trans hst
    rw [h.partner, h.myself]
    exact h.sends q _ hq hqn (hok.waiting hst0) (Or.inl hst)
  · intro hst
    have hst0 := (h.locked q (Or.inr hst)).trans hst
    rw [h.partner, h.partner, h.myself, h.space, h.space]
    refine (hok.running hst0).imp id fun ⟨h1, h2⟩ => ⟨?_, h2.imp id fun h2 => h2.imp id fun h2 =>
      ⟨hsteady _ h2.1, h2.2⟩⟩
    obtain ⟨-, h3, h4, h5, -⟩ := hi.locked q _ h1
    have hrn : tidToTcb (s.ipc q).partner ≠ nilTcb := fun he => by
      rw [he, hi.nil_state] at h5; simp at h5
    rw [← h4] at h1 ⊢
    exact h.sends _ q h3 hrn h1 (Or.inr hst)

end Calmer

/-- A change of one thread that nobody is locked with. -/
lemma Change.unwound {st : ThreadState} {c : Cont} (h : Change s s' p st (s.ipc p).partner c)
    (hst : st ≠ .lockedWaiting ∧ st ≠ .lockedRunning)
    (hlimbo : st = .polling ∨ st = .waiting → d.dead p ∧ c = .user)
    (hs : ∀ dst, ¬Sends s p dst) (hwake : ∀ q ∈ s'.wakeup, q ∈ s.wakeup ∧ q ≠ p)
    (hcur : s'.current = s.current) (hc : c = (s.ipc p).cont ∨ c = .user) : Unwound d s s' p := by
  have hpoll : ∀ t q, Poller d s' t q ↔ Poller d s t q ∧ q ≠ p := by
    intro t q
    by_cases hq : q = p
    · subst hq
      refine ⟨fun hp => ?_, fun hp => absurd rfl hp.2⟩
      exact absurd (h.limbo_self.mpr (hlimbo (Or.inl (h.state_self.symm.trans hp.polling)))) hp.live
    · rw [h.poller_other hq]
      exact ⟨fun hp => ⟨hp, hq⟩, fun hp => hp.1⟩
  refine ⟨⟨h.myself, h.space, fun q => ?_, h.present, h.nextSpace, hcur,
    fun q hq => (hwake q hq).1, ?_, ?_, fun t q hq => ((hpoll t q).mp hq).1, fun q => ?_⟩,
    fun hp => (hwake p hp).2 rfl, ?_, ?_, hpoll⟩
  · by_cases hq : q = p
    · rw [hq, h.partner_self]
    · exact h.partner_other hq
  · intro q hq
    have hqp : q ≠ p := fun he => by
      rw [he, h.state_self] at hq
      exact hq.elim hst.1 hst.2
    exact (h.state_other hqp).symm
  · intro x y _ _ hy _
    have hyp : y ≠ p := fun he => hs _ (he ▸ hy)
    exact (h.sends_other hyp _).mpr hy
  · by_cases hq : q = p
    · rw [hq, h.cont_self]; exact hc
    · exact Or.inl (h.cont_other hq)
  · rw [h.state_self]; exact hst
  · rw [h.state_self, h.limbo_self]; exact hlimbo

/-! ### Unwinding keeps the invariant -/

/-- The state after `unwind_ipc` of a polling thread. -/
lemma unwind_polling_change (s : Sys) (p t : TcbPtr) (e : IpcReturn) :
    Change s (returnIpc (threadDequeueSend (threadDequeueWakeup s p) t p) p e) p
        (s.ipc p).threadState (s.ipc p).partner .user
      ∧ SameLinks (threadDequeueSend s t p)
        (returnIpc (threadDequeueSend (threadDequeueWakeup s p) t p) p e)
      ∧ ∀ q ∈ (returnIpc (threadDequeueSend (threadDequeueWakeup s p) t p) p e).wakeup,
        q ∈ s.wakeup ∧ q ≠ p := by
  have hctl := sameCtl_dequeueSend (threadDequeueWakeup s p) t p
  have hl : SameLinks s (threadDequeueWakeup s p) := fun _ => ⟨rfl, rfl, rfl⟩
  refine ⟨⟨?_, ?_, ?_, ?_, ?_, ?_, hctl.present, hctl.nextSpace⟩,
    (hl.dequeueSend t p).trans fun q => ?_, fun q hq => ?_⟩
  · intro q; rw [returnIpc_ipc]; by_cases hq : q = p <;> simp [hq, hctl.myself]
  · intro q; rw [returnIpc_ipc]; by_cases hq : q = p <;> simp [hq, hctl.space]
  · intro q; rw [returnIpc_ipc]; by_cases hq : q = p <;> simp [hq, hctl.timeslice]
  · intro q; rw [returnIpc_ipc]; by_cases hq : q = p <;> simp [hq, hctl.threadState]
  · intro q; rw [returnIpc_ipc]; by_cases hq : q = p <;> simp [hq, hctl.partner]
  · intro q; rw [returnIpc_ipc]; by_cases hq : q = p <;> simp [hq, hctl.cont]
  · rw [returnIpc_ipc]; by_cases hq : q = p <;> simp [hq]
  · have hq : q ∈ (threadDequeueWakeup s p).wakeup := hctl.wakeup ▸ hq
    exact (mem_dequeueWakeup s p q).mp hq

/-- Unwinding a polling thread that has been unwound before: it is dequeued once more,
from the queue of a thread that is gone, along links that lead nowhere. -/
lemma Inv.unwind_zombie (hi : Inv d s) (hp : Existing s p) (hpn : p ≠ nilTcb)
    (hst : (s.ipc p).threadState = .polling) (hlimbo : Limbo d s p)
    (hgone : ¬Existing s (tidToTcb (s.ipc p).partner))
    (hlinks : ∀ x t, (s.ipc p).sendNext = some x ∨ (s.ipc p).sendPrev = some x → Existing s t →
      ¬Poller d s t x) (e : IpcReturn) :
    Inv d (returnIpc (threadDequeueSend (threadDequeueWakeup s p) (tidToTcb (s.ipc p).partner) p)
      p e) := by
  obtain ⟨hch, hl, hwake⟩ := unwind_polling_change s p (tidToTcb (s.ipc p).partner) e
  have hpoll := hch.poller_iff (d := d) (Or.inr hlimbo) (Or.inr ⟨hlimbo.1, rfl⟩)
  have hcur : (returnIpc (threadDequeueSend (threadDequeueWakeup s p)
      (tidToTcb (s.ipc p).partner) p) p e).current = s.current :=
    (sameCtl_dequeueSend (threadDequeueWakeup s p) _ p).current
  generalize returnIpc (threadDequeueSend (threadDequeueWakeup s p)
    (tidToTcb (s.ipc p).partner) p) p e = s' at hch hl hwake hpoll hcur ⊢
  refine hi.change hch hp hpn (by simp [hst]) ?_ (fun _ => Or.inl ⟨hlimbo.1, rfl⟩) (by simp)
    (by simp [hst]) (by simp [hst]) (fun x => hi.not_sends_of_state hp hpn (by simp [hst]))
    (fun q hq => Or.inl (hwake q hq)) (by simp [hst]) ?_ (Or.inr (Or.inr (Or.inl hcur))) ?_
  · intro t ht
    obtain ⟨l, h1, h2⟩ := hi.ring t ht
    have htne : t ≠ tidToTcb (s.ipc p).partner := fun he => hgone (he ▸ ht)
    refine ⟨l, hl.sendRing (sendRing_dequeue_other h1 htne ?_ ?_),
      fun q => (h2 q).trans (hpoll t q).symm⟩
    · exact fun x hx hm => hlinks x t (Or.inl hx) ht ((h2 x).mp hm)
    · exact fun x hx hm => hlinks x t (Or.inr hx) ht ((h2 x).mp hm)
  · intro _ r _ hr hm hrs
    -- the partner is gone, so no existing thread has its id
    have hrn : r ≠ nilTcb := fun he => by rw [he, hi.nil_state] at hrs; simp at hrs
    rw [← hm, (hi.ident r hr hrn).1] at hgone
    exact absurd hr hgone
  · intro q hrest hq hql hqs
    have hlq : Limbo d s q ∧ (s.ipc q).threadState = .polling := by
      by_cases hqp : q = p
      · exact hqp ▸ ⟨hlimbo, hst⟩
      · exact ⟨(hch.limbo_iff hqp).mp hql, hch.state_other hqp ▸ hqs⟩
    obtain ⟨h1, h2⟩ := hi.zombie q hrest hq hlq.1 hlq.2
    have hpart : (s'.ipc q).partner = (s.ipc q).partner := by
      by_cases hqp : q = p
      · rw [hqp, hch.partner_self]
      · exact hch.partner_other hqp
    rw [hpart, (hl q).2.1, (hl q).2.2]
    refine ⟨h1, fun x t hx ht hxt => ?_⟩
    have hxt := (hpoll t x).mp hxt
    by_cases hself : (s.ipc p).sendNext = some p
    · have hd := (dequeueSend_self (t := tidToTcb (s.ipc p).partner) hself q).2
      rw [hd.1, hd.2] at hx
      exact h2 x t hx ht hxt
    · have hd := (dequeueSend_links (t := tidToTcb (s.ipc p).partner) hself q).2
      rw [hd.1, hd.2] at hx
      rcases hx with hx | hx
      · split at hx
        · exact absurd hxt (hlinks x t (Or.inl hx) ht)
        · exact h2 x t (Or.inl hx) ht hxt
      · split at hx
        · exact absurd hxt (hlinks x t (Or.inr hx) ht)
        · exact h2 x t (Or.inr hx) ht hxt

/-- Ids in the same TCB belong to the same task. -/
lemma tidTask_eq_of_tidToTcb {a b : Tid} (h : tidToTcb a = tidToTcb b) : tidTask a = tidTask b := by
  have h0 : a.extractLsb' 10 14 = b.extractLsb' 10 14 := by simpa [tidToTcb] using h
  have key : ∀ x : Tid, tidTask x = (x.extractLsb' 10 14).extractLsb' 6 8 := by
    intro x
    unfold tidTask
    ext i hi
    simp only [BitVec.getElem_extractLsb', BitVec.getLsbD_extractLsb']
    rw [show 10 + (6 + i) = 16 + i by omega]
    simp [show 6 + i < 14 by omega]
  rw [key, key, h0]

/-- Unlocking a pair unwinds either of the two. -/
lemma Inv.unwound_pair {a b : TcbPtr} (hi : Inv d s) (hs : Sends s a (s.ipc b).myself)
    (hb : Existing s b) (hbn : b ≠ nilTcb) {sa : ThreadState} (hsa : sa = .running ∨ sa = .aborted)
    (hipc : ∀ r, s'.ipc r = if r = a then { s.ipc a with threadState := sa, cont := .user }
      else if r = b then { s.ipc b with threadState := .running, cont := .user } else s.ipc r)
    (hpr : s'.present = s.present) (hns : s'.nextSpace = s.nextSpace)
    (hwake : ∀ r ∈ s'.wakeup, r ∈ s.wakeup ∧ r ≠ a ∧ r ≠ b) (hcur : s'.current = s.current)
    (hp : p = a ∨ p = b) : Unwound d s s' p := by
  have hbl : (s.ipc b).threadState = .lockedWaiting := by
    have := (hi.locked a _ hs).2.2.2.1
    rwa [(hi.ident b hb hbn).1] at this
  have hab : b ≠ a := fun he => by
    have := hs.state
    rw [← he, hbl] at this
    simp at this
  have hsta : (s'.ipc a).threadState = sa := by rw [hipc, if_pos rfl]
  have hstb : (s'.ipc b).threadState = .running := by rw [hipc, if_neg hab, if_pos rfl]
  have hoth : ∀ r, r ≠ a → r ≠ b → s'.ipc r = s.ipc r := fun r h1 h2 => by
    rw [hipc, if_neg h1, if_neg h2]
  have hnew : ∀ r, r = a ∨ r = b →
      (s'.ipc r).threadState = .running ∨ (s'.ipc r).threadState = .aborted := by
    rintro r (rfl | rfl)
    · rw [hsta]; exact hsa
    · exact Or.inl hstb
  have hold : ∀ r, r = a ∨ r = b → (s.ipc r).threadState ≠ .polling := by
    rintro r (rfl | rfl)
    · simp [hs.state]
    · simp [hbl]
  have hsame : ∀ r, (s'.ipc r).myself = (s.ipc r).myself ∧ (s'.ipc r).space = (s.ipc r).space
      ∧ (s'.ipc r).partner = (s.ipc r).partner := fun r => by
    rw [hipc]
    by_cases h1 : r = a
    · simp [h1]
    · by_cases h2 : r = b
      · simp [h2, hab]
      · simp [h1, h2]
  have hpoll : ∀ t q, Poller d s' t q ↔ Poller d s t q ∧ q ≠ p := by
    intro t q
    by_cases hq : q = a ∨ q = b
    · refine ⟨fun h => ?_, fun h => absurd h.1.polling (hold q hq)⟩
      have := h.polling
      rcases hnew q hq with h' | h' <;> simp [h'] at this
    · have hqe := hoth q (fun h => hq (Or.inl h)) fun h => hq (Or.inr h)
      have hqp : q ≠ p := fun he => hq (he ▸ hp)
      constructor
      · rintro ⟨h1, h2, h3, h4⟩
        rw [hqe] at h2 h3
        rw [(hsame t).1] at h3
        exact ⟨⟨⟨h1.1, by rw [← hqe]; exact h1.2⟩, h2, h3, by rw [Limbo, ← hqe]; exact h4⟩, hqp⟩
      · rintro ⟨⟨h1, h2, h3, h4⟩, -⟩
        refine ⟨⟨h1.1, by rw [hqe]; exact h1.2⟩, by rw [hqe]; exact h2, ?_, ?_⟩
        · rw [hqe, (hsame t).1]; exact h3
        · rw [Limbo, hqe]; exact h4
  refine ⟨⟨fun r => (hsame r).1, fun r => (hsame r).2.1, fun r => (hsame r).2.2, hpr, hns, hcur,
    fun r hr => (hwake r hr).1, ?_, ?_, fun t q hq => ((hpoll t q).mp hq).1, fun r => ?_⟩, ?_, ?_,
    ?_,
    hpoll⟩
  · intro q hq
    have hne : ¬(q = a ∨ q = b) := fun he => by
      rcases hnew q he with h | h <;> simp [h] at hq
    rw [hoth q (fun h => hne (Or.inl h)) fun h => hne (Or.inr h)]
  · intro x y hx hxn hy hlock
    have hya : y ≠ a := fun he => by
      subst he
      obtain ⟨_, _, h1⟩ := hy.cont
      obtain ⟨_, _, h2⟩ := hs.cont
      rw [h1] at h2
      have hxb : (s.ipc x).myself = (s.ipc b).myself := by
        have := h2
        simp only [Cont.sendPoll.injEq] at this
        exact this.1
      obtain rfl := hi.myself_inj hx hb hxn hxb
      rcases hlock with h | h
      · simp [hstb] at h
      · rcases hnew y (Or.inl rfl) with h' | h' <;> simp [h'] at h
    have hyb : y ≠ b := fun he => by
      have := hy.state
      rw [he, hbl] at this
      simp at this
    exact ⟨⟨hy.existing.1, by rw [hoth y hya hyb]; exact hy.existing.2⟩,
      by rw [hoth y hya hyb]; exact hy.state, by rw [hoth y hya hyb]; exact hy.cont⟩
  · rw [hipc]
    by_cases h1 : r = a
    · exact Or.inr (by simp [h1])
    · by_cases h2 : r = b
      · exact Or.inr (by simp [h2, hab])
      · exact Or.inl (by simp [h1, h2])
  · intro h
    rcases hp with rfl | rfl
    · exact (hwake _ h).2.1 rfl
    · exact (hwake _ h).2.2 rfl
  · rcases hnew p hp with h | h <;> simp [h]
  · rcases hnew p hp with h | h <;> simp [h]

/-- A receiver that is locked is unwound with its sender. -/
lemma Inv.unwind_receiver (hi : Inv d s) (n : Nat) (hp : Existing s p) (hpn : p ≠ nilTcb)
    (hst : (s.ipc p).threadState = .lockedWaiting) (hok : UnwindOk s p) :
    ∃ s', Hazelnut.unwindIpc (n + 3) s p = some s' ∧ Inv d s' ∧ Unwound d s s' p := by
  have hs := hok.waiting hst
  set a := tidToTcb (s.ipc p).partner with ha
  have hmy := (hi.ident p hp hpn).1
  have han : a ≠ nilTcb := fun he => by
    have := hs.state
    rw [he, hi.nil_state] at this
    simp at this
  have hap : a ≠ p := fun he => by
    have := hs.state
    rw [he, hst] at this
    simp at this
  have hid := hi.ident a hs.existing han
  have hpart := (hi.locked a _ hs).1
  -- the sender records the receiver as its partner
  have hak : ¬isKernelId (s.ipc p).partner := fun hk => hid.2.1 (by
    unfold isKernelId at hk ⊢
    rw [← hk]
    exact tidTask_eq_of_tidToTcb (hid.1.trans ha))
  have hpk : ¬isKernelId (s.ipc a).partner := by rw [hpart]; exact (hi.ident p hp hpn).2.1
  obtain ⟨s', sp, hrun, hsp, hsp', hipc, hwake, hcur, hpr, hns⟩ := unwindIpc_pair n hap ha.symm
    hak (Or.inl hst) (Or.inr hs.state) (Or.inr ⟨hpk, Or.inl (by rw [hpart, hmy])⟩)
  obtain rfl := hsp' hpk (by rw [hpart, hmy])
  have hipc' : ∀ r, s'.ipc r =
      if r = a then { s.ipc a with threadState := .running, cont := .user }
      else if r = p then { s.ipc p with threadState := .running, cont := .user }
      else s.ipc r := fun r => by
    rw [hipc]
    by_cases h1 : r = a
    · simp [h1, hap]
    · simp [h1]
  have hwake' : ∀ r ∈ s'.wakeup, r ∈ s.wakeup ∧ r ≠ a ∧ r ≠ p := fun r hr =>
    ⟨(hwake r hr).1, (hwake r hr).2.2, (hwake r hr).2.1⟩
  exact ⟨s', hrun, hi.unlock hs hp hpn (Or.inl rfl) hipc' hpr hns hwake' hcur,
    hi.unwound_pair hs hp hpn (Or.inl rfl) hipc' hpr hns hwake' hcur (Or.inr rfl)⟩

/-- A sender that is locked is unwound with its receiver, if it records one. -/
lemma Inv.unwind_sender (hi : Inv d s) (n : Nat) (hp : Existing s p) (hpn : p ≠ nilTcb)
    (hst : (s.ipc p).threadState = .lockedRunning) (hok : UnwindOk s p) :
    ∃ s', Hazelnut.unwindIpc (n + 3) s p = some s' ∧ Inv d s' ∧ Unwound d s s' p := by
  by_cases hk : isKernelId (s.ipc p).partner
  · obtain ⟨e, -, he⟩ := unwindIpc_locked (n + 2) (Or.inr hst)
    rw [if_pos hk] at he
    refine ⟨_, he, ?_⟩
    have hs : ∀ dst, ¬Sends s p dst := fun dst hs => by
      obtain ⟨h1, h2, h3, h4, -⟩ := hi.locked p dst hs
      have hn : tidToTcb dst ≠ nilTcb := fun he => by rw [he, hi.nil_state] at h4; simp at h4
      have := (hi.ident _ h2 hn).2.1
      rw [h3, ← h1] at this
      exact this hk
    obtain ⟨hch, hl⟩ := Change.of_ipc s (returnIpc (markAborted s p) p (.err e)) p
      .aborted ((s.ipc p).partner) .user
      (fun q => by rw [returnIpc_ipc]; by_cases hq : q = p <;> simp [hq, markAborted_ipc])
      rfl rfl
    refine ⟨hi.update hch hl hp hpn (Or.inl (by simp [hst])) (by simp) (by simp) (by simp)
      (by simp) (by simp) (fun x => hi.not_sends_of_state hp hpn (by simp [hst]))
      (fun q hq => Or.inl ((mem_markAborted s p q).mp hq)) (by simp)
      (Or.inr (Or.inr (Or.inl rfl))), hch.unwound (by simp) (by simp) hs
        (fun q h => (mem_dequeueWakeup s p q).mp h) rfl (Or.inr rfl)⟩
  · obtain ⟨hs, hqq⟩ := (hok.running hst).resolve_left hk
    set b := tidToTcb (s.ipc p).partner with hb
    obtain ⟨-, hbe, hbm, hbl, -⟩ := hi.locked p _ hs
    have hbn : b ≠ nilTcb := fun he => by rw [← hb, he, hi.nil_state] at hbl; simp at hbl
    have hbp : b ≠ p := fun he => by rw [← hb, he, hst] at hbl; simp at hbl
    have hqq' : isKernelId (s.ipc b).partner ∨ ¬isKernelId (s.ipc b).partner ∧
        (tidToTcb (s.ipc b).partner = p ∨ Steady s (tidToTcb (s.ipc b).partner)) := by
      rcases hqq with h | h | h
      · exact Or.inl h
      · rw [h]; exact Or.inr ⟨(hi.ident p hp hpn).2.1, Or.inl (hi.ident p hp hpn).1⟩
      · exact (Classical.em _).imp id fun hk => ⟨hk, Or.inr h.1⟩
    obtain ⟨s', sp, hrun, hsp, -, hipc, hwake, hcur, hpr, hns⟩ :=
      unwindIpc_pair n hbp hb.symm hk (Or.inr hst) (Or.inl hbl) hqq'
    rw [← hbm] at hs
    exact ⟨s', hrun, hi.unlock hs hbe hbn hsp hipc hpr hns hwake hcur,
      hi.unwound_pair hs hbe hbn hsp hipc hpr hns hwake hcur (Or.inl rfl)⟩

/-- **Unwinding** keeps the invariant, for a thread whose recorded partner is the one it
is locked with. -/
lemma Inv.unwindIpc (hi : Inv d s) (n : Nat) (hp : Existing s p) (hpn : p ≠ nilTcb)
    (hdead : d.dead p) (hok : UnwindOk s p)
    (hrest : d.rest p → (s.ipc p).threadState = .polling → ¬Limbo d s p →
      d.dying (tidToTcb (s.ipc p).partner))
    (hz : (s.ipc p).threadState = .polling → Limbo d s p →
      ¬Existing s (tidToTcb (s.ipc p).partner) ∧ ∀ x t, (s.ipc p).sendNext = some x ∨
        (s.ipc p).sendPrev = some x → Existing s t → ¬Poller d s t x) :
    ∃ s', unwindIpc (n + 3) s p = some s' ∧ Inv d s' ∧ Unwound d s s' p := by
  have hnot : (s.ipc p).threadState ≠ .lockedRunning → ∀ dst, ¬Sends s p dst :=
    fun h dst hs => h hs.state
  have hdw : ∀ q ∈ (threadDequeueWakeup s p).wakeup, q ∈ s.wakeup ∧ q ≠ p := fun q h =>
    (mem_dequeueWakeup s p q).mp h
  cases hst : (s.ipc p).threadState with
  | free => exact absurd hst (hi.not_free p hp)
  | running =>
      refine ⟨_, unwindIpc_still (n + 2) (Or.inl hst), hi.dequeueWakeup p, ?_⟩
      have hch := Change.of_ipc s (threadDequeueWakeup s p) p .running
        ((s.ipc p).partner) ((s.ipc p).cont)
        (fun q => by by_cases hq : q = p <;> simp [hq, ← hst]) rfl rfl
      exact hch.1.unwound (by simp) (by simp) (hnot (by simp [hst])) hdw rfl (Or.inl rfl)
  | aborted =>
      refine ⟨_, unwindIpc_still (n + 2) (Or.inr hst), hi.dequeueWakeup p, ?_⟩
      have hch := Change.of_ipc s (threadDequeueWakeup s p) p .aborted
        ((s.ipc p).partner) ((s.ipc p).cont)
        (fun q => by by_cases hq : q = p <;> simp [hq, ← hst]) rfl rfl
      exact hch.1.unwound (by simp) (by simp) (hnot (by simp [hst])) hdw rfl (Or.inl rfl)
  | waiting =>
      refine ⟨_, unwindIpc_waiting (n + 2) hst, ?_⟩
      obtain ⟨hch, hl⟩ := Change.of_ipc s (returnIpc (threadDequeueWakeup s p) p
          (.err (ipcErrCanceled ||| ipcErrRecv))) p .waiting ((s.ipc p).partner) .user
        (fun q => by rw [returnIpc_ipc]; by_cases hq : q = p <;> simp [hq, ← hst]) rfl rfl
      refine ⟨hi.update hch hl hp hpn (Or.inl (by simp [hst])) (by simp)
        (by simp) (by simp) (by simp)
        (fun _ => Or.inr ⟨hdead, rfl⟩) (fun x => hi.not_sends_of_state hp hpn (by simp [hst]))
        (fun q hq => Or.inl ((mem_dequeueWakeup s p q).mp hq)) (fun _ x hx => ?_)
        (Or.inr (Or.inr (Or.inl rfl))),
        hch.unwound (by simp) (fun _ => ⟨hdead, rfl⟩) (hnot (by simp [hst])) hdw rfl
          (Or.inr rfl)⟩
      exact hi.rendezvous x p hp hx hst
  | polling =>
      refine ⟨_, unwindIpc_polling (n + 2) hst, ?_⟩
      obtain ⟨hch, hl, hwake⟩ := unwind_polling_change s p (tidToTcb (s.ipc p).partner)
        (.err (ipcErrCanceled ||| ipcErrSend))
      have hcur := (sameCtl_dequeueSend (threadDequeueWakeup s p) (tidToTcb (s.ipc p).partner)
        p).current
      refine ⟨?_, hch.unwound (by simp [hst]) (fun _ => ⟨hdead, rfl⟩) (hnot (by simp [hst]))
        hwake hcur (Or.inr rfl)⟩
      by_cases hlimbo : Limbo d s p
      · obtain ⟨h1, h2⟩ := hz hst hlimbo
        exact hi.unwind_zombie hp hpn hst hlimbo h1 h2 _
      · obtain ⟨-, h1, h2, -⟩ := hi.polling p hp hst hlimbo
        exact hi.unpoll ⟨hp, hst, h2.symm, hlimbo⟩ h1 (hi.existing_of_myself h2).2 hch hl
          (Or.inr ⟨⟨hdead, rfl⟩, h2.symm, fun h => hrest h hst hlimbo⟩)
          (by simp [hst]) (by simp [hst])
          (by simp [hst]) (by simp) hwake (Or.inr (Or.inr (Or.inl hcur)))
  | lockedWaiting => exact hi.unwind_receiver n hp hpn hst hok
  | lockedRunning => exact hi.unwind_sender n hp hpn hst hok

end Hazelnut
