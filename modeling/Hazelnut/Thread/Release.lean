import Hazelnut.Thread.Dead
import Hazelnut.Thread.Deliver

/-!
The deletion of a task comes to an end, and releases those who are locked with its threads.

* `LoopEnds`: the loop of `free_thread` over the send queue comes to an end.
* `loops_end`: it does, in every state of a run without a wrong turn; `loop_endless` is a run in
  which a send timeout expires, after which it does not.
* `Deletable.others`, `Deleting.others`: what deleting a thread, and a task, does to the threads of
  other tasks.
* `task_released`: a thread that was locked with a thread of the task runs again, and its IPC has
  failed; the others are as before.  This is so unless a thread of another task polls for one of the
  task; `poller_forgotten` is a run after which such a thread polls for a thread that is gone.
-/

namespace Hazelnut

variable {s s' : Sys} {p q x : TcbPtr} {D R : TcbPtr → Prop} {sp : Nat} {l : List TcbPtr}

/-! ### The loop of `free_thread` -/

/-- The loop over the send queue of `p` comes to an end. -/
def LoopEnds (s : Sys) (p : TcbPtr) : Prop := ∃ n s', unwindSenders n s p = some s'

/-- The threads of the task of `p`, and those that poll for them. -/
def Doomed (s : Sys) (p q : TcbPtr) : Prop := TaskOf s p q ∨ ∃ t, TaskOf s p t ∧ Poller .none s t q

/-- The deletion of a task starts whose threads can be unwound; other threads may poll for them. -/
lemma Inv.deletion_polled (hi : Inv .none s) (hp : Existing s p) (hpn : p ≠ nilTcb)
    (hcur : s.current ≠ .idle → tidTask (s.ipc s.current).myself ≠ tidTask (s.ipc p).myself)
    (hun : ∀ q, TaskOf s p q → UnwindOk s q) :
    Deleting (Doomed s p) (s.ipc p).space s.present s := by
  have hDn : ∀ q, TaskOf s p q → q ≠ nilTcb := fun q hq => hi.taskOf_ne_nil hp hpn hq
  refine hi.deleting (fun hc hD => ?_) (fun q hq => .inl hq) (fun q hq => ?_) hun
    fun t q ht hq => .inr ⟨t, ht, hq⟩
  · rcases hD with hD | ⟨t, -, ht⟩
    · exact hcur hc (hi.space_task _ _ hD.1 hp (hDn _ hD) hpn hD.2)
    · exact (hi.polling _ ht.existing ht.polling ht.live).1 rfl
  · rcases hq with hq | ⟨t, -, ht⟩
    · exact hDn q hq
    · exact hi.poller_ne_nil ht

/-- It comes to an end. -/
lemma Inv.deletion_ends (hi : Inv .none s) (hp : Existing s p) (hpn : p ≠ nilTcb)
    (hcur : s.current ≠ .idle → tidTask (s.ipc s.current).myself ≠ tidTask (s.ipc p).myself)
    (hun : ∀ q, TaskOf s p q → UnwindOk s q) :
    ∃ s', deleteThreads (s.ipc p).space s.present s = some s' ∧
      ∀ q, Existing s' q ↔ Existing s q ∧ (s.ipc q).space ≠ (s.ipc p).space := by
  obtain ⟨s', hrun, -, hex, -⟩ := (hi.deletion_polled hp hpn hcur hun).deleteThreads
    fun q hq _ => (hi.present q).mpr hq
  exact ⟨s', hrun, hex⟩

/-- The loop comes to an end for a thread that can be unwound. -/
lemma Inv.loop_ends (hi : Inv .none s) (hp : Existing s p) (hpn : p ≠ nilTcb)
    (hpc : p ≠ s.current) (hok : UnwindOk s p) :
    ∃ s1, Hazelnut.unwindIpc tcbCount s p = some s1 ∧ LoopEnds s1 p := by
  have hcont := hi.cont_ne_user
  have hdel : Deletable (fun q => q = p ∨ Poller .none s p q) (fun _ => False) s p := by
    refine ⟨hi.relabel (fun q hq hs => ⟨fun hl => absurd hl.2 (hcont q hq hs),
      fun hl => absurd hl (not_limbo_none s q)⟩) (fun _ hD => ?_)
      (fun q hq => absurd hq (fun h => h)), hp, hpn, .inl rfl, fun h => h, hok,
      fun hs hl => absurd hl.2 (hcont p hp (.inl hs)),
      fun q hq => .inr ⟨hq.existing, hq.polling, hq.partner, not_limbo_none s q⟩⟩
    rcases hD with hD | hD
    · exact hpc hD.symm
    · exact (hi.polling _ hD.existing hD.polling hD.live).1 rfl
  obtain ⟨s2, hrun, -⟩ := hdel.calmer
  rw [freeThread, Option.map_eq_some_iff] at hrun
  obtain ⟨s', hs', -⟩ := hrun
  obtain ⟨s1, h1, h2⟩ := Option.bind_eq_some_iff.mp hs'
  exact ⟨s1, h1, tcbCount, s', h2⟩

/-- **The loops of `free_thread` come to an end** in every state of a run without a wrong turn: for
each thread that can be unwound, and in each deletion of a task whose threads can. -/
theorem loops_end (h : ReachableOk s) :
    (∀ p, Existing s p → p ≠ nilTcb → p ≠ s.current → UnwindOk s p →
      ∃ s1, unwindIpc tcbCount s p = some s1 ∧ LoopEnds s1 p) ∧
    ∀ task pager uip usp, tidTask task ≠ 0 →
      (∀ q, TaskOf s (tidToTcb (setThread task 0)) q → UnwindOk s q) →
      ∃ s', sysTaskNew s task pager uip usp = some s' := by
  have hi := h.inv
  refine ⟨fun p hp hpn hpc hok => hi.loop_ends hp hpn hpc hok,
    fun task pager uip usp hk hun => ?_⟩
  rw [← tidTask_setThread task 0] at hk
  unfold sysTaskNew
  dsimp only
  generalize setThread task 0 = task at hk hun ⊢
  rw [if_neg hk]
  split
  · exact ⟨s, rfl⟩
  · rename_i hne
    by_cases hex : tcbExist s (tidToTcb task)
    · have hp : Existing s (tidToTcb task) := ⟨by simp [tidToTcb], hex⟩
      have hpn : tidToTcb task ≠ nilTcb := fun he => hk (tidTask_eq_of_tidToTcb he)
      obtain ⟨s1, h1, -⟩ := hi.deletion_ends hp hpn (fun _ he => hne (by
        rw [show (s.tcb s.current).myself = (s.ipc s.current).myself from rfl, he]
        exact tidTask_eq_of_tidToTcb (hi.ident _ hp hpn).1)) hun
      rw [if_pos hex, show deleteThreads (s.tcb (tidToTcb task)).space s.present s =
        some s1 from h1]
      exact ⟨_, rfl⟩
    · rw [if_neg hex]
      exact ⟨_, rfl⟩

/-- In a run in which sigma0 picks the sender that polls for it. -/
theorem loops_end_picked : ∃ s, run initSys pickedRun = some s ∧ ReachableOk s ∧
    ((∀ p, Existing s p → p ≠ nilTcb → p ≠ s.current → UnwindOk s p →
      ∃ s1, unwindIpc tcbCount s p = some s1 ∧ LoopEnds s1 p) ∧
    ∀ task pager uip usp, tidTask task ≠ 0 →
      (∀ q, TaskOf s (tidToTcb (setThread task 0)) q → UnwindOk s q) →
      ∃ s', sysTaskNew s task pager uip usp = some s') := by
  obtain ⟨s, hs, -⟩ := exists_run pickedRun
    (P := fun s => (s.tcb (tidToTcb sigma0Id)).w1 = 2) (by decide +kernel)
  have hok : ReachableOk s := ReachableOk.init.run (fun e he s => by
    simp only [pickedRun, List.mem_cons, List.not_mem_nil, or_false] at he
    rcases he with rfl | rfl | rfl | rfl | rfl | rfl <;> trivial) hs
  exact ⟨s, hs, hok, loops_end hok⟩

/-- A thread that runs at the head of the queue stays there: the loop does not come to an end. -/
lemma unwindSenders_still (h : (s.ipc p).sendQueue = some q)
    (hrun : (s.ipc q).threadState = .running) (n : Nat) : unwindSenders n s p = none := by
  induction n generalizing s with
  | zero => rfl
  | succ n ih =>
      rw [unwindSenders, show (s.tcb p).sendQueue = some q from h]
      rw [show tcbCount = (2 ^ 14) + 1 from rfl]
      dsimp only
      rw [unwindIpc_still _ (.inl hrun), Option.bind_some]
      exact ih h hrun

/-- After a send timeout the loop over the queue of the receiver does not come to an end. -/
theorem loop_endless : ¬∀ s, Reachable s → ∀ p, Existing s p → p ≠ nilTcb → p ≠ s.current →
    UnwindOk s p → ∃ s1, unwindIpc tcbCount s p = some s1 ∧ LoopEnds s1 p := by
  intro hall
  obtain ⟨s, hs, hb⟩ := exists_run sendTimeoutRun
    (P := fun s => (s.tcb (tidToTcb sigma0Id)).myself = sigma0Id ∧ s.current ≠ tidToTcb sigma0Id ∧
      (s.tcb (tidToTcb sigma0Id)).threadState = .running ∧
      (s.tcb (tidToTcb sigma0Id)).sendQueue = some (tidToTcb rootTaskId) ∧
      (s.tcb (tidToTcb rootTaskId)).threadState = .running) (by decide +kernel)
  obtain ⟨h1, h2, h3, h4, h5⟩ := hb
  obtain ⟨s1, hs1, n, s2, hs2⟩ := hall s (Reachable.init.run hs) (tidToTcb sigma0Id)
    ⟨by decide, fun h => absurd (h1.symm.trans h) (by decide)⟩ (by decide) h2.symm
    ⟨fun h => by simp [show (s.ipc (tidToTcb sigma0Id)).threadState = .running from h3] at h,
      fun h => by simp [show (s.ipc (tidToTcb sigma0Id)).threadState = .running from h3] at h⟩
  rw [show tcbCount = 2 ^ 14 + 1 from rfl, unwindIpc_still _ (.inl h3), Option.some.injEq] at hs1
  subst hs1
  rw [unwindSenders_still (s := threadDequeueWakeup s _) h4 h5] at hs2
  simp at hs2

/-! ### What deleting a thread does to the others -/

/-- What is left of an IPC of a thread, and whether it is in a ready queue. -/
def Tcb.aside (t : Tcb) : ThreadState × Tid × Cont × Option IpcReturn × Bool :=
  (t.threadState, t.partner, t.cont, t.ret, t.queueReady)

/-- A thread is as before. -/
structure Aside (s s' : Sys) (q : TcbPtr) : Prop where
  part : (s'.tcb q).aside = (s.tcb q).aside
  wakeup : q ∈ s'.wakeup ↔ q ∈ s.wakeup

namespace Aside

variable {s'' : Sys}

lemma refl (s : Sys) (q : TcbPtr) : Aside s s q := ⟨rfl, Iff.rfl⟩

lemma trans (h : Aside s s' q) (h' : Aside s' s'' q) : Aside s s'' q :=
  ⟨h'.part.trans h.part, h'.wakeup.trans h.wakeup⟩

lemma threadState (h : Aside s s' q) : (s'.ipc q).threadState = (s.ipc q).threadState :=
  congrArg (fun b => b.1) h.part

lemma partner (h : Aside s s' q) : (s'.ipc q).partner = (s.ipc q).partner :=
  congrArg (fun b => b.2.1) h.part

lemma cont (h : Aside s s' q) : (s'.ipc q).cont = (s.ipc q).cont :=
  congrArg (fun b => b.2.2.1) h.part

lemma ret (h : Aside s s' q) : (s'.tcb q).ret = (s.tcb q).ret :=
  congrArg (fun b => b.2.2.2.1) h.part

lemma queueReady (h : Aside s s' q) : (s'.tcb q).queueReady = (s.tcb q).queueReady :=
  congrArg (fun b => b.2.2.2.2) h.part

/-- An assignment to another thread, or to other fields. -/
lemma upd (h : Aside s s' q) (p : TcbPtr) {f : Tcb → Tcb}
    (hf : q = p → ∀ t, (f t).aside = t.aside) : Aside s (s'.upd p f) q := by
  refine ⟨?_, h.wakeup⟩
  unfold Sys.upd
  by_cases hq : q = p
  · subst hq; simp [hf rfl, h.part]
  · simp [hq, h.part]

lemma updPtr (h : Aside s s' q) (p : Option TcbPtr) {f : Tcb → Tcb}
    (hf : ∀ t, (f t).aside = t.aside) : Aside s (s'.updPtr p f) q := by
  cases p with
  | none => exact h
  | some p => exact h.upd p fun _ => hf

lemma globals (h : Aside s s' q) (ht : s''.tcb = s'.tcb) (hw : s''.wakeup = s'.wakeup) :
    Aside s s'' q :=
  ⟨by rw [ht]; exact h.part, by rw [hw]; exact h.wakeup⟩

lemma enqueueReady (h : Aside s s' q) (hq : q ≠ p) : Aside s (threadEnqueueReady s' p) q := by
  have hend : ∀ s1 m, Aside s s1 q →
    Aside s { s1.upd p (fun t => { t with queueReady := true }) with
      currentMaxPrio := m } q := fun s1 m h1 =>
    (h1.upd p (f := fun t => { t with queueReady := true }) fun he => absurd he hq).globals rfl rfl
  unfold threadEnqueueReady
  split
  · exact h
  · refine hend _ _ ?_
    split
    · exact ((h.upd p fun he => absurd he hq).updPtr _ (by intro _; rfl)).upd _ fun _ =>
        (by intro _; rfl)
    · exact (h.upd p (f := fun t => { t with readyNext := some p, readyPrev := some p })
        fun he => absurd he hq).globals rfl rfl

lemma dequeueReady (h : Aside s s' q) (hq : q ≠ p) : Aside s (threadDequeueReady s' p) q := by
  unfold threadDequeueReady
  split
  · dsimp only
    refine Aside.upd ?_ p fun he => absurd he hq
    split
    · exact h.globals rfl rfl
    · refine Aside.updPtr (Aside.updPtr ?_ _ (by intro _; rfl)) _ (by intro _; rfl)
      split
      · exact h.globals rfl rfl
      · exact h
  · exact h

lemma dequeueSend (h : Aside s s' q) (t p : TcbPtr) : Aside s (threadDequeueSend s' t p) q := by
  unfold threadDequeueSend
  dsimp only
  split
  · exact h.upd t fun _ => (by intro _; rfl)
  · refine Aside.updPtr (Aside.updPtr ?_ _ (by intro _; rfl)) _ (by intro _; rfl)
    split
    · exact h.upd t fun _ => (by intro _; rfl)
    · exact h

lemma dequeueWakeup (h : Aside s s' q) (hq : q ≠ p) : Aside s (threadDequeueWakeup s' p) q :=
  ⟨h.part, by rw [mem_dequeueWakeup, and_iff_left hq, h.wakeup]⟩

lemma markAborted (h : Aside s s' q) (hq : q ≠ p) : Aside s (markAborted s' p) q :=
  (h.dequeueWakeup hq).upd p fun he => absurd he hq

lemma makeRunning (h : Aside s s' q) (hq : q ≠ p) : Aside s (makeRunning s' p) q :=
  (h.upd p fun he => absurd he hq).enqueueReady hq

lemma returnIpc (h : Aside s s' q) (hq : q ≠ p) (e : IpcReturn) : Aside s (returnIpc s' p e) q :=
  h.upd p fun he => absurd he hq

lemma freeTcb (h : Aside s s' q) (hq : q ≠ p) : Aside s (freeTcb s' p) q :=
  (h.globals rfl rfl : Aside s (threadDequeuePresent s' p) q).upd p fun he => absurd he hq

/-- A thread is created. -/
lemma create (h : Aside s s' q) {tid : Tid} (hq : q ≠ tidToTcb tid) (space : Option Nat)
    (uip usp : Word) (pager : Tid) (prio : Nat) :
    Aside s (startThread (createTcb s' tid space) (tidToTcb tid) uip usp pager prio) q := by
  have h1 : Aside s (createTcb s' tid space) q :=
    ⟨by simp [createTcb, threadEnqueuePresent, Sys.upd, hq, h.part], h.wakeup⟩
  exact (h1.upd _ fun he => absurd he hq).enqueueReady hq

/-- A running thread is unwound, and set running. -/
lemma steady (h : Aside s s' q) (hq : Steady s q) (hw : q ∉ s.wakeup) :
    Aside s (Hazelnut.makeRunning (threadDequeueWakeup s' q) q) q := by
  have hrun : (s'.ipc q).threadState = .running := h.threadState.trans hq.running
  have hready : (s'.tcb q).queueReady = true := h.queueReady.trans hq.ready
  have hstill : Hazelnut.makeRunning (threadDequeueWakeup s' q) q =
      (threadDequeueWakeup s' q).upd q fun t => { t with threadState := .running } := by
    unfold Hazelnut.makeRunning threadEnqueueReady
    exact if_pos (by simp [Sys.upd, threadDequeueWakeup, hready])
  rw [hstill]
  constructor
  · rw [← h.part]
    simp [Sys.upd, threadDequeueWakeup, Tcb.aside, hrun]
  · exact iff_of_false (fun hmem => ((mem_dequeueWakeup s' q q).mp hmem).2 rfl) hw

end Aside

/-- The error words of an IPC that has been cancelled, or aborted. -/
def IsCancelled (e : Word) : Prop :=
  e = ipcErrCanceled ||| ipcErrRecv ∨ e = ipcErrCanceled ||| ipcErrSend ∨ IsAborted e

/-- A thread has been taken out of an IPC and runs. -/
structure Woken (s : Sys) (q : TcbPtr) : Prop where
  running : (s.ipc q).threadState = .running
  ready : (s.tcb q).queueReady = true
  user : (s.ipc q).cont = .user
  failed : ∃ e, IsCancelled e ∧ (s.tcb q).ret = some (.err e)

lemma Woken.aside (h : Woken s q) (ha : Aside s s' q) : Woken s' q :=
  ⟨ha.threadState.trans h.running, ha.queueReady.trans h.ready, ha.cont.trans h.user, by
    rw [ha.ret]; exact h.failed⟩

/-- A thread whose IPC has been aborted is set running. -/
lemma woken_makeRunning {e : Word} (he : IsAborted e) :
    Woken (makeRunning (returnIpc s q (.err e)) q) q := by
  refine ⟨by rw [makeRunning_ipc, if_pos rfl], ?_,
    by rw [makeRunning_ipc, if_pos rfl]; simp [returnIpc_ipc],
    e, .inr (.inr he), ?_⟩
  · rw [makeRunning]
    unfold threadEnqueueReady
    split
    · assumption
    · exact congrArg Tcb.queueReady (Sys.upd_tcb_self _ q fun t => { t with queueReady := true })
  · have h1 := congrArg Tcb.ret ((Held.refl q ((returnIpc s q (.err e)).upd q fun t =>
      { t with threadState := .running })).enqueueReady q)
    exact h1.trans (by simp [Tcb.core, Sys.upd, returnIpc])

/-- Unwinding one of two threads that are locked with each other wakes up the other. -/
lemma unwindIpc_woken (n : Nat) (hqp : q ≠ p) (hpart : tidToTcb (s.ipc p).partner = q)
    (hk : ¬isKernelId (s.ipc p).partner)
    (hp : (s.ipc p).threadState = .lockedWaiting ∨ (s.ipc p).threadState = .lockedRunning)
    (hq : (s.ipc q).threadState = .lockedWaiting ∨ (s.ipc q).threadState = .lockedRunning)
    (hqq : isKernelId (s.ipc q).partner ∨ ¬isKernelId (s.ipc q).partner ∧
      (tidToTcb (s.ipc q).partner = p ∨ Steady s (tidToTcb (s.ipc q).partner)))
    (hnw : ∀ c, Steady s c → c ∉ s.wakeup) (hu : unwindIpc (n + 3) s p = some s') :
    Woken s' q ∧ ∀ r, r ≠ p → r ≠ q → Aside s s' r := by
  obtain ⟨e, -, he⟩ := unwindIpc_locked (n + 2) hp
  rw [if_neg hk, hpart] at he
  have h1q : (markAborted s p).ipc q = s.ipc q := by rw [markAborted_ipc, if_neg hqp]
  obtain ⟨e', hab, he'⟩ := unwindIpc_locked (s := markAborted s p) (p := q) (n + 1)
    (by rw [h1q]; exact hq)
  rw [h1q] at he'
  -- the partner is unwound, and does not come back to the thread
  obtain ⟨s3, h3, haside⟩ : ∃ s3, unwindIpc (n + 2) (markAborted s p) q =
    some (returnIpc s3 q (.err e')) ∧
      ∀ r, r ≠ p → r ≠ q → Aside s s3 r := by
    have h2 : ∀ r, r ≠ p → r ≠ q → Aside s (markAborted (markAborted s p) q) r := fun r hr hrq =>
      ((Aside.refl s r).markAborted hr).markAborted hrq
    rcases hqq with hqk | ⟨hqk, hqp' | hc⟩
    · rw [if_pos hqk] at he'
      exact ⟨_, he', h2⟩
    · have h2p : ((markAborted (markAborted s p) q).ipc p).threadState = .aborted := by
        rw [markAborted_ipc, if_neg hqp.symm, markAborted_ipc, if_pos rfl]
      rw [if_neg hqk, hqp', unwindIpc_still n (Or.inr h2p)] at he'
      exact ⟨_, he', fun r hr hrq => ((h2 r hr hrq).dequeueWakeup hr).makeRunning hr⟩
    · -- the partner records a thread that has gone on
      obtain ⟨c, hce⟩ : ∃ c, c = tidToTcb (s.ipc q).partner := ⟨_, rfl⟩
      rw [← hce] at hc he'
      have hcp : c ≠ p := fun h => by
        have := hc.running
        rw [h] at this
        rcases hp with hp | hp <;> simp [hp] at this
      have hcq : c ≠ q := fun h => by
        have := hc.running
        rw [h] at this
        rcases hq with hq | hq <;> simp [hq] at this
      have h2c : ((markAborted (markAborted s p) q).ipc c).threadState = .running := by
        rw [markAborted_ipc, if_neg hcq, markAborted_ipc, if_neg hcp]
        exact hc.running
      rw [if_neg hqk, unwindIpc_still n (Or.inl h2c)] at he'
      refine ⟨_, he', fun r hr hrq => ?_⟩
      by_cases hrc : r = c
      · subst hrc
        exact (h2 r hr hrq).steady hc (hnw r hc)
      · exact ((h2 r hr hrq).dequeueWakeup hrc).makeRunning hrc
  rw [h3, Option.map_some, Option.map_some, hu, Option.some.injEq] at he
  subst he
  refine ⟨(woken_makeRunning hab).aside ((Aside.refl _ q).returnIpc hqp _), fun r hr hrq => ?_⟩
  exact (((haside r hr hrq).returnIpc hrq _).makeRunning hrq).returnIpc hr _

/-- `p` and `q` are locked with each other: one has picked the other to receive from it. -/
def LockedWith (s : Sys) (p q : TcbPtr) : Prop := Sends s p (s.ipc q).myself ∨
    Sends s q (s.ipc p).myself

lemma LockedWith.symm (h : LockedWith s p q) : LockedWith s q p := Or.symm h

section Locked

variable {d : Deletion}

lemma Inv.locked_state (hi : Inv d s) (hp : Existing s p) (hpn : p ≠ nilTcb)
    (h : LockedWith s p q) :
    (s.ipc p).threadState = .lockedWaiting ∨ (s.ipc p).threadState = .lockedRunning := by
  rcases h with h | h
  · exact .inr h.state
  · have := (hi.locked q _ h).2.2.2.1
    rw [(hi.ident p hp hpn).1] at this
    exact .inl this

/-- A running thread is not in the wakeup queue. -/
lemma Inv.steady_not_wakeup (hi : Inv d s) (c : TcbPtr) (hc : Steady s c) : c ∉ s.wakeup := by
  intro hw
  rcases (hi.wakeup c hw).2 with h | h
  · have := h.1
    rw [hc.running] at this
    simp at this
  · exact h.2 hc.running

/-- A thread is locked with one other only. -/
lemma Inv.locked_partner (hi : Inv d s) (hp : Existing s p) (hpn : p ≠ nilTcb) (hx : Existing s x)
    (hq : Existing s q) (hqn : q ≠ nilTcb) (h : LockedWith s p q) (h' : LockedWith s x q) :
    p = x := by
  have hno : ∀ {a b : TcbPtr}, Sends s a (s.ipc q).myself → ¬Sends s q (s.ipc b).myself :=
    fun ha hb => by
      have := (hi.locked _ _ ha).2.2.2.1
      rw [(hi.ident q hq hqn).1, hb.state] at this
      simp at this
  rcases h with h | h <;> rcases h' with h' | h'
  · exact hi.locked_unique p x _ h h'
  · exact absurd h' (hno h)
  · exact absurd h (hno h')
  · have h1 := (hi.locked q _ h).1
    have h2 := (hi.locked q _ h').1
    exact hi.myself_inj hp hx hpn (h1.symm.trans h2)

/-- **What `unwind_ipc` does to others**: it wakes up the one that is locked with the thread. -/
lemma Inv.unwindIpc_others (hi : Inv d s) (hp : Existing s p) (hpn : p ≠ nilTcb)
    (hok : UnwindOk s p)
    (hu : Hazelnut.unwindIpc tcbCount s p = some s') (hq : Existing s q) (hqn : q ≠ nilTcb)
    (hqp : q ≠ p) :
    (LockedWith s p q → Woken s' q) ∧ (¬LockedWith s p q → Aside s s' q) := by
  rw [show tcbCount = 2 ^ 14 - 2 + 3 from rfl] at hu
  have h0 : Aside s (threadDequeueWakeup s p) q := (Aside.refl s q).dequeueWakeup hqp
  have hstill : (s.ipc p).threadState ≠ .lockedWaiting ∧ (s.ipc p).threadState ≠ .lockedRunning →
      Aside s s' q → (LockedWith s p q → Woken s' q) ∧ (¬LockedWith s p q → Aside s s' q) :=
    fun hne ha => ⟨fun h => ((hi.locked_state hp hpn h).elim hne.1 hne.2).elim, fun _ => ha⟩
  cases hst : (s.ipc p).threadState with
  | free => exact absurd hst (hi.not_free p hp)
  | running =>
      rw [unwindIpc_still _ (.inl hst), Option.some.injEq] at hu
      exact hstill (by simp [hst]) (hu ▸ h0)
  | aborted =>
      rw [unwindIpc_still _ (.inr hst), Option.some.injEq] at hu
      exact hstill (by simp [hst]) (hu ▸ h0)
  | waiting =>
      rw [unwindIpc_waiting _ hst, Option.some.injEq] at hu
      exact hstill (by simp [hst]) (hu ▸ h0.returnIpc hqp _)
  | polling =>
      rw [unwindIpc_polling _ hst, Option.some.injEq] at hu
      exact hstill (by simp [hst]) (hu ▸ (h0.dequeueSend _ _).returnIpc hqp _)
  | lockedWaiting =>
      have hs := hok.waiting hst
      obtain ⟨a, ha⟩ : ∃ a, a = tidToTcb (s.ipc p).partner := ⟨_, rfl⟩
      rw [← ha] at hs
      have han : a ≠ nilTcb := fun he => by
        have := hs.state
        rw [he, hi.nil_state] at this
        simp at this
      have hap : a ≠ p := fun he => by
        have := hs.state
        rw [he, hst] at this
        simp at this
      have hid := hi.ident a hs.existing han
      have hpart := (hi.locked a _ hs).1
      have hak : ¬isKernelId (s.ipc p).partner := fun hk => hid.2.1 (by
        unfold isKernelId at hk ⊢
        rw [← hk]
        exact tidTask_eq_of_tidToTcb (hid.1.trans ha))
      have hpk : ¬isKernelId (s.ipc a).partner := by rw [hpart]; exact (hi.ident p hp hpn).2.1
      obtain ⟨hw, hoth⟩ := unwindIpc_woken _ hap ha.symm hak (.inl hst) (.inr hs.state)
        (.inr ⟨hpk, .inl (by rw [hpart, (hi.ident p hp hpn).1])⟩) hi.steady_not_wakeup hu
      refine ⟨fun h => ?_, fun h => hoth q hqp fun he => h (.inr (he ▸ hs))⟩
      exact hi.locked_partner hq hqn hs.existing hp hpn h.symm (.inl hs) ▸ hw
  | lockedRunning =>
      by_cases hk : isKernelId (s.ipc p).partner
      · obtain ⟨e, -, he⟩ := unwindIpc_locked (2 ^ 14 - 2 + 2) (.inr hst)
        rw [if_pos hk, hu, Option.map_some, Option.some.injEq] at he
        have ha : Aside s s' q := he ▸ ((Aside.refl s q).markAborted hqp).returnIpc hqp _
        refine ⟨fun h => absurd hk ?_, fun _ => ha⟩
        -- the one it is locked with is no kernel thread
        rcases h with h | h
        · rw [(hi.locked p _ h).1]
          exact (hi.ident q hq hqn).2.1
        · have := (hi.locked q _ h).2.2.2.1
          rw [(hi.ident p hp hpn).1, hst] at this
          simp at this
      · obtain ⟨hs, hqq⟩ := (hok.running hst).resolve_left hk
        obtain ⟨b, hb⟩ : ∃ b, b = tidToTcb (s.ipc p).partner := ⟨_, rfl⟩
        obtain ⟨-, hbe, hbm, hbl, -⟩ := hi.locked p _ hs
        rw [← hb] at hbe hbm hbl hqq
        have hbn : b ≠ nilTcb := fun he => by rw [he, hi.nil_state] at hbl; simp at hbl
        have hbp : b ≠ p := fun he => by rw [he, hst] at hbl; simp at hbl
        rw [← hbm] at hs
        have hqq' : isKernelId (s.ipc b).partner ∨ ¬isKernelId (s.ipc b).partner ∧
            (tidToTcb (s.ipc b).partner = p ∨ Steady s (tidToTcb (s.ipc b).partner)) := by
          rcases hqq with h | h | h
          · exact .inl h
          · rw [h]
            exact .inr ⟨(hi.ident p hp hpn).2.1, .inl (hi.ident p hp hpn).1⟩
          · exact (Classical.em _).imp id fun hk => ⟨hk, .inr h.1⟩
        obtain ⟨hw, hoth⟩ := unwindIpc_woken _ hbp hb.symm hk (.inr hst) (.inl hbl)
          hqq' hi.steady_not_wakeup hu
        refine ⟨fun h => ?_, fun h => hoth q hqp fun he => h (.inl (he ▸ hs))⟩
        exact hi.locked_partner hq hqn hbe hp hpn h.symm (.inr hs) ▸ hw

/-- The loop over the send queue of a dying thread leaves those alone that do not poll for it, and
the states of all threads. -/
lemma Inv.unwindSenders_others {n : Nat} (hi : Inv d s) (hp : Existing s p) (hpn : p ≠ nilTcb)
    (hdy : d.dying p) (hall : ∀ q, Poller d s p q → d.dead q)
    (hu : Hazelnut.unwindSenders n s p = some s') :
    (s'.ipc q).threadState = (s.ipc q).threadState ∧ (¬Poller d s p q → Aside s s' q) := by
  induction n generalizing s with
  | zero => simp [Hazelnut.unwindSenders] at hu
  | succ n ih =>
      rw [Hazelnut.unwindSenders] at hu
      split at hu
      · exact Option.some.inj hu ▸ ⟨rfl, fun _ => Aside.refl s q⟩
      · rename_i r hr
        obtain ⟨s1, h1, h2⟩ := Option.bind_eq_some_iff.mp hu
        obtain ⟨hpoll, s1', hrun, hi1, hunw⟩ := hi.unwindHead hp hpn hdy hall hr
        rw [h1, Option.some.injEq] at hrun
        subst hrun
        obtain ⟨h3, h4⟩ := ih hi1 ((hunw.existing_iff p).mpr hp)
          (fun x hx => hall x (hunw.poller p x hx)) h2
        rw [show tcbCount = 2 ^ 14 + 1 from rfl, unwindIpc_polling _ hpoll.polling,
          Option.some.injEq] at h1
        have hch := (unwind_polling_change s r (tidToTcb (s.ipc r).partner)
          (.err (ipcErrCanceled ||| ipcErrSend))).1
        rw [h1] at hch
        refine ⟨h3.trans ?_, fun hno => ?_⟩
        · by_cases hqr : q = r
          · rw [hqr, hch.state_self]
          · exact hch.state_other hqr
        · have hqr : q ≠ r := fun he => hno (he ▸ hpoll)
          have h5 : Aside s s1 q := h1 ▸
            (((Aside.refl s q).dequeueWakeup hqr).dequeueSend _ _).returnIpc hqr _
          exact h5.trans (h4 fun hx => hno (hunw.poller p q hx))

/-- **What deleting a thread does to others**: it wakes up the one that is locked with the thread,
and leaves those alone that do not poll for it. -/
lemma Deletable.others (h : Deletable D R s p) (hf : Hazelnut.freeThread s p = some s')
    (hq : Existing s q) (hqn : q ≠ nilTcb) (hqp : q ≠ p) :
    (LockedWith s p q → Woken (Hazelnut.freeTcb s' p) q) ∧
      (¬LockedWith s p q →
        ((Hazelnut.freeTcb s' p).ipc q).threadState = (s.ipc q).threadState ∧
        (¬Poller ⟨D, R, fun _ => False⟩ s p q → Aside s (Hazelnut.freeTcb s' p) q)) := by
  obtain ⟨s2, h2, rfl⟩ := Option.map_eq_some_iff.mp hf
  obtain ⟨s1, h1, h2⟩ := Option.bind_eq_some_iff.mp h2
  obtain ⟨s1', hrun, hi1, hunw⟩ := h.unwound
  rw [h1, Option.some.injEq] at hrun
  subst hrun
  obtain ⟨hw, hoth⟩ := h.inv.unwindIpc_others h.existing h.ne_nil h.unwindOk h1 hq hqn hqp
  have hpoll : ∀ r, Poller ⟨D, R, (· = p)⟩ s1 p r → Poller ⟨D, R, fun _ => False⟩ s p r :=
    fun r hr => hunw.poller p r hr.relabel
  obtain ⟨hst, hrest⟩ := hi1.unwindSenders_others (q := q) ((hunw.existing_iff p).mpr h.existing)
    h.ne_nil rfl (fun r hr => h.senders r (hpoll r hr)) h2
  have hend : Aside s2 (Hazelnut.freeTcb (threadDequeueReady s2 p) p) q :=
    ((Aside.refl s2 q).dequeueReady hqp).freeTcb hqp
  refine ⟨fun hl => ?_, fun hl => ⟨?_, fun hno => ?_⟩⟩
  · have hw := hw hl
    exact (hw.aside (hrest fun hx => by
      have := hx.polling
      rw [hw.running] at this
      simp at this)).aside hend
  · exact hend.threadState.trans (hst.trans (hoth hl).threadState)
  · exact ((hoth hl).trans (hrest fun hx => hno (hpoll q hx))).trans hend

/-- Nobody becomes locked by the deletion of a thread. -/
lemma Deletable.sends (h : Deletable D R s p) (hf : Hazelnut.freeThread s p = some s') {dst : Tid}
    (hs : Sends (Hazelnut.freeTcb s' p) x dst) : Sends s x dst := by
  obtain ⟨s2, hrun, -, hcalm, -⟩ := h.calmer
  rw [hf, Option.some.injEq] at hrun
  have hxp : x ≠ p := fun he => by
    have := hs.state
    rw [he, freeTcb_ipc, if_pos rfl] at this
    simp at this
  have hx : (Hazelnut.freeTcb s' p).ipc x = s2.ipc x := by
    rw [freeTcb_ipc, if_neg hxp, hrun, (sameIpc_dequeueReady s2 p).ipc]
  obtain ⟨⟨hi, he⟩, hst, sd, rd, hc⟩ := hs
  rw [hx] at he hst hc
  refine ⟨⟨hi, by rw [← hcalm.myself]; exact he⟩, (hcalm.locked x (.inr hst)).trans hst, sd, rd, ?_⟩
  rcases hcalm.cont x with h1 | h1
  · exact h1.symm.trans hc
  · rw [hc] at h1
    simp at h1

/-- **What the deletion of a task does to others**: it wakes up those who are locked with a thread
of the task, and leaves those alone that do not poll for one. -/
lemma Deleting.others (h : Deleting D sp l s) (hd : Hazelnut.deleteThreads sp l s = some s')
    (hq : Existing s q) (hqn : q ≠ nilTcb) (hsp : (s.ipc q).space ≠ sp) :
    ((∃ x ∈ l, (s.ipc x).space = sp ∧ LockedWith s x q) → Woken s' q) ∧
      ((∀ x ∈ l, (s.ipc x).space = sp → ¬LockedWith s x q) →
        (s'.ipc q).threadState = (s.ipc q).threadState ∧
        ((∀ x ∈ l, (s.ipc x).space = sp → ¬Poller ⟨D, fun _ => False, fun _ => False⟩ s x q) →
          Aside s s' q)) := by
  induction l generalizing s with
  | nil =>
      rw [Hazelnut.deleteThreads, Option.some.injEq] at hd
      subst hd
      refine ⟨?_, fun _ => ⟨rfl, fun _ => Aside.refl s q⟩⟩
      rintro ⟨x, hx, -⟩
      exact absurd hx (by simp)
  | cons p l ih =>
      rw [Hazelnut.deleteThreads] at hd
      split at hd
      · rename_i hps
        have hps : (s.ipc p).space = sp := hps
        obtain ⟨s1, h1, h2⟩ := Option.bind_eq_some_iff.mp hd
        have hdel := h.deletable hps
        have hpe := hdel.existing
        have hqp : q ≠ p := fun he => hsp (he ▸ hps)
        obtain ⟨s1', hrun, hi1, hd1⟩ := hdel.freeThread
        rw [h1, Option.some.injEq] at hrun
        subst hrun
        have hnext := h.next hps hi1 hd1
        have hq1 := (hd1.existing q).mpr ⟨hq, hqp⟩
        obtain ⟨hw, hoth⟩ := hdel.others h1 hq hqn hqp
        obtain ⟨ihw, ihoth⟩ := ih hnext h2 hq1 (by rw [hd1.space]; exact hsp)
        have hme : ∀ r, r ≠ p → ((Hazelnut.freeTcb s1 p).ipc r).myself = (s.ipc r).myself :=
          fun r hr => by
          obtain ⟨s2, hrun, -, hcalm, -⟩ := hdel.calmer
          rw [h1, Option.some.injEq] at hrun
          rw [freeTcb_ipc, if_neg hr, hrun, (sameIpc_dequeueReady s2 p).ipc, hcalm.myself]
        have hmem : ∀ x ∈ l, x ≠ p := fun x hx he => (List.nodup_cons.mp h.nodup).1 (he ▸ hx)
        have hback : ∀ x ∈ l, LockedWith (Hazelnut.freeTcb s1 p) x q → LockedWith s x q :=
          fun x hx hl => by
          rw [LockedWith, hme x (hmem x hx), hme q hqp] at hl
          exact hl.imp (hdel.sends h1) (hdel.sends h1)
        constructor
        · rintro ⟨x, hx, hxs, hl⟩
          rcases List.mem_cons.mp hx with rfl | hx
          · -- it runs already, and is left alone
            have hw := hw hl
            refine hw.aside ((ihoth fun y hy _ hly => ?_).2 fun y _ _ hpoll => ?_)
            · have := hi1.locked_state hq1 hqn hly.symm
              rw [hw.running] at this
              simp at this
            · have := hpoll.polling
              rw [hw.running] at this
              simp at this
          · -- the two remain locked
            obtain ⟨hxe, hxD⟩ := h.mem x (List.mem_cons_of_mem p hx)
            have hxn := h.ne_nil x (hxD hxs)
            have hkeep : ∀ {a b : TcbPtr},
                Existing s a → a ≠ nilTcb → Existing s b → a ≠ p → b ≠ p →
                LockedWith s b a → Aside s (Hazelnut.freeTcb s1 p) a :=
                fun {a b} hae han hbe hap hbp hab => by
              refine ((hdel.others h1 hae han hap).2 fun hpa => hbp ?_).2 fun hpoll => ?_
              · exact (hdel.inv.locked_partner hpe hdel.ne_nil hbe hae han hpa hab).symm
              · have := hdel.inv.locked_state hae han hab.symm
                rw [hpoll.polling] at this
                simp at this
            have hxa := hkeep hxe hxn hq (hmem x hx) hqp hl.symm
            have hqa := hkeep hq hqn hxe hqp (hmem x hx) hl
            have hsend : ∀ {a : TcbPtr} {dst : Tid}, a ≠ p → Aside s (Hazelnut.freeTcb s1 p) a →
                Sends s a dst → Sends (Hazelnut.freeTcb s1 p) a dst := fun hap ha hs =>
              ⟨(hd1.existing _).mpr ⟨hs.existing, hap⟩, ha.threadState.trans hs.state, by
                rw [ha.cont]; exact hs.cont⟩
            refine ihw ⟨x, hx, by rw [hd1.space]; exact hxs, ?_⟩
            rw [LockedWith, hme x (hmem x hx), hme q hqp]
            exact hl.imp (hsend (hmem x hx) hxa) (hsend hqp hqa)
        · intro hno
          obtain ⟨h3, h4⟩ := hoth (hno p List.mem_cons_self hps)
          obtain ⟨h5, h6⟩ := ihoth fun x hx hxs hl => by
            rw [hd1.space] at hxs
            exact hno x (List.mem_cons_of_mem p hx) hxs (hback x hx hl)
          refine ⟨h5.trans h3, fun hnp => ?_⟩
          refine (h4 fun hpoll => hnp p List.mem_cons_self hps hpoll.relabel).trans
            (h6 fun x hx hxs hpoll => ?_)
          rw [hd1.space] at hxs
          have hx1 := (hnext.mem x hx).1
          exact hnp x (List.mem_cons_of_mem p hx) hxs (hd1.poller _ _ _ _ x q hx1 hpoll)
      · rename_i hps
        have hps : (s.ipc p).space ≠ sp := hps
        obtain ⟨ihw, ihoth⟩ := ih h.skip hd hq hsp
        constructor
        · rintro ⟨x, hx, hxs, hl⟩
          exact ihw ⟨x, (List.mem_cons.mp hx).resolve_left fun he => hps (he ▸ hxs), hxs, hl⟩
        · intro hno
          obtain ⟨h3, h4⟩ := ihoth fun x hx => hno x (List.mem_cons_of_mem p hx)
          exact ⟨h3, fun hnp => h4 fun x hx => hnp x (List.mem_cons_of_mem p hx)⟩

end Locked

/-! ### The deletion of a task -/

/-- A thread runs again, is in its ready queue and in no other, and its IPC has failed. -/
structure Released (s : Sys) (q : TcbPtr) : Prop where
  running : (s.ipc q).threadState = .running
  ready : ∃ l, ReadyRing s (s.tcb q).priority l ∧ q ∈ l
  sendQueue : ∀ t, Existing s t → ∃ l, SendRing s t l ∧ q ∉ l
  wakeup : q ∉ s.wakeup
  user : (s.ipc q).cont = .user
  failed : ∃ e, IsCancelled e ∧ (s.tcb q).ret = some (.err e)

/-- A thread that has been woken up is in no queue but its ready queue. -/
lemma Graves.released {X : TcbPtr → Prop} (h : Graves X s) (hw : Woken s q) : Released s q := by
  refine ⟨hw.running, ?_, fun t ht => ?_, fun hq => ?_, hw.user, hw.failed⟩
  · obtain ⟨l, hl, hmem⟩ := h.rings (s.tcb q).priority
    exact ⟨l, hl, (hmem q).mpr ⟨hw.ready, rfl⟩⟩
  · obtain ⟨l, hl, hmem⟩ := h.inv.ring t ht
    refine ⟨l, hl, fun hq => ?_⟩
    have := ((hmem q).mp hq).polling
    rw [hw.running] at this
    simp at this
  · rcases (h.inv.wakeup q hq).2 with h1 | h1
    · rw [hw.running] at h1
      simp at h1
    · exact h1.2 hw.running

/-- `q` polls for a thread of the task of `p`, or is locked with one. -/
def Involved (s : Sys) (p q : TcbPtr) : Prop := ∃ x, TaskOf s p x ∧
    (LockedWith s x q ∨ Poller .none s x q)

/-- Those who survive the deletion of the task of `p` are released if they were involved with it,
and as before if they were not. -/
def TaskReleases (s s' : Sys) (p : TcbPtr) : Prop :=
  ∀ q, Existing s q → q ≠ nilTcb → ¬TaskOf s p q →
    (Involved s p q → Released s' q) ∧ (¬Involved s p q → Aside s s' q)

lemma ReachableOk.reachable (h : ReachableOk s) : Reachable s := by
  induction h with
  | init => exact .init
  | step e _ _ hstep ih => exact ih.step e hstep

lemma ReachableOk.graves (h : ReachableOk s) : Graves (fun _ => False) s := by
  induction h with
  | init => exact graves_initSys
  | step e _ hok hstep ih => exact ih.step hok hstep

/-- **The deletion of a task releases everybody** in a run without a wrong turn, if its threads can
be unwound and, exactly then, no thread of another task polls for one of them. -/
theorem task_released (h : ReachableOk s) {task pager : Tid} {uip usp : Word}
    (hstep : step s (.taskNew task pager uip usp) = some s')
    (hex : tcbExist s (tidToTcb (setThread task 0)))
    (hne : tidTask (s.tcb s.current).myself ≠ tidTask task)
    (hun : ∀ q, TaskOf s (tidToTcb (setThread task 0)) q → UnwindOk s q) :
    TaskReleases s s' (tidToTcb (setThread task 0)) ↔
      ∀ q x, TaskOf s (tidToTcb (setThread task 0)) x → Poller .none s x q →
        TaskOf s (tidToTcb (setThread task 0)) q := by
  have hi := h.inv
  have hgraves := fun hok : StepOk s (.taskNew task pager uip usp) => h.graves.step hok hstep
  have hnew := hstep
  simp only [step] at hnew
  split at hnew
  swap
  · simp at hnew
  unfold sysTaskNew at hnew
  dsimp only at hnew
  rw [tidTask_setThread, if_neg hne, if_pos hex] at hnew
  split at hnew
  · simp at hnew
  rename_i hk
  rw [← tidTask_setThread task 0] at hk hne
  change (TaskNewOk s task → _) at hgraves
  unfold TaskNewOk at hgraves
  generalize setThread task 0 = task at hnew hgraves hex hun hk hne ⊢
  have hp : Existing s (tidToTcb task) := ⟨by simp [tidToTcb], hex⟩
  have hpn : tidToTcb task ≠ nilTcb := fun he => hk (tidTask_eq_of_tidToTcb he)
  have hcur : s.current ≠ .idle →
      tidTask (s.ipc s.current).myself ≠ tidTask (s.ipc (tidToTcb task)).myself :=
      fun _ he => hne (by
    rw [show (s.tcb s.current).myself = (s.ipc s.current).myself from rfl, he]
    exact tidTask_eq_of_tidToTcb (hi.ident _ hp hpn).1)
  obtain ⟨s1, h1, hex1⟩ := hi.deletion_ends hp hpn hcur hun
  have hdel := hi.deletion_polled hp hpn hcur hun
  obtain ⟨s2, h2, rfl⟩ := Option.map_eq_some_iff.mp hnew
  obtain rfl : s1 = s2 := Option.some.inj (h1.symm.trans h2)
  -- nobody who survives is in the TCB of the task
  have hlast : ∀ q, Existing s q → ¬TaskOf s (tidToTcb task) q →
      Aside s1 (if pager = nilId then s1
      else startThread (createTcb s1 task none) (tidToTcb task) uip usp
        pager (s1.tcb s1.current).priority) q := fun q hq hqt => by
    have hqp : q ≠ tidToTcb task := fun he => hqt (by rw [he]; exact ⟨hp, rfl⟩)
    split
    · exact Aside.refl s1 q
    · exact (Aside.refl s1 q).create hqp _ _ _ _ _
  have hothers : ∀ q, Existing s q → q ≠ nilTcb → ¬TaskOf s (tidToTcb task) q → _ :=
      fun q hq hqn hqt =>
    hdel.others h1 hq hqn fun hsp => hqt ⟨hq, hsp⟩
  constructor
  · intro hall q x hx hpoll
    by_contra hqt
    -- it polls still
    have hqn := hi.poller_ne_nil hpoll
    obtain ⟨-, hstill⟩ := hothers q hpoll.existing hqn hqt
    have hst := (hstill fun y _ _ hl => by
      have := hi.locked_state hpoll.existing hqn hl.symm
      rw [hpoll.polling] at this
      simp at this).1
    have hrel := (hall q hpoll.existing hqn hqt).1 ⟨x, hx, .inr hpoll⟩
    have := (hlast q hpoll.existing hqt).threadState
    rw [hrel.running, hst, hpoll.polling] at this
    simp at this
  · intro hnone q hq hqn hqt
    obtain ⟨hw, hoth⟩ := hothers q hq hqn hqt
    have hg := hgraves (fun _ => ⟨fun r hr hrs => hun r ⟨hr, hrs⟩, fun t r ht hts hr hrp hrt =>
      (hnone r t ⟨ht, hts⟩ ⟨hr, hrp, hrt, not_limbo_none s r⟩).2⟩)
    constructor
    · rintro ⟨x, hx, hxq⟩
      have hl := hxq.resolve_right fun hpoll => hqt (hnone q x hx hpoll)
      exact hg.released ((hw ⟨x, (hi.present x).mpr hx.1, hx.2, hl⟩).aside (hlast q hq hqt))
    · intro hno
      refine ((hoth fun x hx hxs hl => ?_).2 fun x hx hxs hpoll => ?_).trans (hlast q hq hqt)
      · exact hno ⟨x, ⟨(hi.present x).mp hx, hxs⟩, .inl hl⟩
      · exact hno ⟨x, ⟨(hi.present x).mp hx, hxs⟩, .inr
          ⟨hpoll.existing, hpoll.polling, hpoll.partner, not_limbo_none s q⟩⟩

/-- The second thread of sigma0 waits, the root task polls for sigma0, and sigma0 sends to its
second thread and picks the root task to receive from. -/
def lockedRun : List Event :=
  [.threadSwitch (setThread sigma0Id 1), .ipc nilId noDesc 1 0 0 0 0 0, .idle,
    .threadSwitch rootTaskId, .ipc sigma0Id 0 noDesc 0 0 0 0 0, .idle,
    .ipc (setThread sigma0Id 1) 0 1 0 0 0 0 0, .resume 0, .threadSwitch (setThread sigma0Id 1)]

/-- Then the second thread deletes the root task, with which sigma0 is locked. -/
theorem task_released_root : ∃ s s', ReachableOk s ∧
    step s (.taskNew rootTaskId nilId 0 0) = some s' ∧
    LockedWith s (tidToTcb (setThread rootTaskId 0)) (tidToTcb sigma0Id) ∧
    (TaskReleases s s' (tidToTcb (setThread rootTaskId 0)) ↔
      ∀ q x, TaskOf s (tidToTcb (setThread rootTaskId 0)) x → Poller .none s x q →
        TaskOf s (tidToTcb (setThread rootTaskId 0)) q) := by
  obtain ⟨s, hs, hcur, hnew, hrest⟩ := exists_run [.idle, .threadSwitch sigma0Id]
    (P := fun s => (s.tcb s.current).myself = sigma0Id ∧
    ¬tcbExist s (tidToTcb (setThread sigma0Id 1)) ∧
      (((step s (.exRegs 1 0 0 nilId)).bind fun s => run s lockedRun).bind fun s =>
        (step s (.taskNew rootTaskId nilId 0 0)).map fun _ => decide
        (tcbExist s (tidToTcb (setThread rootTaskId 0)) ∧
          tidTask (s.tcb s.current).myself ≠ tidTask rootTaskId ∧
          (s.ipc (tidToTcb (setThread rootTaskId 0))).threadState = .lockedRunning ∧
          (s.ipc (tidToTcb (setThread rootTaskId 0))).partner = sigma0Id ∧
          (s.ipc (tidToTcb (setThread rootTaskId 0))).cont = .sendPoll sigma0Id 0 noDesc ∧
          (s.ipc (tidToTcb sigma0Id)).myself = sigma0Id ∧
          (s.ipc (tidToTcb sigma0Id)).partner = setThread sigma0Id 1 ∧
          (s.ipc (tidToTcb (setThread sigma0Id 1))).threadState = .running ∧
          (s.tcb (tidToTcb (setThread sigma0Id 1))).queueReady = true ∧
          (s.ipc (tidToTcb (setThread sigma0Id 1))).space ≠
            (s.ipc (tidToTcb (setThread rootTaskId 0))).space ∧
          ∀ q ∈ s.present, (s.ipc q).space = (s.ipc (tidToTcb (setThread rootTaskId 0))).space →
            q = tidToTcb (setThread rootTaskId 0))) = some true) (by decide +kernel)
  obtain ⟨s2, h2, h3⟩ := Option.bind_eq_some_iff.mp hrest
  obtain ⟨s1, h1, h2⟩ := Option.bind_eq_some_iff.mp h2
  obtain ⟨s', hstep, h3⟩ := Option.map_eq_some_iff.mp h3
  obtain ⟨hex, hne, hst, hpart, hcont, hmy, hold, hrun, hready, hsp, htask⟩ := of_decide_eq_true h3
  -- up to here no turn is wrong
  have hok : ReachableOk s2 := by
    have h0 : ReachableOk s := ReachableOk.init.run (fun e he s => by
      simp only [List.mem_cons, List.not_mem_nil, or_false] at he
      rcases he with rfl | rfl <;> trivial) hs
    refine (h0.step (.exRegs 1 0 0 nilId) (fun _ _ => ?_) h1).run (fun e he s => ?_) h2
    · rw [hcur, if_neg hnew]
      decide
    · simp only [lockedRun, List.mem_cons, List.not_mem_nil, or_false] at he
      rcases he with rfl | rfl | rfl | rfl | rfl | rfl | rfl | rfl | rfl <;> trivial
  have hsends : Sends s2 (tidToTcb (setThread rootTaskId 0)) sigma0Id :=
    ⟨⟨by decide, hex⟩, hst, 0, noDesc, hcont⟩
  have hun : UnwindOk s2 (tidToTcb (setThread rootTaskId 0)) :=
    ⟨fun h => absurd (hst.symm.trans h) (by decide), fun _ => by
      rw [hpart, hold]
      exact .inr ⟨hsends, .inr (.inr ⟨⟨hrun, hready⟩, hsp⟩)⟩⟩
  exact ⟨s2, s', hok, hstep, .inl (hmy.symm ▸ hsends), task_released hok hstep hex hne fun q hq =>
    htask q ((hok.inv.present q).mpr hq.1) hq.2 ▸ hun⟩

/-- Sigma0, which is running, creates a second thread and polls for the root task; the second thread
runs. -/
def forgottenRun : List Event :=
  [.ipc rootTaskId 0 noDesc 0 0 0 0 0, .idle, .threadSwitch (setThread sigma0Id 1)]

/-- When the second thread deletes the root task, sigma0 polls on for a thread that is gone. -/
theorem poller_forgotten : ¬∀ s s' task pager uip usp, Reachable s →
    step s (.taskNew task pager uip usp) = some s' → tcbExist s (tidToTcb (setThread task 0)) →
    tidTask (s.tcb s.current).myself ≠ tidTask task →
    (∀ q, TaskOf s (tidToTcb (setThread task 0)) q → UnwindOk s q) →
    TaskReleases s s' (tidToTcb (setThread task 0)) := by
  intro hall
  obtain ⟨s, hs, hcur, hnew, hrest⟩ := exists_run [.idle, .threadSwitch sigma0Id]
    (P := fun s => (s.tcb s.current).myself = sigma0Id ∧
    ¬tcbExist s (tidToTcb (setThread sigma0Id 1)) ∧
      (((step s (.exRegs 1 0 0 nilId)).bind fun s => run s forgottenRun).bind fun s =>
        (step s (.taskNew rootTaskId nilId 0 0)).map fun s' => decide
        ((tcbExist s (tidToTcb (setThread rootTaskId 0)) ∧
          tidTask (s.tcb s.current).myself ≠ tidTask rootTaskId ∧
          (s.ipc (tidToTcb sigma0Id)).myself = sigma0Id ∧
          (s.ipc (tidToTcb sigma0Id)).threadState = .polling ∧
          (s.ipc (tidToTcb sigma0Id)).partner = (s.ipc (tidToTcb (setThread rootTaskId 0))).myself ∧
          (s.ipc (tidToTcb sigma0Id)).space ≠ (s.ipc (tidToTcb (setThread rootTaskId 0))).space ∧
          ∀ q ∈ s.present, (s.ipc q).space = (s.ipc (tidToTcb (setThread rootTaskId 0))).space →
            (s.ipc q).threadState = .running) ∧
          (s'.ipc (tidToTcb sigma0Id)).threadState = .polling)) = some true) (by decide +kernel)
  obtain ⟨s2, h2, h3⟩ := Option.bind_eq_some_iff.mp hrest
  obtain ⟨s1, h1, h2⟩ := Option.bind_eq_some_iff.mp h2
  obtain ⟨s', hstep, h3⟩ := Option.map_eq_some_iff.mp h3
  obtain ⟨⟨hex, hne, hmy, hpoll, hpart, hsp, htask⟩, hend⟩ := of_decide_eq_true h3
  -- up to here no turn is wrong
  have hok : ReachableOk s2 := by
    have h0 : ReachableOk s := ReachableOk.init.run (fun e he s => by
      simp only [List.mem_cons, List.not_mem_nil, or_false] at he
      rcases he with rfl | rfl <;> trivial) hs
    refine (h0.step (.exRegs 1 0 0 nilId) (fun _ _ => ?_) h1).run (fun e he s => ?_) h2
    · rw [hcur, if_neg hnew]
      decide
    · simp only [forgottenRun, List.mem_cons, List.not_mem_nil, or_false] at he
      rcases he with rfl | rfl | rfl <;> trivial
  have hq : Existing s2 (tidToTcb sigma0Id) :=
    ⟨by decide, fun h => absurd (hmy.symm.trans h) (by decide)⟩
  have hrun : ∀ q, TaskOf s2 (tidToTcb (setThread rootTaskId 0)) q →
      (s2.ipc q).threadState = .running := fun q hq => htask q ((hok.inv.present q).mpr hq.1) hq.2
  have hrel := (hall s2 s' rootTaskId nilId 0 0 hok.reachable hstep hex hne fun q hq =>
    ⟨fun h => by simp [hrun q hq] at h, fun h => by simp [hrun q hq] at h⟩) _ hq (by decide)
    fun h => hsp h.2
  have := (hrel.1 ⟨_, ⟨⟨by decide, hex⟩, rfl⟩, .inr ⟨hq, hpoll, hpart, not_limbo_none _ _⟩⟩).running
  rw [hend] at this
  simp at this

end Hazelnut
