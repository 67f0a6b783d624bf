import Hazelnut.Thread.Reach
import Hazelnut.Thread.ReadyQueue

/-!
No runnable thread is lost.

Threads enter the ready queues lazily: IPC switches from thread to thread without them, and the
scheduler takes a thread out only when it meets it blocked.  The set `T` of the threads there are
is fixed while nothing is created, so the invariant is stated relative to it.

* `Queued T E s`: each thread of `T` that can run is in the ready queue of its priority, those of
  `E` excepted, and nothing else is in a ready queue.  `E` is the thread in hand.
* `Settled`: the same between two stretches of kernel code, where the running thread is excepted.
* `Queued.findNextThread`, `Settled.sysIpc`, `Queued.unwindIpc`, `Settled.step`: kept by the
  scheduler, by IPC, by cancelling and by each step.
* `runnable_queued`: in every state of a run that deletes no task.
-/

namespace Hazelnut

variable {T E F : TcbPtr → Prop} {s s' : Sys} {p q : TcbPtr}

/-- The two states in which a thread wants the processor. -/
def CanRun (st : ThreadState) : Prop := st = .running ∨ st = .lockedRunning

instance (st : ThreadState) : Decidable (CanRun st) := inferInstanceAs (Decidable (_ ∨ _))

/-- A thread proper: neither the idle thread nor the one behind the nil id. -/
def IsThread (s : Sys) (t : TcbPtr) : Prop := t ≠ .idle ∧ t ≠ nilTcb ∧ (s.ipc t).myself ≠ nilId

/-- What of a control block stays between creation and deletion, or belongs to the queues. -/
def Tcb.fixed (t : Tcb) : (Bool × Nat × Option TcbPtr × Option TcbPtr) × Tid × Int ×
    Option TcbPtr × Option TcbPtr :=
  (t.readyPart, t.myself, t.timeslice, t.sendQueue, t.sendNext)

/-- **The ready queues are complete** up to the threads `E`. -/
structure Queued (T E : TcbPtr → Prop) (s : Sys) : Prop where
  threads : ∀ t, T t ↔ IsThread s t
  rings : ReadyQueues s
  ready : ∀ t, T t → ¬E t → CanRun (s.ipc t).threadState → (s.tcb t).queueReady = true
  out : ∀ t, ¬T t → (s.tcb t).queueReady = false
  state : ∀ t, ¬T t → (s.ipc t).threadState = .free ∨ t = nilTcb ∧ (s.ipc t).threadState = .aborted
  nil : (s.ipc nilTcb).myself = invalidId
  idle : (s.ipc .idle).cont = .user
  slice : ∀ t, T t → 0 < (s.ipc t).timeslice
  task : ∀ t, T t → tidTask (s.ipc t).myself ≠ 0
  wakeup : ∀ t ∈ s.wakeup, T t
  polls : ∀ t dest a b, (s.ipc t).cont = .sendPoll dest a b → T (tidToTcb dest)
  sendQueue : ∀ t q, (s.ipc t).sendQueue = some q → T q
  sendNext : ∀ t q, (s.ipc t).sendNext = some q → T q

/-- Between two stretches of kernel code only the running thread may be missing. -/
structure Settled (T : TcbPtr → Prop) (s : Sys) : Prop where
  queued : Queued T (· = s.current) s
  current : s.current = .idle ∨ T s.current

namespace Queued

lemma mono (h : Queued T E s) (hE : ∀ t, E t → F t) : Queued T F s :=
  { h with ready := fun t ht he => h.ready t ht fun h1 => he (hE t h1) }

/-- A blocked thread need not be excepted. -/
lemma blocked (h : Queued T (· = p) s) (hs : ¬CanRun (s.ipc p).threadState) :
    Queued T (fun _ => False) s :=
  { h with ready := fun t ht _ hr => h.ready t ht (fun he => hs (he ▸ hr)) hr }

lemma ne_idle (h : Queued T E s) (hp : T p) : p ≠ .idle := ((h.threads p).mp hp).1

lemma ne_nil (h : Queued T E s) (hp : T p) : p ≠ nilTcb := ((h.threads p).mp hp).2.1

/-- A thread that carries the id that leads to it is a thread proper. -/
lemma of_myself (h : Queued T E s) {dest : Tid} (hd : (s.ipc (tidToTcb dest)).myself = dest) :
    T (tidToTcb dest) := by
  rw [h.threads]
  have hn : tidToTcb dest ≠ nilTcb := fun he => by
    have h1 : dest = invalidId := hd.symm.trans (he ▸ h.nil)
    rw [h1] at he
    exact absurd he (by decide)
  refine ⟨by simp [tidToTcb], hn, fun he => hn ?_⟩
  rw [← hd, he]
  rfl

/-- A waiting thread is a thread proper. -/
lemma of_state (h : Queued T E s) (hf : (s.ipc p).threadState ≠ .free)
    (ha : (s.ipc p).threadState ≠ .aborted) : T p := by
  by_contra hp
  rcases h.state p hp with h1 | ⟨-, h1⟩
  · exact hf h1
  · exact ha h1

/-- Whoever is in a ready queue is a thread proper. -/
lemma of_queueReady (h : Queued T E s) (hp : (s.tcb p).queueReady = true) : T p := by
  by_contra hn
  rw [h.out p hn] at hp
  simp at hp

/-- The ready queues change, and variables outside the control blocks. -/
lemma sched (h : Queued T E s) (hi : s'.ipc = s.ipc) (hw : ∀ t ∈ s'.wakeup, T t)
    (hr : ReadyQueues s')
    (hready : ∀ t, T t → ¬F t → CanRun (s.ipc t).threadState → (s'.tcb t).queueReady = true)
    (hout : ∀ t, ¬T t → (s'.tcb t).queueReady = false) : Queued T F s' where
  threads t := by rw [h.threads, IsThread, IsThread, hi]
  rings := hr
  ready := by rw [hi]; exact hready
  out := hout
  state := by rw [hi]; exact h.state
  nil := by rw [hi]; exact h.nil
  idle := by rw [hi]; exact h.idle
  slice := by rw [hi]; exact h.slice
  task := by rw [hi]; exact h.task
  wakeup := hw
  polls := by rw [hi]; exact h.polls
  sendQueue := by rw [hi]; exact h.sendQueue
  sendNext := by rw [hi]; exact h.sendNext

/-- A thread enters its ready queue and is no longer excepted. -/
lemma enqueue (h : Queued T E s) (hp : T p) (hE : ∀ t, E t → F t ∨ t = p) :
    Queued T F (threadEnqueueReady s p) := by
  obtain ⟨hr, hq, -⟩ := h.rings.enqueue p
  refine h.sched (ipc_enqueueReady s p) ?_ hr (fun t ht he hs => ?_) (fun t ht => ?_)
  · rw [wakeup_enqueueReady]; exact h.wakeup
  · rw [hq]
    split
    · rfl
    · rename_i hne
      exact h.ready t ht (fun h1 => (hE t h1).elim he hne) hs
  · have hne : t ≠ p := fun he => ht (he ▸ hp)
    rw [hq, if_neg hne, h.out t ht]

/-- A thread that is blocked, or excepted, leaves its ready queue. -/
lemma dequeue (h : Queued T E s) (hp : E p ∨ ¬CanRun (s.ipc p).threadState) :
    Queued T E (threadDequeueReady s p) := by
  obtain ⟨hr, hq, -⟩ := h.rings.dequeue p
  have hs := sameIpc_dequeueReady s p
  refine h.sched hs.ipc ?_ hr (fun t ht he hst => ?_) (fun t ht => ?_)
  · rw [hs.wakeup]; exact h.wakeup
  · have hne : t ≠ p := fun h1 => hp.elim (fun hp => he (h1 ▸ hp)) fun hp => hp (h1 ▸ hst)
    rw [hq, if_neg hne]
    exact h.ready t ht he hst
  · rw [hq, h.out t ht, ite_self]

/-- Only variables outside the control blocks change. -/
lemma globals (h : Queued T E s) (ht : s'.tcb = s.tcb) (hq : s'.prioQueue = s.prioQueue)
    (hw : ∀ t ∈ s'.wakeup, T t) : Queued T E s' := by
  have hi : s'.ipc = s.ipc := by unfold Sys.ipc; rw [ht]
  refine h.sched hi hw (h.rings.same ⟨fun t => by rw [ht], hq⟩) ?_ ?_
  · rw [ht]; exact h.ready
  · rw [ht]; exact h.out

lemma dequeueWakeup (h : Queued T E s) (p : TcbPtr) : Queued T E (threadDequeueWakeup s p) :=
  h.globals rfl rfl fun t ht => h.wakeup t (List.mem_of_mem_filter ht)

lemma enqueueWakeup (h : Queued T E s) (hp : T p) : Queued T E (threadEnqueueWakeup s p) := by
  unfold threadEnqueueWakeup
  split
  · exact h
  · refine h.globals rfl rfl fun t ht => ?_
    rcases List.mem_cons.mp ht with rfl | ht
    · exact hp
    · exact h.wakeup t ht

/-! ### Assignments -/

/-- An assignment to one control block. -/
lemma upd (h : Queued T E s) (p : TcbPtr) {f : Tcb → Tcb} (hf : ∀ t, (f t).fixed = t.fixed)
    (hs : (f (s.tcb p)).threadState = (s.ipc p).threadState ∨
      T p ∧ (E p ∨ ¬CanRun (f (s.tcb p)).threadState))
    (hc : (f (s.tcb p)).cont = (s.ipc p).cont ∨ (f (s.tcb p)).cont = .user ∨
      p ≠ .idle ∧ ∀ dest a b, (f (s.tcb p)).cont = .sendPoll dest a b → T (tidToTcb dest)) :
    Queued T E (s.upd p f) := by
  have hfix : ∀ q, ((s.upd p f).tcb q).fixed = (s.tcb q).fixed := fun q => by
    unfold Sys.upd
    by_cases hq : q = p
    · subst hq; simp [hf]
    · simp [hq]
  have hsame : SameReady s (s.upd p f) := ⟨fun q => congrArg Prod.fst (hfix q), rfl⟩
  have hmy : ∀ q, ((s.upd p f).ipc q).myself = (s.ipc q).myself := fun q =>
    congrArg (fun b => b.2.1) (hfix q)
  have hst : ∀ q, q ≠ p → ((s.upd p f).ipc q).threadState = (s.ipc q).threadState := fun q hq => by
    rw [Sys.upd_ipc, if_neg hq]
  have hstp : ((s.upd p f).ipc p).threadState = (f (s.tcb p)).threadState := by
    rw [Sys.upd_ipc, if_pos rfl]
  have hcont : ∀ q, q ≠ p → ((s.upd p f).ipc q).cont = (s.ipc q).cont := fun q hq => by
    rw [Sys.upd_ipc, if_neg hq]
  have hcontp : ((s.upd p f).ipc p).cont = (f (s.tcb p)).cont := by
    rw [Sys.upd_ipc, if_pos rfl]
  constructor
  case threads => intro t; rw [h.threads, IsThread, IsThread, hmy]
  case rings => exact h.rings.same hsame
  case ready =>
    intro t ht he hr
    rw [hsame.queueReady]
    refine h.ready t ht he ?_
    by_cases htp : t = p
    · subst htp
      rw [hstp] at hr
      rcases hs with h1 | ⟨-, h1 | h1⟩
      · rw [← h1]; exact hr
      · exact absurd h1 he
      · exact absurd hr h1
    · rw [← hst t htp]; exact hr
  case out => intro t ht; rw [hsame.queueReady]; exact h.out t ht
  case state =>
    intro t ht
    have h1 : ((s.upd p f).ipc t).threadState = (s.ipc t).threadState := by
      by_cases htp : t = p
      · subst htp
        rw [hstp]
        exact hs.elim id fun h1 => absurd h1.1 ht
      · exact hst t htp
    rw [h1]
    exact h.state t ht
  case nil => rw [hmy]; exact h.nil
  case idle =>
    by_cases hi : TcbPtr.idle = p
    · subst hi
      rw [hcontp]
      rcases hc with h1 | h1 | h1
      · rw [h1]; exact h.idle
      · exact h1
      · exact absurd rfl h1.1
    · rw [hcont _ hi]; exact h.idle
  case slice =>
    intro t ht
    have h1 : ((s.upd p f).ipc t).timeslice = (s.ipc t).timeslice :=
      congrArg (fun b => b.2.2.1) (hfix t)
    rw [h1]
    exact h.slice t ht
  case task => intro t ht; rw [hmy]; exact h.task t ht
  case wakeup => exact h.wakeup
  case polls =>
    intro t dest a b ht
    by_cases htp : t = p
    · subst htp
      rw [hcontp] at ht
      rcases hc with h1 | h1 | h1
      · exact h.polls t dest a b (h1 ▸ ht)
      · rw [h1] at ht; simp at ht
      · exact h1.2 dest a b ht
    · rw [hcont t htp] at ht
      exact h.polls t dest a b ht
  case sendQueue =>
    intro t q ht
    have h1 : ((s.upd p f).ipc t).sendQueue = (s.ipc t).sendQueue :=
      congrArg (fun b => b.2.2.2.1) (hfix t)
    exact h.sendQueue t q (h1 ▸ ht)
  case sendNext =>
    intro t q ht
    have h1 : ((s.upd p f).ipc t).sendNext = (s.ipc t).sendNext :=
      congrArg (fun b => b.2.2.2.2) (hfix t)
    exact h.sendNext t q (h1 ▸ ht)

/-- An assignment that changes neither state nor continuation. -/
lemma updRest (h : Queued T E s) (p : TcbPtr) {f : Tcb → Tcb} (hf : ∀ t, (f t).fixed = t.fixed)
    (hs : ∀ t, (f t).threadState = t.threadState) (hc : ∀ t, (f t).cont = t.cont) :
    Queued T E (s.upd p f) :=
  h.upd p hf (Or.inl (hs _)) (Or.inl (hc _))

/-- An assignment of a state to an excepted thread, or of a blocked state. -/
lemma updState (h : Queued T E s) (hp : T p) {f : Tcb → Tcb} (hf : ∀ t, (f t).fixed = t.fixed)
    (hs : E p ∨ ¬CanRun (f (s.tcb p)).threadState) (hc : ∀ t, (f t).cont = t.cont) :
    Queued T E (s.upd p f) :=
  h.upd p hf (Or.inr ⟨hp, hs⟩) (Or.inl (hc _))

lemma returnIpc (h : Queued T E s) (p : TcbPtr) (r : IpcReturn) : Queued T E (returnIpc s p r) :=
  h.upd p (by intro _; rfl) (Or.inl rfl) (Or.inr (Or.inl rfl))

lemma returnIpcArgs (h : Queued T E s) (p : TcbPtr) (t : Tid) (e : Word) :
    Queued T E (returnIpcArgs s p t e) := h.returnIpc p _

/-- A thread is made running and enqueued. -/
lemma makeRunning (h : Queued T E s) (hp : T p) : Queued T E (makeRunning s p) := by
  have h1 : Queued T (fun t => E t ∨ t = p) s := h.mono fun t => Or.inl
  have h2 := h1.updState hp (f := fun t => { t with threadState := .running }) (by intro _; rfl)
    (Or.inl (Or.inr rfl)) (by intro _; rfl)
  exact h2.enqueue hp fun t => id

/-- A switch: the thread that is left goes on at `c`. -/
lemma switchTo (h : Queued T E s) (q : TcbPtr) {c : Cont} (hc : c = .user ∨ s.current ≠ .idle ∧
    ∀ dest a b, c = .sendPoll dest a b → T (tidToTcb dest)) : Queued T E (switchTo s q c) := by
  have h1 : Queued T E (s.upd s.current fun t => { t with cont := c }) :=
    h.upd s.current (by intro _; rfl) (Or.inl rfl) (Or.inr hc)
  exact h1.globals rfl rfl h1.wakeup

/-! ### Send queues -/

/-- The links of the send queues change; they still lead to threads. -/
lemma links (h : Queued T E s) (hr : SameReady s s') (hc : SameCtl s s')
    (hq : ∀ t q, (s'.ipc t).sendQueue = some q → T q)
    (hn : ∀ t q, (s'.ipc t).sendNext = some q → T q) : Queued T E s' where
  threads t := by rw [h.threads, IsThread, IsThread, hc.myself]
  rings := h.rings.same hr
  ready t ht he hst := by
    rw [hc.threadState] at hst
    rw [hr.queueReady]
    exact h.ready t ht he hst
  out t ht := by rw [hr.queueReady]; exact h.out t ht
  state t ht := by rw [hc.threadState]; exact h.state t ht
  nil := by rw [hc.myself]; exact h.nil
  idle := by rw [hc.cont]; exact h.idle
  slice t ht := by rw [hc.timeslice]; exact h.slice t ht
  task t ht := by rw [hc.myself]; exact h.task t ht
  wakeup := by rw [hc.wakeup]; exact h.wakeup
  polls t dest a b ht := by rw [hc.cont] at ht; exact h.polls t dest a b ht
  sendQueue := hq
  sendNext := hn

lemma enqueueSend (h : Queued T E s) (r : TcbPtr) (hp : T p) :
    Queued T E (threadEnqueueSend s r p) := by
  have hr := (SameReady.refl s).enqueueSend r p
  have hc := sameCtl_enqueueSend s r p
  cases hh : (s.ipc r).sendQueue with
  | none =>
      refine h.links hr hc (fun t q ht => ?_) (fun t q ht => ?_)
      · rw [(enqueueSend_nil hh t).1] at ht
        split at ht
        · exact Option.some.inj ht ▸ hp
        · exact h.sendQueue t q ht
      · rw [(enqueueSend_nil hh t).2.1] at ht
        split at ht
        · exact Option.some.inj ht ▸ hp
        · exact h.sendNext t q ht
  | some a =>
      refine h.links hr hc (fun t q ht => ?_) (fun t q ht => ?_)
      · rw [(enqueueSend_cons hh t).1] at ht
        exact h.sendQueue t q ht
      · rw [(enqueueSend_cons hh t).2.1] at ht
        split at ht
        · exact Option.some.inj ht ▸ hp
        · split at ht
          · exact h.sendQueue r q (hh.trans ht)
          · exact h.sendNext t q ht

lemma dequeueSend (h : Queued T E s) (r p : TcbPtr) : Queued T E (threadDequeueSend s r p) := by
  refine h.links ((SameReady.refl s).dequeueSend r p) (sameCtl_dequeueSend s r p) ?_ ?_ <;>
    intro t q ht <;>
    by_cases hself : (s.ipc p).sendNext = some p
  · rw [(dequeueSend_self (t := r) hself t).1] at ht
    split at ht
    · simp at ht
    · exact h.sendQueue t q ht
  · rw [(dequeueSend_links (t := r) hself t).1] at ht
    split at ht
    · exact h.sendNext p q ht
    · exact h.sendQueue t q ht
  · rw [(dequeueSend_self (t := r) hself t).2.1] at ht
    exact h.sendNext t q ht
  · rw [(dequeueSend_links (t := r) hself t).2.1] at ht
    split at ht
    · exact h.sendNext p q ht
    · exact h.sendNext t q ht

end Queued

/-- After a switch with nobody missing. -/
lemma Queued.settled (h : Queued T (fun _ => False) s) (hq : q = .idle ∨ T q) {c : Cont}
    (hc : c = .user ∨ s.current ≠ .idle ∧
      ∀ dest a b, c = .sendPoll dest a b → T (tidToTcb dest)) :
      Settled T (Hazelnut.switchTo s q c) :=
  ⟨(h.switchTo q hc).mono fun _ => False.elim, hq⟩

/-! ### The scheduler -/

namespace Queued

/-- The entry point of a ready queue moves to one of its members. -/
lemma rotate (h : Queued T E s) (hp : (s.tcb p).queueReady = true) (m : Int) :
    Queued T E { s with
      prioQueue := Function.update s.prioQueue (s.tcb p).priority (some p), currentMaxPrio := m } :=
  h.sched rfl h.wakeup (h.rings.rotate ⟨hp, rfl⟩ m) h.ready h.out

lemma dispatchThread (h : Queued T (fun _ => False) s) (hc : s.current = .idle ∨ T s.current)
    (hp : p = .idle ∨ T p) : Settled T (dispatchThread s p) := by
  unfold Hazelnut.dispatchThread
  split
  · exact ⟨h.mono fun _ => False.elim, hc⟩
  · split
    · exact h.settled (Or.inl rfl) (Or.inl rfl)
    · refine Queued.settled ?_ hp (Or.inl rfl)
      split
      · rename_i hr
        exact h.rotate hr s.currentMaxPrio
      · exact h

/-- The inner loop of the scheduler takes out nobody who can run. -/
lemma findInQueue {i fuel : Nat} {r : Option TcbPtr} (h : Queued T E s)
    (hf : findInQueue i fuel s = some (s', r)) : Queued T E s' ∧ ∀ p, r = some p → T p := by
  induction fuel generalizing s with
  | zero => simp [Hazelnut.findInQueue] at hf
  | succ fuel ih =>
      rw [Hazelnut.findInQueue] at hf
      cases hq : s.prioQueue i with
      | none =>
          simp only [hq, Option.some.injEq, Prod.mk.injEq] at hf
          obtain ⟨rfl, rfl⟩ := hf
          exact ⟨h, fun p hp => by simp at hp⟩
      | some a =>
          simp only [hq] at hf
          cases hn : (s.tcb a).readyNext with
          | none => simp [hn] at hf
          | some p =>
              simp only [hn] at hf
              obtain ⟨l, hl, hmem⟩ := h.rings i
              have ha : a ∈ l := List.mem_of_mem_head? (by rw [← hl.head, hq]; rfl)
              obtain ⟨hpr, rfl⟩ : InReady s i p := (hmem p).mp (hl.ring.next_mem ha hn)
              have hp : T p := h.of_queueReady hpr
              split at hf
              · simp only [Option.some.injEq, Prod.mk.injEq] at hf
                obtain ⟨rfl, rfl⟩ := hf
                refine ⟨h.rotate hpr _, fun q hq' => ?_⟩
                obtain rfl : p = q := by simpa using hq'
                exact hp
              · rename_i hrun
                refine ih (h.dequeue (Or.inr fun hs => hrun ⟨?_, h.slice p hp⟩)) hf
                rw [isRunning_iff]
                exact hs.elim Or.inl fun h1 => Or.inr (Or.inl h1)

lemma findFrom {i : Nat} (h : Queued T E s) (hf : findFrom i s = some (s', p)) :
    Queued T E s' ∧ (p = .idle ∨ T p) := by
  induction i generalizing s with
  | zero =>
      rw [Hazelnut.findFrom] at hf
      split at hf
      · simp at hf
      · rename_i s1 q hq
        simp only [Option.some.injEq, Prod.mk.injEq] at hf
        obtain ⟨rfl, rfl⟩ := hf
        obtain ⟨h1, h2⟩ := h.findInQueue hq
        exact ⟨h1, Or.inr (h2 q rfl)⟩
      · rename_i s1 hq
        simp only [Option.some.injEq, Prod.mk.injEq] at hf
        obtain ⟨rfl, rfl⟩ := hf
        obtain ⟨h1, -⟩ := h.findInQueue hq
        exact ⟨h1.globals rfl rfl h1.wakeup, Or.inl rfl⟩
  | succ i ih =>
      rw [Hazelnut.findFrom] at hf
      split at hf
      · simp at hf
      · rename_i s1 q hq
        simp only [Option.some.injEq, Prod.mk.injEq] at hf
        obtain ⟨rfl, rfl⟩ := hf
        obtain ⟨h1, h2⟩ := h.findInQueue hq
        exact ⟨h1, Or.inr (h2 q rfl)⟩
      · rename_i s1 hq
        exact ih (h.findInQueue hq).1 hf

lemma findNextThread (h : Queued T E s) (hf : findNextThread s = some (s', p)) :
    Queued T E s' ∧ (p = .idle ∨ T p) := by
  unfold Hazelnut.findNextThread at hf
  split at hf
  · simp only [Option.some.injEq, Prod.mk.injEq] at hf
    obtain ⟨rfl, rfl⟩ := hf
    exact ⟨h.globals rfl rfl h.wakeup, Or.inl rfl⟩
  · exact h.findFrom hf

/-- Rescheduling with nobody missing. -/
lemma reschedule (h : Queued T (fun _ => False) s) (hc : s.current = .idle ∨ T s.current)
    (hf : ((Hazelnut.findNextThread s).map fun r => Hazelnut.dispatchThread r.1 r.2) = some s') :
    Settled T s' := by
  obtain ⟨⟨s1, r⟩, hr, rfl⟩ := Option.map_eq_some_iff.mp hf
  obtain ⟨h1, h2⟩ := h.findNextThread hr
  refine h1.dispatchThread ?_ h2
  rw [(findNextThread_spec hr).1.current]
  exact hc

/-- The priority of a thread outside the ready queues changes. -/
lemma updPriority (h : Queued T E s) (hp : (s.tcb p).queueReady = false) (n : Nat) :
    Queued T E (s.upd p fun t => { t with priority := n }) := by
  have hs := (SameIpc.refl s).upd p (f := fun t => { t with priority := n }) (by intro _; rfl)
  have hr : ∀ t, ((s.upd p fun t => { t with priority := n }).tcb t).queueReady =
      (s.tcb t).queueReady :=
    fun t => by
      unfold Sys.upd
      by_cases ht : t = p
      · subst ht; simp
      · simp [ht]
  refine h.sched hs.ipc h.wakeup (h.rings.updOut hp fun t => Or.inl rfl) (fun t ht he hst => ?_)
    (fun t ht => ?_)
  · rw [hr]; exact h.ready t ht he hst
  · rw [hr]; exact h.out t ht

/-! ### Interrupts -/

/-- `parse_wakeup_queue` keeps the queues complete and finds a thread. -/
lemma parseWakeup {now : BitVec 64} {prio : Nat} {highest r : Option TcbPtr} (l : List TcbPtr)
    (h : Queued T E s) (hl : ∀ t ∈ l, T t) (hh : ∀ t, highest = some t → T t)
    (hrun : parseWakeup now l prio highest s = (s', r)) :
    Queued T E s' ∧ s'.current = s.current ∧ ∀ t, r = some t → T t := by
  induction l generalizing s prio highest with
  | nil =>
      obtain ⟨rfl, rfl⟩ : s = s' ∧ highest = r := by simpa [Hazelnut.parseWakeup] using hrun
      exact ⟨h, rfl, hh⟩
  | cons p l ih =>
      have hp : T p := hl p List.mem_cons_self
      have hl' : ∀ t ∈ l, T t := fun t ht => hl t (List.mem_cons_of_mem p ht)
      rw [Hazelnut.parseWakeup] at hrun
      split at hrun
      · obtain ⟨h1, h2, h3⟩ := ih ((h.dequeueWakeup p).makeRunning hp) hl' (fun t ht => by
          split at ht
          · exact Option.some.inj ht ▸ hp
          · exact hh t ht) hrun
        exact ⟨h1, h2.trans (makeRunning_current _ p), h3⟩
      · exact ih h hl' hh hrun

/-- The thread in hand enters its ready queue. -/
lemma enqueueCurrent {c : TcbPtr} (h : Queued T (· = c) s) (hc : c = .idle ∨ T c) :
    Queued T (fun _ => False) (if c = .idle then s else threadEnqueueReady s c) := by
  split
  · rename_i hi
    exact { h with ready := fun t ht _ => h.ready t ht fun he => h.ne_idle ht (he.trans hi) }
  · rename_i hi
    exact h.enqueue (hc.resolve_left hi) fun t => Or.inr

end Queued

namespace Settled

lemma timer (h : Settled T s) (ht : handleTimerInterrupt s = some s') : Settled T s' := by
  unfold handleTimerInterrupt parseWakeupQueue at ht
  dsimp only at ht
  generalize s.clock + BitVec.ofNat 64 timeQuantum = now at ht
  rcases hrun : Hazelnut.parseWakeup now s.wakeup (s.tcb s.current).priority none
    { s with clock := now } with ⟨s1, wake⟩
  rw [hrun] at ht
  have h0 : Queued T (· = s.current) { s with clock := now } :=
    h.queued.globals rfl rfl h.queued.wakeup
  obtain ⟨h1, hc1, hw⟩ := h0.parseWakeup s.wakeup h.queued.wakeup (by simp) hrun
  have h2 := h1.updRest s.current
    (f := fun t => { t with currentTimeslice := t.currentTimeslice - timeQuantum })
    (by intro _; rfl) (by intro _; rfl) (by intro _; rfl)
  have h3 := h2.enqueueCurrent h.current
  dsimp only at ht
  generalize hs2 : s1.upd s.current (fun t =>
    { t with currentTimeslice := t.currentTimeslice - timeQuantum }) = s2 at ht h3
  have hc3 : (if s.current = .idle then s2 else threadEnqueueReady s2 s.current).current =
      s.current := by
    have hc2 : s2.current = s.current := by rw [← hs2]; exact hc1
    split
    · exact hc2
    · rw [current_enqueueReady]; exact hc2
  generalize (if s.current = .idle then s2 else threadEnqueueReady s2 s.current) = s3 at ht h3 hc3
  have hcur : s3.current = .idle ∨ T s3.current := hc3 ▸ h.current
  cases wake with
  | some p =>
      obtain rfl := Option.some.inj ht
      exact h3.dispatchThread hcur (Or.inr (hw p rfl))
  | none =>
      dsimp only at ht
      split at ht
      · exact Queued.reschedule
          (h3.updRest s.current (by intro _; rfl) (by intro _; rfl) (by intro _; rfl))
          hcur ht
      · obtain rfl := Option.some.inj ht
        exact ⟨h3.mono fun _ => False.elim, hcur⟩

/-- An interrupt makes its waiting owner runnable, or switches to it. -/
lemma irq (h : Settled T s) (number : Nat) : Settled T (handleInterrupt s number) := by
  unfold handleInterrupt
  split
  · exact h
  · rename_i p hown
    dsimp only
    split
    · rename_i hcond
      have hw : (s.ipc p).threadState = .waiting := (isWaiting_iff _).mp hcond.1
      have hp : T p := h.queued.of_state (by simp [hw]) (by simp [hw])
      have h1 := h.queued.updRest p
        (f := fun t => { t with intrPending := BitVec.ofNat 32 (number + 1) ||| irqInService })
        (by intro _; rfl) (by intro _; rfl) (by intro _; rfl)
      split
      · have h2 : Queued T (fun t => t = s.current ∨ t = p) _ := h1.mono fun t => Or.inl
        have h3 := h2.updState hp (f := fun t => { t with threadState := .lockedRunning })
          (by intro _; rfl) (Or.inl (Or.inr rfl)) (by intro _; rfl)
        have h4 := h3.enqueue (F := (· = s.current)) hp fun t => id
        refine ⟨?_, ?_⟩
        · rw [current_enqueueReady]; exact h4
        · rw [current_enqueueReady]; exact h.current
      · exact (h1.enqueueCurrent h.current).settled (Or.inr hp) (Or.inl rfl)
    · exact ⟨h.queued.updRest p (by intro _; rfl) (by intro _; rfl) (by intro _; rfl), h.current⟩

/-- `sys_thread_switch`. -/
lemma threadSwitch (h : Settled T s) (hi : s.current ≠ .idle) {tid : Tid}
    (ht : sysThreadSwitch s tid = some s') : Settled T s' := by
  have hc := h.current.resolve_left hi
  have h1 : Queued T (fun _ => False) (threadEnqueueReady s s.current) :=
    h.queued.enqueue hc fun t => Or.inr
  have hcur : (threadEnqueueReady s s.current).current = .idle ∨
      T (threadEnqueueReady s s.current).current := by
    rw [current_enqueueReady]; exact h.current
  unfold sysThreadSwitch at ht
  dsimp only at ht
  split at ht
  · rename_i hcond
    obtain rfl := Option.some.inj ht
    exact h1.dispatchThread hcur (Or.inr (h1.of_myself hcond.2.1))
  · exact h1.reschedule hcur ht

/-- `sys_schedule` moves a queued thread to the ready queue of its new priority. -/
lemma schedule (h : Settled T s) (param : Word) (tid : Tid) :
    Settled T (sysSchedule s param tid) := by
  have hq := h.queued
  unfold sysSchedule
  dsimp only
  split
  · exact h
  · split
    · rename_i hr
      have hp : T (tidToTcb tid) := hq.of_queueReady hr
      have h1 : Queued T (fun t => t = s.current ∨ t = tidToTcb tid) s := hq.mono fun t => Or.inl
      obtain ⟨-, hout, -⟩ := h1.rings.dequeue (tidToTcb tid)
      have h2 := (h1.dequeue (Or.inl (Or.inr rfl))).updPriority (p := tidToTcb tid)
        (by rw [hout, if_pos rfl]) (param &&& 0xff).toNat
      have h3 := h2.enqueue (F := (· = s.current)) hp fun t => id
      have hc : (threadEnqueueReady
          ((threadDequeueReady s (tidToTcb tid)).upd (tidToTcb tid) fun t =>
          { t with priority := (param &&& 0xff).toNat }) (tidToTcb tid)).current = s.current := by
        rw [current_enqueueReady]
        exact (sameIpc_dequeueReady s _).current
      refine ⟨?_, ?_⟩
      · rw [hc]; exact h3
      · rw [hc]; exact h.current
    · rename_i hr
      exact ⟨hq.updPriority (by simpa using hr) _, h.current⟩

end Settled

/-! ### IPC -/

/-- Inside a system call of the thread `p`. -/
structure InHand (T : TcbPtr → Prop) (p : TcbPtr) (s : Sys) : Prop where
  queued : Queued T (· = p) s
  current : s.current = p
  thread : T p

namespace InHand

variable {c : Cont}

lemma settled (h : InHand T p s) : Settled T s := by
  refine ⟨?_, ?_⟩
  · rw [h.current]; exact h.queued
  · rw [h.current]; exact Or.inr h.thread

/-- The thread in hand may assign any state to itself. -/
lemma updSelf (h : InHand T p s) {f : Tcb → Tcb} (hf : ∀ t, (f t).fixed = t.fixed)
    (hc : ∀ t, (f t).cont = t.cont) : InHand T p (s.upd p f) :=
  ⟨h.queued.updState h.thread hf (Or.inl rfl) hc, h.current, h.thread⟩

lemma updRest (h : InHand T p s) (q : TcbPtr) {f : Tcb → Tcb} (hf : ∀ t, (f t).fixed = t.fixed)
    (hs : ∀ t, (f t).threadState = t.threadState) (hc : ∀ t, (f t).cont = t.cont) :
    InHand T p (s.upd q f) :=
  ⟨h.queued.updRest q hf hs hc, h.current, h.thread⟩

lemma returnIpc (h : InHand T p s) (r : IpcReturn) : InHand T p (returnIpc s p r) :=
  ⟨h.queued.returnIpc p r, h.current, h.thread⟩

lemma returnIpcArgs (h : InHand T p s) (t : Tid) (e : Word) : InHand T p (returnIpcArgs s p t e) :=
  h.returnIpc _

lemma enqueueWakeup (h : InHand T p s) : InHand T p (threadEnqueueWakeup s p) :=
  ⟨h.queued.enqueueWakeup h.thread, (current_enqueueWakeup s p).trans h.current, h.thread⟩

lemma dequeueWakeup (h : InHand T p s) (q : TcbPtr) : InHand T p (threadDequeueWakeup s q) :=
  ⟨h.queued.dequeueWakeup q, h.current, h.thread⟩

/-- The thread in hand is blocked and leaves the processor. -/
lemma block (h : InHand T p s) (hs : ¬CanRun (s.ipc p).threadState) (hq : q = .idle ∨ T q)
    (hc : ∀ dest a b, c = .sendPoll dest a b → T (tidToTcb dest)) : Settled T (switchTo s q c) := by
  refine (h.queued.blocked hs).settled hq (Or.inr ⟨?_, hc⟩)
  rw [h.current]
  exact h.queued.ne_idle h.thread

/-- The thread in hand stays runnable, enters its ready queue and leaves the processor. -/
lemma yield (h : InHand T p s) (hq : T q) (hc : ∀ dest a b, c ≠ .sendPoll dest a b) :
    Settled T (switchTo (threadEnqueueReady (s.upd p fun t => { t with threadState := .running }) p)
    q c) := by
  have h1 := h.updSelf (f := fun t => { t with threadState := .running }) (by intro _; rfl)
    (by intro _; rfl)
  have h2 : Queued T (fun _ => False) _ := h1.queued.enqueue h.thread fun t => Or.inr
  refine h2.settled (Or.inr hq) (Or.inr ⟨?_, fun dest a b he => absurd he (hc dest a b)⟩)
  rw [current_enqueueReady, Sys.upd_current, h.current]
  exact h.queued.ne_idle h.thread

lemma upd_state (s : Sys) (p : TcbPtr) (f : Tcb → Tcb) :
    ((s.upd p f).ipc p).threadState = (f (s.tcb p)).threadState := by
  rw [Sys.upd_ipc, if_pos rfl]

lemma kernelIdWait (h : InHand T p s) (dest : Tid) : Settled T (kernelIdWait s p dest) := by
  unfold Hazelnut.kernelIdWait
  dsimp only
  refine (h.updSelf (by intro _; rfl) (by intro _; rfl)).block ?_ (Or.inl rfl) (by simp)
  rw [upd_state]
  simp [CanRun]

lemma ipcHandleKernelId (h : InHand T p s) (dest : Tid) :
    Settled T (ipcHandleKernelId s p dest) := by
  -- the owners of the interrupts do not matter
  have hown : ∀ o e, Settled T (Hazelnut.returnIpcArgs { s with interruptOwner := o } p dest e) :=
    fun o e => by
    have h1 : InHand T p { s with interruptOwner := o } :=
      ⟨h.queued.globals rfl rfl h.queued.wakeup, h.current, h.thread⟩
    exact (h1.returnIpcArgs dest e).settled
  unfold Hazelnut.ipcHandleKernelId
  dsimp only
  split
  · exact ((h.updSelf (by intro _; rfl) (by intro _; rfl)).returnIpcArgs _ _).settled
  · split
    · exact h.kernelIdWait dest
    · split
      · split
        · split_ifs <;> exact hown _ _
        · exact hown _ _
      · exact ((h.updSelf (by intro _; rfl) (by intro _; rfl)).enqueueWakeup).kernelIdWait dest

lemma getD_thread {o : Option TcbPtr} (ho : ∀ q, o = some q → T q) : o.getD .idle = .idle ∨
    T (o.getD .idle) := by
  cases o with
  | none => exact Or.inl rfl
  | some q => exact Or.inr (ho q rfl)

lemma recvBlock (h : InHand T p s) {toTcb : Option TcbPtr} (ht : ∀ q, toTcb = some q → T q)
    (partner : Tid) : Settled T (recvBlock s p toTcb partner) := by
  have hblock : ∀ s, InHand T p s → Settled T (switchTo (s.upd p fun t =>
      { t with partner := partner, threadState := .waiting })
        (toTcb.getD .idle) .recvWait) := fun s h => by
    refine (h.updSelf (by intro _; rfl) (by intro _; rfl)).block ?_ (getD_thread ht) (by simp)
    rw [upd_state]
    simp [CanRun]
  unfold Hazelnut.recvBlock
  dsimp only
  split
  · exact hblock s h
  · split
    · exact (h.returnIpc _).settled
    · exact hblock _ (h.updSelf (by intro _; rfl) (by intro _; rfl)).enqueueWakeup

/-- The sender that is picked up is enqueued, the receiver blocked. -/
lemma recvFromReady (h : InHand T p s) {toTcb : Option TcbPtr} (ht : ∀ q, toTcb = some q → T q)
    (hq : T q) : Settled T (recvFromReady s p toTcb q) := by
  unfold Hazelnut.recvFromReady
  dsimp only
  have h1 : Queued T (fun t => t = p ∨ t = q) s := h.queued.mono fun t => Or.inl
  have h2 := h1.updState hq (f := fun t => { t with threadState := .lockedRunning })
    (by intro _; rfl) (Or.inl (Or.inr rfl)) (by intro _; rfl)
  have h3 := (h2.enqueue (F := (· = p)) hq fun t => id).dequeueSend p q
  have h4 : InHand T p _ := ⟨h3, by
    rw [(sameCtl_dequeueSend _ p q).current, current_enqueueReady]; exact h.current, h.thread⟩
  have h5 := (h4.updSelf (f := fun t => { t with threadState := .lockedWaiting })
    (by intro _; rfl) (by intro _; rfl)).dequeueWakeup q
  refine h5.block ?_ (Or.inr ?_) (by simp)
  · rw [ipc_dequeueWakeup, upd_state]
    simp [CanRun]
  · cases toTcb with
    | none => exact hq
    | some r => exact ht r rfl

lemma recvFrom (h : InHand T p s) {toTcb : Option TcbPtr} (ht : ∀ q, toTcb = some q → T q)
    (rcvDesc : Word)
    {src : Option TcbPtr} (hsrc : ∀ q, src = some q → T q) :
    Settled T (recvFrom s p toTcb rcvDesc src) := by
  have h1 := h.updSelf (f := fun t => { t with msgDesc := rcvDesc }) (by intro _; rfl)
    (by intro _; rfl)
  unfold Hazelnut.recvFrom
  dsimp only
  split
  · exact h1.recvBlock ht nilId
  · rename_i q
    split
    · exact h1.recvBlock ht _
    · exact h1.recvFromReady ht (hsrc q rfl)

/-- The receive phase. -/
lemma recvPhase (h : InHand T p s) {toTcb : Option TcbPtr} (ht : ∀ q, toTcb = some q → T q)
    (dest : Tid)
    (rcvDesc : Word) : Settled T (recvPhase s p toTcb dest rcvDesc) := by
  unfold Hazelnut.recvPhase
  dsimp only
  have h0 : InHand T p (if (s.tcb p).intrPending &&& irqInService ≠ 0 then
      s.upd p fun t => { t with intrPending := 0 } else s) := by
    split
    · exact h.updSelf (by intro _; rfl) (by intro _; rfl)
    · exact h
  generalize (if (s.tcb p).intrPending &&& irqInService ≠ 0 then
      s.upd p fun t => { t with intrPending := 0 } else s) = s0 at h0 ⊢
  split
  · split
    · have h1 := h0.updSelf
        (f := fun t => { t with intrPending := irqInService ||| (s0.tcb p).intrPending })
        (by intro _; rfl) (by intro _; rfl)
      split
      · rename_i q
        exact h1.yield (ht q rfl) (by simp)
      · exact ((h1.updSelf (by intro _; rfl) (by intro _; rfl)).returnIpcArgs _ _).settled
    · exact h0.recvFrom ht rcvDesc fun q hq => h0.queued.sendQueue p q hq
  · split
    · exact (h0.updSelf (by intro _; rfl) (by intro _; rfl)).ipcHandleKernelId dest
    · split
      · exact (h0.returnIpc _).settled
      · rename_i hmy
        refine h0.recvFrom ht rcvDesc fun q hq => ?_
        obtain rfl := Option.some.inj hq
        exact h0.queued.of_myself (not_not.mp hmy)

lemma transferMessage (h : InHand T p s) (q : TcbPtr) (sndDesc dope : Word) :
    InHand T p (transferMessage s p q sndDesc dope) := by
  have h1 := h.updRest q
    (f := fun t => { t with w0 := (s.tcb p).w0, w1 := (s.tcb p).w1, w2 := (s.tcb p).w2 })
    (by intro _; rfl) (by intro _; rfl) (by intro _; rfl)
  unfold Hazelnut.transferMessage
  dsimp only
  split
  · have h2 := (h1.dequeueWakeup q).updRest q (f := fun t => { t with msgDesc := dope })
      (by intro _; rfl) (by intro _; rfl) (by intro _; rfl)
    exact h2.updSelf (by intro _; rfl) (by intro _; rfl)
  · exact h1.updRest q (by intro _; rfl) (by intro _; rfl) (by intro _; rfl)

lemma sendTransfer (h : InHand T p s) {dest : Tid} (hd : T (tidToTcb dest))
    (sndDesc rcvDesc dope : Word) :
    Settled T (sendTransfer s p dest sndDesc rcvDesc dope) := by
  unfold Hazelnut.sendTransfer
  dsimp only
  have h1 := h.transferMessage (tidToTcb dest) sndDesc dope
  generalize Hazelnut.transferMessage s p (tidToTcb dest) sndDesc dope = s1 at h1 ⊢
  have h2 := h1.updRest (tidToTcb dest) (f := fun t => { t with partner := (s1.tcb p).myself })
    (by intro _; rfl) (by intro _; rfl) (by intro _; rfl)
  split
  · exact h2.yield hd (by simp)
  · refine h2.recvPhase (fun q hq => ?_) dest rcvDesc
    exact Option.some.inj hq ▸ hd

lemma sendPoll (h : InHand T p s) {dest : Tid} (hd : T (tidToTcb dest)) (sndDesc rcvDesc : Word) :
    Settled T (sendPoll s p dest sndDesc rcvDesc) := by
  have hpoll : ∀ s, InHand T p s →
      Settled T (switchTo ((threadEnqueueSend s (tidToTcb dest) p).upd p fun t =>
      { t with threadState := .polling }) .idle (.sendPoll dest sndDesc rcvDesc)) := fun s h => by
    have h1 : InHand T p (threadEnqueueSend s (tidToTcb dest) p) :=
      ⟨h.queued.enqueueSend _ h.thread,
        (sameCtl_enqueueSend s _ p).current.trans h.current, h.thread⟩
    refine (h1.updSelf (by intro _; rfl) (by intro _; rfl)).block ?_ (Or.inl rfl) ?_
    · rw [upd_state]
      simp [CanRun]
    · intro dst a b he
      obtain ⟨rfl, -, -⟩ : dest = dst ∧ sndDesc = a ∧ rcvDesc = b := by simpa using he
      exact hd
  unfold Hazelnut.sendPoll
  dsimp only
  split
  · exact (h.returnIpc _).settled
  · split
    · exact hpoll s h
    · split
      · exact (h.returnIpc _).settled
      · exact hpoll _ (h.updSelf (by intro _; rfl) (by intro _; rfl)).enqueueWakeup

/-- **IPC** loses no runnable thread. -/
lemma sysIpc (h : InHand T p s) (dest : Tid) (sndDesc rcvDesc dope : Word) :
    Settled T (sysIpc s p dest sndDesc rcvDesc dope) := by
  unfold Hazelnut.sysIpc
  dsimp only
  split
  · exact h.recvPhase (by simp) dest rcvDesc
  · split
    · rename_i hmy
      have hd : T (tidToTcb dest) := h.queued.of_myself hmy
      have h1 := h.updSelf (f := fun t => { t with partner := dest }) (by intro _; rfl)
        (by intro _; rfl)
      split
      · exact h1.sendPoll hd sndDesc rcvDesc
      · exact h1.sendTransfer hd sndDesc rcvDesc dope
    · exact (h.returnIpc _).settled

/-- **Going on** behind a switch loses no runnable thread. -/
lemma resume (h : InHand T p s) (dope : Word) : Settled T (resume s p dope) := by
  unfold Hazelnut.resume
  dsimp only
  have h1 : InHand T p (s.upd p fun t => { t with cont := .user }) :=
    ⟨h.queued.upd p (by intro _; rfl) (Or.inl rfl) (Or.inr (Or.inl rfl)), h.current, h.thread⟩
  cases hc : (s.tcb p).cont with
  | user => exact h1.settled
  | sendSwitch => exact (h1.returnIpc _).settled
  | irqSwitch irq => exact ((h1.updSelf (by intro _; rfl) (by intro _; rfl)).returnIpcArgs
      _ _).settled
  | recvWait =>
      dsimp only
      split
      · exact (h1.returnIpc _).settled
      · exact (((h1.dequeueWakeup p).updSelf (by intro _; rfl) (by intro _; rfl)).returnIpcArgs
          _ _).settled
  | recvReady => exact ((h1.updSelf (by intro _; rfl) (by intro _; rfl)).returnIpcArgs _ _).settled
  | kernelWait dest =>
      dsimp only
      split
      · exact (h1.returnIpcArgs _ _).settled
      · exact (((h1.dequeueWakeup p).updSelf (by intro _; rfl) (by intro _; rfl)).returnIpcArgs
          _ _).settled
  | sendPoll dest sndDesc rcvDesc =>
      dsimp only
      split
      · exact (h1.returnIpc _).settled
      · exact (h1.dequeueWakeup p).sendTransfer (h.queued.polls p dest _ _ hc) sndDesc rcvDesc dope

end InHand

/-! ### Cancelling -/

lemma tidToTcb_ne_nil {t : Tid} (h : tidTask t ≠ 0) : tidToTcb t ≠ nilTcb := fun he => h (by
  have h0 : t.extractLsb' 10 14 = 0 := by simpa [tidToTcb, nilTcb, nilId] using he
  unfold tidTask
  ext i hi
  have h1 := congrArg (fun x : BitVec 14 => x.getLsbD (6 + i)) h0
  simp only [BitVec.getLsbD_extractLsb', show 6 + i < 14 by omega, decide_true, Bool.true_and] at h1
  rw [← BitVec.getLsbD_eq_getElem, BitVec.getLsbD_extractLsb',
    show 16 + i = 10 + (6 + i) by omega, h1]
  simp)

namespace Queued

/-- `unwind_ipc` enqueues each partner it sets running, and panics on a TCB nobody created. -/
lemma unwindIpc {n : Nat} (h : Queued T E s) (hu : unwindIpc n s p = some s') :
    Queued T E s' ∧ s'.current = s.current ∧ (s.ipc p).threadState ≠ .free := by
  induction n generalizing s s' p with
  | zero => simp [Hazelnut.unwindIpc] at hu
  | succ n ih =>
      have h0 := h.dequeueWakeup p
      have hlocked : (s.ipc p).threadState = .lockedWaiting ∨
        (s.ipc p).threadState = .lockedRunning →
          Queued T E s' ∧ s'.current = s.current := fun hst => by
        have hp : T p := h.of_state (by rcases hst with h1 | h1 <;> simp [h1])
          (by rcases hst with h1 | h1 <;> simp [h1])
        obtain ⟨e, -, he⟩ := unwindIpc_locked n hst
        have h1 : Queued T E (markAborted s p) :=
          h0.updState hp (by intro _; rfl) (Or.inr (by simp [CanRun])) (by intro _; rfl)
        rw [he] at hu
        obtain ⟨s2, h2, rfl⟩ := Option.map_eq_some_iff.mp hu
        split at h2
        · obtain rfl := Option.some.inj h2
          exact ⟨h1.returnIpc p (.err e), rfl⟩
        · rename_i hk
          obtain ⟨s3, h3, rfl⟩ := Option.map_eq_some_iff.mp h2
          obtain ⟨h4, hc, hf⟩ := ih h1 h3
          have hq : T (tidToTcb (s.ipc p).partner) := by
            by_contra hn
            rcases h1.state _ hn with h5 | h5
            · exact hf h5
            · exact tidToTcb_ne_nil hk h5.1
          exact ⟨(h4.makeRunning hq).returnIpc p (.err e), (makeRunning_current s3 _).trans hc⟩
      cases hst : (s.ipc p).threadState with
      | free =>
          rw [Hazelnut.unwindIpc, show ((threadDequeueWakeup s p).tcb p).threadState =
            .free from hst] at hu
          simp at hu
      | running =>
          rw [unwindIpc_still n (Or.inl hst)] at hu
          obtain rfl := Option.some.inj hu
          exact ⟨h0, rfl, by simp⟩
      | aborted =>
          rw [unwindIpc_still n (Or.inr hst)] at hu
          obtain rfl := Option.some.inj hu
          exact ⟨h0, rfl, by simp⟩
      | waiting =>
          rw [unwindIpc_waiting n hst] at hu
          obtain rfl := Option.some.inj hu
          exact ⟨h0.returnIpc p _, rfl, by simp⟩
      | polling =>
          rw [unwindIpc_polling n hst] at hu
          obtain rfl := Option.some.inj hu
          exact ⟨(h0.dequeueSend _ p).returnIpc p _, (sameCtl_dequeueSend _ _ p).current, by simp⟩
      | lockedWaiting =>
          obtain ⟨h1, h2⟩ := hlocked (Or.inl hst)
          exact ⟨h1, h2, by simp⟩
      | lockedRunning =>
          obtain ⟨h1, h2⟩ := hlocked (Or.inr hst)
          exact ⟨h1, h2, by simp⟩

/-- The thread whose registers are exchanged need not be excepted. -/
lemma exchangeRegs (h : Queued T E s)
    (hE : ∀ t, E t → F t ∨ t = p ∧ (s.ipc p).threadState = .running)
    (uip usp : Word) (pager : Tid) : Queued T F (exchangeRegs s p uip usp pager) := by
  have h1 := h.updRest p (f := fun t =>
    { t with
      usp := if usp = noDesc then t.usp else usp
      uip := if uip = noDesc then t.uip else uip
      pager := if pager = invalidId then t.pager else pager })
    (by intro _; rfl) (by intro _; rfl) (by intro _; rfl)
  have hst := InHand.upd_state s p (fun t =>
    { t with
      usp := if usp = noDesc then t.usp else usp
      uip := if uip = noDesc then t.uip else uip
      pager := if pager = invalidId then t.pager else pager })
  unfold Hazelnut.exchangeRegs
  dsimp only
  generalize s.upd p _ = s1 at h1 hst ⊢
  split
  · rename_i hr
    have hr : (s1.ipc p).threadState = .running := hr
    exact h1.enqueue (h1.of_state (by simp [hr]) (by simp [hr])) fun t ht =>
      (hE t ht).imp id And.left
  · rename_i hr
    exact h1.mono fun t ht => (hE t ht).resolve_right fun h2 => hr (hst.trans h2.2)

/-! ### New threads -/

/-- A thread is created and enqueued. -/
lemma create (h : Queued T E s) (tid : Tid) (hp : ¬T (tidToTcb tid)) (ht : tidTask tid ≠ 0)
    (space : Option Nat) (uip usp : Word) (pager : Tid) (prio : Nat) :
    Queued (fun t => T t ∨ t = tidToTcb tid) E
      (startThread (createTcb s tid space) (tidToTcb tid) uip usp pager prio) := by
  have hipc := startThread_ipc s tid space uip usp pager prio
  have hother : ∀ t, t ≠ tidToTcb tid →
      (startThread (createTcb s tid space) (tidToTcb tid) uip usp pager prio).ipc t = s.ipc t :=
      fun t hne => by
    rw [hipc, if_neg hne]
  have hself := hipc (tidToTcb tid)
  rw [if_pos rfl] at hself
  have hne : tidToTcb tid ≠ nilTcb := tidToTcb_ne_nil ht
  have hold : ∀ t, T t → t ≠ tidToTcb tid := fun t h1 he => hp (he ▸ h1)
  -- the queues, up to the moment the new thread enters its own
  have hout : ((createTcb s tid space).tcb (tidToTcb tid)).queueReady = false := by
    simp [createTcb, threadEnqueuePresent, Sys.upd]
  have hrest : ∀ t, t ≠ tidToTcb tid → (createTcb s tid space).tcb t = s.tcb t := fun t h1 => by
    simp [createTcb, threadEnqueuePresent, Sys.upd, h1]
  have h1 : ReadyQueues (createTcb s tid space) :=
    (h.rings.updOut (h.out _ hp) (f := fun t =>
      { t with
        myself := tid, threadState := .aborted, queueReady := false, sendQueue := none,
        intrPending := 0, timeslice := defaultTimeslice, currentTimeslice := 0,
        space := space.getD s.nextSpace }) fun t => Or.inr rfl).same ⟨fun _ => rfl, rfl⟩
  have h2 : ReadyQueues ((createTcb s tid space).upd (tidToTcb tid) fun t =>
      { t with
        uip := uip, usp := usp, cont := .user, pager := pager, priority := prio, threadState :=
        .running }) :=
    h1.updOut hout fun t => Or.inl rfl
  obtain ⟨h3, hq, -⟩ := h2.enqueue (tidToTcb tid)
  have hqo : ∀ t, t ≠ tidToTcb tid →
      ((startThread (createTcb s tid space) (tidToTcb tid) uip usp pager prio).tcb t).queueReady
        = (s.tcb t).queueReady := fun t h4 => by
    have h5 := hq t
    rw [if_neg h4] at h5
    refine h5.trans ?_
    rw [← hrest t h4]
    simp [Sys.upd, h4]
  constructor
  case threads =>
    intro t
    by_cases htp : t = tidToTcb tid
    · subst htp
      refine ⟨fun _ => ⟨by simp [tidToTcb], hne, ?_⟩, fun _ => Or.inr rfl⟩
      rw [hself]
      intro he
      have he : tid = nilId := he
      rw [he] at ht
      exact ht (by decide)
    · rw [IsThread, hother t htp, h.threads]
      exact ⟨fun h4 => h4.resolve_right htp, Or.inl⟩
  case rings => exact h3
  case ready =>
    intro t h4 he hr
    by_cases htp : t = tidToTcb tid
    · rw [htp]
      exact (hq _).trans (if_pos rfl)
    · rw [hother t htp] at hr
      rw [hqo t htp]
      exact h.ready t (h4.resolve_right htp) he hr
  case out =>
    intro t h4
    rw [hqo t fun he => h4 (Or.inr he)]
    exact h.out t fun h5 => h4 (Or.inl h5)
  case state =>
    intro t h4
    rw [hother t fun he => h4 (Or.inr he)]
    exact h.state t fun h5 => h4 (Or.inl h5)
  case nil => rw [hother _ hne.symm]; exact h.nil
  case idle => rw [hother _ (by simp [tidToTcb])]; exact h.idle
  case slice =>
    rintro t (h4 | rfl)
    · rw [hother t (hold t h4)]; exact h.slice t h4
    · rw [hself]; show 0 < defaultTimeslice; decide
  case task =>
    rintro t (h4 | rfl)
    · rw [hother t (hold t h4)]; exact h.task t h4
    · rw [hself]; exact ht
  case wakeup =>
    intro t h4
    rw [startThread, wakeup_enqueueReady] at h4
    exact Or.inl (h.wakeup t h4)
  case polls =>
    intro t dest a b h4
    by_cases htp : t = tidToTcb tid
    · rw [htp, hself] at h4; simp at h4
    · rw [hother t htp] at h4
      exact Or.inl (h.polls t dest a b h4)
  case sendQueue =>
    intro t q h4
    by_cases htp : t = tidToTcb tid
    · rw [htp, hself] at h4; simp at h4
    · rw [hother t htp] at h4
      exact Or.inl (h.sendQueue t q h4)
  case sendNext =>
    intro t q h4
    by_cases htp : t = tidToTcb tid
    · rw [htp, hself] at h4
      exact Or.inl (h.sendNext _ q h4)
    · rw [hother t htp] at h4
      exact Or.inl (h.sendNext t q h4)

end Queued

namespace Settled

/-- A thread is created in a TCB that is not in use. -/
lemma create (h : Settled T s) {tid : Tid} (hex : ¬tcbExist s (tidToTcb tid)) (ht : tidTask tid ≠ 0)
    (space : Option Nat) (uip usp : Word) (pager : Tid) (prio : Nat) :
    ∃ T', Settled T' (startThread (createTcb s tid space) (tidToTcb tid) uip usp pager prio) := by
  have hp : ¬T (tidToTcb tid) := fun hp => ((h.queued.threads _).mp hp).2.2 (not_not.mp hex)
  have hcur : (startThread (createTcb s tid space) (tidToTcb tid) uip usp pager prio).current =
      s.current := by
    rw [startThread, current_enqueueReady]; rfl
  refine ⟨fun t => T t ∨ t = tidToTcb tid, ?_, ?_⟩
  · rw [hcur]; exact h.queued.create tid hp ht space uip usp pager prio
  · rw [hcur]; exact h.current.imp id Or.inl

/-- `sys_lthread_ex_regs`. -/
lemma exRegs (h : Settled T s) (hi : s.current ≠ .idle) {threadno uip usp : Word} {pager : Tid}
    (hx : sysLthreadExRegs s threadno uip usp pager = some s') : ∃ T', Settled T' s' := by
  have hq := h.queued
  have hc : T s.current := h.current.resolve_left hi
  have htask : tidTask (setThread (s.tcb s.current).myself threadno) ≠ 0 := by
    rw [tidTask_setThread]; exact hq.task _ hc
  unfold sysLthreadExRegs at hx
  dsimp only at hx
  generalize setThread (s.tcb s.current).myself threadno = tid at hx htask
  split at hx
  · split at hx
    · rename_i hex
      have hp : T (tidToTcb tid) :=
        (hq.threads _).mpr ⟨by simp [tidToTcb], tidToTcb_ne_nil htask, hex⟩
      obtain ⟨s1, hu, rfl⟩ := Option.map_eq_some_iff.mp hx
      obtain ⟨h1, hcur, -⟩ := hq.unwindIpc hu
      have h2 : Queued T (fun t => t = s.current ∨ t = tidToTcb tid) s1 := h1.mono fun t => Or.inl
      have h3 := h2.updState hp (f := fun t => { t with threadState := .running })
        (by intro _; rfl) (Or.inl (Or.inr rfl)) (by intro _; rfl)
      have h4 := h3.exchangeRegs (F := (· = s.current)) (p := tidToTcb tid)
        (fun t ht => ht.imp id fun he => ⟨he, InHand.upd_state s1 (tidToTcb tid) _⟩) uip usp pager
      have hcur' := (sameIpc_exchangeRegs
        (s1.upd (tidToTcb tid) fun t => { t with threadState := .running })
        (tidToTcb tid) uip usp pager).current.trans hcur
      refine ⟨T, ?_, ?_⟩
      · rw [hcur']; exact h4
      · rw [hcur']; exact h.current
    · rename_i hex
      obtain rfl := Option.some.inj hx
      exact h.create hex htask _ uip usp pager _
  · obtain rfl := Option.some.inj hx
    have hcur := (sameIpc_exchangeRegs s (tidToTcb tid) uip usp pager).current
    refine ⟨T, ?_, ?_⟩
    · rw [hcur]; exact hq.exchangeRegs (fun t => Or.inl) uip usp pager
    · rw [hcur]; exact h.current

end Settled

/-- No task is deleted: `sys_task_new` is called for a task that is not there, or for the
caller's own, which it leaves alone. -/
def NoDeletion (s : Sys) : Event → Prop
  | .taskNew task _ _ _ => tcbExist s (tidToTcb (setThread task 0)) →
      tidTask (s.tcb s.current).myself = tidTask (setThread task 0)
  | _ => True

namespace Settled

/-- `sys_task_new` without a deletion. -/
lemma taskNew (h : Settled T s) {task pager : Tid} {uip usp : Word}
    (hok : NoDeletion s (.taskNew task pager uip usp))
    (hx : sysTaskNew s task pager uip usp = some s') :
    ∃ T', Settled T' s' := by
  have hok : tcbExist s (tidToTcb (setThread task 0)) →
    tidTask (s.tcb s.current).myself = tidTask (setThread task 0) := hok
  unfold sysTaskNew at hx
  dsimp only at hx
  generalize setThread task 0 = tid at hx hok
  split at hx
  · simp at hx
  · rename_i htask
    split at hx
    · exact ⟨T, Option.some.inj hx ▸ h⟩
    · rename_i hsame
      have hex : ¬tcbExist s (tidToTcb tid) := fun hex => hsame (hok hex)
      rw [if_neg hex, Option.map_some] at hx
      obtain rfl := Option.some.inj hx
      split
      · exact ⟨T, h⟩
      · exact h.create hex htask none uip usp pager _

/-- **Each step** keeps the ready queues complete. -/
lemma step (h : Settled T s) {e : Event} (hok : NoDeletion s e) (hstep : step s e = some s') :
    ∃ T', Settled T' s' := by
  have hand : s.current ≠ .idle → InHand T s.current s := fun hi =>
    ⟨h.queued, rfl, h.current.resolve_left hi⟩
  cases e with
  | ipc dest sndDesc rcvDesc timeout w0 w1 w2 dope =>
      simp only [Hazelnut.step] at hstep
      split at hstep
      · rename_i hu
        obtain rfl := Option.some.inj hstep
        have h1 := (hand hu.1).updSelf
          (f := fun t => { t with ipcTimeout := timeout, w0 := w0, w1 := w1, w2 := w2 })
          (by intro _; rfl) (by intro _; rfl)
        exact ⟨T, h1.sysIpc dest sndDesc rcvDesc dope⟩
      · simp at hstep
  | exRegs threadno uip usp pager =>
      simp only [Hazelnut.step] at hstep
      split at hstep
      · rename_i hu
        exact h.exRegs hu.1 hstep
      · simp at hstep
  | taskNew task pager uip usp =>
      simp only [Hazelnut.step] at hstep
      split at hstep
      · exact h.taskNew hok hstep
      · simp at hstep
  | threadSwitch tid =>
      simp only [Hazelnut.step] at hstep
      split at hstep
      · rename_i hu
        exact ⟨T, h.threadSwitch hu.1 hstep⟩
      · simp at hstep
  | schedule param tid =>
      simp only [Hazelnut.step] at hstep
      split at hstep
      · exact ⟨T, Option.some.inj hstep ▸ h.schedule param tid⟩
      · simp at hstep
  | timer =>
      simp only [Hazelnut.step] at hstep
      split at hstep
      · exact ⟨T, h.timer hstep⟩
      · simp at hstep
  | irq number =>
      simp only [Hazelnut.step] at hstep
      split at hstep
      · exact ⟨T, Option.some.inj hstep ▸ h.irq number⟩
      · simp at hstep
  | resume dope =>
      simp only [Hazelnut.step] at hstep
      split at hstep
      · simp at hstep
      · rename_i hint
        -- the idle thread is always interruptible
        have hi : s.current ≠ .idle :=
          fun hi => hint (by unfold interruptible; rw [hi]; exact h.queued.idle)
        exact ⟨T, Option.some.inj hstep ▸ (hand hi).resume dope⟩
  | idle =>
      simp only [Hazelnut.step] at hstep
      split at hstep
      · rename_i hi
        have h1 := h.queued.enqueueCurrent h.current
        rw [if_pos hi] at h1
        exact ⟨T, h1.reschedule h.current hstep⟩
      · simp at hstep

end Settled

/-! ### Runs -/

lemma queued_nilSys : Queued (fun _ => False) (fun _ => False) nilSys := by
  have hr : ∀ t, (nilSys.tcb t).queueReady = false := fun t => by
    cases t with
    | idle => rfl
    | slot n =>
        by_cases hn : TcbPtr.slot n = tidToTcb nilId
        · rw [hn]; rfl
        · simp [nilSys, createTcb, threadEnqueuePresent, Sys.upd, hn, bootSys, zeroTcb]
  constructor
  case threads =>
    intro t
    refine ⟨False.elim, fun ht => ?_⟩
    have h1 := ht.2.2
    rw [nilSys_ipc, if_neg ht.2.1, if_neg ht.1] at h1
    exact h1 rfl
  case rings =>
    refine fun i => ⟨[], ⟨List.nodup_nil, rfl, trivial⟩, fun t => ?_⟩
    simp [InReady, hr]
  case ready => exact fun _ ht => ht.elim
  case out => exact fun t _ => hr t
  case state =>
    intro t _
    rw [nilSys_ipc]
    split_ifs with h1 h2
    · exact Or.inr ⟨h1, rfl⟩
    · exact Or.inl rfl
    · exact Or.inl rfl
  case nil => rw [nilSys_ipc, if_pos rfl]
  case idle => rfl
  case slice => exact fun _ ht => ht.elim
  case task => exact fun _ ht => ht.elim
  case wakeup => exact fun _ ht => absurd ht (by
    simp [nilSys, createTcb, bootSys, threadEnqueuePresent])
  all_goals
    intros
    rename_i h1
    rw [nilSys_ipc] at h1
    split_ifs at h1 <;> simp [zeroTcb] at h1

lemma settled_initSys : ∃ T, Settled T initSys := by
  have h1 := queued_nilSys.create sigma0Id (fun h => h) (by decide) none 0 0 nilId 50
  have h2 := h1.create rootTaskId (by rintro (h | h); exacts [h, absurd h (by decide)]) (by decide)
    none 0 0 sigma0Id 50
  have hc : initSys.current = .idle := by
    unfold initSys startThread
    rw [current_enqueueReady]
    exact current_enqueueReady _ _
  exact ⟨_, h2.mono fun _ => False.elim, Or.inl hc⟩

/-- **No runnable thread is lost**: in a run that deletes no task, every thread but the running one
that is in one of the two runnable states is a member of the ready queue of its priority.  A TCB
without a thread is in neither state, so the thread need not be asked to exist. -/
theorem runnable_queued (h : RunBy NoDeletion s) (hpc : p ≠ s.current)
    (hr : (s.ipc p).threadState = .running ∨ (s.ipc p).threadState = .lockedRunning) :
    ∃ l, ReadyRing s (s.tcb p).priority l ∧ p ∈ l := by
  obtain ⟨T, hT⟩ := h.invariant (P := fun s => ∃ T, Settled T s) settled_initSys
    fun s e s' ⟨T, hT⟩ hok hstep => hT.step hok hstep
  have ht : T p := hT.queued.of_state (by rcases hr with h1 | h1 <;> simp [h1])
    (by rcases hr with h1 | h1 <;> simp [h1])
  obtain ⟨l, hl, hmem⟩ := hT.queued.rings (s.tcb p).priority
  exact ⟨l, hl, (hmem p).mpr ⟨hT.queued.ready p ht hpc hr, rfl⟩⟩

/-- The root task gives way to sigma0. -/
def switchedRun : List Event := [.idle, .threadSwitch sigma0Id]

theorem runnable_queued_switched : ∃ s, RunBy NoDeletion s ∧ s.current = tidToTcb sigma0Id ∧
    ∃ l, ReadyRing s (s.tcb (tidToTcb rootTaskId)).priority l ∧ tidToTcb rootTaskId ∈ l := by
  obtain ⟨s, hs, hc, h1⟩ := exists_run switchedRun (P := fun s => s.current = tidToTcb sigma0Id ∧
    (s.ipc (tidToTcb rootTaskId)).threadState = .running) (by decide +kernel)
  have hrun : RunBy NoDeletion s := RunBy.init.run (fun e he _ => by
    simp only [switchedRun, List.mem_cons, List.not_mem_nil, or_false] at he
    rcases he with rfl | rfl <;> trivial) hs
  exact ⟨s, hrun, hc, runnable_queued hrun (by rw [hc]; decide) (Or.inl h1)⟩

end Hazelnut
