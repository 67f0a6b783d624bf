import Mathlib.Data.List.Basic
import Hazelnut.Thread.Tcb

/-!
Thread migration between processors, after `smp_move_thread` of `kernel/src/x86/smp.c`.

* `QueueKind`: the three queues a processor keeps its threads in; `threadEnqueue` and
  `threadDequeue` are what the functions on them have in common.
* `doXcpuThreadGet`, `doXcpuThreadPut`: the handlers.  The mailbox carries the queue state.
* `moveLoop`: the attempts.  What other processors do to the threads before a request is handled is
  a parameter.
* `SmpPlaced`: a thread is in the queues of its processor that its queue state says.
* `smpMoveThread_iff`: the moves that keep the thread in the wakeup queue or out of it.
-/

namespace Hazelnut

/-! ### Queues -/

/-- The queues of a processor. -/
inductive QueueKind where
  | ready
  | present
  | wakeup
  deriving DecidableEq, Repr

/-- `TS_QUEUE_READY`, `TS_QUEUE_PRESENT`, `TS_QUEUE_WAKEUP`. -/
def QueueKind.mask : QueueKind → Word
  | ready => 0x01
  | present => 0x02
  | wakeup => 0x04

/-- The queues of all processors, and what the threads know of them. -/
structure SmpQueues where
  cpu : TcbPtr → Nat
  queueState : TcbPtr → Word
  queue : QueueKind → Nat → List TcbPtr

/-- A queue state has the bit of a queue. -/
def inQueue (qs : Word) (q : QueueKind) : Prop := qs &&& q.mask ≠ 0

instance (qs : Word) (q : QueueKind) : Decidable (inQueue qs q) :=
    inferInstanceAs (Decidable (_ ≠ _))

namespace SmpQueues

/-- On processor `c` a thread is put into a queue. -/
def threadEnqueue (q : QueueKind) (c : Nat) (t : TcbPtr) (s : SmpQueues) : SmpQueues :=
  if ¬inQueue (s.queueState t) q then
    { s with
      queue := fun q' c' => if q' = q ∧ c' = c then t :: s.queue q' c' else s.queue q' c'
      queueState := Function.update s.queueState t (s.queueState t ||| q.mask) }
  else s

/-- A thread is taken off a queue, whichever processor's it is. -/
def threadDequeue (q : QueueKind) (t : TcbPtr) (s : SmpQueues) : SmpQueues :=
  if inQueue (s.queueState t) q then
    { s with
      queue := fun q' c' => if q' = q then (s.queue q' c').filter (· ≠ t) else s.queue q' c'
      queueState := Function.update s.queueState t (s.queueState t &&& ~~~q.mask) }
  else s

def threadEnqueuePresent (c : Nat) (t : TcbPtr) (s : SmpQueues) := threadEnqueue .present c t s
def threadEnqueueReady (c : Nat) (t : TcbPtr) (s : SmpQueues) := threadEnqueue .ready c t s
def threadEnqueueWakeup (c : Nat) (t : TcbPtr) (s : SmpQueues) := threadEnqueue .wakeup c t s
def threadDequeuePresent (t : TcbPtr) (s : SmpQueues) := threadDequeue .present t s
def threadDequeueReady (t : TcbPtr) (s : SmpQueues) := threadDequeue .ready t s
def threadDequeueWakeup (t : TcbPtr) (s : SmpQueues) := threadDequeue .wakeup t s

/-- `thread_adapt_queue_state`. -/
def threadAdaptQueueState (c : Nat) (t : TcbPtr) (qs : Word) (s : SmpQueues) : SmpQueues :=
  let s := threadEnqueuePresent c t s
  let s := threadEnqueueReady c t s
  if inQueue qs .wakeup then threadEnqueueWakeup c t s else s

/-- The three queues are left. -/
def leaveQueues (t : TcbPtr) (s : SmpQueues) : SmpQueues :=
  threadDequeueWakeup t (threadDequeueReady t (threadDequeuePresent t s))

def setCpu (t : TcbPtr) (c : Nat) (s : SmpQueues) : SmpQueues :=
  { s with cpu := Function.update s.cpu t c }

end SmpQueues

open SmpQueues

/-! ### Migration -/

/-- The parameters of a `cpu_mailbox_t`. -/
abbrev MailboxParam := Nat → Word

/-- `do_xcpu_thread_get` on processor `c`; none if it answers `MAILBOX_ERROR`. -/
def doXcpuThreadGet (c : Nat) (t : TcbPtr) (param : MailboxParam) (s : SmpQueues) :
    Option (MailboxParam × SmpQueues) :=
  -- not on our cpu!
  if s.cpu t ≠ c then none
  else some (Function.update param 0 (s.queueState t), leaveQueues t s)

/-- `do_xcpu_thread_put` on processor `c`. -/
def doXcpuThreadPut (c : Nat) (t : TcbPtr) (param : MailboxParam) (s : SmpQueues) : SmpQueues :=
  threadAdaptQueueState c t (param 0) (setCpu t c s)

/-- The attempts of processor `me` to move a thread.  Each function of the list is what the other
processors do until a request is handled.  The result is the state in which the thread is taken off
its queues, and the last one; none if the list is used up, or if the processor waits for itself. -/
def moveLoop (me : Nat) (t : TcbPtr) (target : Nat) (param : MailboxParam) :
    List (SmpQueues → SmpQueues) → SmpQueues → Option (SmpQueues × SmpQueues)
  | [], s =>
      if s.cpu t = me ∧ target ≠ me then some (s, doXcpuThreadPut target t param (leaveQueues t s))
      else none
  | others :: rest, s =>
      if s.cpu t = me then
        -- we have the thread - so, we can give it away
        if target ≠ me then some (s, doXcpuThreadPut target t param (leaveQueues t s)) else none
      else
        -- we don't have the thread - ask the cpu
        let s' := others s
        match doXcpuThreadGet (s.cpu t) t param s' with
        | none => moveLoop me t target param rest s'
        | some (param', s'') =>
            if target = me then
              -- the thread comes to us
              some (s', threadAdaptQueueState me t (param' 1) (setCpu t me s''))
            else some (s', doXcpuThreadPut target t param' s'')

/-- `smp_move_thread`. -/
def smpMoveThread (me : Nat) (online : Nat → Bool) (t : TcbPtr) (target : Nat)
    (param : MailboxParam)
    (others : List (SmpQueues → SmpQueues)) (s : SmpQueues) : Option (SmpQueues × SmpQueues) :=
  let param := Function.update param 0 (s.queueState t)
  if s.cpu t = target then some (s, s)
  else if online target = false then some (s, s)
  else moveLoop me t target param others s

/-! ### Where a thread is -/

/-- A thread is in the queues that its queue state says, all of its own processor. -/
def SmpPlaced (t : TcbPtr) (s : SmpQueues) : Prop :=
  ∀ q c, t ∈ s.queue q c ↔ inQueue (s.queueState t) q ∧ c = s.cpu t

section placed

variable {t : TcbPtr} {s : SmpQueues} {q q' : QueueKind} {qs : Word} {c : Nat}

lemma mask_and_mask : q.mask &&& q'.mask = if q' = q then q.mask else 0 := by
  cases q <;> cases q' <;> decide

lemma mask_ne_zero : q.mask ≠ 0 := by cases q <;> decide

lemma inQueue_or : inQueue (qs ||| q.mask) q' ↔ q' = q ∨ inQueue qs q' := by
  rw [inQueue, BitVec.and_or_distrib_right, mask_and_mask, inQueue]
  split_ifs with h
  · exact ⟨fun _ => Or.inl h, fun _ h0 => mask_ne_zero (BitVec.or_eq_zero_iff.mp h0).2⟩
  · simp [h]

lemma inQueue_and_not : inQueue (qs &&& ~~~q.mask) q' ↔ q' ≠ q ∧ inQueue qs q' := by
  have hmask : ~~~q.mask &&& q'.mask = if q' = q then 0 else q'.mask := by
    cases q <;> cases q' <;> decide
  rw [inQueue, BitVec.and_assoc, hmask, inQueue]
  split_ifs with h
  · simp [h]
  · simp [h]

@[simp] lemma threadEnqueue_cpu : (threadEnqueue q c t s).cpu = s.cpu := by
  rw [threadEnqueue]
  split_ifs <;> rfl

@[simp] lemma threadDequeue_cpu : (threadDequeue q t s).cpu = s.cpu := by
  rw [threadDequeue]
  split_ifs <;> rfl

lemma inQueue_enqueue :
    inQueue ((threadEnqueue q c t s).queueState t) q' ↔ q' = q ∨ inQueue (s.queueState t) q' := by
  rw [threadEnqueue]
  split_ifs with h
  · refine ⟨Or.inr, ?_⟩
    rintro (rfl | h')
    · exact h
    · exact h'
  · dsimp only
    rw [Function.update_self, inQueue_or]

lemma inQueue_dequeue :
    inQueue ((threadDequeue q t s).queueState t) q' ↔ q' ≠ q ∧ inQueue (s.queueState t) q' := by
  rw [threadDequeue]
  split_ifs with h
  · dsimp only
    rw [Function.update_self, inQueue_and_not]
  · exact ⟨fun h' => ⟨fun heq => h (heq ▸ h'), h'⟩, And.right⟩

/-- A thread is put into queues of its own processor only. -/
lemma SmpPlaced.enqueue (hp : SmpPlaced t s) (hc : c = s.cpu t) :
    SmpPlaced t (threadEnqueue q c t s) := by
  intro q' c'
  rw [inQueue_enqueue, threadEnqueue_cpu, threadEnqueue]
  have hold := hp q' c'
  split_ifs with h
  · rw [hold]
    constructor
    · exact fun ⟨hin, hcc⟩ => ⟨Or.inr hin, hcc⟩
    · rintro ⟨rfl | hin, hcc⟩
      · exact ⟨h, hcc⟩
      · exact ⟨hin, hcc⟩
  · dsimp only
    split_ifs with hq
    · obtain ⟨rfl, rfl⟩ := hq
      exact ⟨fun _ => ⟨Or.inl rfl, hc⟩, fun _ => List.mem_cons_self⟩
    · rw [hold]
      constructor
      · exact fun ⟨hin, hcc⟩ => ⟨Or.inr hin, hcc⟩
      · rintro ⟨rfl | hin, hcc⟩
        · exact absurd ⟨rfl, hcc.trans hc.symm⟩ hq
        · exact ⟨hin, hcc⟩

lemma SmpPlaced.dequeue (hp : SmpPlaced t s) : SmpPlaced t (threadDequeue q t s) := by
  intro q' c'
  rw [inQueue_dequeue, threadDequeue_cpu, threadDequeue]
  have hold := hp q' c'
  split_ifs with h
  · dsimp only
    split_ifs with hq
    · subst hq
      constructor
      · exact fun hmem => absurd rfl (of_decide_eq_true (List.mem_filter.mp hmem).2)
      · exact fun hmem => absurd rfl hmem.1.1
    · rw [hold]
      exact ⟨fun ⟨hin, hcc⟩ => ⟨⟨hq, hin⟩, hcc⟩, fun ⟨⟨_, hin⟩, hcc⟩ => ⟨hin, hcc⟩⟩
  · rw [hold]
    exact ⟨fun ⟨hin, hcc⟩ => ⟨⟨fun heq => h (heq ▸ hin), hin⟩, hcc⟩,
      fun ⟨⟨_, hin⟩, hcc⟩ => ⟨hin, hcc⟩⟩

/-- Off all queues. -/
lemma SmpPlaced.leave (hp : SmpPlaced t s) : SmpPlaced t (leaveQueues t s) :=
  hp.dequeue.dequeue.dequeue

lemma inQueue_leave : ¬inQueue ((leaveQueues t s).queueState t) q := by
  rw [leaveQueues, SmpQueues.threadDequeueWakeup, SmpQueues.threadDequeueReady,
    SmpQueues.threadDequeuePresent,
    inQueue_dequeue, inQueue_dequeue, inQueue_dequeue]
  cases q <;> simp

/-- A thread that is in no queue may change its processor. -/
lemma SmpPlaced.setCpu (hp : SmpPlaced t s) (hno : ∀ q, ¬inQueue (s.queueState t) q) :
    SmpPlaced t (setCpu t c s) := by
  intro q c'
  rw [SmpQueues.setCpu]
  exact ⟨fun hmem => absurd ((hp q c').mp hmem).1 (hno q), fun hmem => absurd hmem.1 (hno q)⟩

lemma SmpPlaced.adapt (hp : SmpPlaced t s) (hc : c = s.cpu t) :
    SmpPlaced t (threadAdaptQueueState c t qs s) := by
  have hpresent : SmpPlaced t (SmpQueues.threadEnqueuePresent c t s) := hp.enqueue hc
  have hready : SmpPlaced t
      (SmpQueues.threadEnqueueReady c t (SmpQueues.threadEnqueuePresent c t s)) := by
    refine hpresent.enqueue ?_
    rw [SmpQueues.threadEnqueuePresent, threadEnqueue_cpu, hc]
  rw [threadAdaptQueueState]
  split_ifs
  · refine hready.enqueue ?_
    rw [SmpQueues.threadEnqueueReady, SmpQueues.threadEnqueuePresent, threadEnqueue_cpu,
      threadEnqueue_cpu, hc]
  · exact hready

@[simp] lemma adapt_cpu : (threadAdaptQueueState c t qs s).cpu = s.cpu := by
  rw [threadAdaptQueueState]
  split_ifs
  · simp [SmpQueues.threadEnqueueWakeup, SmpQueues.threadEnqueueReady,
      SmpQueues.threadEnqueuePresent]
  · simp [SmpQueues.threadEnqueueReady, SmpQueues.threadEnqueuePresent]

lemma inQueue_adapt (hno : ∀ q, ¬inQueue (s.queueState t) q) :
    inQueue ((threadAdaptQueueState c t qs s).queueState t) q ↔
    (q = .wakeup → inQueue qs .wakeup) := by
  have hw := hno .wakeup
  rw [threadAdaptQueueState]
  split_ifs with h
  · rw [SmpQueues.threadEnqueueWakeup, inQueue_enqueue, SmpQueues.threadEnqueueReady,
      inQueue_enqueue,
      SmpQueues.threadEnqueuePresent, inQueue_enqueue]
    cases q <;> simp [h]
  · rw [SmpQueues.threadEnqueueReady, inQueue_enqueue, SmpQueues.threadEnqueuePresent,
      inQueue_enqueue]
    cases q <;> simp [h, hw]

end placed

/-! ### Moves -/

/-- The thread has been moved to `target`: it is in the present queue there, in the wakeup queue
there if it was in one before, and in no queue of another processor. -/
def Moved (t : TcbPtr) (target : Nat) (b a : SmpQueues) : Prop :=
  a.cpu t = target ∧ (∀ c, t ∈ a.queue .present c ↔ c = target) ∧
    (t ∈ a.queue .wakeup target ↔ t ∈ b.queue .wakeup (b.cpu t)) ∧
    ∀ q c, c ≠ target → t ∉ a.queue q c

/-- Off all queues of its processor and into those of `c` that `qs` asks for. -/
def replaced (t : TcbPtr) (c : Nat) (qs : Word) (b : SmpQueues) : SmpQueues :=
  threadAdaptQueueState c t qs (setCpu t c (leaveQueues t b))

section moves

variable {t : TcbPtr} {s b a : SmpQueues} {c me target : Nat} {qs : Word} {param : MailboxParam}
  {others : List (SmpQueues → SmpQueues)}

/-- What decides is the wakeup bit of the queue state that is handed over. -/
lemma moved_replaced_iff (hb : SmpPlaced t b) :
    Moved t c b (replaced t c qs b) ↔ (inQueue qs .wakeup ↔ inQueue (b.queueState t) .wakeup) := by
  have hoff := hb.leave.setCpu (c := c) fun _ => inQueue_leave
  have hcpu : (setCpu t c (leaveQueues t b)).cpu t = c := Function.update_self ..
  have hp : SmpPlaced t (replaced t c qs b) := hoff.adapt hcpu.symm
  have hcpu' : (replaced t c qs b).cpu t = c := by
    rw [replaced, adapt_cpu]
    exact hcpu
  have hbits : ∀ q, inQueue ((replaced t c qs b).queueState t) q ↔
      (q = .wakeup → inQueue qs .wakeup) :=
    fun q => inQueue_adapt fun _ => inQueue_leave
  have hwake : t ∈ (replaced t c qs b).queue .wakeup c ↔ inQueue qs .wakeup := by
    rw [hp, hbits, hcpu']
    simp
  have hwake' : t ∈ b.queue .wakeup (b.cpu t) ↔ inQueue (b.queueState t) .wakeup := by
    rw [hb]
    simp
  rw [Moved, hwake, hwake']
  refine ⟨fun h => h.2.2.1, fun h => ⟨hcpu', fun c' => ?_, h, fun q c' hne hmem => ?_⟩⟩
  · rw [hp, hbits, hcpu']
    simp
  · rw [hp, hcpu'] at hmem
    exact hne hmem.2

/-- Where the attempts end: the queue state that is handed over is the one a processor has just
read, the one of the start of the call, or a parameter that nothing sets. -/
lemma moveLoop_ends (hs : SmpPlaced t s) (ho : ∀ w ∈ others, ∀ s, SmpPlaced t s → SmpPlaced t (w s))
    (h : moveLoop me t target param others s = some (b, a)) :
    SmpPlaced t b ∧
      a = replaced t target
        (if target = me then param 1 else if b.cpu t = me then param 0 else b.queueState t) b := by
  induction others generalizing s param with
  | nil =>
    rw [moveLoop] at h
    split_ifs at h with hc
    cases h
    rw [if_neg hc.2, if_pos hc.1]
    exact ⟨hs, rfl⟩
  | cons w rest ih =>
    rw [moveLoop] at h
    by_cases hc : s.cpu t = me
    · rw [if_pos hc] at h
      split_ifs at h with hself
      cases h
      rw [if_neg hself, if_pos hc]
      exact ⟨hs, rfl⟩
    · have hw := ho w List.mem_cons_self s hs
      rw [if_neg hc] at h
      dsimp only at h
      rw [doXcpuThreadGet] at h
      by_cases hmoved : (w s).cpu t ≠ s.cpu t
      · -- the thread has moved meanwhile
        rw [if_pos hmoved] at h
        exact ih hw (fun w' hw' => ho w' (List.mem_cons_of_mem w hw')) h
      · rw [if_neg hmoved] at h
        dsimp only at h
        have hcpu : (w s).cpu t ≠ me := by
          rw [not_not.mp hmoved]
          exact hc
        split_ifs at h with hself
        · cases h
          rw [if_pos hself, Function.update_of_ne (by decide)]
          exact ⟨hw, by rw [hself]; rfl⟩
        · cases h
          rw [if_neg hself, if_neg hcpu]
          exact ⟨hw, rfl⟩

end moves

/-- One thread, in the queues of processor `c` that `qs` says. -/
def onCpu (t : TcbPtr) (c : Nat) (qs : Word) : SmpQueues where
  cpu _ := c
  queueState _ := qs
  queue q c' := if inQueue qs q ∧ c' = c then [t] else []

lemma onCpu_placed {t : TcbPtr} {c : Nat} {qs : Word} : SmpPlaced t (onCpu t c qs) := by
  intro q c'
  rw [onCpu]
  dsimp only
  split_ifs with h
  · exact ⟨fun _ => h, fun _ => List.mem_singleton_self t⟩
  · exact ⟨fun hmem => absurd hmem List.not_mem_nil, fun h' => absurd h' h⟩

end Hazelnut
