import Hazelnut.Thread.Tcb

/-!
The queues of `kernel/include/schedule.h` and `kernel/include/tcb.h`, and the
scheduler of `kernel/src/schedule.c`.

The lemmas record the frame of each operation: the ready queue and the
scheduler touch nothing the rendezvous depends on (`SameIpc`), the wakeup queue
only itself.  What the send queue operations do to the rings is in
`Thread.SendQueue`.
-/

namespace Hazelnut

/-! ### Ready queues -/

/-- `thread_enqueue_ready`. -/
def threadEnqueueReady (s : Sys) (p : TcbPtr) : Sys :=
  if (s.tcb p).queueReady then s
  else
    let prio := (s.tcb p).priority
    let s1 :=
      match s.prioQueue prio with
      | some tmp =>
          let before := (s.tcb tmp).readyPrev
          ((s.upd p fun t => { t with readyNext := some tmp, readyPrev := before }).updPtr before
            fun t => { t with readyNext := some p }).upd tmp fun t => { t with readyPrev := some p }
      | none =>
          { s.upd p fun t => { t with readyNext := some p, readyPrev := some p } with
            prioQueue := Function.update s.prioQueue prio (some p) }
    { s1.upd p fun t => { t with queueReady := true } with
      currentMaxPrio := max s.currentMaxPrio prio }

/-- `thread_dequeue_ready`. -/
def threadDequeueReady (s : Sys) (p : TcbPtr) : Sys :=
  if (s.tcb p).queueReady then
    let t := s.tcb p
    let s1 :=
      if t.readyNext = some p then
        { s with prioQueue := Function.update s.prioQueue t.priority none }
      else
        let s0 :=
          if s.prioQueue t.priority = some p then
            { s with prioQueue := Function.update s.prioQueue t.priority t.readyNext }
          else s
        (s0.updPtr t.readyPrev fun r => { r with readyNext := t.readyNext }).updPtr t.readyNext
          fun r => { r with readyPrev := t.readyPrev }
    s1.upd p fun r => { r with queueReady := false }
  else s

/-! ### Wakeup queue, present list -/

/-- `thread_enqueue_wakeup`: behind the idle TCB, unless the thread is queued. -/
def threadEnqueueWakeup (s : Sys) (p : TcbPtr) : Sys :=
  if p ∈ s.wakeup then s else { s with wakeup := p :: s.wakeup }

/-- `thread_dequeue_wakeup`. -/
def threadDequeueWakeup (s : Sys) (p : TcbPtr) : Sys :=
  { s with wakeup := s.wakeup.filter (· ≠ p) }

/-- `thread_enqueue_present`; `create_tcb` has just cleared `queue_state`, so that
the new thread counts as absent whatever the list holds. -/
def threadEnqueuePresent (s : Sys) (p : TcbPtr) : Sys :=
  { s with present := p :: s.present }

/-- `thread_dequeue_present`. -/
def threadDequeuePresent (s : Sys) (p : TcbPtr) : Sys :=
  { s with present := s.present.filter (· ≠ p) }

/-! ### Send queues -/

/-- `thread_enqueue_send`. -/
def threadEnqueueSend (s : Sys) (dest src : TcbPtr) : Sys :=
  match (s.tcb dest).sendQueue with
  | none =>
      (s.upd dest fun t => { t with sendQueue := some src }).upd src
        fun t => { t with sendNext := some src, sendPrev := some src }
  | some first =>
      let before := (s.tcb first).sendPrev
      ((s.upd src fun t => { t with sendPrev := before, sendNext := some first }).upd first
        fun t => { t with sendPrev := some src }).updPtr before
          fun t => { t with sendNext := some src }

/-- `thread_dequeue_send`. -/
def threadDequeueSend (s : Sys) (dest p : TcbPtr) : Sys :=
  let t := s.tcb p
  if t.sendNext = some p then s.upd dest fun r => { r with sendQueue := none }
  else
    let s0 :=
      if (s.tcb dest).sendQueue = some p then
        s.upd dest fun r => { r with sendQueue := t.sendNext }
      else s
    (s0.updPtr t.sendPrev fun r => { r with sendNext := t.sendNext }).updPtr t.sendNext
      fun r => { r with sendPrev := t.sendPrev }

/-! ### Scheduling -/

/-- `switch_to_thread`, `switch_to_idle`: the thread that is left goes on at `c`
when it is switched to again. -/
def switchTo (s : Sys) (p : TcbPtr) (c : Cont) : Sys :=
  { s.upd s.current fun t => { t with cont := c } with current := p }

/-- `dispatch_thread`, from code that returns to user mode. -/
def dispatchThread (s : Sys) (p : TcbPtr) : Sys :=
  if p = s.current then s
  else if p = .idle then switchTo s .idle .user
  else
    let s1 :=
      if (s.tcb p).queueReady then
        { s with prioQueue := Function.update s.prioQueue (s.tcb p).priority (some p) }
      else s
    switchTo s1 p .user

/-- The inner loop of `find_next_thread` on the queue of one priority; no result
if the loop does not end. -/
def findInQueue (i : Nat) : Nat → Sys → Option (Sys × Option TcbPtr)
  | 0, _ => none
  | fuel + 1, s =>
      match s.prioQueue i with
      | none => some (s, none)
      | some h =>
          match (s.tcb h).readyNext with
          | none => none
          | some p =>
              if isRunning (s.tcb p).threadState ∧ 0 < (s.tcb p).timeslice then
                some ({ s with prioQueue := Function.update s.prioQueue i (some p),
                               currentMaxPrio := i }, some p)
              else findInQueue i fuel (threadDequeueReady s p)

/-- There are no more than `2^14` threads to take out of a ready queue. -/
def tcbCount : Nat := 2 ^ 14 + 1

/-- The outer loop of `find_next_thread`. -/
def findFrom : Nat → Sys → Option (Sys × TcbPtr)
  | 0, s =>
      match findInQueue 0 tcbCount s with
      | none => none
      | some (s', some p) => some (s', p)
      | some (s', none) => some ({ s' with currentMaxPrio := -1 }, .idle)
  | i + 1, s =>
      match findInQueue (i + 1) tcbCount s with
      | none => none
      | some (s', some p) => some (s', p)
      | some (s', none) => findFrom i s'

/-- `find_next_thread`. -/
def findNextThread (s : Sys) : Option (Sys × TcbPtr) :=
  if s.currentMaxPrio < 0 then some ({ s with currentMaxPrio := -1 }, .idle)
  else findFrom s.currentMaxPrio.toNat s

/-- A thread is set running and enters its ready queue. -/
def makeRunning (s : Sys) (p : TcbPtr) : Sys :=
  threadEnqueueReady (s.upd p fun t => { t with threadState := .running }) p

/-- `parse_wakeup_queue` wakes up one thread. -/
def wakeUp (s : Sys) (p : TcbPtr) : Sys := makeRunning (threadDequeueWakeup s p) p

/-- The loop of `parse_wakeup_queue` over the threads behind `tcb`. -/
def parseWakeup (now : BitVec 64) : List TcbPtr → Nat → Option TcbPtr → Sys →
    Sys × Option TcbPtr
  | [], _, highest, s => (s, highest)
  | p :: rest, prio, highest, s =>
      if (s.tcb p).absoluteTimeout ≤ now then
        let up := prio < (s.tcb p).priority
        parseWakeup now rest (if up then (s.tcb p).priority else prio)
          (if up then some p else highest) (wakeUp s p)
      else parseWakeup now rest prio highest s

/-- `parse_wakeup_queue`. -/
def parseWakeupQueue (s : Sys) (prio : Nat) (now : BitVec 64) : Sys × Option TcbPtr :=
  parseWakeup now s.wakeup prio none s

/-- `TIME_QUANTUM`. -/
def timeQuantum : Nat := 1953

/-- `handle_timer_interrupt`. -/
def handleTimerInterrupt (s : Sys) : Option Sys :=
  let now := s.clock + BitVec.ofNat 64 timeQuantum
  let c := s.current
  let (s1, wakeup) := parseWakeupQueue { s with clock := now } (s.tcb c).priority now
  let s2 := s1.upd c fun t => { t with currentTimeslice := t.currentTimeslice - timeQuantum }
  let s3 := if c = .idle then s2 else threadEnqueueReady s2 c
  match wakeup with
  | some p => some (dispatchThread s3 p)
  | none =>
      if (s3.tcb c).currentTimeslice ≤ 0 then
        let s4 := s3.upd c fun t => { t with currentTimeslice := t.timeslice }
        (findNextThread s4).map fun r => dispatchThread r.1 r.2
      else some s3

/-! ### Frames -/

/-- Nothing the rendezvous depends on differs. -/
structure SameIpc (s s' : Sys) : Prop where
  ipc : s'.ipc = s.ipc
  wakeup : s'.wakeup = s.wakeup
  current : s'.current = s.current
  present : s'.present = s.present
  nextSpace : s'.nextSpace = s.nextSpace

namespace SameIpc

variable {s s' s'' : Sys}

lemma refl (s : Sys) : SameIpc s s := ⟨rfl, rfl, rfl, rfl, rfl⟩

lemma trans (h : SameIpc s s') (h' : SameIpc s' s'') : SameIpc s s'' :=
  ⟨h'.ipc.trans h.ipc, h'.wakeup.trans h.wakeup, h'.current.trans h.current,
    h'.present.trans h.present, h'.nextSpace.trans h.nextSpace⟩

end SameIpc

lemma Sys.upd_ipc (s : Sys) (p q : TcbPtr) (f : Tcb → Tcb) :
    (s.upd p f).ipc q = if q = p then (f (s.tcb p)).toIpcPart else s.ipc q := by
  unfold Sys.ipc Sys.upd
  by_cases h : q = p
  · subst h; simp
  · simp [h]

/-- An assignment, as seen by the rendezvous. -/
lemma Sys.upd_part (s : Sys) (p q : TcbPtr) {f : Tcb → Tcb} (g : IpcPart → IpcPart)
    (hf : ∀ t, (f t).toIpcPart = g t.toIpcPart) :
    (s.upd p f).ipc q = if q = p then g (s.ipc p) else s.ipc q := by
  rw [Sys.upd_ipc, hf]; rfl

/-- An assignment to other fields. -/
lemma SameIpc.upd {s s' : Sys} (h : SameIpc s s') (p : TcbPtr) {f : Tcb → Tcb}
    (hf : ∀ t, (f t).toIpcPart = t.toIpcPart) : SameIpc s (s'.upd p f) := by
  refine ⟨funext fun q => ?_, h.wakeup, h.current, h.present, h.nextSpace⟩
  rw [Sys.upd_ipc, ← h.ipc]
  split
  · rename_i hq; rw [hf, hq]; rfl
  · rfl

lemma SameIpc.updPtr {s s' : Sys} (h : SameIpc s s') (p : Option TcbPtr) {f : Tcb → Tcb}
    (hf : ∀ t, (f t).toIpcPart = t.toIpcPart) : SameIpc s (s'.updPtr p f) := by
  cases p with
  | none => exact h
  | some p => exact h.upd p hf

lemma SameIpc.prioQueue {s s' : Sys} (h : SameIpc s s') (q : Nat → Option TcbPtr) :
    SameIpc s { s' with prioQueue := q } := ⟨h.ipc, h.wakeup, h.current, h.present, h.nextSpace⟩

lemma SameIpc.maxPrio {s s' : Sys} (h : SameIpc s s') (m : Int) :
    SameIpc s { s' with currentMaxPrio := m } :=
  ⟨h.ipc, h.wakeup, h.current, h.present, h.nextSpace⟩

/-- Enqueuing into a ready queue is invisible to the rendezvous. -/
lemma sameIpc_enqueueReady (s : Sys) (p : TcbPtr) : SameIpc s (threadEnqueueReady s p) := by
  unfold threadEnqueueReady
  split
  · exact SameIpc.refl s
  · dsimp only
    refine SameIpc.maxPrio (SameIpc.upd ?_ p (by intro _; rfl)) _
    split
    · exact (((SameIpc.refl s).upd p (by intro _; rfl)).updPtr _ (by intro _; rfl)).upd _
        (by intro _; rfl)
    · exact ((SameIpc.refl s).upd p (by intro _; rfl)).prioQueue _

/-- So is dequeuing. -/
lemma sameIpc_dequeueReady (s : Sys) (p : TcbPtr) : SameIpc s (threadDequeueReady s p) := by
  unfold threadDequeueReady
  split
  · dsimp only
    refine SameIpc.upd ?_ p (by intro _; rfl)
    split
    · exact (SameIpc.refl s).prioQueue _
    · refine SameIpc.updPtr (SameIpc.updPtr ?_ _ (by intro _; rfl)) _ (by intro _; rfl)
      split
      · exact (SameIpc.refl s).prioQueue _
      · exact SameIpc.refl s
  · exact SameIpc.refl s

section Simp

variable (s : Sys) (p q : TcbPtr)

@[simp] lemma Sys.toIpcPart_tcb : (s.tcb p).toIpcPart = s.ipc p := rfl

@[simp] lemma ipc_enqueueReady : (threadEnqueueReady s p).ipc = s.ipc :=
  (sameIpc_enqueueReady s p).ipc

@[simp] lemma wakeup_enqueueReady : (threadEnqueueReady s p).wakeup = s.wakeup :=
  (sameIpc_enqueueReady s p).wakeup

@[simp] lemma current_enqueueReady : (threadEnqueueReady s p).current = s.current :=
  (sameIpc_enqueueReady s p).current

@[simp] lemma present_enqueueReady : (threadEnqueueReady s p).present = s.present :=
  (sameIpc_enqueueReady s p).present

@[simp] lemma nextSpace_enqueueReady : (threadEnqueueReady s p).nextSpace = s.nextSpace :=
  (sameIpc_enqueueReady s p).nextSpace

@[simp] lemma makeRunning_ipc : (makeRunning s p).ipc q =
    if q = p then { s.ipc p with threadState := .running } else s.ipc q := by
  rw [makeRunning, ipc_enqueueReady,
    Sys.upd_part _ _ _ (fun t => { t with threadState := .running }) (by intro _; rfl)]

@[simp] lemma makeRunning_wakeup : (makeRunning s p).wakeup = s.wakeup := wakeup_enqueueReady _ _

@[simp] lemma makeRunning_current : (makeRunning s p).current = s.current :=
    current_enqueueReady _ _

@[simp] lemma makeRunning_present : (makeRunning s p).present = s.present :=
    present_enqueueReady _ _

@[simp] lemma makeRunning_nextSpace : (makeRunning s p).nextSpace = s.nextSpace :=
  nextSpace_enqueueReady _ _

@[simp] lemma ipc_dequeueWakeup : (threadDequeueWakeup s p).ipc = s.ipc := rfl

@[simp] lemma mem_dequeueWakeup :
    q ∈ (threadDequeueWakeup s p).wakeup ↔ q ∈ s.wakeup ∧ q ≠ p := by
  simp [threadDequeueWakeup]

@[simp] lemma ipc_enqueueWakeup : (threadEnqueueWakeup s p).ipc = s.ipc := by
  unfold threadEnqueueWakeup; split <;> rfl

@[simp] lemma mem_enqueueWakeup :
    q ∈ (threadEnqueueWakeup s p).wakeup ↔ q = p ∨ q ∈ s.wakeup := by
  unfold threadEnqueueWakeup; split
  · constructor
    · exact Or.inr
    · rintro (rfl | h) <;> assumption
  · simp

@[simp] lemma current_enqueueWakeup : (threadEnqueueWakeup s p).current = s.current := by
  unfold threadEnqueueWakeup; split <;> rfl

@[simp] lemma present_enqueueWakeup : (threadEnqueueWakeup s p).present = s.present := by
  unfold threadEnqueueWakeup; split <;> rfl

@[simp] lemma nextSpace_enqueueWakeup : (threadEnqueueWakeup s p).nextSpace = s.nextSpace := by
  unfold threadEnqueueWakeup; split <;> rfl

@[simp] lemma current_dequeueWakeup : (threadDequeueWakeup s p).current = s.current := rfl

@[simp] lemma present_dequeueWakeup : (threadDequeueWakeup s p).present = s.present := rfl

@[simp] lemma nextSpace_dequeueWakeup : (threadDequeueWakeup s p).nextSpace = s.nextSpace := rfl

@[simp] lemma Sys.upd_wakeup (f : Tcb → Tcb) : (s.upd p f).wakeup = s.wakeup := rfl

@[simp] lemma Sys.upd_current (f : Tcb → Tcb) : (s.upd p f).current = s.current := rfl

@[simp] lemma Sys.upd_present (f : Tcb → Tcb) : (s.upd p f).present = s.present := rfl

@[simp] lemma Sys.upd_nextSpace (f : Tcb → Tcb) : (s.upd p f).nextSpace = s.nextSpace := rfl

@[simp] lemma switchTo_ipc (c : Cont) : (switchTo s p c).ipc q =
    if q = s.current then { s.ipc q with cont := c } else s.ipc q := by
  have h : (switchTo s p c).ipc q = (s.upd s.current fun t => { t with cont := c }).ipc q := rfl
  rw [h, Sys.upd_ipc]
  split
  · rename_i hq; rw [hq]; rfl
  · rfl

@[simp] lemma switchTo_wakeup (c : Cont) : (switchTo s p c).wakeup = s.wakeup := rfl

@[simp] lemma switchTo_current (c : Cont) : (switchTo s p c).current = p := rfl

@[simp] lemma switchTo_present (c : Cont) : (switchTo s p c).present = s.present := rfl

@[simp] lemma switchTo_nextSpace (c : Cont) : (switchTo s p c).nextSpace = s.nextSpace := rfl

end Simp

/-- The inner loop of the scheduler leaves the rendezvous alone, and what it
returns passes `IS_RUNNING` and has a time slice. -/
lemma findInQueue_spec {i fuel : Nat} {s s' : Sys} {r : Option TcbPtr}
    (h : findInQueue i fuel s = some (s', r)) :
    SameIpc s s' ∧ ∀ p, r = some p → isRunning (s.ipc p).threadState ∧ 0 < (s.ipc p).timeslice := by
  induction fuel generalizing s with
  | zero => simp [findInQueue] at h
  | succ fuel ih =>
      rw [findInQueue] at h
      cases hq : s.prioQueue i with
      | none =>
          simp only [hq, Option.some.injEq, Prod.mk.injEq] at h
          obtain ⟨rfl, rfl⟩ := h
          exact ⟨SameIpc.refl _, fun p hp => by simp at hp⟩
      | some hd =>
          simp only [hq] at h
          cases hn : (s.tcb hd).readyNext with
          | none => simp [hn] at h
          | some p =>
              simp only [hn] at h
              split at h
              · rename_i hrun
                simp only [Option.some.injEq, Prod.mk.injEq] at h
                obtain ⟨rfl, rfl⟩ := h
                refine ⟨⟨rfl, rfl, rfl, rfl, rfl⟩, fun q hq' => ?_⟩
                obtain rfl : p = q := by simpa using hq'
                exact hrun
              · obtain ⟨h1, h2⟩ := ih h
                have hd := sameIpc_dequeueReady s p
                exact ⟨hd.trans h1, fun q hq' => hd.ipc ▸ h2 q hq'⟩

lemma findFrom_spec {i : Nat} {s s' : Sys} {p : TcbPtr} (h : findFrom i s = some (s', p)) :
    SameIpc s s' ∧ (p = .idle ∨ isRunning (s.ipc p).threadState ∧ 0 < (s.ipc p).timeslice) := by
  induction i generalizing s with
  | zero =>
      rw [findFrom] at h
      split at h
      · simp at h
      · rename_i s1 q hq
        simp only [Option.some.injEq, Prod.mk.injEq] at h
        obtain ⟨rfl, rfl⟩ := h
        obtain ⟨h1, h2⟩ := findInQueue_spec hq
        exact ⟨h1, Or.inr (h2 q rfl)⟩
      · rename_i s1 hq
        simp only [Option.some.injEq, Prod.mk.injEq] at h
        obtain ⟨rfl, rfl⟩ := h
        exact ⟨(findInQueue_spec hq).1.maxPrio _, Or.inl rfl⟩
  | succ i ih =>
      rw [findFrom] at h
      split at h
      · simp at h
      · rename_i s1 q hq
        simp only [Option.some.injEq, Prod.mk.injEq] at h
        obtain ⟨rfl, rfl⟩ := h
        obtain ⟨h1, h2⟩ := findInQueue_spec hq
        exact ⟨h1, Or.inr (h2 q rfl)⟩
      · rename_i s1 hq
        obtain ⟨h1, h2⟩ := ih h
        have h0 := (findInQueue_spec hq).1
        exact ⟨h0.trans h1, h0.ipc ▸ h2⟩

/-- **The scheduler and the rendezvous**: `find_next_thread` changes nothing the
rendezvous depends on and returns the idle thread or an eligible thread. -/
lemma findNextThread_spec {s s' : Sys} {p : TcbPtr} (h : findNextThread s = some (s', p)) :
    SameIpc s s' ∧ (p = .idle ∨ isRunning (s.ipc p).threadState ∧ 0 < (s.ipc p).timeslice) := by
  unfold findNextThread at h
  split at h
  · simp only [Option.some.injEq, Prod.mk.injEq] at h
    obtain ⟨rfl, rfl⟩ := h
    exact ⟨(SameIpc.refl s).maxPrio _, Or.inl rfl⟩
  · exact findFrom_spec h

/-! ### What the scheduler keeps -/

section Keeps

variable {P : Sys → Prop} {s s' : Sys} {i : Nat}

/-- The search keeps what taking a thread out of a ready queue keeps, and setting the head of one.
-/
lemma findInQueue_keeps (hhead : ∀ s a m, P s → P { s with prioQueue := a, currentMaxPrio := m })
    (hdeq : ∀ s p, P s → P (threadDequeueReady s p)) {fuel : Nat} {r : Option TcbPtr} (h : P s)
    (hf : findInQueue i fuel s = some (s', r)) : P s' := by
  induction fuel generalizing s with
  | zero => simp [findInQueue] at hf
  | succ fuel ih =>
      rw [findInQueue] at hf
      split at hf
      · obtain ⟨rfl, rfl⟩ := Prod.mk.inj (Option.some.inj hf)
        exact h
      · split at hf
        · simp at hf
        · split at hf
          · obtain ⟨rfl, rfl⟩ := Prod.mk.inj (Option.some.inj hf)
            exact hhead _ _ _ h
          · exact ih (hdeq _ _ h) hf

lemma findFrom_keeps (hhead : ∀ s a m, P s → P { s with prioQueue := a, currentMaxPrio := m })
    (hdeq : ∀ s p, P s → P (threadDequeueReady s p)) {p : TcbPtr} (h : P s)
    (hf : findFrom i s = some (s', p)) : P s' := by
  induction i generalizing s with
  | zero =>
      rw [findFrom] at hf
      split at hf
      · simp at hf
      · rename_i h1
        obtain ⟨rfl, rfl⟩ := Prod.mk.inj (Option.some.inj hf)
        exact findInQueue_keeps hhead hdeq h h1
      · rename_i h1
        obtain ⟨rfl, rfl⟩ := Prod.mk.inj (Option.some.inj hf)
        exact hhead _ _ _ (findInQueue_keeps hhead hdeq h h1)
  | succ i ih =>
      rw [findFrom] at hf
      split at hf
      · simp at hf
      · rename_i h1
        obtain ⟨rfl, rfl⟩ := Prod.mk.inj (Option.some.inj hf)
        exact findInQueue_keeps hhead hdeq h h1
      · rename_i h1
        exact ih (findInQueue_keeps hhead hdeq h h1) hf

lemma findNextThread_keeps (hhead : ∀ s a m, P s → P { s with prioQueue := a, currentMaxPrio := m })
    (hdeq : ∀ s p, P s → P (threadDequeueReady s p)) {p : TcbPtr} (h : P s)
    (hf : findNextThread s = some (s', p)) : P s' := by
  unfold findNextThread at hf
  split at hf
  · obtain ⟨rfl, rfl⟩ := Prod.mk.inj (Option.some.inj hf)
    exact hhead _ _ _ h
  · exact findFrom_keeps hhead hdeq h hf

/-- Waking up expired threads keeps what waking up one of them keeps. -/
lemma parseWakeup_keeps {now : BitVec 64} {l : List TcbPtr}
    (hstep : ∀ s, ∀ q ∈ l, P s → P (wakeUp s q))
    (prio : Nat) (highest : Option TcbPtr) (h : P s) : P (parseWakeup now l prio highest s).1 := by
  induction l generalizing s prio highest with
  | nil => exact h
  | cons q l ih =>
      have hrest : ∀ s, ∀ r ∈ l, P s → P (wakeUp s r) :=
        fun s r hr => hstep s r (List.mem_cons_of_mem q hr)
      rw [parseWakeup]
      split
      · exact ih hrest _ _ (hstep s q List.mem_cons_self h)
      · exact ih hrest _ _ h

end Keeps

end Hazelnut
