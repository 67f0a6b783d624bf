import Hazelnut.Thread.Wakeup
import Hazelnut.Thread.WakeupRing

/-!
Timeouts of threads that block in an IPC.

* `Quiet`, `timer_spec`: what a timer tick does to the threads in the wakeup queue.
* `Waiting`: the thread waits with an absolute timeout; `WaitRun`: a run in which it gets no
  partner.
* `timeoutUs_toNat`: the product of the timeout macro, when it fits an `int`.
* `Waiting.run`: in such a run the thread is woken at the first tick that is due.
* `timeouts_exact_iff`: the three places that block with a timeout.
-/

namespace Hazelnut

variable {s s' s'' : Sys} {p q : TcbPtr}

/-! ### The timer -/

/-- The mark and the links of the ready queues are set. -/
def Tcb.requeue (t : Tcb) (mark : Bool) (before after : Option TcbPtr) : Tcb :=
  { t with queueReady := mark, readyPrev := before, readyNext := after }

/-- Nothing but the ready queues has changed. -/
structure Quiet (s s' : Sys) : Prop where
  tcb : ∀ t, ∃ mark before after, s'.tcb t = (s.tcb t).requeue mark before after
  wakeup : s'.wakeup = s.wakeup
  clock : s'.clock = s.clock
  current : s'.current = s.current

namespace Quiet

lemma refl (s : Sys) : Quiet s s := ⟨fun _ => ⟨_, _, _, rfl⟩, rfl, rfl, rfl⟩

lemma trans (h : Quiet s s') (h' : Quiet s' s'') : Quiet s s'' := by
  refine ⟨fun t => ?_, h'.wakeup.trans h.wakeup, h'.clock.trans h.clock, h'.current.trans h.current⟩
  obtain ⟨m, b, a, h1⟩ := h.tcb t
  obtain ⟨m', b', a', h2⟩ := h'.tcb t
  exact ⟨m', b', a', by rw [h2, h1]; rfl⟩

lemma upd (h : Quiet s s') (q : TcbPtr) {f : Tcb → Tcb}
    (hf : ∀ r, ∃ m b a, f r = r.requeue m b a) : Quiet s (s'.upd q f) := by
  refine h.trans ⟨fun t => ?_, rfl, rfl, rfl⟩
  unfold Sys.upd
  by_cases ht : t = q
  · subst ht
    simpa using hf (s'.tcb t)
  · exact ⟨_, _, _, by simp [ht]; rfl⟩

lemma updPtr (h : Quiet s s') (q : Option TcbPtr) {f : Tcb → Tcb}
    (hf : ∀ r, ∃ m b a, f r = r.requeue m b a) : Quiet s (s'.updPtr q f) := by
  cases q with
  | none => exact h
  | some q => exact h.upd q hf

lemma setHead (h : Quiet s s') (q : Nat → Option TcbPtr) (m : Int) :
    Quiet s { s' with prioQueue := q, currentMaxPrio := m } := ⟨h.tcb, h.wakeup, h.clock, h.current⟩

lemma enqueueReady (h : Quiet s s') (p : TcbPtr) : Quiet s (threadEnqueueReady s' p) := by
  unfold threadEnqueueReady
  split
  · exact h
  · dsimp only
    refine setHead (Quiet.upd ?_ p fun r => ⟨_, _, _, rfl⟩) _ _
    split
    · exact ((h.upd _ fun r => ⟨_, _, _, rfl⟩).updPtr _ fun r => ⟨_, _, _, rfl⟩).upd _
        fun r => ⟨_, _, _, rfl⟩
    · exact setHead (h.upd _ fun r => ⟨_, _, _, rfl⟩) _ _

lemma dequeueReady (h : Quiet s s') (p : TcbPtr) : Quiet s (threadDequeueReady s' p) := by
  unfold threadDequeueReady
  split
  · dsimp only
    refine Quiet.upd ?_ p fun r => ⟨_, _, _, rfl⟩
    split
    · exact setHead h _ _
    · refine Quiet.updPtr (Quiet.updPtr ?_ _ fun r => ⟨_, _, _, rfl⟩) _ fun r => ⟨_, _, _, rfl⟩
      split
      · exact setHead h _ _
      · exact h
  · exact h

lemma findNextThread {r : TcbPtr} (h : Quiet s s') (hf : findNextThread s' = some (s'', r)) :
    Quiet s s'' :=
  findNextThread_keeps (fun _ _ _ h => h.setHead _ _) (fun _ p h => h.dequeueReady p) h hf

lemma ipc (h : Quiet s s') (t : TcbPtr) : s'.ipc t = s.ipc t := by
  obtain ⟨m, b, a, h1⟩ := h.tcb t
  rw [← Sys.toIpcPart_tcb, h1]
  rfl

lemma absoluteTimeout (h : Quiet s s') (t : TcbPtr) :
    (s'.tcb t).absoluteTimeout = (s.tcb t).absoluteTimeout := by
  obtain ⟨m, b, a, h1⟩ := h.tcb t
  rw [h1]
  rfl

end Quiet

/-- What the threads other than the current one wait for is the same. -/
structure SameTimer (s s' : Sys) : Prop where
  ipc : ∀ t, t ≠ s.current → s'.ipc t = s.ipc t
  absoluteTimeout : ∀ t, t ≠ s.current → (s'.tcb t).absoluteTimeout = (s.tcb t).absoluteTimeout
  wakeup : s'.wakeup = s.wakeup
  clock : s'.clock = s.clock

lemma Quiet.timer (h : Quiet s s') : SameTimer s s' :=
  ⟨fun t _ => h.ipc t, fun t _ => h.absoluteTimeout t, h.wakeup, h.clock⟩

lemma Quiet.dispatch (h : Quiet s s') (q : TcbPtr) : SameTimer s (dispatchThread s' q) := by
  have hsw : ∀ {s1 : Sys} q c, Quiet s s1 → SameTimer s (switchTo s1 q c) := by
    intro s1 q c h1
    refine ⟨fun t ht => ?_, fun t ht => ?_, h1.wakeup, h1.clock⟩
    · rw [switchTo_ipc, if_neg (by rwa [h1.current]), h1.ipc]
    · rw [← h1.absoluteTimeout]
      have hne : t ≠ s1.current := by rwa [h1.current]
      simp [switchTo, Sys.upd, hne]
  unfold dispatchThread
  split
  · exact h.timer
  · split
    · exact hsw _ _ h
    · dsimp only
      split
      · exact hsw _ _ (h.setHead _ _)
      · exact hsw _ _ h

lemma SameTimer.trans (h : SameTimer s s') (hc : s'.current = s.current) (h' : SameTimer s' s'') :
    SameTimer s s'' :=
  ⟨fun t ht => (h'.ipc t (by rwa [hc])).trans (h.ipc t ht),
    fun t ht => (h'.absoluteTimeout t (by rwa [hc])).trans (h.absoluteTimeout t ht),
    h'.wakeup.trans h.wakeup, h'.clock.trans h.clock⟩

/-- An assignment to the current thread. -/
lemma SameTimer.updCurrent (s : Sys) (f : Tcb → Tcb) : SameTimer s (s.upd s.current f) :=
  ⟨fun t ht => by rw [Sys.upd_ipc, if_neg ht], fun t ht => by simp [Sys.upd, ht], rfl, rfl⟩

lemma current_dispatch (s : Sys) (q : TcbPtr) : (dispatchThread s q).current = q := by
  unfold dispatchThread
  split
  · rename_i hq
    exact hq.symm
  · split
    · rename_i hq
      exact hq.symm
    · rfl

/-- Behind `parse_wakeup_queue` the timer interrupt changes nothing that matters to waiting threads,
and switches to the thread to wake up, to the idle thread, or to one that can run. -/
lemma timer_rest {s1 : Sys} {wake : Option TcbPtr} (h : handleTimerInterrupt s = some s')
    (hrun : parseWakeup (s.clock + BitVec.ofNat 64 timeQuantum) s.wakeup
    (s.tcb s.current).priority none
      { s with clock := s.clock + BitVec.ofNat 64 timeQuantum } = (s1, wake))
    (hcur : s1.current = s.current) : SameTimer s1 s' ∧ (s'.current = s.current ∨
      wake = some s'.current ∨ s'.current = .idle ∨ isRunning (s'.ipc s'.current).threadState) := by
  unfold handleTimerInterrupt parseWakeupQueue at h
  dsimp only at h
  rw [hrun] at h
  dsimp only at h
  -- the time slice of the current thread, and its ready queue
  have h2 : SameTimer s1 (s1.upd s.current fun t =>
      { t with currentTimeslice := t.currentTimeslice - timeQuantum }) :=
    hcur ▸ SameTimer.updCurrent s1 _
  generalize hs2 : s1.upd s.current (fun t =>
    { t with currentTimeslice := t.currentTimeslice - timeQuantum }) = s2 at h h2
  have hc2 : s2.current = s1.current := by rw [← hs2]; rfl
  have h3 : Quiet s2 (if s.current = .idle then s2 else threadEnqueueReady s2 s.current) := by
    split
    · exact Quiet.refl s2
    · exact (Quiet.refl s2).enqueueReady _
  generalize (if s.current = .idle then s2 else threadEnqueueReady s2 s.current) = s3 at h h3
  have hc3 : s3.current = s1.current := h3.current.trans hc2
  cases wake with
  | some p =>
      obtain rfl := Option.some.inj h
      exact ⟨h2.trans hc2 (h3.dispatch p), .inr (.inl (by rw [current_dispatch]))⟩
  | none =>
      dsimp only at h
      split at h
      · obtain ⟨⟨s4, q⟩, hfind, rfl⟩ := Option.map_eq_some_iff.mp h
        have h4 : SameTimer s3
            (s3.upd s.current fun t => { t with currentTimeslice := t.timeslice }) := by
          rw [← hcur, ← hc3]
          exact SameTimer.updCurrent s3 _
        have h5 : SameTimer s1
            (s3.upd s.current fun t => { t with currentTimeslice := t.timeslice }) :=
          (h2.trans hc2 h3.timer).trans hc3 h4
        have h6 := ((Quiet.refl _).findNextThread hfind).dispatch q
        refine ⟨h5.trans hc3 h6, ?_⟩
        rw [current_dispatch]
        by_cases hq : q = s.current
        · exact .inl hq
        · rcases (findNextThread_spec hfind).2 with hi | ⟨hr, -⟩
          · exact .inr (.inr (.inl hi))
          · have hq3 : q ≠ s3.current := by rwa [hc3, hcur]
            rw [h6.ipc q hq3]
            exact .inr (.inr (.inr hr))
      · obtain rfl := Option.some.inj h
        exact ⟨h2.trans hc2 h3.timer, .inl (hc3.trans hcur)⟩

/-- The timer interrupt switches to a thread that is due, to the idle thread, or to one that can
run. -/
lemma timer_current (h : handleTimerInterrupt s = some s') : s'.current = s.current ∨
    (s.tcb s'.current).absoluteTimeout ≤ s'.clock ∨ s'.current = .idle ∨
    isRunning (s'.ipc s'.current).threadState := by
  rcases hrun : parseWakeup (s.clock + BitVec.ofNat 64 timeQuantum) s.wakeup
    (s.tcb s.current).priority none { s with clock := s.clock + BitVec.ofNat 64 timeQuantum } with
    ⟨s1, wake⟩
  have hserved := parseWakeup_served (s.clock + BitVec.ofNat 64 timeQuantum) s.wakeup
    (s.tcb s.current).priority none { s with clock := s.clock + BitVec.ofNat 64 timeQuantum }
  have hhigh := parseWakeup_highest (s.clock + BitVec.ofNat 64 timeQuantum) s.wakeup
    (s.tcb s.current).priority none { s with clock := s.clock + BitVec.ofNat 64 timeQuantum }
  rw [hrun] at hserved hhigh
  obtain ⟨hrest, h1 | h1 | h1 | h1⟩ := timer_rest h hrun hserved.current
  · exact .inl h1
  · rcases hhigh with ⟨h2, -⟩ | ⟨q, -, h2, h3, -⟩
    · rw [h1] at h2
      simp at h2
    · obtain rfl : q = s'.current := Option.some.inj (h2.symm.trans h1)
      have hclock : s'.clock = s.clock + BitVec.ofNat 64 timeQuantum :=
        hrest.clock.trans hserved.clock
      rw [← hclock] at h3
      exact .inr (.inl h3)
  · exact .inr (.inr (.inl h1))
  · exact .inr (.inr (.inr h1))

/-- **A timer tick**: the threads that are due are set running and leave the wakeup queue, and the
others wait on. -/
lemma timer_spec (h : handleTimerInterrupt s = some s') :
    s'.clock = s.clock + BitVec.ofNat 64 timeQuantum ∧
    (∀ t, t ∈ s'.wakeup ↔ t ∈ s.wakeup ∧ ¬(s.tcb t).absoluteTimeout ≤ s'.clock) ∧
    ∀ t, t ≠ s.current → (s'.tcb t).absoluteTimeout = (s.tcb t).absoluteTimeout ∧
      s'.ipc t = if t ∈ s.wakeup ∧ (s.tcb t).absoluteTimeout ≤ s'.clock then
        { s.ipc t with threadState := .running } else s.ipc t := by
  rcases hrun : parseWakeup (s.clock + BitVec.ofNat 64 timeQuantum) s.wakeup
    (s.tcb s.current).priority none { s with clock := s.clock + BitVec.ofNat 64 timeQuantum } with
    ⟨s1, wake⟩
  have hserved := parseWakeup_served (s.clock + BitVec.ofNat 64 timeQuantum) s.wakeup
    (s.tcb s.current).priority none { s with clock := s.clock + BitVec.ofNat 64 timeQuantum }
  have hwakeup := parseWakeup_wakeup (s.clock + BitVec.ofNat 64 timeQuantum) s.wakeup
    (s.tcb s.current).priority none { s with clock := s.clock + BitVec.ofNat 64 timeQuantum }
  rw [hrun] at hserved hwakeup
  have hcur : s1.current = s.current := hserved.current
  have hrest := (timer_rest h hrun hcur).1
  have hclock : s'.clock = s.clock + BitVec.ofNat 64 timeQuantum := hrest.clock.trans hserved.clock
  rw [← hclock] at hserved hwakeup
  refine ⟨hclock, fun t => ?_, fun t ht => ?_⟩
  · rw [hrest.wakeup, hwakeup, List.mem_filter]
    have hx : Expired { s with clock := s'.clock } s'.clock t ↔
      (s.tcb t).absoluteTimeout ≤ s'.clock := Iff.rfl
    simp only [Bool.not_eq_true', decide_eq_false_iff_not, hx]
    tauto
  · obtain ⟨b, a, h1⟩ := hserved.tcb t
    have hx : Expired { s with clock := s'.clock } s'.clock t ↔
      (s.tcb t).absoluteTimeout ≤ s'.clock := Iff.rfl
    simp only [hx] at h1
    refine ⟨?_, ?_⟩
    · rw [hrest.absoluteTimeout t (by rwa [hcur]), h1]
      split <;> rfl
    · rw [hrest.ipc t (by rwa [hcur]), ← Sys.toIpcPart_tcb, h1]
      split <;> rfl

/-! ### The duration -/

/-- The duration that is meant. -/
def durationUs (e m : Nat) : Nat := m * 4 ^ (15 - e)

variable {e m : Nat}

lemma timeoutUs_eq (e m : Nat) :
    timeoutUs e m = (BitVec.ofNat 32 (durationUs e m)).signExtend 64 := by
  have hshift : (1 : BitVec 32) <<< (2 * (15 - e)) = BitVec.ofNat 32 (4 ^ (15 - e)) := by
    refine BitVec.eq_of_toNat_eq ?_
    have hone : (1 : BitVec 32).toNat = 1 := rfl
    rw [BitVec.toNat_shiftLeft, BitVec.toNat_ofNat, Nat.shiftLeft_eq, Nat.pow_mul,
      hone, Nat.one_mul]
  rw [timeoutUs, hshift, ← BitVec.ofNat_mul, durationUs, Nat.mul_comm]

lemma durationUs_lt (he : 1 ≤ e) (hm : m < 256) : durationUs e m < 2 ^ 36 := by
  have h1 : 4 ^ (15 - e) ≤ 4 ^ 14 := Nat.pow_le_pow_right (by omega) (by omega)
  calc durationUs e m ≤ m * 4 ^ 14 := Nat.mul_le_mul_left m h1
    _ < 2 ^ 36 := by omega

lemma durationUs_eq_zero : durationUs e m = 0 ↔ m = 0 := by
  rw [durationUs, Nat.mul_eq_zero, or_iff_left (Nat.pos_iff_ne_zero.mp (Nat.pow_pos (by omega)))]

/-- **The product** of the timeout macro is the duration just when that is less than `2 ^ 31`. -/
lemma timeoutUs_toNat (he : 1 ≤ e) (hm : m < 256) :
    (timeoutUs e m).toNat = durationUs e m ↔ durationUs e m < 2 ^ 31 := by
  have hlt := durationUs_lt he hm
  rw [timeoutUs_eq, BitVec.toNat_signExtend, BitVec.toNat_setWidth, BitVec.toNat_ofNat,
    BitVec.msb_eq_decide, BitVec.toNat_ofNat]
  generalize durationUs e m = d at *
  by_cases hmsb : 2 ^ (32 - 1) ≤ d % 2 ^ 32
  · rw [if_pos (by simpa using hmsb)]
    omega
  · rw [if_neg (by simpa using hmsb)]
    omega

/-! ### Waiting -/

/-- The thread waits at the point `c` of the kernel in the state `st`, with the absolute timeout
`a`. -/
structure Waiting (p : TcbPtr) (a : BitVec 64) (st : ThreadState) (c : Cont) (s : Sys) : Prop where
  queued : p ∈ s.wakeup
  timeout : (s.tcb p).absoluteTimeout = a
  threadState : (s.ipc p).threadState = st
  cont : (s.ipc p).cont = c
  notCurrent : p ≠ s.current

/-- What a call of the kernel that has run into its timeout returns. -/
def ReportsTimeout (c : Cont) (r : Option IpcReturn) : Prop :=
  match c with
  | .sendPoll _ _ _ => r = some (.err ipcErrSendTimeout)
  | .recvWait => r = some (.err ipcErrRecvTimeout)
  | .kernelWait dest => ∃ d w0 w1 w2, r = some (.args dest (d ||| ipcErrRecvTimeout) w0 w1 w2)
  | _ => False

/-- The thread has been woken by its timeout: it is running and in no wakeup queue, and its call
returns with a timeout when it is switched to. -/
structure TimedOut (p : TcbPtr) (s : Sys) : Prop where
  threadState : (s.ipc p).threadState = .running
  notQueued : p ∉ s.wakeup
  returns : ∀ dope, ReportsTimeout (s.ipc p).cont ((resume s p dope).tcb p).ret

/-- A run in which the thread gets no partner, with the clocks of its ticks: between ticks nothing
happens to a thread that waits. -/
inductive WaitRun (p : TcbPtr) : Sys → List (BitVec 64) → Sys → Prop
  | nil (s : Sys) : WaitRun p s [] s
  | other {s s' s'' : Sys} {cs : List (BitVec 64)} (h : WaitRun p s cs s')
      (hp : ∀ a st c, Waiting p a st c s' → Waiting p a st c s'') : WaitRun p s cs s''
  | tick {s s' s'' : Sys} {cs : List (BitVec 64)} (h : WaitRun p s cs s')
      (ht : handleTimerInterrupt s' = some s'') : WaitRun p s (cs ++ [s''.clock]) s''

/-- The points at which a thread blocks with a timeout, and the states it waits in. -/
def Blocks (st : ThreadState) (c : Cont) : Prop :=
  (st = .polling ∧ ∃ dest snd rcv, c = .sendPoll dest snd rcv) ∨
    (st = .waiting ∧ (c = .recvWait ∨ ∃ dest, c = .kernelWait dest))

lemma Blocks.not_running {st : ThreadState} {c : Cont} (h : Blocks st c) : ¬isRunning st := by
  rcases h with ⟨rfl, -⟩ | ⟨rfl, -⟩ <;> decide

lemma ret_returnIpc (s : Sys) (p : TcbPtr) (r : IpcReturn) :
    ((returnIpc s p r).tcb p).ret = some r := by
  simp [returnIpc, Sys.upd]

/-- A thread that is running at such a point returns with a timeout. -/
lemma Blocks.reports {st : ThreadState} (h : Blocks st (s.ipc p).cont)
    (hrun : (s.ipc p).threadState = .running) (dope : Word) :
    ReportsTimeout (s.ipc p).cont ((resume s p dope).tcb p).ret := by
  have hst : (s.tcb p).threadState = .running := hrun
  rcases h with ⟨-, dest, snd, rcv, hc⟩ | ⟨-, hc | ⟨dest, hc⟩⟩
  · have hcont : (s.tcb p).cont = .sendPoll dest snd rcv := hc
    rw [hc, resume, hcont]
    dsimp only
    rw [if_pos hst]
    exact ret_returnIpc _ _ _
  · have hcont : (s.tcb p).cont = .recvWait := hc
    rw [hc, resume, hcont]
    dsimp only
    rw [if_pos hst]
    exact ret_returnIpc _ _ _
  · have hcont : (s.tcb p).cont = .kernelWait dest := hc
    rw [hc, resume, hcont]
    dsimp only
    rw [if_pos hst]
    exact ⟨_, _, _, _, ret_returnIpc _ _ _⟩

section Waiting

variable {a : BitVec 64} {st : ThreadState} {c : Cont}

/-- **One tick**: the thread is woken if it is due, and waits on if not. -/
lemma Waiting.tick (h : Waiting p a st c s) (hb : Blocks st c) (hp : p ≠ .idle)
    (ht : handleTimerInterrupt s = some s') :
    (a ≤ s'.clock → TimedOut p s') ∧ (¬a ≤ s'.clock → Waiting p a st c s') := by
  obtain ⟨-, hwake, hsame⟩ := timer_spec ht
  obtain ⟨htime, hipc⟩ := hsame p h.notCurrent
  rw [h.timeout] at hipc htime
  refine ⟨fun hdue => ?_, fun hnot => ?_⟩
  · rw [if_pos ⟨h.queued, hdue⟩] at hipc
    have hcont : (s'.ipc p).cont = c := by rw [hipc, ← h.cont]
    have hrun : (s'.ipc p).threadState = .running := by rw [hipc]
    refine ⟨hrun, fun hq => ?_, (hcont ▸ hb : Blocks st (s'.ipc p).cont).reports hrun⟩
    exact ((hwake p).mp hq).2 (h.timeout ▸ hdue)
  · rw [if_neg fun h1 => hnot h1.2] at hipc
    refine ⟨(hwake p).mpr ⟨h.queued, h.timeout ▸ hnot⟩, htime, ?_, ?_, fun hcur => ?_⟩
    · rw [hipc, h.threadState]
    · rw [hipc, h.cont]
    · -- the thread that is switched to is another one
      rcases timer_current ht with h1 | h1 | h1 | h1
      · exact h.notCurrent (hcur.trans h1)
      · rw [← hcur, h.timeout] at h1
        exact hnot h1
      · exact hp (hcur.trans h1)
      · rw [← hcur, hipc, h.threadState] at h1
        exact hb.not_running h1

/-- **A run**: the thread waits as long as no tick has been due. -/
lemma Waiting.run (h : Waiting p a st c s) (hb : Blocks st c) (hp : p ≠ .idle)
    {cs : List (BitVec 64)}
    (hrun : WaitRun p s cs s') (hcs : ∀ x ∈ cs, ¬a ≤ x) : Waiting p a st c s' := by
  induction hrun with
  | nil => exact h
  | other _ hother ih => exact hother _ _ _ (ih hcs)
  | tick _ ht ih =>
      have h1 := ih fun x hx => hcs x (List.mem_append_left _ hx)
      exact (h1.tick hb hp ht).2 (hcs _ (by simp))

end Waiting

/-! ### The calls -/

/-- **A timeout is exact**: unless the mantissa is zero, the thread waits from the call at `s` on,
until the first tick whose clock is at least the duration behind that of the call, and that tick
wakes it with a timeout. -/
def TimeoutExact (p : TcbPtr) (s s1 : Sys) (e m : Nat) : Prop :=
  m ≠ 0 → ∃ a st c, a.toNat = s.clock.toNat + durationUs e m ∧ Waiting p a st c s1 ∧
    ∀ cs s2, WaitRun p s1 cs s2 → (∀ x ∈ cs, x.toNat < s.clock.toNat + durationUs e m) →
      Waiting p a st c s2 ∧ ∀ s3, handleTimerInterrupt s2 = some s3 →
        (s.clock.toNat + durationUs e m ≤ s3.clock.toNat → TimedOut p s3) ∧
        (s3.clock.toNat < s.clock.toNat + durationUs e m → Waiting p a st c s3)

/-- The product fits an `int`, and the end of the timeout fits the clock. -/
def TimeoutFits (s : Sys) (e m : Nat) : Prop :=
  durationUs e m < 2 ^ 31 ∧ s.clock.toNat + durationUs e m < 2 ^ 64

/-- A call that computes the timeout as the source does. -/
lemma timeoutExact_iff {s1 : Sys} {st : ThreadState} {c : Cont} (he : 1 ≤ e) (hm : m < 256)
    (hp : p ≠ .idle) (hb : Blocks st c)
    (hwait : timeoutUs e m ≠ 0 → Waiting p (timeoutUs e m + s.clock) st c s1)
    (hfail : timeoutUs e m = 0 → s1.current = p) :
    TimeoutExact p s s1 e m ↔ TimeoutFits s e m := by
  have hlt := durationUs_lt he hm
  have hclock : s.clock.toNat < 2 ^ 64 := s.clock.isLt
  constructor
  · intro h
    by_cases hm0 : m = 0
    · rw [TimeoutFits, durationUs_eq_zero.mpr hm0]
      exact ⟨by omega, by omega⟩
    · obtain ⟨a, st', c', ha, hw, -⟩ := h hm0
      have hne : timeoutUs e m ≠ 0 := fun h0 => hw.notCurrent (hfail h0).symm
      have heq : timeoutUs e m + s.clock = a := (hwait hne).timeout.symm.trans hw.timeout
      have hsum := congrArg BitVec.toNat heq
      have hus : (timeoutUs e m).toNat < 2 ^ 64 := (timeoutUs e m).isLt
      have halt : a.toNat < 2 ^ 64 := a.isLt
      rw [BitVec.toNat_add, ha] at hsum
      exact ⟨(timeoutUs_toNat he hm).mp (by omega), by omega⟩
  · rintro ⟨h31, h64⟩ hm0
    have hus := (timeoutUs_toNat he hm).mpr h31
    have hne : timeoutUs e m ≠ 0 := fun h0 => hm0 (durationUs_eq_zero.mp (by rw [← hus, h0]; rfl))
    have ha : (timeoutUs e m + s.clock).toNat = s.clock.toNat + durationUs e m := by
      rw [BitVec.toNat_add, hus, Nat.mod_eq_of_lt (by omega), Nat.add_comm]
    have hdue : ∀ x : BitVec 64, timeoutUs e m + s.clock ≤ x ↔
        s.clock.toNat + durationUs e m ≤ x.toNat :=
      fun x => by rw [BitVec.le_def, ha]
    refine ⟨_, st, c, ha, hwait hne, fun cs s2 hrun hcs => ?_⟩
    have hw := (hwait hne).run hb hp hrun fun x hx => by
      rw [hdue]
      exact Nat.not_le.mpr (hcs x hx)
    refine ⟨hw, fun s3 ht => ⟨fun h => ?_, fun h => ?_⟩⟩
    · exact (hw.tick hb hp ht).1 ((hdue _).mpr h)
    · exact (hw.tick hb hp ht).2 (by rw [hdue]; exact Nat.not_le.mpr h)

lemma absoluteTimeout_upd (s : Sys) (q t : TcbPtr) {f : Tcb → Tcb}
    (hf : ∀ b, (f b).absoluteTimeout = b.absoluteTimeout) :
    ((s.upd q f).tcb t).absoluteTimeout = (s.tcb t).absoluteTimeout := by
  by_cases ht : t = q
  · subst ht; simp [Sys.upd, hf]
  · simp [Sys.upd, ht]

lemma absoluteTimeout_updPtr (s : Sys) (q : Option TcbPtr) (t : TcbPtr) {f : Tcb → Tcb}
    (hf : ∀ b, (f b).absoluteTimeout = b.absoluteTimeout) :
    ((s.updPtr q f).tcb t).absoluteTimeout = (s.tcb t).absoluteTimeout := by
  cases q with
  | none => rfl
  | some q => exact absoluteTimeout_upd s q t hf

lemma absoluteTimeout_enqueueSend (s : Sys) (q r t : TcbPtr) :
    ((threadEnqueueSend s q r).tcb t).absoluteTimeout = (s.tcb t).absoluteTimeout := by
  unfold threadEnqueueSend
  split
  · exact (absoluteTimeout_upd _ _ _ (by intro _; rfl)).trans
      (absoluteTimeout_upd _ _ _ (by intro _; rfl))
  · exact (absoluteTimeout_updPtr _ _ _ (by intro _; rfl)).trans
      ((absoluteTimeout_upd _ _ _ (by intro _; rfl)).trans
      (absoluteTimeout_upd _ _ _ (by intro _; rfl)))

/-- A thread that has entered the wakeup queue, when it is left behind by a switch. -/
lemma waiting_switch {s1 : Sys} {a : BitVec 64} {st : ThreadState} {c : Cont} (hq : p ∈ s1.wakeup)
    (ht : (s1.tcb p).absoluteTimeout = a) (hst : (s1.ipc p).threadState = st) (hc : s1.current = p)
    (hne : q ≠ p) : Waiting p a st c (switchTo s1 q c) := by
  refine ⟨hq, ?_, ?_, ?_, hne.symm⟩
  · rw [← ht, switchTo, hc]
    simp [Sys.upd]
  · rw [switchTo_ipc, hc, if_pos rfl, ← hst]
  · rw [switchTo_ipc, hc, if_pos rfl]

/-- The deadline is written, and the thread enters the wakeup queue. -/
lemma enqueued_tcb (s : Sys) (p : TcbPtr) (a : BitVec 64) :
    ((threadEnqueueWakeup (s.upd p fun t => { t with absoluteTimeout := a }) p).tcb
    p).absoluteTimeout = a ∧
      p ∈ (threadEnqueueWakeup (s.upd p fun t => { t with absoluteTimeout := a }) p).wakeup ∧
      (threadEnqueueWakeup (s.upd p fun t => { t with absoluteTimeout := a }) p).current =
          s.current := by
  refine ⟨?_, by rw [mem_enqueueWakeup]; exact .inl rfl, by rw [current_enqueueWakeup]; rfl⟩
  unfold threadEnqueueWakeup
  split <;> simp [Sys.upd]

section Calls

variable (hcur : s.current = p) (hp : p ≠ .idle)

include hcur hp

/-- **The send timeout** of `sys_ipc`. -/
lemma sendPoll_timeout {dest : Tid} {snd rcv : Word} (hdest : tidToTcb dest ≠ p)
    (he : (s.tcb p).ipcTimeout.sndExp ≠ 0) :
    TimeoutExact p s (sendPoll s p dest snd rcv) (s.tcb p).ipcTimeout.sndExp
      (s.tcb p).ipcTimeout.sndMan ↔
      TimeoutFits s (s.tcb p).ipcTimeout.sndExp (s.tcb p).ipcTimeout.sndMan := by
  have hman : (s.tcb p).ipcTimeout.sndMan < 256 := BitVec.isLt _
  refine timeoutExact_iff (by omega) hman hp (.inl ⟨rfl, dest, snd, rcv, rfl⟩) (fun hne => ?_)
    fun h0 => ?_
  · unfold sendPoll
    dsimp only
    rw [if_neg hdest, if_neg he, if_neg hne]
    obtain ⟨h1, h2, h3⟩ := enqueued_tcb s p
      (timeoutUs (s.tcb p).ipcTimeout.sndExp (s.tcb p).ipcTimeout.sndMan + s.clock)
    refine waiting_switch ?_ ?_ ?_ ?_ (Ne.symm hp)
    · rw [Sys.upd_wakeup, wakeup_enqueueSend]
      exact h2
    · exact (absoluteTimeout_upd _ _ _ (by intro _; rfl)).trans
        ((absoluteTimeout_enqueueSend _ _ _ _).trans h1)
    · rw [Sys.upd_ipc, if_pos rfl]
    · rw [Sys.upd_current, current_enqueueSend, h3, hcur]
  · unfold sendPoll
    dsimp only
    rw [if_neg hdest, if_neg he, if_pos h0]
    exact hcur

/-- **The receive timeout** of `sys_ipc`. -/
lemma recvBlock_timeout {toTcb : Option TcbPtr} {partner : Tid} (hto : toTcb ≠ some p)
    (he : (s.tcb p).ipcTimeout.rcvExp ≠ 0) :
    TimeoutExact p s (recvBlock s p toTcb partner) (s.tcb p).ipcTimeout.rcvExp
      (s.tcb p).ipcTimeout.rcvMan ↔
      TimeoutFits s (s.tcb p).ipcTimeout.rcvExp (s.tcb p).ipcTimeout.rcvMan := by
  have hman : (s.tcb p).ipcTimeout.rcvMan < 256 := BitVec.isLt _
  refine timeoutExact_iff (by omega) hman hp (.inr ⟨rfl, .inl rfl⟩) (fun hne => ?_) fun h0 => ?_
  · unfold recvBlock
    dsimp only
    rw [if_neg he, if_neg hne]
    obtain ⟨h1, h2, h3⟩ := enqueued_tcb s p
      (timeoutUs (s.tcb p).ipcTimeout.rcvExp (s.tcb p).ipcTimeout.rcvMan + s.clock)
    refine waiting_switch ?_ ?_ ?_ ?_ ?_
    · exact h2
    · exact (absoluteTimeout_upd _ _ _ (by intro _; rfl)).trans h1
    · rw [Sys.upd_ipc, if_pos rfl]
    · rw [Sys.upd_current, h3, hcur]
    · cases toTcb with
      | none => exact Ne.symm hp
      | some q => exact fun hq => hto (congrArg some hq)
  · unfold recvBlock
    dsimp only
    rw [if_neg he, if_pos h0]
    exact hcur

/-- **The receive timeout** of `ipc_handle_kernel_id`. -/
lemma kernelId_timeout {dest : Tid} (hirq : ¬(isInterruptId dest ∧ (s.tcb p).intrPending = dest))
    (he : (s.tcb p).ipcTimeout.rcvExp ≠ 0) :
    TimeoutExact p s (ipcHandleKernelId s p dest) (s.tcb p).ipcTimeout.rcvExp
      (s.tcb p).ipcTimeout.rcvMan ↔
      TimeoutFits s (s.tcb p).ipcTimeout.rcvExp (s.tcb p).ipcTimeout.rcvMan := by
  have hman : (s.tcb p).ipcTimeout.rcvMan < 256 := BitVec.isLt _
  refine timeoutExact_iff (by omega) hman hp (.inr ⟨rfl, .inr ⟨dest, rfl⟩⟩) (fun hne => ?_)
    fun h0 => ?_
  · unfold ipcHandleKernelId kernelIdWait
    dsimp only
    rw [if_neg hirq, if_neg he, if_neg hne]
    obtain ⟨h1, h2, h3⟩ := enqueued_tcb s p
      (timeoutUs (s.tcb p).ipcTimeout.rcvExp (s.tcb p).ipcTimeout.rcvMan + s.clock)
    refine waiting_switch ?_ ?_ ?_ ?_ (Ne.symm hp)
    · exact h2
    · exact (absoluteTimeout_upd _ _ _ (by intro _; rfl)).trans h1
    · rw [Sys.upd_ipc, if_pos rfl]
    · rw [Sys.upd_current, h3, hcur]
  · unfold ipcHandleKernelId
    dsimp only
    rw [if_neg hirq, if_neg he, if_pos h0]
    split
    · rw [apply_ite Sys.current]
      exact (ite_congr rfl (fun _ => hcur) fun _ => hcur).trans (ite_self p)
    · exact hcur

end Calls

/-- **Timeouts are exact just when they fit.**  A thread that blocks for a finite send or receive
timeout of mantissa `m` and exponent `e`, at any of the three places of the source, is woken with a
timeout by the first tick whose clock is at least `m * 4 ^ (15 - e)` behind that of the call, and
not before, and fails at once only if `m` is zero, if and only if `m * 4 ^ (15 - e)` is less than `2
^ 31` and the end of the timeout less than `2 ^ 64`. -/
theorem timeouts_exact_iff (hcur : s.current = p) (hp : p ≠ .idle) :
    (∀ dest snd rcv, tidToTcb dest ≠ p → (s.tcb p).ipcTimeout.sndExp ≠ 0 →
      (TimeoutExact p s (sendPoll s p dest snd rcv) (s.tcb p).ipcTimeout.sndExp
      (s.tcb p).ipcTimeout.sndMan ↔
        TimeoutFits s (s.tcb p).ipcTimeout.sndExp (s.tcb p).ipcTimeout.sndMan)) ∧
    (∀ toTcb partner, toTcb ≠ some p → (s.tcb p).ipcTimeout.rcvExp ≠ 0 →
      (TimeoutExact p s (recvBlock s p toTcb partner) (s.tcb p).ipcTimeout.rcvExp
          (s.tcb p).ipcTimeout.rcvMan ↔
        TimeoutFits s (s.tcb p).ipcTimeout.rcvExp (s.tcb p).ipcTimeout.rcvMan)) ∧
    ∀ dest, ¬(isInterruptId dest ∧ (s.tcb p).intrPending = dest) → (s.tcb p).ipcTimeout.rcvExp ≠ 0 →
      (TimeoutExact p s (ipcHandleKernelId s p dest) (s.tcb p).ipcTimeout.rcvExp
          (s.tcb p).ipcTimeout.rcvMan ↔
        TimeoutFits s (s.tcb p).ipcTimeout.rcvExp (s.tcb p).ipcTimeout.rcvMan) :=
  ⟨fun _ _ _ hdest he => sendPoll_timeout hcur hp hdest he,
    fun _ _ hto he => recvBlock_timeout hcur hp hto he,
    fun _ hirq he => kernelId_timeout hcur hp hirq he⟩

/-- Sigma0 of the booted kernel, with a timeout. -/
def timeoutSys (tm : Timeout) : Sys :=
  { bootSys.upd (tidToTcb sigma0Id) fun t => { t with ipcTimeout := tm } with
    current := tidToTcb sigma0Id }

/-- Sigma0 waits a millisecond for the root task and for a message. -/
theorem timeouts_exact_short :
    TimeoutExact (tidToTcb sigma0Id) (timeoutSys 0x010100aa)
      (sendPoll (timeoutSys 0x010100aa) (tidToTcb sigma0Id) rootTaskId 0 0) 10 1 ∧
    TimeoutExact (tidToTcb sigma0Id) (timeoutSys 0x010100aa)
      (recvBlock (timeoutSys 0x010100aa) (tidToTcb sigma0Id) none nilId) 10 1 ∧
    TimeoutExact (tidToTcb sigma0Id) (timeoutSys 0x010100aa)
      (ipcHandleKernelId (timeoutSys 0x010100aa) (tidToTcb sigma0Id) nilId) 10 1 := by
  obtain ⟨hsnd, hrcv, hkernel⟩ := timeouts_exact_iff (s := timeoutSys 0x010100aa)
    (p := tidToTcb sigma0Id) rfl (by decide)
  have hfits : TimeoutFits (timeoutSys 0x010100aa) 10 1 := ⟨by decide, by decide⟩
  exact ⟨(hsnd rootTaskId 0 0 (by decide) (by decide)).mpr hfits,
    (hrcv none nilId (by decide) (by decide)).mpr hfits,
    (hkernel nilId (by decide) (by decide)).mpr hfits⟩

/-- Sixteen times `4 ^ 14` microseconds are `2 ^ 32`: the send fails at once, with a mantissa that
is not zero. -/
theorem timeouts_exact_wraps :
    (timeoutSys 0x10100011).current = tidToTcb sigma0Id ∧
    ((timeoutSys 0x10100011).tcb (tidToTcb sigma0Id)).ipcTimeout.sndExp = 1 ∧
    ((timeoutSys 0x10100011).tcb (tidToTcb sigma0Id)).ipcTimeout.sndMan = 16 ∧
    ((sendPoll (timeoutSys 0x10100011) (tidToTcb sigma0Id) rootTaskId 0 0).tcb
      (tidToTcb sigma0Id)).ret =
      some (.err ipcErrSendTimeout) ∧
    ¬TimeoutExact (tidToTcb sigma0Id) (timeoutSys 0x10100011)
      (sendPoll (timeoutSys 0x10100011) (tidToTcb sigma0Id) rootTaskId 0 0) 1 16 := by
  refine ⟨rfl, by decide, by decide, by decide, fun h => ?_⟩
  obtain ⟨a, st, c, -, hwait, -⟩ := h (by decide)
  exact hwait.notCurrent (by decide)

end Hazelnut
