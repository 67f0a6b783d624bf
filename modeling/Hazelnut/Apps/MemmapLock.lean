import Mathlib.Data.List.Basic
import Mathlib.Logic.Relation

/-!
The lock between the two threads of the resource manager, after `apps/rmgr/src/memmap_lock.h` and
the loops of `pager` in `memmap.c` and `mgr` in `rmgr.c`.

* `System`: `memmap_lock`, where the threads are, and the memory map.  What a request does to the
  memory map is any sequence of accesses.
* `Step`: one access or one message.  IPC errors, which panic, are left out.
* `memmap_lock_serial`: the memory map is that of the requests one after another.
* `memmap_lock_ends`: without new requests, both threads get back to where they wait for one.
* `memmap_lock_wake`: no wake-up is taken for a request.
-/

namespace Hazelnut.MemmapLock

/-- `RMGR_LTHREAD_PAGER` and `RMGR_LTHREAD_SUPER`. -/
inductive Side where
  | pager
  | super
  deriving DecidableEq, Repr

/-- The `locker` of one thread, and the `candidate` of the other. -/
def Side.other : Side → Side
  | .pager => .super
  | .super => .pager

/-- Where a thread is. -/
inductive Pc where
  /-- waits for a request of anybody -/
  | idle
  /-- has a request, before the `xchg` -/
  | asked
  /-- in `l4_i386_ipc_receive` of `enter_memmap_functions` -/
  | blocked
  /-- in `l4_i386_ipc_send` of `enter_memmap_functions` -/
  | granted
  | inside
  /-- in the send phase of `l4_i386_ipc_call` of `leave_memmap_functions` -/
  | calling
  /-- in the receive phase -/
  | called
  deriving DecidableEq, Repr

/-- `memmap_lock`, the threads and the memory map.  `req` is the request of a thread, as the
accesses that it makes, and `todo` those it has not made; `served` are the requests that were left.
-/
@[ext]
structure System (σ : Type) where
  lock : Option Side
  pc : Side → Pc
  req : Side → List (σ → σ)
  todo : Side → List (σ → σ)
  mem : σ
  served : List (List (σ → σ))

variable {σ : Type}

/-- A thread gets somewhere. -/
def System.goto (s : System σ) (p : Side) (c : Pc) : System σ :=
    { s with pc := Function.update s.pc p c }

/-- A message is taken for a request. -/
def System.ask (s : System σ) (p : Side) (r : List (σ → σ)) : System σ :=
  { s.goto p .asked with req := Function.update s.req p r, todo := Function.update s.todo p r }

/-- A request comes. -/
inductive Arrive : System σ → System σ → Prop
  | request {s : System σ} {p : Side} (r : List (σ → σ)) : s.pc p = .idle → Arrive s (s.ask p r)

/-- What the threads do with a request. -/
inductive Work : System σ → System σ → Prop
  /-- `xchg` finds -1 -/
  | enter {s : System σ} {p : Side} : s.pc p = .asked → s.lock = none →
      Work s { s.goto p .inside with lock := some p }
  /-- `xchg` finds a thread -/
  | block {s : System σ} {p q : Side} : s.pc p = .asked → s.lock = some q →
      Work s { s.goto p .blocked with lock := some p }
  | access {s : System σ} {p : Side} {f : σ → σ} {r : List (σ → σ)} : s.pc p = .inside →
      s.todo p = f :: r →
      Work s { s with mem := f s.mem, todo := Function.update s.todo p r }
  /-- `cmpxchg` finds the thread itself -/
  | leave {s : System σ} {p : Side} : s.pc p = .inside → s.todo p = [] → s.lock = some p →
      Work s { s.goto p .idle with lock := none, served := s.served ++ [s.req p] }
  /-- `cmpxchg` finds the other thread -/
  | call {s : System σ} {p : Side} : s.pc p = .inside → s.todo p = [] → s.lock ≠ some p →
      Work s { s.goto p .calling with served := s.served ++ [s.req p] }
  /-- the message of the call is received in `enter_memmap_functions` -/
  | wake {s : System σ} {p : Side} : s.pc p = .calling → s.pc p.other = .blocked →
      Work s ((s.goto p .called).goto p.other .granted)
  /-- the answer to the call -/
  | answer {s : System σ} {p : Side} : s.pc p = .called → s.pc p.other = .granted →
      Work s ((s.goto p .idle).goto p.other .inside)
  /-- the message of the call is received as a request -/
  | stray {s : System σ} {p : Side} (r : List (σ → σ)) : s.pc p = .calling → s.pc p.other = .idle →
      Work s ((s.goto p .called).ask p.other r)

def Step (s t : System σ) : Prop := Arrive s t ∨ Work s t

/-- Both threads wait for requests. -/
def System.init (m : σ) : System σ where
  lock := none
  pc _ := .idle
  req _ := []
  todo _ := []
  mem := m
  served := []

def Reachable (m : σ) (s : System σ) : Prop := Relation.ReflTransGen Step (System.init m) s

/-- The accesses are made. -/
def replay (m : σ) (fs : List (σ → σ)) : σ := fs.foldl (fun m f => f m) m

@[simp] lemma replay_nil (m : σ) : replay m [] = m := rfl

@[simp] lemma replay_append (m : σ) (fs gs : List (σ → σ)) :
    replay m (fs ++ gs) = replay (replay m fs) gs :=
  List.foldl_append ..

@[simp] lemma replay_singleton (m : σ) (f : σ → σ) : replay m [f] = f m := rfl

@[simp] lemma Side.other_other (p : Side) : p.other.other = p := by cases p <;> rfl

lemma Side.eq_or_eq_other (p q : Side) : q = p ∨ q = p.other := by
  cases p <;> cases q <;> simp [Side.other]

@[simp] lemma Side.other_ne (p : Side) : p.other ≠ p := by cases p <;> simp [Side.other]

/-! ### The lock between two steps -/

/-- Not between `enter_memmap_functions` and `leave_memmap_functions`. -/
def Pc.Out (c : Pc) : Prop := c = .idle ∨ c = .asked

/-- The thread `p` has the lock, or is to hand it over. -/
inductive Held (p : Side) (s : System σ) : Prop
  | alone : s.pc p = .inside → (s.pc p.other).Out → s.lock = some p → Held p s
  | waited : s.pc p = .inside → s.pc p.other = .blocked → s.lock = some p.other → Held p s
  | calling : s.pc p = .calling → s.pc p.other = .blocked → s.lock = some p.other → Held p s
  | called : s.pc p = .called → s.pc p.other = .granted → s.lock = some p.other → Held p s

/-- The lock is free, or one thread has it. -/
def Excl (s : System σ) : Prop := (∀ p, (s.pc p).Out) ∧ s.lock = none ∨ ∃ p, Held p s

/-- The memory map is that of the requests served, and of what the thread inside has done. -/
structure Serial (m : σ) (s : System σ) : Prop where
  fresh : ∀ p, s.pc p = .asked ∨ s.pc p = .blocked ∨ s.pc p = .granted → s.todo p = s.req p
  inside : ∀ p, s.pc p = .inside →
    ∃ fs, s.req p = fs ++ s.todo p ∧ s.mem = replay m (s.served.flatten ++ fs)
  outside : (∀ p, s.pc p ≠ .inside) → s.mem = replay m s.served.flatten

variable {s t : System σ} {p : Side} {c : Pc} {m : σ} {r : List (σ → σ)}

@[simp] lemma System.goto_pc (q : Side) : (s.goto p c).pc q = if q = p then c else s.pc q := by
  simp only [System.goto, Function.update_apply]

@[simp] lemma System.ask_pc (q : Side) : (s.ask p r).pc q = if q = p then .asked else s.pc q :=
  System.goto_pc q

@[simp] lemma System.ask_lock : (s.ask p r).lock = s.lock := rfl

@[simp] lemma System.goto_lock : (s.goto p c).lock = s.lock := rfl

/-- Who is inside, or wakes up the other thread, is the one. -/
lemma Excl.held (h : Excl s) (hp : s.pc p = .inside ∨ s.pc p = .calling ∨ s.pc p = .called) :
    Held p s := by
  rcases h with ⟨ho, -⟩ | ⟨q, hq⟩
  · have := ho p
    grind [Pc.Out]
  rcases Side.eq_or_eq_other q p with rfl | rfl
  · exact hq
  · cases hq <;> grind [Pc.Out]

/-- Who is about to ask for the lock finds it free, or with the other thread inside. -/
lemma Excl.asked (h : Excl s) (hp : (s.pc p).Out) :
    (∀ q, (s.pc q).Out) ∧ s.lock = none ∨ Held p.other s ∧ s.pc p.other = .inside ∧
    s.lock = some p.other := by
  rcases h with h | ⟨q, hq⟩
  · exact .inl h
  rcases Side.eq_or_eq_other q p with rfl | rfl
  · cases hq <;> grind [Pc.Out]
  · right
    rw [Side.other_other]
    cases hq <;> first | exact ⟨.alone ‹_› ‹_› ‹_›, ‹_›, ‹_›⟩ | grind [Pc.Out]

lemma Excl.step (h : Excl s) (hst : Step s t) : Excl t := by
  rcases hst with hst | hst <;> cases hst
  case inl.request p r hp =>
    rcases h.asked (.inl hp) with ⟨ho, hl⟩ | ⟨-, hin, hl⟩
    · refine .inl ⟨fun q => ?_, hl⟩
      rw [System.ask_pc]
      split_ifs
      exacts [.inr rfl, ho q]
    · exact .inr ⟨p.other, .alone (by simp [hin]) (by simp [Pc.Out]) hl⟩
  case inr.enter p hp hl =>
    rcases h.asked (.inr hp) with ⟨ho, -⟩ | ⟨-, -, hl'⟩
    · exact .inr ⟨p, .alone (by simp) (by simpa using ho p.other) rfl⟩
    · simp [hl] at hl'
  case inr.block p q hp hl =>
    rcases h.asked (.inr hp) with ⟨-, hl'⟩ | ⟨-, hin, -⟩
    · simp [hl] at hl'
    · exact .inr ⟨p.other, .waited (by simp [hin]) (by simp) (by simp)⟩
  case inr.access =>
    rcases h with h | ⟨q, hq⟩
    · exact .inl h
    · refine .inr ⟨q, ?_⟩
      cases hq with
      | alone h₁ h₂ h₃ => exact .alone h₁ h₂ h₃
      | waited h₁ h₂ h₃ => exact .waited h₁ h₂ h₃
      | calling h₁ h₂ h₃ => exact .calling h₁ h₂ h₃
      | called h₁ h₂ h₃ => exact .called h₁ h₂ h₃
  case inr.leave p hp _ hl =>
    cases h.held (.inl hp) with
    | alone _ ho _ =>
      refine .inl ⟨fun q => ?_, rfl⟩
      rcases Side.eq_or_eq_other p q with rfl | rfl
      · simp [Pc.Out]
      · simpa using ho
    | waited _ _ hl' | calling _ _ hl' | called _ _ hl' => simp [hl, (Side.other_ne p).symm] at hl'
  case inr.call p hp _ hl =>
    cases h.held (.inl hp) with
    | alone _ _ hl' => exact absurd hl' hl
    | waited _ ho hl' => exact .inr ⟨p, .calling (by simp) (by simpa using ho) hl'⟩
    | calling hc | called hc => simp [hp] at hc
  case inr.wake p hp ho =>
    cases h.held (.inr (.inl hp)) with
    | calling _ _ hl => exact .inr ⟨p, .called (by simp [(Side.other_ne p).symm]) (by simp) hl⟩
    | alone hc | waited hc | called hc => simp [hp] at hc
  case inr.answer p hp ho =>
    cases h.held (.inr (.inr hp)) with
    | called _ _ hl =>
      exact .inr ⟨p.other, .alone (by simp) (by simp [Pc.Out, (Side.other_ne p).symm]) hl⟩
    | alone hc | waited hc | calling hc => simp [hp] at hc
  case inr.stray p r hp ho =>
    cases h.held (.inr (.inl hp)) with
    | calling _ hb _ => simp [ho] at hb
    | alone hc | waited hc | called hc => simp [hp] at hc

/-- One thread at most is inside. -/
lemma Excl.not_inside (h : Excl s) (hp : s.pc p = .inside) : s.pc p.other ≠ .inside := by
  cases h.held (.inl hp) <;> grind [Pc.Out]

@[simp] lemma System.goto_req : (s.goto p c).req = s.req := rfl

@[simp] lemma System.goto_todo : (s.goto p c).todo = s.todo := rfl

@[simp] lemma System.goto_mem : (s.goto p c).mem = s.mem := rfl

@[simp] lemma System.goto_served : (s.goto p c).served = s.served := rfl

@[simp] lemma System.ask_mem : (s.ask p r).mem = s.mem := rfl

@[simp] lemma System.ask_served : (s.ask p r).served = s.served := rfl

@[simp] lemma System.ask_req (q : Side) : (s.ask p r).req q = if q = p then r else s.req q := by
  simp only [System.ask, Function.update_apply]

@[simp] lemma System.ask_todo (q : Side) : (s.ask p r).todo q = if q = p then r else s.todo q := by
  simp only [System.ask, Function.update_apply]

/-- A thread that goes somewhere else than inside changes nothing. -/
lemma Serial.of_pc (h : Serial m s) (hm : t.mem = s.mem) (hs : t.served = s.served)
    (hr : ∀ q, s.pc q = .inside → t.req q = s.req q ∧ t.todo q = s.todo q)
    (hi : ∀ q, t.pc q = .inside ↔ s.pc q = .inside)
    (hf : ∀ q, t.pc q = .asked ∨ t.pc q = .blocked ∨ t.pc q = .granted → t.todo q = t.req q) :
    Serial m t where
  fresh := hf
  inside q hq := by
    rw [hi] at hq
    obtain ⟨hr₁, hr₂⟩ := hr q hq
    rw [hr₁, hr₂, hm, hs]
    exact h.inside q hq
  outside ho := by
    rw [hm, hs]
    exact h.outside fun q hq => ho q ((hi q).2 hq)

/-- A thread that gets inside has done nothing. -/
lemma Serial.of_inside (h : Serial m s) (hm : t.mem = s.mem) (hs : t.served = s.served)
    (hn : ∀ q, s.pc q ≠ .inside) (hp : t.todo p = t.req p) (hi : ∀ q, t.pc q = .inside → q = p)
    (ht : t.pc p = .inside)
    (hf : ∀ q, t.pc q = .asked ∨ t.pc q = .blocked ∨ t.pc q = .granted → t.todo q = t.req q) :
    Serial m t where
  fresh := hf
  inside q hq := by
    obtain rfl := hi q hq
    refine ⟨[], by rw [hp, List.nil_append], ?_⟩
    rw [hm, hs, List.append_nil]
    exact h.outside hn
  outside ho := absurd ht (ho p)

/-- A thread leaves with all of its request done. -/
lemma Serial.of_leave (h : Serial m s) (hp : s.pc p = .inside) (htodo : s.todo p = [])
    (hm : t.mem = s.mem)
    (hs : t.served = s.served ++ [s.req p]) (hi : ∀ q, t.pc q ≠ .inside)
    (hf : ∀ q, t.pc q = .asked ∨ t.pc q = .blocked ∨ t.pc q = .granted → t.todo q = t.req q) :
    Serial m t where
  fresh := hf
  inside q hq := absurd hq (hi q)
  outside _ := by
    obtain ⟨fs, hr, hmem⟩ := h.inside p hp
    rw [htodo, List.append_nil] at hr
    simp [hm, hs, hmem, hr]

lemma Serial.step (h : Serial m s) (he : Excl s) (hst : Step s t) : Serial m t := by
  have hf := h.fresh
  rcases hst with hst | hst <;> cases hst
  case inl.request p r hp =>
    refine h.of_pc rfl rfl (fun q hq => ?_) (fun q => ?_) fun q hq => ?_
    all_goals
      rcases eq_or_ne q p with rfl | hqp
      · simp_all
      · simp_all
  case inr.enter p hp hl =>
    have hn : ∀ q, s.pc q ≠ .inside := fun q hq => by
      rcases he.asked (.inr hp) with ⟨ho, -⟩ | ⟨-, -, hl'⟩
      · have := ho q
        grind [Pc.Out]
      · simp [hl] at hl'
    refine h.of_inside (p := p) rfl rfl hn (hf p (.inl hp)) (fun q hq => ?_) (by simp)
      fun q hq => ?_
    · by_contra hqp
      exact hn q (by simpa [hqp] using hq)
    · rcases eq_or_ne q p with rfl | hqp
      · exact hf q (.inl hp)
      · exact hf q (by simpa [hqp] using hq)
  case inr.block p q hp hl =>
    refine h.of_pc rfl rfl (fun q hq => ⟨rfl, rfl⟩) (fun q => ?_) fun q hq => ?_
    all_goals rcases eq_or_ne q p with rfl | hqp
    all_goals simp_all
  case inr.access p f r hp htodo =>
    have hne : ∀ q, s.pc q = .inside → q = p := fun q hq => by
      rcases Side.eq_or_eq_other p q with rfl | rfl
      · rfl
      · exact absurd hq (he.not_inside hp)
    refine ⟨fun q hq => ?_, fun q hq => ?_, fun ho => absurd hp (ho p)⟩
    · rcases eq_or_ne q p with rfl | hqp
      · simp [hp] at hq
      · simpa [hqp] using hf q hq
    · obtain rfl := hne q hq
      obtain ⟨fs, hr, hm⟩ := h.inside q hq
      exact ⟨fs ++ [f], by simp [hr, htodo], by simp [hm]⟩
  case inr.leave p hp htodo hl =>
    refine h.of_leave hp htodo rfl rfl (fun q hq => ?_) fun q hq => ?_
    · rcases Side.eq_or_eq_other p q with rfl | rfl
      · simp at hq
      · exact he.not_inside hp (by simpa using hq)
    · rcases eq_or_ne q p with rfl | hqp
      · simp at hq
      · exact hf q (by simpa [hqp] using hq)
  case inr.call p hp htodo hl =>
    refine h.of_leave hp htodo rfl rfl (fun q hq => ?_) fun q hq => ?_
    · rcases Side.eq_or_eq_other p q with rfl | rfl
      · simp at hq
      · exact he.not_inside hp (by simpa using hq)
    · rcases eq_or_ne q p with rfl | hqp
      · simp at hq
      · exact hf q (by simpa [hqp] using hq)
  case inr.wake p hp ho =>
    refine h.of_pc rfl rfl (fun q hq => ⟨rfl, rfl⟩) (fun q => ?_) fun q hq => ?_
    all_goals rcases Side.eq_or_eq_other p q with rfl | rfl
    all_goals simp_all [(Side.other_ne _).symm]
  case inr.answer p hp ho =>
    have hn : ∀ q, s.pc q ≠ .inside := fun q => by
      rcases Side.eq_or_eq_other p q with rfl | rfl <;> simp [hp, ho]
    refine h.of_inside (p := p.other) rfl rfl hn (hf _ (.inr (.inr ho))) (fun q hq => ?_) (by simp)
      fun q hq => ?_
    all_goals rcases Side.eq_or_eq_other p q with rfl | rfl
    all_goals simp_all [(Side.other_ne _).symm]
  case inr.stray p r hp ho =>
    cases he.held (.inr (.inl hp)) with
    | calling _ hb _ => simp [ho] at hb
    | alone hc | waited hc | called hc => simp [hp] at hc

lemma Serial.init : Serial m (System.init m) where
  fresh _ _ := rfl
  inside _ hp := by cases hp
  outside _ := rfl

lemma Reachable.inv (h : Reachable m s) : Excl s ∧ Serial m s := by
  induction h with
  | refl => exact ⟨.inl ⟨fun _ => .inl rfl, rfl⟩, .init⟩
  | tail _ hst ih => exact ⟨ih.1.step hst, ih.2.step ih.1 hst⟩

/-- The pager has made one of two accesses, and the other thread waits for it. -/
def contended : System Nat where
  lock := some .super
  pc
    | .pager => .inside
    | .super => .blocked
  req
    | .pager => [(· + 1), (· + 2)]
    | .super => [(· * 2)]
  todo
    | .pager => [(· + 2)]
    | .super => [(· * 2)]
  mem := 1
  served := []

lemma reachable_contended : Reachable 0 contended := by
  suffices ∃ t, Reachable 0 t ∧ t = contended by
    obtain ⟨_, ht, rfl⟩ := this
    exact ht
  refine ⟨_, .tail (.tail (.tail (.tail (.tail .refl
    (.inl (.request (p := .pager) [(· + 1), (· + 2)] ?_)))
    (.inr (.enter (p := .pager) ?_ ?_)))
    (.inr (.access (p := .pager) (f := (· + 1)) (r := [(· + 2)]) ?_ ?_)))
    (.inl (.request (p := .super) [(· * 2)] ?_)))
    (.inr (.block (p := .super) (q := .pager) ?_ ?_)), ?_⟩
  case refine_9 =>
    refine System.ext rfl ?_ ?_ ?_ rfl rfl <;> funext p <;> cases p <;> rfl
  all_goals rfl

/-- **Serial**: one thread at most works on the memory map, and whatever the order of the steps, the
memory map is that of the requests served, one after another, and of the accesses of that thread. -/
theorem memmap_lock_serial (h : Reachable m s) :
    (∀ p, s.pc p = .inside → s.pc p.other ≠ .inside ∧
      ∃ fs, s.req p = fs ++ s.todo p ∧ s.mem = replay m (s.served.flatten ++ fs)) ∧
    ((∀ p, s.pc p ≠ .inside) → s.mem = replay m s.served.flatten) := by
  obtain ⟨he, hs⟩ := h.inv
  exact ⟨fun p hp => ⟨he.not_inside hp, hs.inside p hp⟩, hs.outside⟩

theorem memmap_lock_serial_contended :
    (∀ p, contended.pc p = .inside → contended.pc p.other ≠ .inside ∧
      ∃ fs, contended.req p = fs ++ contended.todo p ∧
        contended.mem = replay 0 (contended.served.flatten ++ fs)) ∧
    ((∀ p, contended.pc p ≠ .inside) → contended.mem = replay 0 contended.served.flatten) :=
  memmap_lock_serial reachable_contended

/-! ### Nobody waits for ever -/

/-- What is left to do. -/
def Pc.rest : Pc → Nat
  | .idle => 0
  | .called => 1
  | .calling => 2
  | .inside => 3
  | .granted => 4
  | .blocked => 5
  | .asked => 6

/-- What is left to do for a request. -/
def System.rest (s : System σ) (p : Side) : Nat := (s.pc p).rest + (s.todo p).length

lemma Excl.work_lt (h : Excl s) (hst : Work s t) :
    t.rest .pager + t.rest .super < s.rest .pager + s.rest .super := by
  have hsum (p : Side) (u : System σ) : u.rest .pager + u.rest .super = u.rest p +
      u.rest p.other := by
    cases p
    · rfl
    · exact Nat.add_comm ..
  cases hst
  case enter p hp _ => rw [hsum p, hsum p]; simp [System.rest, Pc.rest, hp]
  case block p q hp _ => rw [hsum p, hsum p]; simp [System.rest, Pc.rest, hp]
  case access p f r hp htodo => rw [hsum p, hsum p]; simp [System.rest, htodo]
  case leave p hp _ _ => rw [hsum p, hsum p]; simp [System.rest, Pc.rest, hp]
  case call p hp _ _ => rw [hsum p, hsum p]; simp [System.rest, Pc.rest, hp]
  case wake p hp ho =>
    rw [hsum p, hsum p]
    simp [System.rest, Pc.rest, hp, ho, (Side.other_ne p).symm]
    omega
  case answer p hp ho =>
    rw [hsum p, hsum p]
    simp [System.rest, Pc.rest, hp, ho, (Side.other_ne p).symm]
    omega
  case stray p r hp ho =>
    cases h.held (.inr (.inl hp)) with
    | calling _ hb _ => simp [ho] at hb
    | alone hc | waited hc | called hc => simp [hp] at hc

lemma Held.work (h : Held p s) : ∃ t, Work s t := by
  have hin (hp : s.pc p = .inside) : ∃ t, Work s t := by
    cases htodo : s.todo p with
    | cons f r => exact ⟨_, .access hp htodo⟩
    | nil =>
      by_cases hl : s.lock = some p
      · exact ⟨_, .leave hp htodo hl⟩
      · exact ⟨_, .call hp htodo hl⟩
  cases h with
  | alone hp | waited hp => exact hin hp
  | calling hp ho => exact ⟨_, .wake hp ho⟩
  | called hp ho => exact ⟨_, .answer hp ho⟩

lemma Excl.idle (h : Excl s) (hst : ∀ t, ¬Work s t) (p : Side) : s.pc p = .idle := by
  rcases h with ⟨ho, hl⟩ | ⟨q, hq⟩
  · rcases ho p with hp | hp
    · exact hp
    · exact absurd (.enter hp hl) (hst _)
  · obtain ⟨t, ht⟩ := hq.work
    exact absurd ht (hst t)

/-- **End**: if no requests come any more, the threads stop after finitely many steps, and then both
wait for requests. -/
theorem memmap_lock_ends (h : Reachable m s) :
    Acc (fun t u : System σ => Work u t) s ∧
      ∀ t, Relation.ReflTransGen Work s t → (∀ u, ¬Work t u) → ∀ p, t.pc p = .idle := by
  obtain ⟨he, -⟩ := h.inv
  refine ⟨?_, fun t ht hst => ?_⟩
  · induction hn : s.rest .pager + s.rest .super using Nat.strongRecOn generalizing s with
    | _ n ih =>
      refine .intro s fun t ht => ih _ ?_ (.tail h (.inr ht)) (he.step (.inr ht)) rfl
      rw [← hn]
      exact he.work_lt ht
  · have := Reachable.inv (m := m) (.trans h (ht.lift id fun _ _ => .inr))
    exact this.1.idle hst

theorem memmap_lock_ends_contended :
    Acc (fun t u : System Nat => Work u t) contended ∧
      ∀ t, Relation.ReflTransGen Work contended t → (∀ u, ¬Work t u) → ∀ p, t.pc p = .idle :=
  memmap_lock_ends reachable_contended

/-- **Wake-up**: the message that hands over the lock finds the other thread waiting for it, and not
for a request. -/
theorem memmap_lock_wake (h : Reachable m s) (hp : s.pc p = .calling) :
    s.pc p.other = .blocked := by
  cases h.inv.1.held (.inr (.inl hp)) with
  | calling _ ho _ => exact ho
  | alone hc | waited hc | called hc => simp [hp] at hc

theorem memmap_lock_wake_contended :
    ∃ t, Relation.ReflTransGen Work contended t ∧ t.pc .pager = .calling ∧
    t.pc Side.pager.other = .blocked := by
  have hst := Relation.ReflTransGen.tail
    (.single (Work.access (s := contended) (p := .pager) rfl rfl))
    (.call (p := .pager) rfl rfl (by simp [contended]))
  exact ⟨_, hst, rfl, memmap_lock_wake
    (reachable_contended.trans (hst.lift id fun _ _ => .inr)) rfl⟩

end Hazelnut.MemmapLock
