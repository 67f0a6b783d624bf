import Hazelnut.Apps.Rmgr

/-!
Tasks, small spaces and interrupts, after `task.h`, `small.h`, `irq.h`, `irq.c` and `mgr` of
`apps/rmgr/src/rmgr.c`, as they are compiled with `__VERSION_X__`.

* `Table`: the owners of the things of one kind, and the quotas of the tasks.
* `IrqThread`: a thread that has attached to an interrupt at boot time.
* `mgr`: a request to the supervisor.
* `mgr_run`: quotas count what tasks have in every run.
* `irq_held`, `irqFree_lets_go`: when the resource manager lets go of an interrupt.

Left out: the requests for names of tasks, of which `RMGR_TASK_SET_ID` also copies a quota, with
what is in use; and what `l4_task_new` and `l4_thread_schedule` do but for their results.
-/

namespace Hazelnut.Rmgr

open Ledger

def taskMax : Nat := 256
def smallMax : Nat := 128
def irqMax : Nat := 16

/-! ### Tables -/

/-- Owners, and quotas for the things that are owned. -/
structure Table (Q : Type) where
  owner : Nat → Nat
  quota : Nat → Q

namespace Table

variable {Q : Type}

/-- What `task_alloc`, `small_alloc` and `irq_alloc` have in common. -/
def alloc (charge : Q → Nat → Option Q) (s : Table Q) (n t : Nat) : Bool × Table Q :=
  if s.owner n = t then (true, s)
  else if s.owner n ≠ oFree then (false, s)
  else
    match charge (s.quota t) n with
    | none => (false, s)
    | some q =>
      (true, { owner := Function.update s.owner n t, quota := Function.update s.quota t q })

/-- What `task_free`, `small_free` and `irq_free` have in common. -/
def free (refund : Q → Nat → Q) (s : Table Q) (n t : Nat) : Bool × Table Q :=
  if s.owner n ≠ t ∧ s.owner n ≠ oFree then (false, s)
  else if s.owner n ≠ oFree then
    (true, {
      owner := Function.update s.owner n oFree
      quota := Function.update s.quota t (refund (s.quota t) n) })
  else (true, s)

end Table

/-- `quota_alloc_task` and `quota_alloc_small`; the fields of the quota have `w` bits. -/
def Quota.allocUnit (w : Nat) (q : Quota) (n : Nat) : Option Quota :=
  if q.check n 1 then some { q with current := (q.current + 1) % 2 ^ w } else none

/-- `quota_free_task` and `quota_free_small`. -/
def Quota.freeUnit (w : Nat) (q : Quota) (_n : Nat) : Quota :=
    { q with current := (q.current + 2 ^ w - 1) % 2 ^ w }

/-- `mask_quota_t`. -/
structure MaskQuota where
  max : BitVec 32
  current : BitVec 32

/-- `quota_alloc_irq`. -/
def MaskQuota.alloc (q : MaskQuota) (n : Nat) : Option MaskQuota :=
  if q.max.getLsbD n then some { q with current := q.current ||| BitVec.twoPow 32 n } else none

/-- `quota_free_irq`. -/
def MaskQuota.free (q : MaskQuota) (n : Nat) : MaskQuota :=
    { q with current := q.current &&& ~~~BitVec.twoPow 32 n }

def taskAlloc : Table Quota → Nat → Nat → Bool × Table Quota := Table.alloc (Quota.allocUnit 16)
def taskFree : Table Quota → Nat → Nat → Bool × Table Quota := Table.free (Quota.freeUnit 16)
def smallAlloc : Table Quota → Nat → Nat → Bool × Table Quota := Table.alloc (Quota.allocUnit 8)
def irqAlloc : Table MaskQuota → Nat → Nat → Bool × Table MaskQuota := Table.alloc MaskQuota.alloc
def irqFree : Table MaskQuota → Nat → Nat → Bool × Table MaskQuota := Table.free MaskQuota.free

/-! ### Threads of interrupts -/

/-- The variables of `__irq_thread`, and whether the kernel has the thread attached. -/
structure IrqThread where
  isFailure : Bool
  isAttached : Bool
  held : Bool
  deriving DecidableEq, Repr

/-- A turn of the loop of `__irq_thread`; `ok` is what `irq_attach` returns.  The word of the
request is overwritten before it is looked at. -/
def IrqThread.serve (th : IrqThread) (ok : Bool) (_d1 : Nat) : Nat × IrqThread :=
  let d1 := 2 ^ 32 - 1
  let th : IrqThread :=
    if th.isFailure ∧ d1 ≠ 0 then
      if ok then { isFailure := false, isAttached := true, held := true }
        else { th with held := false }
    else th
  if th.isFailure then (d1, th)
  else if th.isAttached ∧ d1 ≠ 0 then (0, { th with held := false })
  else if ¬th.isAttached ∧ d1 = 0 then
    if ok then (0, { th with held := true }) else (1, { th with isFailure := true, held := false })
  else (d1, th)

/-! ### Requests -/

/-- What the supervisor works on. -/
structure Supervisor where
  server : Server
  task : Table Quota
  small : Table Quota
  irq : Table MaskQuota
  logMcp : Nat → Nat
  thread : Nat → IrqThread
  smallSpaceSize : Nat

namespace Supervisor

/-- `last_pf` of a task that is new, or no more. -/
def forget (s : Supervisor) (n : Nat) : Supervisor :=
  { s with server.lastPf := Function.update s.server.lastPf n (2 ^ 32 - 1, 2 ^ 32 - 1) }

/-- `RMGR_TASK_GET`; `made` if `l4_task_new` makes the task. -/
def taskGet (s : Supervisor) (t n : Nat) (made : Bool) : Bool × Supervisor :=
  if taskMax ≤ n then (false, s)
  else
    let x := taskAlloc s.task n t
    let s := { s with task := x.2 }
    if x.1 = false then (false, s)
    else if made then (true, s.forget n)
    else (false, { s.forget n with task := (taskFree s.task n t).2 })

/-- `RMGR_TASK_DELETE`.  It does not matter whether `l4_task_new` can delete the task. -/
def taskDelete (s : Supervisor) (t n : Nat) : Bool × Supervisor :=
  if taskMax ≤ n then (false, s)
  else if s.task.owner n ≠ t then (false, s)
  else (true, { s.forget n with task := (taskFree s.task n t).2 })

/-- The quotas of a task that was created. -/
def resetQuota (s : Supervisor) (n : Nat) (irq : BitVec 32) (mcp : Nat) : Supervisor :=
  { s with
    server.map.mem := Function.update s.server.map.mem n { s.server.map.mem n with max := 0 }
    server.map.himem := Function.update s.server.map.himem n { s.server.map.himem n with max := 0 }
    task.quota := Function.update s.task.quota n { s.task.quota n with max := 0 }
    small.quota := Function.update s.small.quota n { s.small.quota n with max := 0 }
    irq.quota := Function.update s.irq.quota n { s.irq.quota n with max := irq }
    logMcp := Function.update s.logMcp n mcp }

/-- What the two requests to create a task have in common; `valid` if the message has the string,
and that a pager. -/
def create (s : Supervisor) (t n mcp : Nat) (irq : BitVec 32) (valid made : Bool) :
    Bool × Supervisor :=
  if taskMax ≤ n ∨ valid = false then (false, s)
  else
    let x := taskAlloc s.task n t
    let s := { s with task := x.2 }
    if x.1 = false then (false, s)
    else if made = false then (false, { s with task := (taskFree s.task n t).2 })
    else (true, s.resetQuota n irq (if s.logMcp t < mcp then s.logMcp t else mcp))

/-- `RMGR_TASK_CREATE`. -/
def taskCreate (s : Supervisor) (t n mcp : Nat) (valid made : Bool) : Bool × Supervisor :=
  s.create t n mcp (BitVec.allOnes 32) valid made

/-- `RMGR_TASK_CREATE_WITH_PRIO`. -/
def taskCreateWithPrio (s : Supervisor) (t n mcp : Nat) (valid made : Bool) : Bool × Supervisor :=
  s.create t n mcp 0 valid made

/-- `RMGR_TASK_SET_SMALL`. -/
def taskSetSmall (s : Supervisor) (t p : Nat) : Bool × Supervisor :=
  if s.smallSpaceSize = 0 ∨ p = 0 ∨ smallMax / s.smallSpaceSize ≤ p then (false, s)
  else
    let x := smallAlloc s.small p t
    (x.1, { s with small := x.2 })

/-- `RMGR_TASK_SET_PRIO`. -/
def taskSetPrio (s : Supervisor) (t p : Nat) : Bool × Supervisor := (¬s.logMcp t < p, s)

/-- The call of the thread of an interrupt. -/
def callIrq (s : Supervisor) (n : Nat) (ok : Bool) (d1 : Nat) : Nat × Supervisor :=
  let y := (s.thread n).serve ok d1
  (y.1, { s with thread := Function.update s.thread n y.2 })

/-- `RMGR_IRQ_GET`. -/
def irqGet (s : Supervisor) (t n : Nat) (ok : Bool) : Bool × Supervisor :=
  if irqMax ≤ n then (false, s)
  else
    let x := irqAlloc s.irq n t
    if x.1 = false then (false, { s with irq := x.2 })
    else
      let y := { s with irq := x.2 }.callIrq n ok 1
      if y.1 = 0 then (true, y.2) else (false, { y.2 with irq := (Rmgr.irqFree y.2.irq n t).2 })

/-- `RMGR_IRQ_FREE`. -/
def irqFree (s : Supervisor) (t n : Nat) (ok : Bool) : Bool × Supervisor :=
  if irqMax ≤ n then (false, s)
  else
    let x := Rmgr.irqFree s.irq n t
    if x.1 = false then (false, { s with irq := x.2 })
    else
      let y := { s with irq := x.2 }.callIrq n ok 0
      (y.1 = 0, y.2)

end Supervisor

/-- A request of a task, with what the kernel answers. -/
inductive Action where
  | taskGet (n : Nat) (made : Bool)
  | taskDelete (n : Nat)
  | taskCreate (n mcp : Nat) (valid made : Bool)
  | taskCreateWithPrio (n mcp : Nat) (valid made : Bool)
  | taskSetSmall (p : Nat)
  | taskSetPrio (p : Nat)
  | irqGet (n : Nat) (ok : Bool)
  | irqFree (n : Nat) (ok : Bool)
  deriving DecidableEq, Repr

/-- A turn of the loop of `mgr`. -/
def mgr (s : Supervisor) (t : Nat) : Action → Bool × Supervisor
  | .taskGet n made => s.taskGet t n made
  | .taskDelete n => s.taskDelete t n
  | .taskCreate n mcp valid made => s.taskCreate t n mcp valid made
  | .taskCreateWithPrio n mcp valid made => s.taskCreateWithPrio t n mcp valid made
  | .taskSetSmall p => s.taskSetSmall t p
  | .taskSetPrio p => s.taskSetPrio t p
  | .irqGet n ok => s.irqGet t n ok
  | .irqFree n ok => s.irqFree t n ok

/-- The interrupt that the request is for. -/
def Action.interrupt : Action → Option Nat
  | .irqGet n _ | .irqFree n _ => some n
  | _ => none

/-! ### What a request does to a table -/

namespace Table

variable {Q : Type} {s s' s'' : Table Q} {charge : Q → Nat → Option Q} {refund : Q → Nat → Q}
    {n t : Nat}

lemma alloc_cases (charge : Q → Nat → Option Q) (s : Table Q) (n t : Nat) :
    (s.alloc charge n t = (true, s) ∧ s.owner n = t) ∨
    (s.alloc charge n t = (false, s) ∧ s.owner n ≠ t) ∨
      ∃ q, s.owner n = oFree ∧ charge (s.quota t) n = some q ∧ s.alloc charge n t =
        (true, { owner := Function.update s.owner n t, quota := Function.update s.quota t q }) := by
  unfold alloc
  split_ifs with ht hf
  · exact .inl ⟨rfl, ht⟩
  · exact .inr (.inl ⟨rfl, ht⟩)
  · cases hq : charge (s.quota t) n with
    | none => exact .inr (.inl ⟨rfl, ht⟩)
    | some q => exact .inr (.inr ⟨q, not_not.1 hf, rfl, rfl⟩)

lemma free_cases (refund : Q → Nat → Q) (s : Table Q) (n t : Nat) :
    ((s.free refund n t).2 = s ∧ (s.owner n = t → t = oFree)) ∨ (s.owner n = t ∧ t ≠ oFree ∧
      s.free refund n t = (true, {
        owner := Function.update s.owner n oFree
        quota := Function.update s.quota t (refund (s.quota t) n) })) := by
  unfold free
  split_ifs with hno hf
  · exact .inl ⟨rfl, fun ht => absurd ht hno.1⟩
  · have ht : s.owner n = t := by
      by_contra ht
      exact hno ⟨ht, hf⟩
    exact .inr ⟨ht, ht ▸ hf, rfl⟩
  · exact .inl ⟨rfl, fun ht => ht ▸ not_not.1 hf⟩

/-- Things go from nobody to the task, or back. -/
def Moves (t : Nat) (s s' : Table Q) : Prop :=
  ∀ n, s'.owner n = s.owner n ∨ (s.owner n = oFree ∧ s'.owner n = t) ∨
    (s.owner n = t ∧ s'.owner n = oFree)

lemma Moves.of_eq (h : s'.owner = s.owner) : Moves t s s' := fun n => .inl (by rw [h])

lemma Moves.refl : Moves t s s := .of_eq rfl

lemma Moves.trans (h : Moves t s s') (h' : Moves t s' s'') : Moves t s s'' := by
  intro n
  have h₁ := h n
  have h₂ := h' n
  grind

lemma Moves.update {q : Nat → Q} {x : Nat}
    (h : (s.owner n = oFree ∧ x = t) ∨ (s.owner n = t ∧ x = oFree)) :
    Moves t s { owner := Function.update s.owner n x, quota := q } := by
  intro m
  rcases eq_or_ne m n with rfl | hm
  · right
    simpa using h
  · exact .inl (Function.update_of_ne hm ..)

lemma alloc_moves : Moves t s (s.alloc charge n t).2 := by
  rcases alloc_cases charge s n t with ⟨h, -⟩ | ⟨h, -⟩ | ⟨q, hf, -, h⟩ <;> rw [h]
  exacts [.refl, .refl, .update (.inl ⟨hf, rfl⟩)]

lemma free_moves : Moves t s (s.free refund n t).2 := by
  rcases free_cases refund s n t with ⟨h, -⟩ | ⟨ht, -, h⟩ <;> rw [h]
  exacts [.refl, .update (.inr ⟨ht, rfl⟩)]

/-- The quotas, with fields of `w` bits, count what the tasks have of `N` things. -/
structure Units (w N : Nat) (s : Table Quota) : Prop where
  current : ∀ t, 2 ≤ t → (s.quota t).current = (owned (Finset.range N) s.owner t).card
  max_lt : ∀ t, (s.quota t).max < 2 ^ w

lemma Units.alloc {w N : Nat} {s : Table Quota} (h : Units w N s) (hn : n < N) (ht : 2 ≤ t) :
    Units w N (s.alloc (Quota.allocUnit w) n t).2 := by
  rcases alloc_cases (Quota.allocUnit w) s n t with ⟨hs, -⟩ | ⟨hs, -⟩ | ⟨q, hf, hq, hs⟩ <;> rw [hs]
  · exact h
  · exact h
  have htf : t ≠ oFree := by unfold oFree; omega
  unfold Quota.allocUnit at hq
  split_ifs at hq with hc
  have hmax := h.max_lt t
  have hroom : (s.quota t).current + 1 ≤ (s.quota t).max := by
    simp only [Quota.check, Bool.and_eq_true, decide_eq_true_eq] at hc
    omega
  cases hq
  refine ⟨fun u hu => ?_, fun u => ?_⟩ <;> dsimp only
  · rcases eq_or_ne u t with rfl | hut
    · rw [Function.update_self, card_owned_get (Finset.mem_range.2 hn) (by rw [hf]; exact htf.symm),
        ← h.current u hu]
      exact Nat.mod_eq_of_lt (by omega)
    · have hfu : s.owner n ≠ u := by
        rw [hf]
        unfold oFree
        omega
      rw [Function.update_of_ne hut, owned_update_of_ne hfu hut.symm, h.current u hu]
  · rcases eq_or_ne u t with rfl | hut
    · rw [Function.update_self]
      exact hmax
    · rw [Function.update_of_ne hut]
      exact h.max_lt u

lemma Units.free {w N : Nat} {s : Table Quota} (h : Units w N s) (hn : n < N) (hN : N < 2 ^ w)
    (ht : 2 ≤ t) :
    Units w N (s.free (Quota.freeUnit w) n t).2 := by
  rcases free_cases (Quota.freeUnit w) s n t with ⟨hs, -⟩ | ⟨hown, htf, hs⟩ <;> rw [hs]
  · exact h
  have hcard : (owned (Finset.range N) s.owner t).card ≤ N :=
    (Finset.card_filter_le ..).trans (Finset.card_range N).le
  refine ⟨fun u hu => ?_, fun u => ?_⟩ <;> dsimp only
  · rcases eq_or_ne u t with rfl | hut
    · have := card_owned_lose (Finset.mem_range.2 hn) hown htf.symm
      rw [Function.update_self]
      simp only [Quota.freeUnit]
      rw [h.current u hu, ← this, Nat.add_right_comm, Nat.add_sub_cancel, Nat.add_mod_right]
      exact Nat.mod_eq_of_lt (by omega)
    · have hnu : s.owner n ≠ u := by
        rw [hown]
        exact hut.symm
      have hfu : oFree ≠ u := by
        unfold oFree
        omega
      rw [Function.update_of_ne hut, owned_update_of_ne hnu hfu, h.current u hu]
  · rcases eq_or_ne u t with rfl | hut
    · rw [Function.update_self]
      exact h.max_lt u
    · rw [Function.update_of_ne hut]
      exact h.max_lt u

/-- A task has nothing left to get. -/
lemma Units.limit {w N : Nat} {s : Table Quota} (h : Units w N s) :
    Units w N { s with quota := Function.update s.quota n { s.quota n with max := 0 } } := by
  refine ⟨fun u hu => ?_, fun u => ?_⟩ <;> rcases eq_or_ne u n with rfl | hun
  · simpa using h.current u hu
  · simpa [hun] using h.current u hu
  · simp only [Function.update_self]
    exact Nat.two_pow_pos w
  · simpa [hun] using h.max_lt u

/-- The bits of the quotas are those of the interrupts that the tasks have. -/
def Masks (s : Table MaskQuota) : Prop :=
  ∀ t, 2 ≤ t → ∀ n < irqMax, (s.quota t).current.getLsbD n = true ↔ s.owner n = t

lemma Masks.alloc {s : Table MaskQuota} (h : Masks s) (hn : n < irqMax) (ht : 2 ≤ t) :
    Masks (s.alloc MaskQuota.alloc n t).2 := by
  rcases alloc_cases MaskQuota.alloc s n t with ⟨hs, -⟩ | ⟨hs, -⟩ | ⟨q, hf, hq, hs⟩ <;> rw [hs]
  · exact h
  · exact h
  unfold MaskQuota.alloc at hq
  split_ifs at hq
  cases hq
  intro u hu m hm
  have hbit := h u hu m hm
  have hm32 : n < 32 := hn.trans (by decide)
  have hfree : oFree = 0 := rfl
  rcases eq_or_ne u t with rfl | hut <;> rcases eq_or_ne m n with rfl | hmn
  · simp [hm32]
  · simpa [BitVec.getLsbD_twoPow, hmn, hmn.symm] using hbit
  · rw [hf] at hbit
    simp only [Function.update_of_ne hut, Function.update_self]
    exact iff_of_false (fun hb => absurd (hbit.1 hb) (by omega)) (by omega)
  · simpa [hut, hmn] using hbit

lemma Masks.free {s : Table MaskQuota} (h : Masks s) (hn : n < irqMax) (ht : 2 ≤ t) :
    Masks (s.free MaskQuota.free n t).2 := by
  rcases free_cases MaskQuota.free s n t with ⟨hs, -⟩ | ⟨hown, htf, hs⟩ <;> rw [hs]
  · exact h
  intro u hu m hm
  have hbit := h u hu m hm
  have hm32 : m < 32 := hm.trans (by decide)
  have hfree : oFree = 0 := rfl
  rcases eq_or_ne u t with rfl | hut <;> rcases eq_or_ne m n with rfl | hmn
  · simp [MaskQuota.free, hm32]
    omega
  · simpa [MaskQuota.free, BitVec.getLsbD_twoPow, hmn, hmn.symm, hm32] using hbit
  · rw [hown] at hbit
    simp only [Function.update_of_ne hut, Function.update_self]
    exact iff_of_false (fun hb => absurd (hbit.1 hb) (by omega)) (by omega)
  · simpa [hut, hmn] using hbit

lemma Masks.limit {s : Table MaskQuota} {max : BitVec 32} (h : Masks s) :
    Masks { s with quota := Function.update s.quota n { s.quota n with max := max } } := by
  intro u hu m hm
  rcases eq_or_ne u n with rfl | hun
  · simpa using h u hu m hm
  · simpa [hun] using h u hu m hm

end Table

/-! ### What a request does -/

/-- A thread that did not fail to attach has done so, and may have let go again. -/
structure IrqThread.Ok (th : IrqThread) : Prop where
  attached : th.isAttached = !th.isFailure
  held : th.held = true → th.isFailure = false

/-- **Overwritten**: whatever the request, the thread lets go of the interrupt, and it reports
success from the first time on that it was attached. -/
lemma IrqThread.serve_spec {th : IrqThread} (h : th.Ok) (ok : Bool) (d1 : Nat) :
    ((th.serve ok d1).1 = 0 ↔ th.isFailure = false ∨ ok = true) ∧ (th.serve ok d1).2.held = false ∧
      (th.serve ok d1).2.Ok := by
  obtain ⟨f, a, e⟩ := th
  obtain ⟨ha, he⟩ := h
  dsimp only at ha he
  subst ha
  cases f <;> cases ok <;> simp_all [IrqThread.serve, IrqThread.Ok.mk]

namespace Supervisor

open Table

variable {s s' s₀ : Supervisor} {t n p mcp : Nat} {ok made valid : Bool} {irq : BitVec 32}
    {a : Action}

/-- Quotas count what the tasks have. -/
structure Ok (s : Supervisor) : Prop where
  task : Units 16 taskMax s.task
  small : Units 8 smallMax s.small
  irq : Masks s.irq
  thread : ∀ n, (s.thread n).Ok

/-- What a request of the task `t` does. -/
structure Served (t : Nat) (s s' : Supervisor) : Prop where
  ok : s'.Ok
  task : Moves t s.task s'.task
  small : Moves t s.small s'.small
  irq : Moves t s.irq s'.irq
  mcp : ∀ n, s'.logMcp n = s.logMcp n ∨ s'.logMcp n ≤ s.logMcp t

lemma Served.refl (h : s.Ok) : Served t s s := ⟨h, .refl, .refl, .refl, fun _ => .inl rfl⟩

/-- Only owners of tasks have changed. -/
lemma Served.of_task {x : Table Quota} {sv : Server} (h : s.Ok) (hx : Units 16 taskMax x)
    (hm : Moves t s.task x) : Served t s { s with task := x, server := sv } :=
  ⟨{ h with task := hx }, hm, .refl, .refl, fun _ => .inl rfl⟩

/-- A task is charged for, and then given back if it could not be made. -/
lemma Ok.taskAlloc (h : s.Ok) (hn : n < taskMax) (ht : 2 ≤ t) :
    Units 16 taskMax (taskAlloc s.task n t).2 ∧ Moves t s.task (taskAlloc s.task n t).2 ∧
      Units 16 taskMax (taskFree (taskAlloc s.task n t).2 n t).2 ∧
      Moves t s.task (taskFree (taskAlloc s.task n t).2 n t).2 :=
  have hx := h.task.alloc hn ht
  ⟨hx, alloc_moves, hx.free hn (by decide) ht, alloc_moves.trans free_moves⟩

lemma taskGet_spec (h : s.Ok) (ht : 2 ≤ t) : Served t s (s.taskGet t n made).2 := by
  unfold taskGet
  dsimp only
  split_ifs with hn hx hmade
  · exact .refl h
  all_goals
    obtain ⟨hx, hm, hx', hm'⟩ := h.taskAlloc (Nat.not_le.1 hn) ht
  · exact .of_task h hx hm
  · exact .of_task h hx hm
  · exact .of_task h hx' hm'

lemma taskDelete_spec (h : s.Ok) (ht : 2 ≤ t) : Served t s (s.taskDelete t n).2 := by
  unfold taskDelete
  split_ifs with hn ho
  · exact .refl h
  · exact .refl h
  · exact .of_task h (h.task.free (Nat.not_le.1 hn) (by decide) ht) free_moves

/-- New limits for the task `n`. -/
lemma Served.reset (h : Served t s s') (hmcp : mcp ≤ s.logMcp t) :
    Served t s (s'.resetQuota n irq mcp) where
  ok := {
    task := h.ok.task.limit
    small := h.ok.small.limit
    irq := h.ok.irq.limit
    thread := h.ok.thread }
  task := h.task
  small := h.small
  irq := h.irq
  mcp m := by
    rcases eq_or_ne m n with rfl | hm
    · right
      simpa [resetQuota] using hmcp
    · simpa [resetQuota, hm] using h.mcp m

lemma create_spec (h : s.Ok) (ht : 2 ≤ t) : Served t s (s.create t n mcp irq valid made).2 := by
  unfold create
  dsimp only
  split_ifs with hn hx hmade
  · exact .refl h
  all_goals
    obtain ⟨hx, hm, hx', hm'⟩ := h.taskAlloc (Nat.not_le.1 fun hle => hn (.inl hle)) ht
  · exact .of_task h hx hm
  · exact .of_task h hx' hm'
  · exact .reset (.of_task h hx hm) (by omega)
  · exact .reset (.of_task h hx hm) (by omega)

lemma taskSetSmall_spec (h : s.Ok) (ht : 2 ≤ t) : Served t s (s.taskSetSmall t p).2 := by
  unfold taskSetSmall
  split_ifs with hp
  · exact .refl h
  · have hlt : p < smallMax := by
      push Not at hp
      exact hp.2.2.trans_le (Nat.div_le_self ..)
    exact ⟨{ h with small := h.small.alloc hlt ht }, .refl, alloc_moves, .refl, fun _ => .inl rfl⟩

/-- Only owners of interrupts, and a thread, have changed. -/
lemma Served.of_irq {x : Table MaskQuota} {th : Nat → IrqThread} (h : s.Ok) (hx : Masks x)
    (hm : Moves t s.irq x) (hth : ∀ n, (th n).Ok) : Served t s { s with irq := x, thread := th } :=
  ⟨{ h with irq := hx, thread := hth }, .refl, .refl, hm, fun _ => .inl rfl⟩

lemma Ok.thread_update (h : s.Ok) (d1 m : Nat) :
    (Function.update s.thread n ((s.thread n).serve ok d1).2 m).Ok := by
  rcases eq_or_ne m n with rfl | hm
  · rw [Function.update_self]
    exact (IrqThread.serve_spec (h.thread m) ok d1).2.2
  · rw [Function.update_of_ne hm]
    exact h.thread m

lemma irqGet_spec (h : s.Ok) (ht : 2 ≤ t) : Served t s (s.irqGet t n ok).2 := by
  unfold irqGet
  dsimp only
  split_ifs with hn hx hy
  · exact .refl h
  all_goals
    have hx := h.irq.alloc (Nat.not_le.1 hn) ht
  · exact .of_irq h hx alloc_moves h.thread
  · exact .of_irq h hx alloc_moves (h.thread_update 1)
  · exact .of_irq h (hx.free (Nat.not_le.1 hn) ht) (alloc_moves.trans free_moves)
      (h.thread_update 1)

lemma irqFree_spec (h : s.Ok) (ht : 2 ≤ t) : Served t s (s.irqFree t n ok).2 := by
  unfold irqFree
  dsimp only
  split_ifs with hn hx
  · exact .refl h
  all_goals
    have hx := h.irq.free (Nat.not_le.1 hn) ht
  · exact .of_irq h hx free_moves h.thread
  · exact .of_irq h hx free_moves (h.thread_update 0)

/-- **Step**: one case for each request. -/
lemma mgr_spec (h : s.Ok) (ht : 2 ≤ t) : Served t s (mgr s t a).2 := by
  cases a with
  | taskGet n made => exact taskGet_spec h ht
  | taskDelete n => exact taskDelete_spec h ht
  | taskCreate n mcp valid made => exact create_spec h ht
  | taskCreateWithPrio n mcp valid made => exact create_spec h ht
  | taskSetSmall p => exact taskSetSmall_spec h ht
  | taskSetPrio p => exact .refl h
  | irqGet n ok => exact irqGet_spec h ht
  | irqFree n ok => exact irqFree_spec h ht

/-! ### Runs of the supervisor -/

/-- Tasks make requests in any order; each is logged with whether it succeeds. -/
inductive Run : Supervisor → List (Nat × Action × Bool) → Supervisor → Prop
  | nil {s : Supervisor} : Run s [] s
  | snoc {s s' : Supervisor} {l : List (Nat × Action × Bool)} {t : Nat} {a : Action} :
      Run s l s' → 2 ≤ t → Run s (l ++ [(t, a, (mgr s' t a).1)]) (mgr s' t a).2

lemma Run.inv {l : List (Nat × Action × Bool)} (hrun : Run s₀ l s) (h : s₀.Ok) : s.Ok := by
  induction hrun with
  | nil => exact h
  | snoc _ ht ih => exact (mgr_spec ih ht).ok

lemma Run.mcp_le {l : List (Nat × Action × Bool)} {B : Nat} (hrun : Run s₀ l s) (h : s₀.Ok)
    (hB : ∀ n, s₀.logMcp n ≤ B) (n : Nat) : s.logMcp n ≤ B := by
  induction hrun generalizing n with
  | nil => exact hB n
  | snoc hr ht ih =>
    rcases (mgr_spec (hr.inv h) ht).mcp n with hn | hn
    · exact hn ▸ ih n
    · exact hn.trans (ih _)

/-- **Runs**: whatever tasks ask for in whatever order, the quotas count what they have, no task
gets a higher MCP than the highest at the beginning, and a request changes owners only from nobody
to its task, or back. -/
theorem mgr_run {l : List (Nat × Action × Bool)} {B : Nat} (h : s₀.Ok) (hB : ∀ n, s₀.logMcp n ≤ B)
    (hrun : Run s₀ l s) :
    s.Ok ∧ (∀ n, s.logMcp n ≤ B) ∧ ∀ t a, 2 ≤ t → Served t s (mgr s t a).2 :=
  ⟨hrun.inv h, hrun.mcp_le h hB, fun _ _ ht => mgr_spec (hrun.inv h) ht⟩

/-- After boot: the threads have attached to the interrupts, and nobody has got anything. -/
def booted : Supervisor where
  server := machine
  task := { owner := fun n => if n < 8 then oReserved
    else oFree, quota := fun _ => ⟨0, 65535, 65535, 0⟩ }
  small := { owner := fun _ => oFree, quota := fun _ => ⟨0, 255, 255, 0⟩ }
  irq := {
    owner := fun n => if n = 2 then oReserved else oFree
    quota := fun _ => { max := BitVec.allOnes 32, current := 0 } }
  logMcp _ := 255
  thread _ := { isFailure := false, isAttached := true, held := true }
  smallSpaceSize := 4

/-- Nobody has anything yet. -/
lemma units_of_none {w N : Nat} {x : Table Quota} (ho : ∀ n, x.owner n < 2)
    (hc : ∀ t, (x.quota t).current = 0)
    (hm : ∀ t, (x.quota t).max < 2 ^ w) : Units w N x where
  current t ht := by
    have : owned (Finset.range N) x.owner t = ∅ :=
      Finset.filter_false_of_mem fun n _ => ((ho n).trans_le ht).ne
    rw [hc, this]
    rfl
  max_lt := hm

lemma booted_ok : booted.Ok where
  task := units_of_none (fun n => by simp only [booted, oReserved, oFree]; split_ifs <;> decide)
    (fun _ => rfl)
    fun _ => show 65535 < 2 ^ 16 by decide
  small := units_of_none (fun _ => show oFree < 2 by decide) (fun _ => rfl) fun _ => show 255 <
    2 ^ 8 by decide
  irq t ht n hn := by
    simp only [booted, oReserved, oFree]
    refine iff_of_false (by simp) ?_
    split_ifs <;> omega
  thread _ := ⟨rfl, fun _ => rfl⟩

/-- Task 8 gets an interrupt and gives it back. -/
lemma run_booted : Run booted [(8, .irqGet 1 true, true), (8, .irqFree 1 true, true)]
    (mgr (mgr booted 8 (.irqGet 1 true)).2 8 (.irqFree 1 true)).2 :=
  .snoc (t := 8) (a := .irqFree 1 true)
    (.snoc (t := 8) (a := .irqGet 1 true) .nil (by decide)) (by decide)

theorem mgr_run_booted : (mgr (mgr booted 8 (.irqGet 1 true)).2 8 (.irqFree 1 true)).2.Ok ∧
    (∀ n, (mgr (mgr booted 8 (.irqGet 1 true)).2 8 (.irqFree 1 true)).2.logMcp n ≤ 255) ∧
      ∀ t a, 2 ≤ t → Served t (mgr (mgr booted 8 (.irqGet 1 true)).2 8 (.irqFree 1 true)).2
        (mgr (mgr (mgr booted 8 (.irqGet 1 true)).2 8 (.irqFree 1 true)).2 t a).2 :=
  mgr_run booted_ok (fun _ => le_rfl) run_booted

/-! ### Who holds an interrupt -/

/-- The call makes the thread let go, and it succeeds if the thread has the interrupt. -/
lemma callIrq_held (h : ∀ n, (s.thread n).Ok) (n m d1 : Nat) (ok : Bool) :
    (((s.callIrq n ok d1).2.thread m).held = true ↔ (s.thread m).held = true ∧ m ≠ n) ∧
      ((s.thread n).held = true → (s.callIrq n ok d1).1 = 0) := by
  obtain ⟨hzero, hheld, -⟩ := IrqThread.serve_spec (h n) ok d1
  refine ⟨?_, fun hn => hzero.2 (.inl ((h n).held hn))⟩
  simp only [callIrq]
  rcases eq_or_ne m n with rfl | hm
  · simp [hheld]
  · simp [hm]

lemma thread_of_interrupt (ha : a.interrupt = none) : (mgr s t a).2.thread = s.thread := by
  cases a with
  | irqGet n ok => cases ha
  | irqFree n ok => cases ha
  | taskSetPrio p => rfl
  | taskSetSmall p =>
    simp only [mgr, taskSetSmall]
    split_ifs <;> rfl
  | taskGet n made =>
    simp only [mgr, taskGet]
    split_ifs <;> rfl
  | taskDelete n =>
    simp only [mgr, taskDelete]
    split_ifs <;> rfl
  | taskCreate n mcp valid made =>
    simp only [mgr, taskCreate, create]
    split_ifs <;> rfl
  | taskCreateWithPrio n mcp valid made =>
    simp only [mgr, taskCreateWithPrio, create]
    split_ifs <;> rfl

/-- An interrupt is let go by a request for it that succeeds, and by no other. -/
lemma mgr_held (h : s.Ok) (m : Nat) : ((mgr s t a).2.thread m).held = true ↔
    (s.thread m).held = true ∧ (a.interrupt = some m → (mgr s t a).1 = false) := by
  by_cases ha : a.interrupt = none
  · simp [thread_of_interrupt ha, ha]
  cases a with
  | irqGet n ok =>
    simp only [mgr, irqGet, Action.interrupt, Option.some.injEq]
    split_ifs with hn hx hy
    · simp
    · simp
    all_goals
      obtain ⟨hheld, hzero⟩ :=
      callIrq_held (s := { s with irq := (irqAlloc s.irq n t).2 }) h.thread n m 1 ok
      rw [hheld]
      grind
  | irqFree n ok =>
    simp only [mgr, irqFree, Action.interrupt, Option.some.injEq]
    split_ifs with hn hx
    · simp
    · simp
    obtain ⟨hheld, hzero⟩ :=
      callIrq_held (s := { s with irq := (Rmgr.irqFree s.irq n t).2 }) h.thread n m 0 ok
    rw [hheld]
    grind
  | _ => exact absurd rfl ha

/-- **Held**: the resource manager has an interrupt attached as long as no request for it has
succeeded, be it to get it or to free it, and never again. -/
theorem irq_held {l : List (Nat × Action × Bool)} (h : s₀.Ok) (hrun : Run s₀ l s) (n : Nat) :
    (s.thread n).held = true ↔
      (s₀.thread n).held = true ∧ ∀ x ∈ l, x.2.1.interrupt = some n → x.2.2 = false := by
  induction hrun with
  | nil => simp
  | snoc hr ht ih =>
    rw [mgr_held (hr.inv h), ih]
    simp only [List.forall_mem_append, List.forall_mem_singleton, and_assoc]

theorem irq_held_booted :
    ¬((mgr (mgr booted 8 (.irqGet 1 true)).2 8 (.irqFree 1 true)).2.thread 1).held = true :=
  fun hheld => absurd (((irq_held booted_ok run_booted 1).1 hheld).2 _ (.head _) rfl) (by decide)

/-- **Let go**: a task that frees an interrupt that is nobody's is told that it did.  The interrupt
stays nobody's, but the resource manager has let go of it, and does not attach to it again. -/
theorem irqFree_lets_go {l : List (Nat × Action × Bool)} (h : s.Ok) (hn : n < irqMax) (ht : 2 ≤ t)
    (ho : s.irq.owner n = oFree) (hheld : (s.thread n).held = true)
    (hrun : Run (mgr s t (.irqFree n ok)).2 l s') :
    (mgr s t (.irqFree n ok)).1 = true ∧ (mgr s t (.irqFree n ok)).2.irq.owner = s.irq.owner ∧
      (s'.thread n).held = false := by
  have hfree : Rmgr.irqFree s.irq n t = (true, s.irq) := by
    unfold Rmgr.irqFree Table.free
    rw [if_neg (fun hno => hno.2 ho), if_neg (not_not.2 ho)]
  have hok : (mgr s t (.irqFree n ok)).2.Ok := (mgr_spec h ht).ok
  have hzero := (callIrq_held h.thread n n 0 ok).2 hheld
  have hsucc : (mgr s t (.irqFree n ok)).1 = true ∧ (mgr s t (.irqFree n ok)).2.irq = s.irq := by
    simp only [mgr, irqFree, if_neg (Nat.not_le.2 hn), hfree]
    exact ⟨by simpa using hzero, rfl⟩
  refine ⟨hsucc.1, by rw [hsucc.2], Bool.eq_false_iff.2 fun hs => ?_⟩
  have := (mgr_held h n).1 ((irq_held hok hrun n).1 hs).1
  rw [this.2 rfl] at hsucc
  cases hsucc.1

theorem irqFree_lets_go_booted : (mgr booted 8 (.irqFree 1 true)).1 = true ∧
    (mgr booted 8 (.irqFree 1 true)).2.irq.owner = booted.irq.owner ∧
      (((mgr (mgr (mgr booted 8 (.irqFree 1 true)).2 9 (.irqGet 1 true)).2 9
      (.irqGet 3 true)).2.thread
        1).held = false) :=
  irqFree_lets_go booted_ok (by decide) (by decide) rfl rfl
    (.snoc (t := 9) (a := .irqGet 3 true)
    (.snoc (t := 9) (a := .irqGet 1 true) .nil (by decide)) (by decide))

end Supervisor

end Hazelnut.Rmgr
