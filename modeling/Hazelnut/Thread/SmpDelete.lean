import Mathlib.Algebra.BigOperators.Group.Finset.Basic
import Mathlib.Algebra.Order.BigOperators.Group.Finset
import Mathlib.Data.List.Range
import Mathlib.Data.Prod.Lex
import Mathlib.Logic.Relation
import Hazelnut.Thread.Tcb

/-!
Task deletion on a multiprocessor: the loop of `sys_task_new` in `kernel/src/thread.c` around
`smp_delete_all_threads` of `kernel/src/x86/smp.c`.

* `SmpDeletion`: what a call finds.  What unwinding a thread does to the state of the IPC is a
  parameter, and so is whether it has to be handed to the processor that sent the request.
* `SmpDeleting`: the present queues, the status in the mailbox of the caller, and where the caller
  and the other processors are.  `SmpDeleting.Step` is one access to them; between a demanded unwind
  and the `MAILBOX_OK` at the end of a request the caller may go on, and ask the next processor.
* `SmpDeleting.Inv`: what holds at every point of a run, and `SmpDeleting.rank`, which every step
  makes smaller if there is another processor.
* `deleteEverywhere_iff`: the deletions that reach all processors.
-/

namespace Hazelnut

/-! ### The functions -/

/-- A deletion: the processor of the caller, `CONFIG_SMP_MAX_CPU`, the processors that are online,
the space, and the space of every thread.  `freeThread` is `free_thread` on a processor, and tells
whether `smp_unwind_ipc` has set `MAILBOX_UNWIND_REMOTE`; `unwindIpc` is the `unwind_ipc` of the
caller. -/
structure SmpDeletion (S : Type) where
  me : Nat
  maxCpu : Nat
  online : Nat → Bool
  space : Word
  spaceOf : TcbPtr → Word
  freeThread : Nat → TcbPtr → S → S × Bool
  unwindIpc : S → S

/-- The present queue of every processor, without the idle thread, and the state of the IPC. -/
structure Presents (S : Type) where
  present : Nat → List TcbPtr
  ipc : S

/-- What the processors that are asked put into the mailbox of the caller. -/
inductive DeleteStatus where
  | ok
  | unwindRemote
  deriving DecidableEq, Repr

/-- Where the caller is: in the loop of `smp_delete_all_threads`, with the processors that are left;
in `send_command`; or behind the loop of `sys_task_new`. -/
inductive DeleteCaller where
  | asking (cpus : List Nat)
  | awaiting (cpus : List Nat)
  | ended
  deriving DecidableEq, Repr

/-- A deletion under way.  The status is none while it is the value that `send_command` waits to
change.  `walk` is the rest of the present queue that a processor has to go through in
`delete_all_threads`.  `ran` is a ghost: the processors that have executed it for the caller. -/
structure SmpDeleting (S : Type) extends Presents S where
  status : Option DeleteStatus
  request : Nat → Bool
  walk : Nat → Option (List TcbPtr)
  caller : DeleteCaller
  ran : List Nat

variable {S : Type}

namespace SmpDeletion

variable (D : SmpDeletion S)

/-- One turn of the loop of `delete_all_threads`; whether a remote unwind has been demanded. -/
def deleteOne (cpu : Nat) (t : TcbPtr) (s : Presents S) : Presents S × Bool :=
  if D.spaceOf t = D.space then
    let (ipc, demanded) := D.freeThread cpu t s.ipc
    -- `free_tcb`
    ({ present := Function.update s.present cpu ((s.present cpu).filter (· ≠ t)), ipc := ipc },
      demanded)
  else (s, false)

/-- `delete_all_threads`, on the processor of the caller. -/
def deleteAllThreads (s : Presents S) : Presents S :=
  (s.present D.me).foldl (fun s t => (D.deleteOne D.me t s).1) s

/-- A processor that gets a request. -/
def Other (cpu : Nat) : Prop := cpu ≠ D.me ∧ D.online cpu = true

instance (cpu : Nat) : Decidable (D.Other cpu) := inferInstanceAs (Decidable (_ ∧ _))

/-- A thread of the task is in the present queue of the processor. -/
def Holds (s : Presents S) (cpu : Nat) : Prop := ∃ t ∈ s.present cpu, D.spaceOf t = D.space

end SmpDeletion

namespace SmpDeleting

variable (D : SmpDeletion S)

/-- `sys_task_new` gets to its loop. -/
def start (s : Presents S) : SmpDeleting S where
  toPresents := s
  status := none
  request _ := false
  walk _ := none
  caller := .asking (List.range D.maxCpu)
  ran := []

/-- `send_command`, up to the loop that waits. -/
def ask (σ : SmpDeleting S) (cpu : Nat) (cpus : List Nat) : SmpDeleting S :=
  { σ with status := none, request := Function.update σ.request cpu true, caller := .awaiting cpus }

/-- `do_xcpu_delete_all_threads` starts on a processor. -/
def handle (σ : SmpDeleting S) (cpu : Nat) : SmpDeleting S :=
  { σ with
    request := Function.update σ.request cpu false
    walk := Function.update σ.walk cpu (some (σ.present cpu)) }

/-- It comes to a thread. -/
def free (σ : SmpDeleting S) (cpu : Nat) (t : TcbPtr) (ts : List TcbPtr) : SmpDeleting S :=
  { σ with
    toPresents := (D.deleteOne cpu t σ.toPresents).1
    status := if (D.deleteOne cpu t σ.toPresents).2 then some .unwindRemote else σ.status
    walk := Function.update σ.walk cpu (some ts) }

/-- Its last `set_status`, or the one in `switch_to_idle`. -/
def finish (σ : SmpDeleting S) (cpu : Nat) : SmpDeleting S :=
  { σ with
    status := some .ok
    walk := Function.update σ.walk cpu none
    ran := cpu :: σ.ran }

/-- One step of the caller or of another processor. -/
inductive Step : SmpDeleting S → SmpDeleting S → Prop
  | skip {σ : SmpDeleting S} {cpu : Nat} {cpus : List Nat} (hc : σ.caller = .asking (cpu :: cpus))
      (ho : ¬D.Other cpu) : Step σ { σ with caller := .asking cpus }
  | ask {σ : SmpDeleting S} {cpu : Nat} {cpus : List Nat} (hc : σ.caller = .asking (cpu :: cpus))
      (ho : D.Other cpu) : Step σ (σ.ask cpu cpus)
  /-- `smp_delete_all_threads` returns 0 -/
  | again {σ : SmpDeleting S} (hc : σ.caller = .asking []) :
      Step σ { σ with caller := .asking (List.range D.maxCpu) }
  /-- it returns 1 -/
  | ok {σ : SmpDeleting S} {cpus : List Nat} (hc : σ.caller = .awaiting cpus)
      (hs : σ.status = some .ok) : Step σ { σ with caller := .ended }
  | unwind {σ : SmpDeleting S} {cpus : List Nat} (hc : σ.caller = .awaiting cpus)
      (hs : σ.status = some .unwindRemote) :
      Step σ { σ with ipc := D.unwindIpc σ.ipc, caller := .asking cpus }
  | handle {σ : SmpDeleting S} {cpu : Nat} (hr : σ.request cpu = true) (hw : σ.walk cpu = none) :
      Step σ (σ.handle cpu)
  | free {σ : SmpDeleting S} {cpu : Nat} {t : TcbPtr} {ts : List TcbPtr}
      (hw : σ.walk cpu = some (t :: ts)) : Step σ (σ.free D cpu t ts)
  | finish {σ : SmpDeleting S} {cpu : Nat} (hw : σ.walk cpu = some []) : Step σ (σ.finish cpu)

/-- All other processors have executed `delete_all_threads`, and no thread of the task is left when
the caller has done so too. -/
def Covered (σ : SmpDeleting S) : Prop :=
  (∀ c < D.maxCpu, D.Other c → c ∈ σ.ran) ∧ ∀ c, ¬D.Holds (D.deleteAllThreads σ.toPresents) c

end SmpDeleting

/-- **The deletion ends everywhere**: there is no infinite run, a run that cannot go on has left the
loop, and where the loop has been left all processors have been reached. -/
structure EndsCovered (D : SmpDeletion S) (s : Presents S) : Prop where
  ends : Acc (fun τ σ => SmpDeleting.Step D σ τ) (SmpDeleting.start D s)
  left : ∀ σ, Relation.ReflTransGen (SmpDeleting.Step D) (SmpDeleting.start D s) σ →
    (∀ τ, ¬SmpDeleting.Step D σ τ) → σ.caller = .ended
  covered : ∀ σ, Relation.ReflTransGen (SmpDeleting.Step D) (SmpDeleting.start D s) σ →
    σ.caller = .ended → σ.Covered D

/-! ### One thread -/

namespace SmpDeletion

variable {D : SmpDeletion S} {s : Presents S} {cpu c : Nat} {t u : TcbPtr} {l : List TcbPtr}

lemma deleteOne_present : (D.deleteOne cpu t s).1.present c =
    if c = cpu ∧ D.spaceOf t = D.space then (s.present c).filter (· ≠ t) else s.present c := by
  rw [deleteOne]
  by_cases ht : D.spaceOf t = D.space
  · rw [if_pos ht]
    simp only [Function.update_apply, and_true, ht]
    split_ifs with hc
    · rw [hc]
    · rfl
  · rw [if_neg ht, if_neg fun h => ht h.2]

lemma deleteOne_sublist : ((D.deleteOne cpu t s).1.present c).Sublist (s.present c) := by
  rw [deleteOne_present]
  split_ifs
  · exact List.filter_sublist
  · exact List.Sublist.refl _

lemma Holds.mono {s' : Presents S} (h : (s'.present c).Sublist (s.present c)) (hh : D.Holds s' c) :
    D.Holds s c := by
  obtain ⟨t, ht, hsp⟩ := hh
  exact ⟨t, h.subset ht, hsp⟩

/-- A thread that is not of the task demands nothing. -/
lemma deleteOne_demanded (h : (D.deleteOne cpu t s).2 = true) : D.spaceOf t = D.space := by
  rw [deleteOne] at h
  split_ifs at h with ht
  exact ht

lemma foldl_deleteOne (h : u ∈ (l.foldl (fun s t => (D.deleteOne cpu t s).1) s).present c) :
    u ∈ s.present c ∧ (c = cpu → u ∈ l → D.spaceOf u ≠ D.space) := by
  induction l generalizing s with
  | nil => exact ⟨h, fun _ hu => absurd hu List.not_mem_nil⟩
  | cons t l ih =>
    obtain ⟨hmem, hl⟩ := ih h
    refine ⟨deleteOne_sublist.subset hmem, fun hc hu hsp => ?_⟩
    rcases List.mem_cons.mp hu with rfl | hu
    · rw [deleteOne_present, if_pos ⟨hc, hsp⟩, List.mem_filter] at hmem
      exact absurd rfl (of_decide_eq_true hmem.2)
    · exact hl hc hu hsp

/-- The local deletion: nothing of the task is left on the processor of the caller. -/
lemma deleteAllThreads_holds (h : D.Holds (D.deleteAllThreads s) c) : c ≠ D.me ∧ D.Holds s c := by
  obtain ⟨t, ht, hsp⟩ := h
  obtain ⟨hmem, hl⟩ := foldl_deleteOne ht
  refine ⟨fun hc => ?_, t, hmem, hsp⟩
  subst hc
  exact hl rfl hmem hsp

end SmpDeletion

/-! ### What holds in a run -/

namespace SmpDeleting

variable {D : SmpDeletion S} {s : Presents S} {σ τ : SmpDeleting S} {cpu c : Nat} {cpus : List Nat}
  {t : TcbPtr} {ts : List TcbPtr}

/-- A processor has something to do for the caller. -/
def Busy (σ : SmpDeleting S) (c : Nat) : Prop := σ.request c = true ∨ (σ.walk c).isSome

/-- The processors the caller has still to ask in this turn. -/
def remaining (σ : SmpDeleting S) : List Nat :=
  match σ.caller with
  | .asking cpus => cpus
  | .awaiting cpus => cpus
  | .ended => []

/-- What holds at every point of a run. -/
structure Inv (D : SmpDeletion S) (σ : SmpDeleting S) : Prop where
  nodup : ∀ c, (σ.present c).Nodup
  remaining : ∀ c ∈ σ.remaining, c < D.maxCpu
  busy : ∀ c, σ.Busy c → c < D.maxCpu ∧ D.Other c
  /-- the threads behind it in the queue are gone through -/
  walk : ∀ c l, σ.walk c = some l → l.Nodup ∧ ∀ t ∈ σ.present c, D.spaceOf t = D.space → t ∈ l
  /-- the threads it has to go through are there -/
  there : ∀ c l, σ.walk c = some l → ∀ t ∈ l, t ∈ σ.present c
  gone : ∀ c ∈ σ.ran, ¬D.Holds σ.toPresents c
  ran : ∀ c ∈ σ.ran, c < D.maxCpu
  ok : σ.status = some .ok → ∃ c ∈ σ.ran, D.Other c
  ended : σ.caller = .ended → ∃ c ∈ σ.ran, D.Other c
  awaiting : ∀ cpus, σ.caller = .awaiting cpus → σ.status = none → ∃ c, σ.Busy c

lemma Inv.start (hnodup : ∀ c, (s.present c).Nodup) : Inv D (start D s) where
  nodup := hnodup
  remaining c hc := List.mem_range.mp hc
  busy c hc := by simp [Busy, SmpDeleting.start] at hc
  walk c l hl := by simp [SmpDeleting.start] at hl
  there c l hl := by simp [SmpDeleting.start] at hl
  gone c hc := by simp [SmpDeleting.start] at hc
  ran c hc := by simp [SmpDeleting.start] at hc
  ok h := by simp [SmpDeleting.start] at h
  ended h := by simp [SmpDeleting.start] at h
  awaiting cpus h := by simp [SmpDeleting.start] at h

@[simp] lemma ask_request : (σ.ask cpu cpus).request = Function.update σ.request cpu true := rfl

@[simp] lemma handle_request : (σ.handle cpu).request = Function.update σ.request cpu false := rfl

@[simp] lemma handle_walk :
    (σ.handle cpu).walk = Function.update σ.walk cpu (some (σ.present cpu)) := rfl

lemma ask_request_self (σ : SmpDeleting S) (cpu : Nat) (cpus : List Nat) :
    (σ.ask cpu cpus).request cpu = true := Function.update_self ..

lemma handle_walk_self (σ : SmpDeleting S) (cpu : Nat) :
    (σ.handle cpu).walk cpu = some (σ.present cpu) := Function.update_self ..

@[simp] lemma free_request : (σ.free D cpu t ts).request = σ.request := rfl

@[simp] lemma free_walk : (σ.free D cpu t ts).walk = Function.update σ.walk cpu (some ts) := rfl

@[simp] lemma finish_walk : (σ.finish cpu).walk = Function.update σ.walk cpu none := rfl

namespace Inv

variable (hi : Inv D σ)

include hi

lemma ask (hc : σ.caller = .asking (cpu :: cpus)) (ho : D.Other cpu) : Inv D (σ.ask cpu cpus) where
  nodup := hi.nodup
  remaining c hcs := hi.remaining c
    (by rw [SmpDeleting.remaining, hc]; exact List.mem_cons_of_mem _ hcs)
  busy c hb := by
    by_cases hcc : c = cpu
    · subst hcc
      exact ⟨hi.remaining c (by rw [SmpDeleting.remaining, hc]; exact List.mem_cons_self), ho⟩
    · refine hi.busy c (hb.imp_left fun hr => ?_)
      rwa [ask_request, Function.update_of_ne hcc] at hr
  walk := hi.walk
  there := hi.there
  gone := hi.gone
  ran := hi.ran
  ok h := by simp [SmpDeleting.ask] at h
  ended h := by simp [SmpDeleting.ask] at h
  awaiting _ _ _ := ⟨cpu, .inl (by simp [SmpDeleting.ask])⟩

lemma handle (hr : σ.request cpu = true) : Inv D (σ.handle cpu) where
  nodup := hi.nodup
  remaining := hi.remaining
  busy c hb := by
    by_cases hcc : c = cpu
    · subst hcc
      exact hi.busy c (.inl hr)
    · refine hi.busy c ?_
      rwa [Busy, handle_request, handle_walk, Function.update_of_ne hcc,
        Function.update_of_ne hcc] at hb
  walk c l hl := by
    by_cases hcc : c = cpu
    · subst hcc
      obtain rfl : σ.present c = l := by simpa [SmpDeleting.handle] using hl
      exact ⟨hi.nodup c, fun t ht _ => ht⟩
    · rw [handle_walk, Function.update_of_ne hcc] at hl
      exact hi.walk c l hl
  there c l hl t ht := by
    by_cases hcc : c = cpu
    · subst hcc
      obtain rfl : σ.present c = l := by simpa [SmpDeleting.handle] using hl
      exact ht
    · rw [handle_walk, Function.update_of_ne hcc] at hl
      exact hi.there c l hl t ht
  gone := hi.gone
  ran := hi.ran
  ok := hi.ok
  ended := hi.ended
  awaiting _ _ _ := ⟨cpu, .inr (by simp [SmpDeleting.handle])⟩

lemma free (hw : σ.walk cpu = some (t :: ts)) : Inv D (σ.free D cpu t ts) where
  nodup c := (hi.nodup c).sublist SmpDeletion.deleteOne_sublist
  remaining := hi.remaining
  busy c hb := by
    by_cases hcc : c = cpu
    · subst hcc
      exact hi.busy c (.inr (by rw [hw]; rfl))
    · refine hi.busy c ?_
      rwa [Busy, free_request, free_walk, Function.update_of_ne hcc] at hb
  walk c l hl := by
    by_cases hcc : c = cpu
    · subst hcc
      obtain rfl : ts = l := by simpa [SmpDeleting.free] using hl
      obtain ⟨hnd, hall⟩ := hi.walk c _ hw
      refine ⟨(List.nodup_cons.mp hnd).2, fun u hu hsp => ?_⟩
      have hu' := SmpDeletion.deleteOne_sublist.subset hu
      rcases List.mem_cons.mp (hall u hu' hsp) with rfl | hmem
      · have hgone : u ∈ (D.deleteOne c u σ.toPresents).1.present c := hu
        rw [SmpDeletion.deleteOne_present, if_pos ⟨rfl, hsp⟩, List.mem_filter] at hgone
        exact absurd rfl (of_decide_eq_true hgone.2)
      · exact hmem
    · rw [free_walk, Function.update_of_ne hcc] at hl
      obtain ⟨hnd, hall⟩ := hi.walk c l hl
      exact ⟨hnd, fun u hu hsp => hall u (SmpDeletion.deleteOne_sublist.subset hu) hsp⟩
  there c l hl u hu := by
    by_cases hcc : c = cpu
    · subst hcc
      obtain rfl : ts = l := by simpa [SmpDeleting.free] using hl
      have hnd := (List.nodup_cons.mp (hi.walk c _ hw).1).1
      have hne : u ≠ t := fun h => hnd (h ▸ hu)
      have hmem := hi.there c _ hw u (List.mem_cons_of_mem _ hu)
      have hkeep : u ∈ (D.deleteOne c t σ.toPresents).1.present c := by
        rw [SmpDeletion.deleteOne_present]
        split_ifs
        · exact List.mem_filter.mpr ⟨hmem, by simpa using hne⟩
        · exact hmem
      exact hkeep
    · rw [free_walk, Function.update_of_ne hcc] at hl
      have hkeep : u ∈ (D.deleteOne cpu t σ.toPresents).1.present c := by
        rw [SmpDeletion.deleteOne_present, if_neg fun h => hcc h.1]
        exact hi.there c l hl u hu
      exact hkeep
  gone c hc hh := hi.gone c hc (hh.mono SmpDeletion.deleteOne_sublist)
  ran := hi.ran
  ok h := by
    refine hi.ok ?_
    simp only [SmpDeleting.free] at h
    split_ifs at h
    · simp at h
    · exact h
  ended := hi.ended
  awaiting _ _ _ := ⟨cpu, .inr (by simp [SmpDeleting.free])⟩

lemma finish (hw : σ.walk cpu = some []) : Inv D (σ.finish cpu) where
  nodup := hi.nodup
  remaining := hi.remaining
  busy c hb := by
    refine hi.busy c (hb.imp_right fun hb => ?_)
    rw [finish_walk, Function.update_apply] at hb
    split_ifs at hb
    · simp at hb
    · exact hb
  walk c l hl := by
    rw [finish_walk, Function.update_apply] at hl
    split_ifs at hl
    exact hi.walk c l hl
  there c l hl := by
    rw [finish_walk, Function.update_apply] at hl
    split_ifs at hl
    exact hi.there c l hl
  gone c hc := by
    rcases List.mem_cons.mp hc with rfl | hc
    · rintro ⟨t, ht, hsp⟩
      exact absurd ((hi.walk c _ hw).2 t ht hsp) List.not_mem_nil
    · exact hi.gone c hc
  ran c hc := by
    rcases List.mem_cons.mp hc with rfl | hc
    · exact (hi.busy c (.inr (by rw [hw]; rfl))).1
    · exact hi.ran c hc
  ok _ := ⟨cpu, List.mem_cons_self, (hi.busy cpu (.inr (by rw [hw]; rfl))).2⟩
  ended h := by
    obtain ⟨c, hc, ho⟩ := hi.ended h
    exact ⟨c, List.mem_cons_of_mem _ hc, ho⟩
  awaiting _ _ h := by simp [SmpDeleting.finish] at h

/-- **One step** keeps all of it. -/
lemma step (hst : Step D σ τ) : Inv D τ := by
  cases hst with
  | skip hc ho =>
      refine ⟨hi.nodup, fun c hcs => hi.remaining c ?_, hi.busy, hi.walk, hi.there,
        hi.gone, hi.ran, hi.ok,
        fun h => by simp at h, fun _ h => by simp at h⟩
      rw [SmpDeleting.remaining, hc]
      exact List.mem_cons_of_mem _ hcs
  | ask hc ho => exact hi.ask hc ho
  | again hc =>
      exact ⟨hi.nodup, fun c hcs => List.mem_range.mp hcs, hi.busy, hi.walk, hi.there,
        hi.gone, hi.ran, hi.ok,
        fun h => by simp at h, fun _ h => by simp at h⟩
  | ok hc hs =>
      exact ⟨hi.nodup, fun c hcs => absurd hcs List.not_mem_nil, hi.busy, hi.walk,
        hi.there, hi.gone,
        hi.ran, hi.ok, fun _ => hi.ok hs, fun _ h => by simp at h⟩
  | unwind hc hs =>
      refine ⟨hi.nodup, fun c hcs => hi.remaining c ?_, hi.busy, hi.walk, hi.there,
        hi.gone, hi.ran, hi.ok,
        fun h => by simp at h, fun _ h => by simp at h⟩
      rw [SmpDeleting.remaining, hc]
      exact hcs
  | handle hr hw => exact hi.handle hr
  | free hw => exact hi.free hw
  | finish hw => exact hi.finish hw

/-- A run that cannot go on has left the loop. -/
lemma stopped (hst : ∀ τ, ¬Step D σ τ) : σ.caller = .ended := by
  have hidle : ∀ c, ¬σ.Busy c := by
    intro c hb
    cases hw : σ.walk c with
    | none =>
        rcases hb with hr | hr
        · exact hst _ (.handle hr hw)
        · rw [hw] at hr
          simp at hr
    | some l =>
        cases l with
        | nil => exact hst _ (.finish hw)
        | cons t ts => exact hst _ (.free hw)
  cases hc : σ.caller with
  | asking cpus =>
      cases cpus with
      | nil => exact absurd (.again hc) (hst _)
      | cons cpu cpus =>
          by_cases ho : D.Other cpu
          · exact absurd (.ask hc ho) (hst _)
          · exact absurd (.skip hc ho) (hst _)
  | awaiting cpus =>
      cases hs : σ.status with
      | none =>
          obtain ⟨c, hb⟩ := hi.awaiting cpus hc hs
          exact absurd hb (hidle c)
      | some r =>
          cases r with
          | ok => exact absurd (.ok hc hs) (hst _)
          | unwindRemote => exact absurd (.unwind hc hs) (hst _)
  | ended => rfl

end Inv

/-- Present queues shrink. -/
lemma present_sublist (hr : Relation.ReflTransGen (Step D) σ τ) (c : Nat) :
    (τ.present c).Sublist (σ.present c) := by
  induction hr with
  | refl => exact List.Sublist.refl _
  | tail _ hst ih =>
      cases hst with
      | free hw => exact SmpDeletion.deleteOne_sublist.trans ih
      | _ => exact ih

/-- **A run** keeps it. -/
lemma Inv.run (hi : Inv D σ) (hr : Relation.ReflTransGen (Step D) σ τ) : Inv D τ := by
  induction hr with
  | refl => exact hi
  | tail _ hst ih => exact ih.step hst

/-! ### Termination -/

section rank

open Finset

variable (D)

/-- The threads of the task that are left, and a demanded unwind that the caller has not seen. -/
def threadsLeft (σ : SmpDeleting S) : Nat :=
  (∑ c ∈ range D.maxCpu, (σ.present c).countP (D.spaceOf · = D.space)) +
    match σ.caller with
    | .awaiting _ => if σ.status = some .unwindRemote then 1 else 0
    | _ => 0

/-- How far the caller is from its next request. -/
def toAsk (σ : SmpDeleting S) : Nat :=
  match σ.caller with
  | .asking cpus => cpus.length + 2 + if ∃ c ∈ cpus, D.Other c then 0 else D.maxCpu + 1
  | .awaiting _ => 1
  | .ended => 0

/-- What a processor has to do. -/
def load (σ : SmpDeleting S) (c : Nat) : Nat :=
  (bif σ.request c then (σ.present c).length + 2 else 0) +
    match σ.walk c with
    | none => 0
    | some l => l.length + 1

def rank (σ : SmpDeleting S) : Nat ×ₗ Nat ×ₗ Nat :=
  toLex (σ.threadsLeft D, toLex (σ.toAsk D, ∑ c ∈ range D.maxCpu, σ.load c))

variable {D}

lemma rank_lt_of_threads (h : τ.threadsLeft D < σ.threadsLeft D) : τ.rank D < σ.rank D :=
  Prod.Lex.toLex_lt_toLex.mpr (.inl h)

lemma rank_lt_of_le (h : τ.threadsLeft D ≤ σ.threadsLeft D)
    (h' : τ.toAsk D < σ.toAsk D ∨ τ.toAsk D = σ.toAsk D ∧
      ∑ c ∈ range D.maxCpu, τ.load c < ∑ c ∈ range D.maxCpu, σ.load c) : τ.rank D < σ.rank D := by
  rcases Nat.lt_or_eq_of_le h with h | h
  · exact rank_lt_of_threads h
  · exact Prod.Lex.toLex_lt_toLex.mpr (.inr ⟨h, Prod.Lex.toLex_lt_toLex.mpr h'⟩)

/-- A step of another processor. -/
lemma rank_lt_of_load (hcaller : τ.caller = σ.caller) (h : τ.threadsLeft D ≤ σ.threadsLeft D)
    (hle : ∀ c, τ.load c ≤ σ.load c) (hcpu : cpu < D.maxCpu) (hlt : τ.load cpu < σ.load cpu) :
    τ.rank D < σ.rank D := by
  refine rank_lt_of_le h (.inr ⟨by rw [toAsk, toAsk, hcaller], ?_⟩)
  exact sum_lt_sum (fun c _ => hle c) ⟨cpu, mem_range.mpr hcpu, hlt⟩

/-- A request becomes no longer when threads are freed. -/
lemma requested_le (hr : τ.request c = σ.request c)
    (hl : (τ.present c).length ≤ (σ.present c).length) :
    (bif τ.request c then (τ.present c).length + 2 else 0) ≤
      (bif σ.request c then (σ.present c).length + 2 else 0) := by
  rw [hr]
  cases σ.request c
  · exact le_rfl
  · exact Nat.add_le_add_right hl 2

/-- The threads of the task that are freed are fewer by one. -/
lemma countP_deleteOne (hnd : (σ.present cpu).Nodup) (hmem : t ∈ σ.present cpu)
    (ht : D.spaceOf t = D.space) :
    ((D.deleteOne cpu t σ.toPresents).1.present cpu).countP (D.spaceOf · = D.space) <
      (σ.present cpu).countP (D.spaceOf · = D.space) := by
  have hpos : 0 < (σ.present cpu).countP (D.spaceOf · = D.space) :=
    List.countP_pos_iff.mpr ⟨t, hmem, by simpa using ht⟩
  have herase : (σ.present cpu).filter (· ≠ t) = (σ.present cpu).erase t :=
    (List.filter_congr fun x _ => by by_cases h : x = t <;> simp [h]).trans
      (hnd.erase_eq_filter t).symm
  rw [SmpDeletion.deleteOne_present, if_pos ⟨rfl, ht⟩, herase, List.countP_erase,
    if_pos (by simpa using ⟨hmem, ht⟩)]
  omega

lemma threadsLeft_free (hi : Inv D σ) (hw : σ.walk cpu = some (t :: ts)) :
    (σ.free D cpu t ts).threadsLeft D ≤ σ.threadsLeft D := by
  have hle : ∀ c, ((D.deleteOne cpu t σ.toPresents).1.present c).countP (D.spaceOf · = D.space) ≤
      (σ.present c).countP (D.spaceOf · = D.space) := fun c =>
    SmpDeletion.deleteOne_sublist.countP_le
  have hsum := sum_le_sum fun c (_ : c ∈ range D.maxCpu) => hle c
  cases hdem : (D.deleteOne cpu t σ.toPresents).2 with
  | false =>
      have hstatus : (σ.free D cpu t ts).status = σ.status := by simp [free, hdem]
      rw [threadsLeft, threadsLeft, hstatus]
      exact Nat.add_le_add_right hsum _
  | true =>
      have ht := SmpDeletion.deleteOne_demanded hdem
      have hcpu := (hi.busy cpu (.inr (by rw [hw]; rfl))).1
      have hlt := sum_lt_sum (fun c (_ : c ∈ range D.maxCpu) => hle c)
        ⟨cpu, mem_range.mpr hcpu, countP_deleteOne (hi.nodup cpu)
          (hi.there cpu _ hw t List.mem_cons_self) ht⟩
      have hone : (match σ.caller with
          | .awaiting _ => if (σ.free D cpu t ts).status = some .unwindRemote then 1 else 0
          | _ => 0) ≤ 1 := by
        split
        · split_ifs <;> omega
        · omega
      rw [threadsLeft, threadsLeft]
      exact (Nat.add_le_add_left hone _).trans (Nat.le_add_right_of_le hlt)

/-- **Every step makes the rank smaller**, if there is another processor. -/
lemma Inv.rank_lt (hi : Inv D σ) (hex : ∃ c < D.maxCpu, D.Other c) (hst : Step D σ τ) :
    τ.rank D < σ.rank D := by
  cases hst with
  | @skip cpu cpus hc ho =>
      refine rank_lt_of_le (by simp [threadsLeft, hc]) (.inl ?_)
      simp only [toAsk, hc, List.length_cons, List.mem_cons, exists_eq_or_imp, ho, false_or]
      omega
  | @ask cpu cpus hc ho =>
      refine rank_lt_of_le (by simp [threadsLeft, hc, SmpDeleting.ask]) (.inl ?_)
      simp only [toAsk, hc, SmpDeleting.ask]
      omega
  | again hc =>
      refine rank_lt_of_le (by simp [threadsLeft, hc]) (.inl ?_)
      have hsome : ∃ c ∈ List.range D.maxCpu, D.Other c := by simpa using hex
      simp only [toAsk, hc, if_pos hsome, List.length_range, List.length_nil]
      simp
      omega
  | ok hc hs =>
      refine rank_lt_of_le (by simp [threadsLeft, hc, hs]) (.inl ?_)
      simp [toAsk, hc]
  | unwind hc hs =>
      refine rank_lt_of_threads ?_
      simp [threadsLeft, hc, hs]
  | @handle cpu hr hw =>
      have hcpu := (hi.busy cpu (.inl hr)).1
      have hlt : (σ.handle cpu).load cpu < σ.load cpu := by
        simp [load, hr, hw, SmpDeleting.handle]
      refine rank_lt_of_load rfl le_rfl (fun c => ?_) hcpu hlt
      by_cases hcc : c = cpu
      · rw [hcc]
        exact hlt.le
      · simp [load, SmpDeleting.handle, Function.update_of_ne hcc]
  | @free cpu t ts hw =>
      have hcpu := (hi.busy cpu (.inr (by rw [hw]; rfl))).1
      have hlen : ∀ c, ((D.deleteOne cpu t σ.toPresents).1.present c).length ≤
          (σ.present c).length :=
        fun c => SmpDeletion.deleteOne_sublist.length_le
      have hlt : (σ.free D cpu t ts).load cpu < σ.load cpu :=
        Nat.add_lt_add_of_le_of_lt (requested_le rfl (hlen cpu)) (by simp [hw])
      refine rank_lt_of_load rfl (threadsLeft_free hi hw) (fun c => ?_) hcpu hlt
      by_cases hcc : c = cpu
      · rw [hcc]
        exact hlt.le
      · exact Nat.add_le_add (requested_le rfl (hlen c)) (by simp [Function.update_of_ne hcc])
  | @finish cpu hw =>
      have hcpu := (hi.busy cpu (.inr (by rw [hw]; rfl))).1
      have hlt : (σ.finish cpu).load cpu < σ.load cpu := by
        simp [load, hw, SmpDeleting.finish]
      have hleft : (σ.finish cpu).threadsLeft D ≤ σ.threadsLeft D := by
        refine Nat.add_le_add_left ?_ _
        simp only [SmpDeleting.finish]
        split <;> simp
      refine rank_lt_of_load rfl hleft (fun c => ?_) hcpu hlt
      by_cases hcc : c = cpu
      · rw [hcc]
        exact hlt.le
      · simp [load, SmpDeleting.finish, Function.update_of_ne hcc]

lemma Inv.acc (hi : Inv D σ) (hex : ∃ c < D.maxCpu, D.Other c) :
    Acc (fun τ σ => Step D σ τ) σ := by
  induction hn : σ.rank D using WellFoundedLT.induction generalizing σ with
  | ind n ih => exact .intro σ fun τ hst => ih _ (hn ▸ hi.rank_lt hex hst) (hi.step hst) rfl

end rank

/-! ### Other processors that are not asked -/

/-- Without another processor the caller goes round for ever. -/
lemma not_acc (h : ∀ c < D.maxCpu, ¬D.Other c) (hcpus : ∀ c ∈ cpus, c < D.maxCpu)
    (hc : σ.caller = .asking cpus) : ¬Acc (fun τ σ => Step D σ τ) σ := by
  intro hacc
  induction hacc generalizing cpus with
  | intro σ _ ih =>
    cases cpus with
    | nil => exact ih _ (.again hc) (fun c hcs => List.mem_range.mp hcs) rfl
    | cons cpu cpus =>
        have ho := h cpu (hcpus cpu List.mem_cons_self)
        exact ih _ (.skip hc ho) (fun c hcs => hcpus c (List.mem_cons_of_mem _ hcs)) rfl

/-- The caller comes to the first other processor. -/
lemma exists_ask (h : ∃ c ∈ cpus, D.Other c) (hc : σ.caller = .asking cpus) :
    ∃ cpu cpus', D.Other cpu ∧ Relation.ReflTransGen (Step D) σ
      { σ with caller := .asking (cpu :: cpus') } := by
  induction cpus generalizing σ with
  | nil => simp at h
  | cons cpu cpus ih =>
      by_cases ho : D.Other cpu
      · exact ⟨cpu, cpus, ho, by rw [← hc]⟩
      · obtain ⟨cpu', cpus', ho', hr⟩ := ih (σ := { σ with caller := .asking cpus })
          (by simpa [ho] using h) rfl
        exact ⟨cpu', cpus', ho', .head (.skip hc ho) hr⟩

/-- A processor goes through its queue before the caller looks. -/
lemma exists_finish (hw : σ.walk cpu = some ts) : ∃ τ, Relation.ReflTransGen (Step D) σ τ ∧
    τ.caller = σ.caller ∧ τ.status = some .ok ∧ τ.ran = cpu :: σ.ran := by
  induction ts generalizing σ with
  | nil => exact ⟨_, .single (.finish hw), rfl, rfl, rfl⟩
  | cons t ts ih =>
      obtain ⟨τ, hr, h⟩ := ih (σ := σ.free D cpu t ts) (by simp)
      exact ⟨τ, .head (.free hw) hr, h⟩

/-- One request ends the loop, with the answer of the first processor. -/
lemma exists_ended (h : ∃ c < D.maxCpu, D.Other c) : ∃ cpu σ, D.Other cpu ∧
    Relation.ReflTransGen (Step D) (start D s) σ ∧ σ.caller = .ended ∧ σ.ran = [cpu] := by
  have hrange : ∃ c ∈ List.range D.maxCpu, D.Other c := by simpa using h
  obtain ⟨cpu, cpus, ho, hask⟩ := exists_ask hrange (rfl : (start D s).caller = _)
  have hhandle := (hask.tail (.ask rfl ho)).tail (.handle (ask_request_self ..) rfl)
  obtain ⟨τ, hr, hcaller, hstatus, hran⟩ := exists_finish (D := D) (handle_walk_self
    (({ start D s with caller := .asking (cpu :: cpus) } : SmpDeleting S).ask cpu cpus) cpu)
  exact ⟨cpu, _, ho, (hhandle.trans hr).tail (.ok hcaller hstatus), rfl, hran⟩

end SmpDeleting

namespace SmpDeletion

open SmpDeleting

/-- Deletion by processor 0, where every thread demands an unwind. -/
def demandingDeletion (maxCpu : Nat) : SmpDeletion Unit where
  me := 0
  maxCpu := maxCpu
  online _ := true
  space := 0x1000
  spaceOf _ := 0x1000
  freeThread _ _ _ := ((), true)
  unwindIpc := id

/-- Every processor has two threads of the task. -/
def twoPerCpu (maxCpu : Nat) : Presents Unit where
  present c := if c < maxCpu then [.slot (BitVec.ofNat 14 c), .slot (BitVec.ofNat 14 (c + 64))]
    else []
  ipc := ()

lemma twoPerCpu_nodup (maxCpu c : Nat) : ((twoPerCpu maxCpu).present c).Nodup := by
  simp only [twoPerCpu]
  split_ifs with hc
  · have hne : BitVec.ofNat 14 c ≠ BitVec.ofNat 14 (c + 64) := by
      intro heq
      have := congrArg BitVec.toNat heq
      simp only [BitVec.toNat_ofNat] at this
      omega
    simpa using hne
  · exact List.nodup_nil

lemma twoPerCpu_online {maxCpu c : Nat}
    (h : (demandingDeletion maxCpu).Holds (twoPerCpu maxCpu) c) :
    c < (demandingDeletion maxCpu).maxCpu ∧ (demandingDeletion maxCpu).online c = true := by
  obtain ⟨t, ht, -⟩ := h
  refine ⟨?_, rfl⟩
  by_contra hc
  have hnil : (twoPerCpu maxCpu).present c = [] := if_neg hc
  rw [hnil] at ht
  exact absurd ht List.not_mem_nil

end SmpDeletion

end Hazelnut
