import Mathlib.Data.Finset.Card
import Mathlib.Logic.Function.Basic
import Mathlib.Tactic.Push

/-!
Who owns how many of a set of things.
-/

namespace Ledger

variable {α β : Type*} [DecidableEq α] [DecidableEq β] {S T : Finset α} {o o' : α → β} {a : α}
    {x y : β}

/-- The things of `S` that `x` owns. -/
def owned (S : Finset α) (o : α → β) (x : β) : Finset α := S.filter fun a => o a = x

omit [DecidableEq α] in
@[simp] lemma mem_owned : a ∈ owned S o x ↔ a ∈ S ∧ o a = x := Finset.mem_filter

omit [DecidableEq α] in
lemma owned_congr (h : ∀ a ∈ S, o' a = x ↔ o a = x) : owned S o' x = owned S o x := by
  ext a
  simp only [mem_owned]
  exact ⟨fun ha => ⟨ha.1, (h a ha.1).1 ha.2⟩, fun ha => ⟨ha.1, (h a ha.1).2 ha.2⟩⟩

/-- Somebody else got or lost the thing. -/
lemma owned_update_of_ne (h : o a ≠ x) (hy : y ≠ x) :
    owned S (Function.update o a y) x = owned S o x := by
  refine owned_congr fun b _ => ?_
  rcases eq_or_ne b a with rfl | hb
  · simp [h, hy]
  · simp [hb]

lemma owned_update_not_mem (ha : a ∉ S) : owned S (Function.update o a y) x = owned S o x := by
  refine owned_congr fun b hb => ?_
  rw [Function.update_of_ne (ne_of_mem_of_not_mem hb ha)]

/-- **Get**: the thing is one more. -/
lemma card_owned_get (ha : a ∈ S) (h : o a ≠ x) :
    (owned S (Function.update o a x) x).card = (owned S o x).card + 1 := by
  have : owned S (Function.update o a x) x = insert a (owned S o x) := by
    ext b
    rcases eq_or_ne b a with rfl | hb <;> simp [*]
  rw [this, Finset.card_insert_of_notMem (by simp [h])]

/-- **Lose**: the thing is one less. -/
lemma card_owned_lose (ha : a ∈ S) (h : o a = x) (hy : y ≠ x) :
    (owned S (Function.update o a y) x).card + 1 = (owned S o x).card := by
  have : owned S o x = insert a (owned S (Function.update o a y) x) := by
    ext b
    rcases eq_or_ne b a with rfl | hb <;> simp [*]
  rw [this, Finset.card_insert_of_notMem (by simp [hy])]

/-- **Take over**: the things of `T` that are missing are added. -/
lemma card_owned_block (hT : T ⊆ S) (ht : ∀ a ∈ T, o' a = x) (ho : ∀ a ∈ S, a ∉ T → o' a = o a) :
    (owned S o' x).card + (owned T o x).card = (owned S o x).card + T.card := by
  have h₁ : owned S o' x = owned (S \ T) o x ∪ T := by
    ext a
    simp only [mem_owned, Finset.mem_union, Finset.mem_sdiff]
    by_cases ha : a ∈ T
    · simp [ha, hT ha, ht a ha]
    · simp only [ha, not_false_eq_true, and_true, or_false]
      exact and_congr_right fun hS => by rw [ho a hS ha]
  have h₂ : owned S o x = owned (S \ T) o x ∪ owned T o x := by
    ext a
    simp only [mem_owned, Finset.mem_union, Finset.mem_sdiff]
    by_cases ha : a ∈ T
    · simp [ha, hT ha]
    · simp [ha]
  have hd₁ : Disjoint (owned (S \ T) o x) T :=
    Finset.disjoint_left.2 fun a ha => (Finset.mem_sdiff.1 (mem_owned.1 ha).1).2
  have hd₂ : Disjoint (owned (S \ T) o x) (owned T o x) :=
    Finset.disjoint_left.2 fun a ha hb =>
      (Finset.mem_sdiff.1 (mem_owned.1 ha).1).2 (mem_owned.1 hb).1
  rw [h₁, h₂, Finset.card_union_of_disjoint hd₁, Finset.card_union_of_disjoint hd₂]
  omega

end Ledger
