import Mathlib.Data.List.Pairwise

/-!
Intervals a range of addresses is cut into.

An empty interval counts as well: it may not lie strictly inside another one.
-/

namespace Intervals

open scoped List

variable {lo hi hi' a c d : Nat} {x y : Nat × Nat} {l l' : List (Nat × Nat)}

/-- One of two intervals is before the other. -/
def Sided (x y : Nat × Nat) : Prop := x.2 ≤ y.1 ∨ y.2 ≤ x.1

instance : Std.Symm Sided := ⟨fun _ _ h => h.symm⟩

/-- The intervals `l` are apart, and lie between `lo` and `hi`. -/
structure Cut (lo hi : Nat) (l : List (Nat × Nat)) : Prop where
  sep : l.Pairwise Sided
  inside : ∀ x ∈ l, lo ≤ x.1 ∧ x.1 ≤ x.2 ∧ x.2 ≤ hi

namespace Cut

lemma perm (h : Cut lo hi l) (hp : l ~ l') : Cut lo hi l' :=
  ⟨(hp.pairwise_iff fun h => h.symm).mp h.sep, fun x hx => h.inside x (hp.mem_iff.mpr hx)⟩

lemma of_cons (h : Cut lo hi (x :: l)) :
    (∀ y ∈ l, Sided x y) ∧ (lo ≤ x.1 ∧ x.1 ≤ x.2 ∧ x.2 ≤ hi) ∧ Cut lo hi l := by
  obtain ⟨h1, h2⟩ := List.pairwise_cons.mp h.sep
  exact ⟨h1, h.inside x (by simp), h2, fun y hy => h.inside y (by simp [hy])⟩

lemma cons (hl : Cut lo hi l) (hx : ∀ y ∈ l, Sided x y) (hin : lo ≤ x.1 ∧ x.1 ≤ x.2 ∧ x.2 ≤ hi) :
    Cut lo hi (x :: l) := by
  refine ⟨List.pairwise_cons.mpr ⟨hx, hl.sep⟩, fun y hy => ?_⟩
  rcases List.mem_cons.mp hy with rfl | hy
  · exact hin
  · exact hl.inside y hy

/-- **An interval is split** at two places; what is between them is left out. -/
lemma split (h : Cut lo hi (x :: l)) (h1 : x.1 ≤ a) (h2 : a ≤ c) (h3 : c ≤ x.2) :
    Cut lo hi ((x.1, a) :: (c, x.2) :: l) := by
  obtain ⟨hsep, hin, hl⟩ := h.of_cons
  refine (hl.cons (fun y hy => ?_) ?_).cons (fun y hy => ?_) ?_
  · have := hsep y hy
    simp only [Sided] at *
    omega
  · simp only
    omega
  · rcases List.mem_cons.mp hy with rfl | hy
    · exact .inl h2
    · have := hsep y hy
      simp only [Sided] at *
      omega
  · simp only
    omega

/-- **Two intervals are joined**, if no empty one is between them. -/
lemma join (h : Cut lo hi (x :: y :: l)) (hxy : x.2 = y.1)
    (hempty : ∀ z ∈ l, z.1 = x.2 → z.2 = x.2 → x.1 = x.2 ∨ y.1 = y.2) :
    Cut lo hi ((x.1, y.2) :: l) := by
  obtain ⟨hx, hinx, hyl⟩ := h.of_cons
  obtain ⟨hy, hiny, hl⟩ := hyl.of_cons
  refine hl.cons (fun z hz => ?_) ?_
  · have h1 := hx z (by simp [hz])
    have h2 := hy z hz
    have h3 := hempty z hz
    have h4 := hl.inside z hz
    simp only [Sided] at *
    omega
  · simp only
    omega

/-- There is more room at the end. -/
lemma mono (h : Cut lo hi l) (hle : hi ≤ hi') : Cut lo hi' l :=
  ⟨h.sep, fun x hx => by have := h.inside x hx; omega⟩

/-- An interval behind all others. -/
lemma push (h : Cut lo hi l) (hlo : lo ≤ hi) (h1 : hi ≤ c) (h2 : c ≤ d) :
    Cut lo d ((c, d) :: l) := by
  refine (h.mono (by omega)).cons (fun y hy => ?_) ?_
  · have := h.inside y hy
    simp only [Sided]
    omega
  · simp only
    omega

end Cut

end Intervals
