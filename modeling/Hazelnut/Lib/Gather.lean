import Mathlib.Data.List.Basic
import Mathlib.Logic.Function.Basic

/-!
Scatter and gather: strings in several parts.

A part may continue the one before it.  `compounds` are the strings that the parts make up, and
`pairs` says which element of a source string goes to which place of a destination string, the
`k`-th string to the `k`-th, until one does not fit.
-/

namespace Gather

variable {α β δ : Type*} {cont : δ → Bool} {block : δ → List α} {a a' A : List α} {b b' B : List β}
  {As : List (List α)} {Bs : List (List β)} {ds : List δ} {d e : δ}

/-- The strings made up by `a`, and parts behind it. -/
def start (cont : δ → Bool) (block : δ → List α) : List α → List δ → List (List α)
  | a, [] => [a]
  | a, e :: ds =>
      if cont e then
        match start cont block (block e) ds with
        | [] => [a]
        | c :: cs => (a ++ c) :: cs
      else a :: start cont block (block e) ds

/-- The strings made up by parts.  The first part continues nothing. -/
def compounds (cont : δ → Bool) (block : δ → List α) : List δ → List (List α)
  | [] => []
  | d :: ds => start cont block (block d) ds

lemma exists_start (cont : δ → Bool) (block : δ → List α) (ds : List δ) :
    ∃ c cs, ∀ a, start cont block a ds = (a ++ c) :: cs := by
  induction ds with
  | nil => exact ⟨[], [], fun a => by rw [start, List.append_nil]⟩
  | cons e ds ih =>
      obtain ⟨c, cs, h⟩ := ih
      by_cases he : cont e = true
      · refine ⟨block e ++ c, cs, fun a => ?_⟩
        rw [start, if_pos he, h]
      · refine ⟨[], start cont block (block e) ds, fun a => ?_⟩
        rw [start, if_neg he, List.append_nil]

lemma start_cont (he : cont e = true) : start cont block a (e :: ds) =
    (start cont block (a ++ block e) ds) := by
  obtain ⟨c, cs, h⟩ := exists_start cont block ds
  rw [start, if_pos he, h, h, List.append_assoc]

lemma start_next (he : ¬cont e = true) : start cont block a (e :: ds) =
    a :: compounds cont block (e :: ds) := by
  rw [start, if_neg he, compounds]

/-- What holds of the parts, and of two one behind the other, holds of the strings. -/
lemma forall_start {P : List α → Prop} (happ : ∀ a b, P a → P b → P (a ++ b)) (ha : P a)
    (hds : ∀ d ∈ ds, P (block d)) : ∀ A ∈ start cont block a ds, P A := by
  induction ds generalizing a with
  | nil =>
      intro A hA
      rw [start, List.mem_singleton] at hA
      exact hA ▸ ha
  | cons e ds ih =>
      have he := hds e List.mem_cons_self
      have hds' := fun d hd => hds d (List.mem_cons_of_mem e hd)
      intro A hA
      by_cases hc : cont e = true
      · rw [start_cont hc] at hA
        exact ih (happ a _ ha he) hds' A hA
      · rw [start_next hc, List.mem_cons] at hA
        rcases hA with rfl | hA
        · exact ha
        · exact ih he hds' A hA

lemma forall_compounds {P : List α → Prop} (happ : ∀ a b, P a → P b → P (a ++ b))
    (hds : ∀ d ∈ ds, P (block d)) : ∀ A ∈ compounds cont block ds, P A := by
  cases ds with
  | nil => simp [compounds]
  | cons d ds =>
      exact forall_start happ (hds d List.mem_cons_self) fun e he =>
        hds e (List.mem_cons_of_mem d he)

/-- The elements of the source strings with their places. -/
def pairs : List (List α) → List (List β) → List (α × β)
  | A :: As, B :: Bs => A.zip B ++ if A.length ≤ B.length then pairs As Bs else []
  | _, _ => []

/-- Every source string fits. -/
def Fits : List (List α) → List (List β) → Bool
  | A :: As, B :: Bs => decide (A.length ≤ B.length) && Fits As Bs
  | [], _ => true
  | _ :: _, [] => false

/-- There is no string to copy to. -/
lemma pairs_none (As : List (List α)) : pairs As ([] : List (List β)) = [] := by
  cases As with
  | nil => rfl
  | cons A As => rfl

lemma fits_none (d : δ) (ds : List δ) :
    Fits (compounds cont block (d :: ds)) ([] : List (List β)) = false := by
  obtain ⟨c, cs, hc⟩ := exists_start cont block ds
  rw [compounds, hc, Fits]

/-- A piece of the first strings. -/
lemma pairs_piece (h : a.length = b.length) :
    pairs ((a ++ A) :: As) ((b ++ B) :: Bs) = a.zip b ++ pairs (A :: As) (B :: Bs) := by
  rw [pairs, pairs, List.zip_append h, List.length_append, List.length_append, h,
    List.append_assoc]
  simp only [Nat.add_le_add_iff_left]

lemma fits_piece (h : a.length = b.length) :
    Fits ((a ++ A) :: As) ((b ++ B) :: Bs) = Fits (A :: As) (B :: Bs) := by
  rw [Fits, Fits, List.length_append, List.length_append, h]
  simp only [Nat.add_le_add_iff_left]

section Start

variable {γ : Type*} {contB : γ → Bool} {blockB : γ → List β} {es : List γ}

/-- A piece of the parts in front. -/
lemma pairs_start (h : a.length = b.length) :
    pairs (start cont block (a ++ a') ds) (start contB blockB (b ++ b') es) =
      a.zip b ++ pairs (start cont block a' ds) (start contB blockB b' es) := by
  obtain ⟨c, cs, hc⟩ := exists_start cont block ds
  obtain ⟨c', cs', hc'⟩ := exists_start contB blockB es
  rw [hc, hc, hc', hc', List.append_assoc, List.append_assoc, pairs_piece h]

lemma fits_start (h : a.length = b.length) :
    Fits (start cont block (a ++ a') ds) (start contB blockB (b ++ b') es) =
      Fits (start cont block a' ds) (start contB blockB b' es) := by
  obtain ⟨c, cs, hc⟩ := exists_start cont block ds
  obtain ⟨c', cs', hc'⟩ := exists_start contB blockB es
  rw [hc, hc, hc', hc', List.append_assoc, List.append_assoc, fits_piece h]

/-- The last string is through. -/
lemma pairs_done (b : List β) (es : List γ) :
    pairs (start cont block [] []) (start contB blockB b es) = [] := by
  obtain ⟨c, cs, hc⟩ := exists_start contB blockB es
  rw [hc, start, pairs, List.zip_nil_left, List.nil_append, pairs, ite_self]
  exact fun _ _ _ _ h => absurd h (by simp)

lemma fits_done (b : List β) (es : List γ) :
    Fits (start cont block [] []) (start contB blockB b es) = true := by
  obtain ⟨c, cs, hc⟩ := exists_start contB blockB es
  rw [hc, start, Fits, Fits, Bool.and_true, decide_eq_true (by simp)]

/-- There is no room for what is left. -/
lemma pairs_full (h : a ≠ []) (Bs : List (List β)) : pairs (start cont block a ds)
    ([] :: Bs) = [] := by
  obtain ⟨c, cs, hc⟩ := exists_start cont block ds
  have hlen : ¬(a ++ c).length ≤ ([] : List β).length := by
    have := List.length_pos_iff.mpr h
    simp only [List.length_append, List.length_nil]
    omega
  rw [hc, pairs, List.zip_nil_right, if_neg hlen, List.append_nil]

lemma fits_full (h : a ≠ []) (Bs : List (List β)) :
    Fits (start cont block a ds) ([] :: Bs) = false := by
  obtain ⟨c, cs, hc⟩ := exists_start cont block ds
  have hlen : ¬(a ++ c).length ≤ ([] : List β).length := by
    have := List.length_pos_iff.mpr h
    simp only [List.length_append, List.length_nil]
    omega
  rw [hc, Fits, decide_eq_false hlen, Bool.false_and]

/-- The first string is through. -/
lemma pairs_nil (As : List (List α)) (B : List β) (Bs : List (List β)) :
    pairs ([] :: As) (B :: Bs) = pairs As Bs := by
  rw [pairs, List.zip_nil_left, List.nil_append, List.length_nil, if_pos (Nat.zero_le _)]

lemma fits_nil (As : List (List α)) (B : List β) (Bs : List (List β)) :
    Fits ([] :: As) (B :: Bs) = Fits As Bs := by
  rw [Fits, List.length_nil, decide_eq_true (Nat.zero_le _), Bool.true_and]

end Start

section Map

variable {γ : Type*}

/-- A map that respects the parts. -/
lemma start_map {f : List α → List γ} (h : ∀ a b, f (a ++ b) = f a ++ f b) (a : List α)
    (ds : List δ) : (start cont block a ds).map f = start cont (fun d => f (block d)) (f a) ds := by
  induction ds generalizing a with
  | nil => rfl
  | cons e ds ih =>
      by_cases he : cont e = true
      · rw [start_cont he, start_cont he, ih, h]
      · rw [start_next he, start_next he, List.map_cons, compounds, compounds, ih]

lemma compounds_map {f : List α → List γ} (h : ∀ a b, f (a ++ b) = f a ++ f b) (ds : List δ) :
    (compounds cont block ds).map f = compounds cont (fun d => f (block d)) ds := by
  cases ds with
  | nil => rfl
  | cons d ds => exact start_map h _ ds

/-- The places are renamed. -/
lemma pairs_map (g : β → γ) (As : List (List α)) (Bs : List (List β)) :
    (pairs As Bs).map (fun x => (x.1, g x.2)) = pairs As (Bs.map (List.map g)) := by
  induction As generalizing Bs with
  | nil => cases Bs <;> rfl
  | cons A As ih =>
      cases Bs with
      | nil => rfl
      | cons B Bs =>
          have hz : (A.zip B).map (fun x => (x.1, g x.2)) = A.zip (B.map g) := by
            rw [List.zip_map_right]
            rfl
          rw [pairs, List.map_append, hz, List.map_cons, pairs, List.length_map]
          split_ifs
          · rw [ih]
          · rfl

end Map

/-- What fitting means. -/
lemma fits_iff : Fits As Bs = true ↔
    As.length ≤ Bs.length ∧ ∀ (k : Nat) (A : List α) (B : List β), As[k]? = some A →
      Bs[k]? = some B → A.length ≤ B.length := by
  induction As generalizing Bs with
  | nil => simp [Fits]
  | cons A As ih =>
      cases Bs with
      | nil => simp [Fits]
      | cons B Bs =>
          rw [Fits, Bool.and_eq_true, decide_eq_true_iff, ih]
          constructor
          · rintro ⟨h, hlen, hall⟩
            refine ⟨by simpa using hlen, fun k A' B' hA hB => ?_⟩
            cases k with
            | zero =>
                obtain rfl : A = A' := by simpa using hA
                obtain rfl : B = B' := by simpa using hB
                exact h
            | succ k => exact hall k A' B' (by simpa using hA) (by simpa using hB)
          · rintro ⟨hlen, hall⟩
            exact ⟨hall 0 A B rfl rfl, by simpa using hlen, fun k A' B' hA hB =>
              hall (k + 1) A' B' (by simpa using hA) (by simpa using hB)⟩

end Gather
