import Mathlib.Data.List.Nodup

/-!
Singly linked lists in memory, with null at the end.

A link is the variable that holds the head of a list, `none`, or a node `some x`; `next`
is what the links hold.

* `Segment`, `last`: the nodes passed from a link on, and the link behind the last one.
* `IsChain`: a segment with null behind it.
* `isChain_append`, `IsChain.congr`, `Segment.splice`: walking down a list, and exchanging
  its rest.
-/

namespace Chain

variable {α : Type*} {next next' : Option α → α} {null x : α} {o : Option α} {l u v : List α}

/-- The nodes `l` follow one another, starting with what the link `o` holds. -/
def Segment (next : Option α → α) (null : α) : Option α → List α → Prop
  | _, [] => True
  | o, x :: l => next o = x ∧ x ≠ null ∧ Segment next null (some x) l

/-- The link behind the last of the nodes `l`. -/
def last : Option α → List α → Option α
  | o, [] => o
  | _, x :: l => last (some x) l

/-- The link `o` holds the list `l`. -/
def IsChain (next : Option α → α) (null : α) (o : Option α) (l : List α) : Prop :=
  Segment next null o l ∧ next (last o l) = null

@[simp] lemma last_nil : last o [] = o := rfl

@[simp] lemma last_cons : last o (x :: l) = last (some x) l := rfl

@[simp] lemma last_append : last o (u ++ v) = last (last o u) v := by
  induction u generalizing o with
  | nil => rfl
  | cons x u ih => exact ih

lemma last_mem : last o l = o ∨ ∃ x ∈ l, last o l = some x := by
  induction l generalizing o with
  | nil => exact .inl rfl
  | cons x l ih =>
      rcases ih (o := some x) with h | ⟨y, hy, h⟩
      · exact .inr ⟨x, by simp, h⟩
      · exact .inr ⟨y, by simp [hy], h⟩

lemma segment_append : Segment next null o (u ++ v) ↔
    Segment next null o u ∧ Segment next null (last o u) v := by
  induction u generalizing o with
  | nil => simp [Segment]
  | cons x u ih => simp [Segment, ih, and_assoc]

lemma isChain_nil : IsChain next null o [] ↔ next o = null := by simp [IsChain, Segment]

lemma isChain_cons : IsChain next null o (x :: l) ↔
    next o = x ∧ x ≠ null ∧ IsChain next null (some x) l := by
  simp [IsChain, Segment, and_assoc]

lemma isChain_append : IsChain next null o (u ++ v) ↔
    Segment next null o u ∧ IsChain next null (last o u) v := by
  simp [IsChain, segment_append, and_assoc]

/-- The head tells the empty list from the others. -/
lemma IsChain.eq_nil_iff (h : IsChain next null o l) : next o = null ↔ l = [] := by
  cases l with
  | nil => simpa using isChain_nil.mp h
  | cons x l =>
      obtain ⟨hx, hne, -⟩ := isChain_cons.mp h
      simp [hx, hne]

/-- Only the links in front of the nodes matter. -/
lemma Segment.congr (h : Segment next null o l)
    (heq : ∀ k, (k = o ∨ ∃ x ∈ l, k = some x) → k ≠ last o l → next' k = next k)
    (hn : (o :: l.map some).Nodup) : Segment next' null o l := by
  induction l generalizing o with
  | nil => trivial
  | cons x l ih =>
      obtain ⟨hx, hne, hl⟩ := h
      have hn' : ((some x) :: l.map some).Nodup := (List.nodup_cons.mp hn).2
      refine ⟨?_, hne, ih hl (fun k hk hlast => heq k ?_ hlast) hn'⟩
      · rw [← hx]
        refine heq o (.inl rfl) fun he => ?_
        have hmem : o ∈ (x :: l).map some := by
          rw [he, last_cons]
          rcases last_mem (o := some x) (l := l) with h' | ⟨y, hy, h'⟩
          · rw [h']; simp
          · rw [h']; simp [hy]
        exact (List.nodup_cons.mp hn).1 hmem
      · rcases hk with rfl | ⟨y, hy, rfl⟩
        · exact .inr ⟨x, by simp, rfl⟩
        · exact .inr ⟨y, by simp [hy], rfl⟩

/-- The same list behind another link. -/
lemma IsChain.congr_start {o' : Option α} (h : IsChain next null o l) (ho : next' o' = next o)
    (heq : ∀ x ∈ l, next' (some x) = next (some x)) : IsChain next' null o' l := by
  induction l generalizing o o' with
  | nil =>
      rw [isChain_nil] at h ⊢
      rw [ho, h]
  | cons x l ih =>
      obtain ⟨hx, hne, hl⟩ := isChain_cons.mp h
      refine isChain_cons.mpr ⟨by rw [ho, hx], hne, ih hl (heq x (by simp)) fun y hy => ?_⟩
      exact heq y (by simp [hy])

/-- A list whose links are kept is kept. -/
lemma IsChain.congr (h : IsChain next null o l)
    (heq : ∀ k, (k = o ∨ ∃ x ∈ l, k = some x) → next' k = next k) : IsChain next' null o l :=
  h.congr_start (heq o (.inl rfl)) fun x hx => heq _ (.inr ⟨x, hx, rfl⟩)

/-- **Exchanging the rest of a list.**  The link behind `u` is made to hold `v`. -/
lemma Segment.splice (h : Segment next null o u)
    (heq : ∀ k, (k = o ∨ ∃ x ∈ u, k = some x) → k ≠ last o u → next' k = next k)
    (hn : (o :: u.map some).Nodup) (hv : IsChain next' null (last o u) v) :
    IsChain next' null o (u ++ v) :=
  isChain_append.mpr ⟨h.congr heq hn, hv⟩

/-- A list is determined by its head. -/
lemma IsChain.unique (h : IsChain next null o u) (h' : IsChain next null o v) : u = v := by
  induction u generalizing o v with
  | nil => exact (h'.eq_nil_iff.mp (isChain_nil.mp h)).symm
  | cons x u ih =>
      obtain ⟨hx, hne, hu⟩ := isChain_cons.mp h
      cases v with
      | nil => exact absurd (hx.symm.trans (isChain_nil.mp h')) hne
      | cons y v =>
          obtain ⟨hy, -, hv⟩ := isChain_cons.mp h'
          obtain rfl : x = y := hx.symm.trans hy
          rw [ih hu hv]

end Chain
