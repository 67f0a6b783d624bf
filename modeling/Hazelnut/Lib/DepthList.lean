import Mathlib.Data.List.Nodup
import Mathlib.Logic.Relation
import Mathlib.Tactic.Tauto

/-!
Trees kept as lists in pre-order, each element with its depth.

A list with a depth function `d` is read as a forest: the parent of an element is
the nearest element before it that is less deep.

* `IsParent`, `Descends`: parents, and the elements of the run of deeper elements
  that follows an element; `Descends.transGen`: the latter are descendants.
* `descends_block_iff`: the descendants of an element that starts a block.
* `Ordered`: no depth is skipped on the way down; kept by `Ordered.remove`,
  `Ordered.erase` and `Ordered.insert`.
* `isParent_insert`: an element that is put right behind its parent takes no child
  from another one.
* `Opens`, `Reaches`, `descends_append`: descendants in a list that is made of two;
  `Descends.replace`: a part of the list is exchanged.
-/

namespace DepthList

variable {α : Type*} {d : α → Nat} {l u v w : List α} {x y z : α}

/-! ### Parents and descendants -/

/-- `x` is the nearest element before `y` that is less deep. -/
def IsParent (d : α → Nat) (l : List α) (x y : α) : Prop :=
  ∃ u v w, l = u ++ x :: v ++ y :: w ∧ d x < d y ∧ ∀ z ∈ v, d y ≤ d z

/-- `y` comes after `x`, and from the one to the other all is deeper than `x`. -/
def Descends (d : α → Nat) (l : List α) (x y : α) : Prop :=
  ∃ u v w, l = u ++ x :: v ++ y :: w ∧ d x < d y ∧ ∀ z ∈ v, d x < d z

lemma IsParent.left_mem (h : IsParent d l x y) : x ∈ l := by
  obtain ⟨u, v, w, rfl, -, -⟩ := h
  simp

lemma IsParent.descends (h : IsParent d l x y) : Descends d l x y := by
  obtain ⟨u, v, w, hl, hd, hv⟩ := h
  exact ⟨u, v, w, hl, hd, fun z hz => Nat.lt_of_lt_of_le hd (hv z hz)⟩

/-- A list without duplicates is split at an element in one way. -/
lemma split_unique {u' w' : List α} (hn : (u ++ x :: w).Nodup)
    (h : u ++ x :: w = u' ++ x :: w') : u = u' ∧ w = w' := by
  induction u generalizing u' with
  | nil =>
      cases u' with
      | nil => simpa using h
      | cons a u' =>
          obtain ⟨rfl, hw⟩ : x = a ∧ w = u' ++ x :: w' := by simpa using h
          have hx : x ∉ w := (List.nodup_cons.mp (by simpa using hn)).1
          exact absurd (hw ▸ by simp) hx
  | cons a u ih =>
      have hn' : a ∉ u ++ x :: w ∧ (u ++ x :: w).Nodup := by
        simpa only [List.cons_append, List.nodup_cons] using hn
      cases u' with
      | nil =>
          obtain ⟨rfl, -⟩ : a = x ∧ u ++ x :: w = w' := by simpa using h
          exact absurd (by simp) hn'.1
      | cons b u' =>
          obtain ⟨rfl, hw⟩ : a = b ∧ u ++ x :: w = u' ++ x :: w' := by simpa using h
          obtain ⟨rfl, rfl⟩ := ih hn'.2 hw
          exact ⟨rfl, rfl⟩

lemma Descends.trans (hn : l.Nodup) (h₁ : Descends d l x y) (h₂ : Descends d l y z) :
    Descends d l x z := by
  obtain ⟨u, v, w, rfl, hxy, hv⟩ := h₁
  obtain ⟨u', v', w', hl, hyz, hv'⟩ := h₂
  have hs : u ++ x :: v = u' ∧ w = v' ++ z :: w' := by
    refine split_unique (x := y) hn ?_
    simpa using hl
  obtain ⟨rfl, rfl⟩ := hs
  refine ⟨u, v ++ y :: v', w', by simp, Nat.lt_trans hxy hyz, ?_⟩
  intro a ha
  rcases List.mem_append.mp ha with ha | ha
  · exact hv a ha
  · rcases List.mem_cons.mp ha with rfl | ha
    · exact hxy
    · exact Nat.lt_trans hxy (hv' a ha)

/-- Of a list of elements some of which are less deep than `n`, the last such. -/
lemma exists_last_lt {n : Nat} (h : ∃ z ∈ l, d z < n) :
    ∃ u a v, l = u ++ a :: v ∧ d a < n ∧ ∀ z ∈ v, n ≤ d z := by
  induction l with
  | nil => simp at h
  | cons a l ih =>
      by_cases hl : ∃ z ∈ l, d z < n
      · obtain ⟨u, b, v, rfl, hb, hv⟩ := ih hl
        exact ⟨a :: u, b, v, rfl, hb, hv⟩
      · obtain ⟨z, hz, hd⟩ := h
        rcases List.mem_cons.mp hz with rfl | hz
        · exact ⟨[], z, l, rfl, hd, fun c hc => Nat.le_of_not_lt fun hlt => hl ⟨c, hc, hlt⟩⟩
        · exact absurd ⟨z, hz, hd⟩ hl

/-- A descendant has a parent between its ancestor and itself. -/
lemma Descends.transGen (h : Descends d l x y) : Relation.TransGen (IsParent d l) x y := by
  obtain ⟨u, v, w, rfl, hxy, hv⟩ := h
  -- Induction on the stretch between the two: the parent of `y` is `x` or lies in it.
  induction hn : v.length using Nat.strongRecOn generalizing v y w with
  | ind n ih =>
      obtain ⟨v₁, a, v₂, hsplit, ha, hv₂⟩ := exists_last_lt (d := d) (n := d y) (l := x :: v)
        ⟨x, by simp, hxy⟩
      cases v₁ with
      | nil =>
          obtain ⟨rfl, rfl⟩ : x = a ∧ v = v₂ := by simpa using hsplit
          exact .single ⟨u, v, w, rfl, hxy, hv₂⟩
      | cons b v₁ =>
          obtain ⟨rfl, rfl⟩ : x = b ∧ v = v₁ ++ a :: v₂ := by simpa using hsplit
          have hstep : IsParent d (u ++ x :: (v₁ ++ a :: v₂) ++ y :: w) a y :=
            ⟨u ++ x :: v₁, v₂, w, by simp, ha, hv₂⟩
          have hpre := ih v₁.length (by simp at hn; omega) (y := a) v₁ (v₂ ++ y :: w)
            (hv a (by simp)) (fun z hz => hv z (by simp [hz])) rfl
          have hl : u ++ x :: v₁ ++ a :: (v₂ ++ y :: w) = u ++ x :: (v₁ ++ a :: v₂) ++ y :: w := by
            simp
          rw [hl] at hpre
          exact hpre.tail hstep

/-- The descendants of the element in front of a block of deeper elements that is
not followed by a deeper one. -/
lemma descends_block_iff (hn : (u ++ x :: (v ++ w)).Nodup) (hv : ∀ z ∈ v, d x < d z)
    (hw : ∀ z ∈ w.head?, d z ≤ d x) :
    Descends d (u ++ x :: (v ++ w)) x y ↔ y ∈ v := by
  constructor
  · rintro ⟨u', v', w', hl, hxy, hv'⟩
    have hs : u = u' ∧ v ++ w = v' ++ y :: w' := split_unique hn (by simpa using hl)
    obtain ⟨rfl, hs⟩ := hs
    rcases List.append_eq_append_iff.mp hs with ⟨a, rfl, ha⟩ | ⟨a, rfl, ha⟩
    · -- `y` lies beyond the block, so the element after the block lies before it or is `y`
      cases a with
      | nil =>
          have hy : y ∈ w.head? := by rw [ha]; simp
          exact absurd (hw y hy) (by omega)
      | cons b a =>
          have hb : b ∈ w.head? := by rw [ha]; simp
          have := hw b hb
          have := hv' b (by simp)
          omega
    · cases a with
      | nil =>
          have hy : y ∈ w.head? := by
            have : w = y :: w' := by simpa using ha.symm
            rw [this]; simp
          exact absurd (hw y hy) (by omega)
      | cons b a =>
          obtain ⟨rfl, -⟩ : y = b ∧ w' = a ++ w := by simpa using ha
          simp
  · intro hy
    obtain ⟨v₁, v₂, rfl⟩ := List.append_of_mem hy
    exact ⟨u, v₁, v₂ ++ w, by simp, hv y hy, fun z hz => hv z (by simp [hz])⟩

/-- Every list splits into the block of deeper elements and the rest. -/
lemma exists_block (d : α → Nat) (n : Nat) (l : List α) :
    ∃ v w, l = v ++ w ∧ (∀ z ∈ v, n < d z) ∧ ∀ z ∈ w.head?, d z ≤ n := by
  induction l with
  | nil => exact ⟨[], [], rfl, by simp, by simp⟩
  | cons a l ih =>
      by_cases ha : n < d a
      · obtain ⟨v, w, rfl, hv, hw⟩ := ih
        exact ⟨a :: v, w, rfl, by simpa [ha] using hv, hw⟩
      · exact ⟨[], a :: l, rfl, by simp, by simpa using ha⟩

/-! ### Depths that form a pre-order -/

/-- Below an element of depth `p`, in a forest whose roots are below depth `b`,
the depths of `l` form a pre-order. -/
def Ordered (d : α → Nat) (b : Nat) : Nat → List α → Prop
  | _, [] => True
  | p, x :: l => b < d x ∧ d x ≤ p + 1 ∧ Ordered d b (d x) l

namespace Ordered

variable {α : Type*} {d : α → Nat} {b p q : Nat} {l u v w : List α} {x y : α}

@[simp] lemma nil : Ordered d b p [] := trivial

@[simp] lemma cons_iff :
    Ordered d b p (x :: l) ↔ b < d x ∧ d x ≤ p + 1 ∧ Ordered d b (d x) l := Iff.rfl

/-- Only the first element looks at the depth before it. -/
lemma congr_start (h : Ordered d b p l) (hq : ∀ z ∈ l.head?, d z ≤ q + 1) : Ordered d b q l := by
  cases l with
  | nil => trivial
  | cons x l => exact ⟨h.1, hq x (by simp), h.2.2⟩

lemma lt_of_mem (h : Ordered d b p l) (hx : x ∈ l) : b < d x := by
  induction l generalizing p with
  | nil => simp at hx
  | cons y l ih =>
      rcases List.mem_cons.mp hx with rfl | hx
      · exact h.1
      · exact ih h.2.2 hx

lemma head_le (h : Ordered d b p l) : ∀ z ∈ l.head?, d z ≤ p + 1 := by
  cases l with
  | nil => simp
  | cons x l => simpa using h.2.1

lemma of_append (h : Ordered d b p (u ++ v)) : ∃ q, Ordered d b q v := by
  induction u generalizing p with
  | nil => exact ⟨p, h⟩
  | cons x u ih => exact ih h.2.2

/-- A tail may be exchanged for another one that starts no deeper. -/
lemma append_congr (h : Ordered d b p (u ++ v)) (hw : ∃ q, Ordered d b q w)
    (hle : ∀ z ∈ w.head?, ∃ y ∈ v.head?, d z ≤ d y) : Ordered d b p (u ++ w) := by
  induction u generalizing p with
  | nil =>
      obtain ⟨q, hq⟩ := hw
      refine hq.congr_start fun z hz => ?_
      obtain ⟨y, hy, hzy⟩ := hle z hz
      exact Nat.le_trans hzy (head_le (l := v) (by simpa using h) y hy)
  | cons x u ih => exact ⟨h.1, h.2.1, ih h.2.2⟩

/-- An element may be removed with the block of its descendants. -/
lemma remove (h : Ordered d b p (u ++ x :: (v ++ w))) (hw : ∀ z ∈ w.head?, d z ≤ d x) :
    Ordered d b p (u ++ w) := by
  refine append_congr h ?_ fun z hz => ⟨x, by simp, hw z hz⟩
  exact of_append (u := u ++ x :: v) (by simpa using h)

/-- The descendants of an element may be removed alone. -/
lemma erase (h : Ordered d b p (u ++ x :: (v ++ w))) (hw : ∀ z ∈ w.head?, d z ≤ d x) :
    Ordered d b p (u ++ x :: w) := by
  obtain ⟨q, hq⟩ := of_append h
  obtain ⟨q', hq'⟩ := of_append (u := u ++ x :: v) (v := w) (by simpa using h)
  refine append_congr h ⟨q, hq.1, hq.2.1, hq'.congr_start fun z hz => ?_⟩
    fun z hz => ⟨x, by simp, by simp_all⟩
  exact Nat.le_trans (hw z hz) (by omega)

/-- A new child goes right behind its parent. -/
lemma insert (h : Ordered d b p (u ++ x :: v)) (hy : d y = d x + 1) :
    Ordered d b p (u ++ x :: y :: v) := by
  obtain ⟨q, hq⟩ := of_append h
  refine append_congr h ⟨q, hq.1, hq.2.1, ?_, Nat.le_of_eq hy, ?_⟩ fun z hz =>
    ⟨x, by simp, by simp_all⟩
  · have := hq.1; omega
  · exact hq.2.2.congr_start fun z hz => Nat.le_trans (hq.2.2.head_le z hz) (by omega)

/-- A new root goes in front. -/
lemma insert_front (h : Ordered d b b l) (hy : d y = b + 1) : Ordered d b b (y :: l) :=
  ⟨by omega, Nat.le_of_eq hy, h.congr_start fun z hz => Nat.le_trans (h.head_le z hz) (by omega)⟩

/-- What follows an element is at most one deeper. -/
lemma split_le (h : Ordered d b (d y) l) (hl : y :: l = u ++ x :: v) :
    ∀ z ∈ v.head?, d z ≤ d x + 1 := by
  induction u generalizing y l with
  | nil =>
      obtain ⟨rfl, rfl⟩ : y = x ∧ l = v := by simpa using hl
      exact h.head_le
  | cons a u ih =>
      obtain ⟨rfl, rfl⟩ : y = a ∧ l = u ++ x :: v := by simpa using hl
      cases u with
      | nil => exact ih (y := x) h.2.2 rfl
      | cons c u => exact ih (y := c) h.2.2 rfl

end Ordered

/-! ### Putting an element behind its parent -/

/-- `y` is deeper than `n`, and nothing before it is less deep than it is. -/
def Child (d : α → Nat) (n : Nat) (l : List α) (y : α) : Prop :=
  ∃ v w, l = v ++ y :: w ∧ n < d y ∧ ∀ z ∈ v, d y ≤ d z

section insert

variable {n : Nat} {a b c : α}

lemma child_cons : Child d n (c :: l) b ↔ (b = c ∧ n < d c) ∨ (d b ≤ d c ∧ Child d n l b) := by
  constructor
  · rintro ⟨v, w, hl, hn, hv⟩
    cases v with
    | nil =>
        obtain ⟨rfl, -⟩ : c = b ∧ l = w := by simpa using hl
        exact .inl ⟨rfl, hn⟩
    | cons e v =>
        obtain ⟨rfl, rfl⟩ : c = e ∧ l = v ++ b :: w := by simpa using hl
        exact .inr ⟨hv c (by simp), v, w, rfl, hn, fun z hz => hv z (by simp [hz])⟩
  · rintro (⟨rfl, hn⟩ | ⟨hle, v, w, rfl, hn, hv⟩)
    · exact ⟨[], l, rfl, hn, by simp⟩
    · exact ⟨c :: v, w, rfl, hn, by simpa [hle] using hv⟩

lemma isParent_cons : IsParent d (c :: l) a b ↔ (a = c ∧ Child d (d c) l b) ∨ IsParent d l a b := by
  constructor
  · rintro ⟨u, v, w, hl, hab, hv⟩
    cases u with
    | nil =>
        obtain ⟨rfl, rfl⟩ : c = a ∧ l = v ++ b :: w := by simpa using hl
        exact .inl ⟨rfl, v, w, rfl, hab, hv⟩
    | cons e u =>
        obtain ⟨rfl, rfl⟩ : c = e ∧ l = u ++ a :: (v ++ b :: w) := by simpa using hl
        exact .inr ⟨u, v, w, by simp, hab, hv⟩
  · rintro (⟨rfl, v, w, rfl, hn, hv⟩ | ⟨u, v, w, rfl, hab, hv⟩)
    · exact ⟨[], v, w, rfl, hn, hv⟩
    · exact ⟨c :: u, v, w, rfl, hab, hv⟩

lemma Child.le_of_head {m : Nat} (h : Child d n l b) (hl : ∀ z ∈ l.head?, d z ≤ m) : d b ≤ m := by
  cases l with
  | nil => simp [Child] at h
  | cons c l =>
      have hc : d c ≤ m := hl c (by simp)
      rcases child_cons.mp h with ⟨rfl, -⟩ | ⟨hle, -⟩
      · exact hc
      · exact Nat.le_trans hle hc

/-- An element that is deeper than the one before it hides nothing from what comes before. -/
lemma child_insert (hy : d y = d x + 1) :
    Child d n (u ++ x :: y :: v) b ↔ Child d n (u ++ x :: v) b := by
  induction u with
  | nil =>
      simp only [List.nil_append, child_cons]
      constructor
      · rintro (h | ⟨hle, ⟨rfl, -⟩ | ⟨-, h⟩⟩)
        · exact .inl h
        · omega
        · exact .inr ⟨hle, h⟩
      · rintro (h | ⟨hle, h⟩)
        · exact .inl h
        · exact .inr ⟨hle, .inr ⟨by omega, h⟩⟩
  | cons c u ih => simp only [List.cons_append, child_cons, ih]

/-- **A new element right behind its parent.**  The parents of all others stay the same. -/
lemma isParent_insert (hy : d y = d x + 1) (hv : ∀ z ∈ v.head?, d z ≤ d x + 1) :
    IsParent d (u ++ x :: y :: v) a b ↔ IsParent d (u ++ x :: v) a b ∨ (a = x ∧ b = y) := by
  induction u with
  | nil =>
      have hle : ∀ {m}, Child d m v b → d b ≤ d x + 1 := fun h => h.le_of_head hv
      have hno : ¬ Child d (d y) v b := by
        intro h
        have h1 := hle h
        obtain ⟨_, _, _, h2, _⟩ := h
        omega
      have hcx : Child d (d x) (y :: v) b ↔ Child d (d x) v b ∨ b = y := by
        rw [child_cons, hy]
        constructor
        · rintro (⟨rfl, -⟩ | ⟨-, h⟩)
          · exact .inr rfl
          · exact .inl h
        · rintro (h | rfl)
          · exact .inr ⟨hle h, h⟩
          · exact .inl ⟨rfl, Nat.lt_succ_self _⟩
      simp only [List.nil_append]
      rw [isParent_cons, isParent_cons, hcx, isParent_cons]
      tauto
  | cons c u ih =>
      simp only [List.cons_append]
      rw [isParent_cons, isParent_cons, ih, child_insert hy, or_assoc]

end insert

/-! ### Lists in parts -/

/-- `x` has descendants up to the end of `l`. -/
def Opens (d : α → Nat) (l : List α) (x : α) : Prop :=
  ∃ a b, l = a ++ x :: b ∧ ∀ z ∈ b, d x < d z

/-- From the start of `l` to `y` all is deeper than `n`. -/
def Reaches (d : α → Nat) (n : Nat) (l : List α) (y : α) : Prop :=
  ∃ a b, l = a ++ y :: b ∧ n < d y ∧ ∀ z ∈ a, n < d z

section parts

variable {d' : α → Nat} {n k : Nat}

lemma Descends.mem (h : Descends d l x y) : x ∈ l ∧ y ∈ l := by
  obtain ⟨u, v, w, rfl, -⟩ := h
  simp

lemma Opens.mem (h : Opens d l x) : x ∈ l := by
  obtain ⟨a, b, rfl, -⟩ := h
  simp

lemma Reaches.mem (h : Reaches d n l y) : y ∈ l := by
  obtain ⟨a, b, rfl, -⟩ := h
  simp

/-- The first element is passed. -/
lemma Reaches.head (h : Reaches d n l y) : ∃ z ∈ l.head?, n < d z := by
  obtain ⟨a, b, rfl, hy, ha⟩ := h
  cases a with
  | nil => exact ⟨y, by simp, hy⟩
  | cons c a => exact ⟨c, by simp, ha c (by simp)⟩

lemma Descends.congr (h : Descends d l x y) (hd : ∀ z ∈ l, d' z = d z) : Descends d' l x y := by
  obtain ⟨u, v, w, rfl, hxy, hv⟩ := h
  refine ⟨u, v, w, rfl, ?_, fun z hz => ?_⟩
  · rw [hd x (by simp), hd y (by simp)]
    exact hxy
  · rw [hd x (by simp), hd z (by simp [hz])]
    exact hv z hz

lemma Opens.congr (h : Opens d l x) (hd : ∀ z ∈ l, d' z = d z) : Opens d' l x := by
  obtain ⟨a, b, rfl, hb⟩ := h
  refine ⟨a, b, rfl, fun z hz => ?_⟩
  rw [hd x (by simp), hd z (by simp [hz])]
  exact hb z hz

lemma Reaches.congr (h : Reaches d n l y) (hd : ∀ z ∈ l, d' z = d z) : Reaches d' n l y := by
  obtain ⟨a, b, rfl, hy, ha⟩ := h
  refine ⟨a, b, rfl, ?_, fun z hz => ?_⟩
  · rw [hd y (by simp)]
    exact hy
  · rw [hd z (by simp [hz])]
    exact ha z hz

lemma reaches_append : Reaches d n (u ++ v) y ↔
    Reaches d n u y ∨ ((∀ z ∈ u, n < d z) ∧ Reaches d n v y) := by
  constructor
  · rintro ⟨a, b, hl, hy, ha⟩
    rcases List.append_eq_append_iff.mp hl with ⟨c, rfl, hc⟩ | ⟨c, rfl, hc⟩
    · exact .inr ⟨fun z hz => ha z (by simp [hz]), c, b, hc, hy, fun z hz => ha z (by simp [hz])⟩
    · cases c with
      | nil => exact .inr ⟨fun z hz => ha z (by simpa using hz), [], b, hc.symm, hy, by simp⟩
      | cons e c =>
          obtain ⟨rfl, rfl⟩ : y = e ∧ b = c ++ v := by simpa using hc
          exact .inl ⟨a, c, rfl, hy, ha⟩
  · rintro (⟨a, b, rfl, hy, ha⟩ | ⟨hu, a, b, rfl, hy, ha⟩)
    · exact ⟨a, b ++ v, by simp, hy, ha⟩
    · refine ⟨u ++ a, b, by simp, hy, fun z hz => ?_⟩
      rcases List.mem_append.mp hz with hz | hz
      · exact hu z hz
      · exact ha z hz

lemma descends_iff_reaches : Descends d l x y ↔ ∃ u v, l = u ++ x :: v ∧ Reaches d (d x) v y := by
  constructor
  · rintro ⟨u, v, w, rfl, hxy, hv⟩
    exact ⟨u, v ++ y :: w, by simp, v, w, rfl, hxy, hv⟩
  · rintro ⟨u, _, rfl, v, w, rfl, hxy, hv⟩
    exact ⟨u, v, w, by simp, hxy, hv⟩

/-- Descendants in a list that is made of two. -/
lemma descends_append : Descends d (u ++ v) x y ↔
    Descends d u x y ∨ Descends d v x y ∨ (Opens d u x ∧ Reaches d (d x) v y) := by
  constructor
  · intro h
    obtain ⟨a, b, hl, hr⟩ := descends_iff_reaches.mp h
    rcases List.append_eq_append_iff.mp hl with ⟨c, rfl, hc⟩ | ⟨c, rfl, hc⟩
    · exact .inr (.inl (descends_iff_reaches.mpr ⟨c, b, hc, hr⟩))
    · cases c with
      | nil => exact .inr (.inl (descends_iff_reaches.mpr ⟨[], b, hc.symm, hr⟩))
      | cons e c =>
          obtain ⟨rfl, rfl⟩ : x = e ∧ b = c ++ v := by simpa using hc
          rcases reaches_append.mp hr with hr | ⟨hc', hr⟩
          · exact .inl (descends_iff_reaches.mpr ⟨a, c, rfl, hr⟩)
          · exact .inr (.inr ⟨⟨a, c, rfl, hc'⟩, hr⟩)
  · rintro (h | h | ⟨⟨a, b, rfl, hb⟩, hr⟩)
    · obtain ⟨a, b, rfl, hr⟩ := descends_iff_reaches.mp h
      exact descends_iff_reaches.mpr ⟨a, b ++ v, by simp, reaches_append.mpr (.inl hr)⟩
    · obtain ⟨a, b, rfl, hr⟩ := descends_iff_reaches.mp h
      exact descends_iff_reaches.mpr ⟨u ++ a, b, by simp, hr⟩
    · exact descends_iff_reaches.mpr ⟨a, b ++ v, by simp, reaches_append.mpr (.inr ⟨hb, hr⟩)⟩

/-- **A part of the list is exchanged** for one that is as deep at least.  Between the other
elements nothing changes. -/
lemma Descends.replace {v' : List α} (h : Descends d (u ++ (v ++ w)) x y)
    (hd : ∀ z ∈ u ++ w, d' z = d z) (hx : x ∉ v) (hy : y ∉ v) (hv' : ∀ z ∈ v', k ≤ d' z)
    (hw : ∀ z ∈ w.head?, d z ≤ k) : Descends d' (u ++ (v' ++ w)) x y := by
  have hdu : ∀ z ∈ u, d' z = d z := fun z hz => hd z (by simp [hz])
  have hdw : ∀ z ∈ w, d' z = d z := fun z hz => hd z (by simp [hz])
  rw [descends_append] at h ⊢
  rcases h with h | h | ⟨ho, hr⟩
  · exact .inl (h.congr hdu)
  · rcases descends_append.mp h with h | h | ⟨h, -⟩
    · exact absurd h.mem.1 hx
    · exact .inr (.inl (descends_append.mpr (.inr (.inl (h.congr hdw)))))
    · exact absurd h.mem hx
  · rcases reaches_append.mp hr with hr | ⟨-, hr⟩
    · exact absurd hr.mem hy
    · -- the part lies below `x`, as what follows it does
      obtain ⟨z, hz, hlt⟩ := hr.head
      have hk := hw z hz
      refine .inr (.inr ⟨ho.congr hdu, reaches_append.mpr (.inr ⟨fun a ha => ?_, ?_⟩)⟩)
      · have := hv' a ha
        rw [hdu x ho.mem]
        omega
      · rw [hdu x ho.mem]
        exact hr.congr hdw

end parts

end DepthList
