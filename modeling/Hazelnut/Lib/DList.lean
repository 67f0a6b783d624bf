import Mathlib.Data.List.Nodup
import Mathlib.Logic.Function.Basic

/-!
Doubly linked lists in memory, with null at both ends.

The elements of a list have addresses `enc x`, and `next` and `prev` are what their links
hold.

* `IsDList`: the list from an address on, with the address of the element before it.
* `IsDList.push`, `IsDList.pop`, `IsDList.remove`: hooking an element in at the front,
  and taking out the first one or any one.
-/

namespace DList

variable {α β : Type*} {enc : α → β} {next next' prev prev' : α → β} {null p q h : β} {x y : α}
  {l u v : List α}

/-- The list `l` starts at the address `h`, behind the element at `p`. -/
def IsDList (enc : α → β) (next prev : α → β) (null : β) : β → β → List α → Prop
  | _, h, [] => h = null
  | p, h, x :: l => h = enc x ∧ prev x = p ∧ IsDList enc next prev null (enc x) (next x) l

@[simp] lemma isDList_nil : IsDList enc next prev null p h [] ↔ h = null := Iff.rfl

@[simp] lemma isDList_cons : IsDList enc next prev null p h (x :: l) ↔
    h = enc x ∧ prev x = p ∧ IsDList enc next prev null (enc x) (next x) l := Iff.rfl

lemma notMem_head?_of_mem_tail (hl : l.Nodup) (hx : x ∈ l.tail) : x ∉ l.head? := by
  cases l with
  | nil => simp
  | cons y l =>
      intro hy
      obtain rfl : y = x := by simpa using hy
      exact (List.nodup_cons.mp hl).1 hx

namespace IsDList

/-- Only the links of the elements matter. -/
lemma congr (hl : IsDList enc next prev null p h l) (hn : ∀ x ∈ l, next' x = next x)
    (hp : ∀ x ∈ l, prev' x = prev x) : IsDList enc next' prev' null p h l := by
  induction l generalizing p h with
  | nil => exact hl
  | cons x l ih =>
      obtain ⟨h1, h2, h3⟩ := hl
      refine ⟨h1, (hp x (by simp)).trans h2, ?_⟩
      rw [hn x (by simp)]
      exact ih h3 (fun y hy => hn y (by simp [hy])) fun y hy => hp y (by simp [hy])

/-- The head tells the empty list from the others. -/
lemma eq_nil_iff (hl : IsDList enc next prev null p h l) (h0 : ∀ x ∈ l, enc x ≠ null) :
    h = null ↔ l = [] := by
  cases l with
  | nil => simpa using hl
  | cons x l => simp [hl.1, h0 x (by simp)]

/-- The element before the list is exchanged: its first element has to know. -/
lemma behind (hl : IsDList enc next prev null p h l) (hnd : l.Nodup)
    (hn : ∀ x ∈ l, next' x = next x) (hhead : ∀ x ∈ l.head?, prev' x = q)
    (hp : ∀ x ∈ l.tail, prev' x = prev x) : IsDList enc next' prev' null q h l := by
  cases l with
  | nil => exact hl
  | cons x l =>
      obtain ⟨h1, -, h3⟩ := hl
      refine ⟨h1, hhead x (by simp), ?_⟩
      rw [hn x (by simp)]
      exact h3.congr (fun y hy => hn y (by simp [hy])) hp

/-- The links of an element in the list. -/
lemma split (hl : IsDList enc next prev null p h (u ++ x :: v)) :
    prev x = (u.getLast?.map enc).getD p ∧ h = enc ((u ++ [x]).head (by simp)) ∧
      IsDList enc next prev null (enc x) (next x) v := by
  induction u generalizing p h with
  | nil => exact ⟨hl.2.1, hl.1, hl.2.2⟩
  | cons a u ih =>
      obtain ⟨h1, h2, h3⟩ := hl
      obtain ⟨hx, -, hv⟩ := ih h3
      refine ⟨?_, h1, hv⟩
      rw [hx]
      cases u with
      | nil => rfl
      | cons b u => simp [List.getLast?_cons]

/-- **Any element** may be taken out: the element behind it, and the link to it, are told. -/
lemma remove (hl : IsDList enc next prev null p h (u ++ x :: v)) (hnd : (u ++ x :: v).Nodup)
    (hn : ∀ y ∈ u ++ v, y ∉ u.getLast? → next' y = next y)
    (hlast : ∀ y ∈ u.getLast?, next' y = next x)
    (hp : ∀ y ∈ u ++ v, y ∉ v.head? → prev' y = prev y)
    (hhead : ∀ y ∈ v.head?, prev' y = prev x) :
    IsDList enc next' prev' null p (if u = [] then next x else h) (u ++ v) := by
  induction u generalizing p h with
  | nil =>
      obtain ⟨-, hpx, hv⟩ := hl
      rw [if_pos rfl]
      have hxv : x ∉ v := (List.nodup_cons.mp hnd).1
      have hnv : v.Nodup := (List.nodup_cons.mp hnd).2
      refine hv.behind hnv (fun y hy => hn y (by simpa using hy) (by simp)) ?_ ?_
      · intro y hy
        rw [hhead y hy, hpx]
      · intro y hy
        have hyv := List.mem_of_mem_tail hy
        exact hp y (by simpa using hyv) (notMem_head?_of_mem_tail hnv hy)
  | cons a u ih =>
      obtain ⟨h1, h2, h3⟩ := hl
      have hnd' : a ∉ u ++ x :: v ∧ (u ++ x :: v).Nodup := by
        simpa only [List.cons_append, List.nodup_cons] using hnd
      rw [if_neg (by simp)]
      have ha : a ∉ v.head? := by
        intro hav
        exact hnd'.1 (by simp [List.mem_of_mem_head? hav])
      refine ⟨h1, (hp a (by simp) ha).trans h2, ?_⟩
      have hrec := ih h3 hnd'.2 ?_ ?_ ?_
      · cases u with
        | nil =>
            rw [if_pos rfl] at hrec
            rw [hlast a (by simp)]
            exact hrec
        | cons b u =>
            rw [if_neg (by simp)] at hrec
            have hb : next' a = next a := by
              refine hn a (by simp) fun hg => ?_
              have hmem : a ∈ b :: u := List.mem_of_mem_getLast? (by simpa using hg)
              exact hnd'.1 (List.mem_append_left _ hmem)
            rw [hb]
            exact hrec
      · intro y hy hy'
        refine hn y (List.mem_cons_of_mem _ hy) fun hg => hy' ?_
        cases u with
        | nil =>
            obtain rfl : a = y := by simpa using hg
            exact absurd (by simpa using hy) fun hyv => hnd'.1 (by simp [hyv])
        | cons b u => simpa using hg
      · intro y hy
        refine hlast y ?_
        cases u with
        | nil => simp at hy
        | cons b u => simpa using hy
      · exact fun y hy => hp y (List.mem_cons_of_mem _ hy)

/-- **A new element** in front. -/
lemma push (hl : IsDList enc next prev null null h l) (hnd : l.Nodup) (hx : next' x = h)
    (hpx : prev' x = null) (hn : ∀ y ∈ l, next' y = next y) (hhead : ∀ y ∈ l.head?, prev' y = enc x)
    (hp : ∀ y ∈ l.tail, prev' y = prev y) : IsDList enc next' prev' null null (enc x) (x :: l) := by
  refine ⟨rfl, hpx, ?_⟩
  rw [hx]
  exact hl.behind hnd hn hhead hp

/-- **The first element** is taken out. -/
lemma pop (hl : IsDList enc next prev null null h (x :: l)) (hnd : l.Nodup)
    (hn : ∀ y ∈ l, next' y = next y) (hhead : ∀ y ∈ l.head?, prev' y = null)
    (hp : ∀ y ∈ l.tail, prev' y = prev y) : IsDList enc next' prev' null null (next x) l :=
  hl.2.2.behind hnd hn hhead hp

end IsDList

end DList
