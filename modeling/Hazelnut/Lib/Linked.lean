import Mathlib.Data.List.Chain
import Mathlib.Data.List.Nodup

/-!
Doubly linked lists with a node at each end.

`IsLinked next prev l` says that the nodes `l`, the two ends included, are linked in both
directions.
-/

namespace Linked

variable {α : Type*} {next next' prev prev' : α → α} {p q x y : α} {l u v : List α}

/-- The nodes `l` are linked one after the other. -/
def IsLinked (next prev : α → α) (l : List α) : Prop :=
  l.IsChain fun x y => next x = y ∧ prev y = x

lemma isLinked_split : IsLinked next prev (u ++ p :: q :: v) ↔
    IsLinked next prev (u ++ [p]) ∧ (next p = q ∧ prev q = p) ∧ IsLinked next prev (q :: v) :=
  List.isChain_append_cons_cons

namespace IsLinked

/-- Only the links between the nodes matter. -/
lemma congr (h : IsLinked next prev l) (hn : ∀ x ∈ l.dropLast, next' x = next x)
    (hp : ∀ x ∈ l.tail, prev' x = prev x) : IsLinked next' prev' l := by
  induction l with
  | nil => exact .nil
  | cons x l ih =>
      cases l with
      | nil => exact .singleton x
      | cons y l =>
          obtain ⟨hxy, hl⟩ := List.isChain_cons_cons.mp h
          refine List.isChain_cons_cons.mpr ⟨?_, ih hl ?_ ?_⟩
          · rw [hn x (by simp), hp y (by simp)]
            exact hxy
          · exact fun z hz => hn z (by simp [hz])
          · exact fun z hz => hp z (by simp [List.mem_of_mem_tail hz])

/-- The part up to a node whose link to the next one changes. -/
lemma congr_left (h : IsLinked next prev (u ++ [p])) (hn : ∀ x ∈ u, next' x = next x)
    (hp : ∀ x ∈ u ++ [p], prev' x = prev x) : IsLinked next' prev' (u ++ [p]) := by
  refine h.congr ?_ fun x hx => hp x (List.mem_of_mem_tail hx)
  rw [List.dropLast_concat]
  exact hn

/-- The part from a node on whose link to the one before it changes. -/
lemma congr_right (h : IsLinked next prev (q :: v)) (hn : ∀ x ∈ q :: v, next' x = next x)
    (hp : ∀ x ∈ v, prev' x = prev x) : IsLinked next' prev' (q :: v) :=
  h.congr (fun x hx => hn x ((List.dropLast_sublist _).subset hx)) hp

/-- **A node is taken out.** -/
lemma remove (h : IsLinked next prev (u ++ p :: x :: q :: v)) (hpq : next' p = q)
    (hqp : prev' q = p) (hn : ∀ y ∈ u ++ q :: v, next' y = next y)
    (hp : ∀ y ∈ u ++ p :: v, prev' y = prev y) : IsLinked next' prev' (u ++ p :: q :: v) := by
  obtain ⟨hu, -, hv⟩ := isLinked_split.mp h
  have hv' : IsLinked next prev (q :: v) := (List.isChain_cons_cons.mp hv).2
  refine isLinked_split.mpr ⟨hu.congr_left ?_ ?_, ⟨hpq, hqp⟩, hv'.congr_right ?_ ?_⟩
  · exact fun y hy => hn y (List.mem_append_left _ hy)
  · exact fun y hy => hp y (by simp only [List.mem_append, List.mem_cons] at hy ⊢; tauto)
  · exact fun y hy => hn y (List.mem_append_right _ hy)
  · exact fun y hy => hp y (by simp [hy])

/-- **A node is put in** between two others. -/
lemma insert (h : IsLinked next prev (u ++ p :: q :: v)) (hpx : next' p = x) (hxp : prev' x = p)
    (hxq : next' x = q) (hqx : prev' q = x) (hn : ∀ y ∈ u ++ q :: v, next' y = next y)
    (hp : ∀ y ∈ u ++ p :: v, prev' y = prev y) :
    IsLinked next' prev' (u ++ p :: x :: q :: v) := by
  obtain ⟨hu, -, hv⟩ := isLinked_split.mp h
  refine isLinked_split.mpr ⟨hu.congr_left ?_ ?_, ⟨hpx, hxp⟩,
    List.isChain_cons_cons.mpr ⟨⟨hxq, hqx⟩, hv.congr_right ?_ ?_⟩⟩
  · exact fun y hy => hn y (List.mem_append_left _ hy)
  · exact fun y hy => hp y (by simp only [List.mem_append, List.mem_cons] at hy ⊢; tauto)
  · exact fun y hy => hn y (List.mem_append_right _ hy)
  · exact fun y hy => hp y (by simp [hy])

/-- The nodes that keep their links if the one from `p` to `q` changes. -/
lemma ne_of_mem (hnd : (u ++ p :: q :: v).Nodup) :
    (∀ y ∈ u ++ q :: v, p ≠ y) ∧ ∀ y ∈ u ++ p :: v, q ≠ y := by
  have hp := (List.nodup_cons.mp (List.perm_middle.nodup_iff.mp hnd)).1
  have hsplit : u ++ p :: q :: v = (u ++ [p]) ++ q :: v := by simp
  rw [hsplit] at hnd
  have hq := (List.nodup_cons.mp (List.perm_middle.nodup_iff.mp hnd)).1
  refine ⟨fun y hy he => hp (he ▸ hy), fun y hy he => hq ?_⟩
  rw [he]
  simpa using hy

/-- Putting in a node, from what is written at the two nodes beside it. -/
lemma insert_ite [DecidableEq α] (h : IsLinked next prev (u ++ p :: q :: v))
    (hnd : (u ++ p :: q :: v).Nodup) (hxp : prev' x = p) (hxq : next' x = q)
    (hn : ∀ y ∈ u ++ p :: q :: v, next' y = if p = y then x else next y)
    (hp : ∀ y ∈ u ++ p :: q :: v, prev' y = if q = y then x else prev y) :
    IsLinked next' prev' (u ++ p :: x :: q :: v) := by
  have hne := ne_of_mem hnd
  have hq : u ++ q :: v ⊆ u ++ p :: q :: v :=
    (List.Sublist.append_left (List.sublist_cons_self p (q :: v)) u).subset
  have hv : u ++ p :: v ⊆ u ++ p :: q :: v :=
    (List.Sublist.append_left ((List.sublist_cons_self q v).cons_cons p) u).subset
  refine h.insert ?_ hxp hxq ?_ (fun y hy => ?_) fun y hy => ?_
  · rw [hn p (by simp), if_pos rfl]
  · rw [hp q (by simp), if_pos rfl]
  · rw [hn y (hq hy), if_neg (hne.1 y hy)]
  · rw [hp y (hv hy), if_neg (hne.2 y hy)]

/-- Taking out a node, from what is written at the two nodes beside it. -/
lemma remove_ite [DecidableEq α] (h : IsLinked next prev (u ++ p :: x :: q :: v))
    (hnd : (u ++ p :: x :: q :: v).Nodup)
    (hn : ∀ y ∈ u ++ p :: x :: q :: v, next' y = if p = y then q else next y)
    (hp : ∀ y ∈ u ++ p :: x :: q :: v, prev' y = if q = y then p else prev y) :
    IsLinked next' prev' (u ++ p :: q :: v) := by
  have hx : (u ++ p :: q :: v).Sublist (u ++ p :: x :: q :: v) :=
    List.Sublist.append_left ((List.sublist_cons_self x (q :: v)).cons_cons p) u
  have hne := ne_of_mem (hnd.sublist hx)
  have hq : u ++ q :: v ⊆ u ++ p :: q :: v :=
    (List.Sublist.append_left (List.sublist_cons_self p (q :: v)) u).subset
  have hv : u ++ p :: v ⊆ u ++ p :: q :: v :=
    (List.Sublist.append_left ((List.sublist_cons_self q v).cons_cons p) u).subset
  refine h.remove ?_ ?_ (fun y hy => ?_) fun y hy => ?_
  · rw [hn p (by simp), if_pos rfl]
  · rw [hp q (by simp), if_pos rfl]
  · rw [hn y (hx.subset (hq hy)), if_neg (hne.1 y hy)]
  · rw [hp y (hx.subset (hv hy)), if_neg (hne.2 y hy)]

end IsLinked

end Linked
