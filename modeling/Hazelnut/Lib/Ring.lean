import Mathlib.Data.List.Chain
import Mathlib.Data.List.Nodup

/-!
Doubly linked rings, over an arbitrary type of nodes.

A ring is given by two partial link functions, `next` and `prev`, and is read
off as the list of its nodes starting at some node of it.  A queue is a ring
with a pointer to its first node.

* `IsRing`: the links close up along the list and back again.
* `IsRing.next_mem`, `IsRing.prev_mem`: links of members lead to members.
* `IsRing.insert`: hooking a new node in front of the first one puts it at the
  end of the list.
* `IsRing.erase`: short-circuiting a node of a ring of several nodes erases it.
* `IsRing.singleton_of_next_self`: a node linked to itself is the whole ring.
* `IsRing.congr`: only the links of the members matter.
-/

namespace Ring

variable {α : Type*} {next prev next' prev' : α → Option α}

/-- `b` follows `a`, and both nodes know it. -/
def Linked (next prev : α → Option α) (a b : α) : Prop :=
  next a = some b ∧ prev b = some a

/-- The list of the nodes of a ring, read from any of them: each node is linked
to its successor and the last one to the first. -/
def IsRing (next prev : α → Option α) : List α → Prop
  | [] => True
  | a :: l => List.IsChain (Linked next prev) (a :: (l ++ [a]))

@[simp] lemma isRing_nil : IsRing next prev [] := trivial

lemma isRing_cons {a : α} {l : List α} :
    IsRing next prev (a :: l) ↔ List.IsChain (Linked next prev) (a :: (l ++ [a])) := Iff.rfl

@[simp] lemma isRing_singleton {a : α} :
    IsRing next prev [a] ↔ next a = some a ∧ prev a = some a := by
  simp [isRing_cons, Linked]

/-- A ring may be read from its second node. -/
lemma IsRing.rotate {a : α} {l : List α} (h : IsRing next prev (a :: l)) :
    IsRing next prev (l ++ [a]) := by
  cases l with
  | nil => exact h
  | cons b l =>
      rw [isRing_cons, List.cons_append, List.isChain_cons_cons] at h
      rw [List.cons_append, isRing_cons, List.append_assoc, List.singleton_append,
        ← List.cons_append]
      refine List.isChain_split.mpr ⟨?_, ?_⟩
      · simpa using h.2
      · simpa using h.1

/-- A ring may be read from any of its nodes. -/
lemma IsRing.rotate_append {u v : List α} (h : IsRing next prev (u ++ v)) :
    IsRing next prev (v ++ u) := by
  induction u generalizing v with
  | nil => simpa using h
  | cons a u ih =>
      have h1 : IsRing next prev (u ++ (v ++ [a])) := by
        rw [← List.append_assoc]; exact IsRing.rotate h
      simpa using ih h1

/-- Only the links of the members matter. -/
lemma IsRing.congr {l : List α} (h : IsRing next prev l)
    (hn : ∀ x ∈ l, next' x = next x) (hp : ∀ x ∈ l, prev' x = prev x) :
    IsRing next' prev' l := by
  cases l with
  | nil => trivial
  | cons a l =>
      refine List.IsChain.imp_of_mem_imp (fun x y hx hy hxy => ?_) h
      have hx' : x ∈ a :: l := by simpa [or_comm, or_assoc] using hx
      have hy' : y ∈ a :: l := by simpa [or_comm, or_assoc] using hy
      exact ⟨(hn x hx').trans hxy.1, (hp y hy').trans hxy.2⟩

/-- The links of a member of a ring, read from it. -/
lemma IsRing.links {x : α} {l : List α} (h : IsRing next prev (x :: l)) :
    next x = (l ++ [x]).head? ∧ prev x = (x :: l).getLast? := by
  constructor
  · cases l with
    | nil => exact (isRing_singleton.mp h).1
    | cons b l =>
        rw [isRing_cons, List.cons_append, List.isChain_cons_cons] at h
        simpa using h.1.1
  · rcases List.eq_nil_or_concat l with rfl | ⟨l', b, rfl⟩
    · exact (isRing_singleton.mp h).2
    · have h' : List.IsChain (Linked next prev) ((x :: l') ++ b :: [x]) := by
        simpa [isRing_cons] using h
      have hb := (List.isChain_split.mp h').2
      rw [List.concat_eq_append, ← List.cons_append, List.getLast?_concat]
      exact (List.isChain_cons_cons.mp hb).1.2

/-- The successor of a member is a member. -/
lemma IsRing.next_mem {l : List α} (h : IsRing next prev l) {x y : α} (hx : x ∈ l)
    (hy : next x = some y) : y ∈ l := by
  obtain ⟨u, v, rfl⟩ := List.append_of_mem hx
  have hl : next x = (v ++ u ++ [x]).head? := (IsRing.links (IsRing.rotate_append h)).1
  rw [hy] at hl
  have hmem : y ∈ v ++ u ++ [x] := List.mem_of_mem_head? hl.symm
  simp only [List.mem_append, List.mem_cons] at hmem ⊢
  tauto

/-- The predecessor of a member is a member. -/
lemma IsRing.prev_mem {l : List α} (h : IsRing next prev l) {x y : α} (hx : x ∈ l)
    (hy : prev x = some y) : y ∈ l := by
  obtain ⟨u, v, rfl⟩ := List.append_of_mem hx
  have hl : prev x = (x :: (v ++ u)).getLast? := (IsRing.links (IsRing.rotate_append h)).2
  rw [hy] at hl
  have hmem : y ∈ x :: (v ++ u) := List.mem_of_getLast? hl.symm
  simp only [List.mem_append, List.mem_cons] at hmem ⊢
  tauto

/-- Every member has both links. -/
lemma IsRing.exists_links {l : List α} (h : IsRing next prev l) {x : α} (hx : x ∈ l) :
    (∃ y, next x = some y) ∧ ∃ y, prev x = some y := by
  obtain ⟨u, v, rfl⟩ := List.append_of_mem hx
  obtain ⟨h1, h2⟩ := IsRing.links (IsRing.rotate_append h)
  refine ⟨?_, ?_⟩
  · rw [h1]; exact Option.isSome_iff_exists.mp (by simp)
  · rw [h2]; exact Option.isSome_iff_exists.mp (by simp)

/-- A member that is its own successor is the whole ring. -/
lemma IsRing.singleton_of_next_self {l : List α} (hl : l.Nodup) (h : IsRing next prev l)
    {x : α} (hx : x ∈ l) (hself : next x = some x) : l = [x] := by
  obtain ⟨u, v, rfl⟩ := List.append_of_mem hx
  have h1 : next x = (v ++ u ++ [x]).head? := (IsRing.links (IsRing.rotate_append h)).1
  rw [hself] at h1
  cases hvu : v ++ u with
  | nil =>
      obtain ⟨rfl, rfl⟩ := List.append_eq_nil_iff.mp hvu
      rfl
  | cons b w =>
      have hb : b = x := by simpa [hvu] using h1.symm
      have hmem : x ∈ v ++ u := by rw [hvu, hb]; exact List.mem_cons_self
      have hnot : x ∉ u ++ v := (List.nodup_middle.mp hl).notMem
      exact absurd (by simpa [or_comm] using hmem) hnot

/-- The links of members undo each other. -/
lemma IsRing.next_of_prev {l : List α} (h : IsRing next prev l) {x y : α} (hx : x ∈ l)
    (hy : prev x = some y) : next y = some x := by
  obtain ⟨u, v, rfl⟩ := List.append_of_mem hx
  have h1 : IsRing next prev (x :: (v ++ u)) := IsRing.rotate_append h
  have hl := (IsRing.links h1).2
  rw [hy] at hl
  rcases List.eq_nil_or_concat (v ++ u) with hw | ⟨w, z, hw⟩
  · rw [hw] at h1 hl
    obtain rfl : y = x := by simpa using hl
    exact (isRing_singleton.mp h1).1
  · rw [hw, List.concat_eq_append] at h1 hl
    obtain rfl : y = z := by
      rw [← List.cons_append, List.getLast?_concat] at hl
      simpa using hl
    have h2 : List.IsChain (Linked next prev) ((x :: w) ++ y :: [x]) := by
      simpa [isRing_cons] using h1
    exact (List.isChain_cons_cons.mp (List.isChain_split.mp h2).2).1.1

/-- Hooking `x` in front of the first node `a` of a ring appends it to the
list: `z` is the former predecessor of `a`. -/
lemma IsRing.insert {a x z : α} {l : List α} (hl : (a :: l).Nodup)
    (h : IsRing next prev (a :: l)) (hx : x ∉ a :: l) (hz : prev a = some z)
    (hnx : next' x = some a) (hnz : next' z = some x)
    (hn : ∀ y, y ≠ x → y ≠ z → next' y = next y)
    (hpx : prev' x = some z) (hpa : prev' a = some x)
    (hp : ∀ y, y ≠ x → y ≠ a → prev' y = prev y) :
    IsRing next' prev' (a :: l ++ [x]) := by
  have hxa : x ≠ a := fun he => hx (he ▸ List.mem_cons_self)
  have hlast := (IsRing.links h).2
  rw [hz] at hlast
  -- the chain up to the last node `z` keeps its links, the two new links close it
  obtain ⟨w, hw⟩ : ∃ w, a :: l = w ++ [z] := by
    obtain ⟨hne, hlast'⟩ := List.getLast?_eq_some_iff.mp hlast.symm
    exact ⟨hne, hlast'⟩
  have hchain : List.IsChain (Linked next' prev') (w ++ [z]) := by
    have h0 : List.IsChain (Linked next prev) (w ++ [z]) := by
      rw [← hw]
      have h1 := isRing_cons.mp h
      rw [← List.cons_append] at h1
      exact (List.isChain_append.mp h1).1
    have hwz : (w ++ [z]).Nodup := hw ▸ hl
    refine List.isChain_iff_forall_rel_of_append_cons_cons.mpr ?_
    intro b c l₁ l₂ heq
    have hbc := List.isChain_iff_forall_rel_of_append_cons_cons.mp h0 heq
    have hbmem : b ∈ w ++ [z] := by rw [heq]; simp
    have hcmem : c ∈ w ++ [z] := by rw [heq]; simp
    have hbx : b ≠ x := fun he => hx (by rw [hw, ← he]; exact hbmem)
    have hcx : c ≠ x := fun he => hx (by rw [hw, ← he]; exact hcmem)
    have hnd : (l₁ ++ b :: c :: l₂).Nodup := heq ▸ hwz
    have hbz : b ≠ z := by
      rintro rfl
      have hlast2 : (l₁ ++ b :: c :: l₂).getLast? = some b := by rw [← heq]; simp
      have hbl : b ∈ c :: l₂ := by
        rw [List.getLast?_append] at hlast2
        have h3 : (b :: c :: l₂).getLast? = some b := by simpa using hlast2
        rw [List.getLast?_cons_cons] at h3
        exact List.mem_of_getLast? h3
      have hb := (List.nodup_append.mp hnd).2.1
      exact (List.nodup_cons.mp hb).1 hbl
    have hca : c ≠ a := by
      rintro rfl
      have hhead : (l₁ ++ b :: c :: l₂).head? = some c := by rw [← heq, ← hw]; rfl
      cases l₁ with
      | nil =>
          have hb : b = c := by simpa using hhead
          exact (List.nodup_cons.mp hnd).1 (hb ▸ List.mem_cons_self)
      | cons d l₁ =>
          have hd : d = c := by simpa using hhead
          exact (List.nodup_cons.mp hnd).1 (by rw [hd]; simp)
    exact ⟨(hn b hbx hbz).trans hbc.1, (hp c hcx hca).trans hbc.2⟩
  have hgoal : List.IsChain (Linked next' prev') ((w ++ [z]) ++ [x, a]) := by
    refine List.isChain_append.mpr ⟨hchain, ?_, ?_⟩
    · exact List.isChain_cons_cons.mpr ⟨⟨hnx, hpa⟩, List.isChain_singleton _⟩
    · intro b hb c hc
      have hb' : z = b := by simpa using hb
      have hc' : x = c := by simpa using hc
      subst hb' hc'
      exact ⟨hnz, hpx⟩
  rw [← hw] at hgoal
  simpa [isRing_cons] using hgoal

/-- Short-circuiting a node `x` of a ring of at least two nodes: `p` and `n`
are its neighbours. -/
lemma IsRing.erase [DecidableEq α] {l : List α} {x p n : α} (hl : l.Nodup)
    (h : IsRing next prev l) (hx : x ∈ l) (hself : next x ≠ some x)
    (hpx : prev x = some p) (hnx : next x = some n)
    (hnp : next' p = some n) (hn : ∀ y, y ≠ p → y ≠ x → next' y = next y)
    (hpn : prev' n = some p) (hp : ∀ y, y ≠ n → y ≠ x → prev' y = prev y) :
    IsRing next' prev' (l.erase x) := by
  obtain ⟨u, v, rfl⟩ := List.append_of_mem hx
  have hxu : x ∉ u := fun hu =>
    (List.nodup_append.mp hl).2.2 x hu x List.mem_cons_self rfl
  have herase : (u ++ x :: v).erase x = u ++ v := by
    rw [List.erase_append_right _ hxu, List.erase_cons_head]
  rw [herase]
  refine IsRing.rotate_append ?_
  have hrot := IsRing.rotate_append h
  rw [List.cons_append] at hrot
  have hnd : (x :: (v ++ u)).Nodup := by
    have h1 := List.nodup_middle.mp hl
    rw [List.nodup_cons] at h1 ⊢
    exact ⟨by simpa [or_comm] using h1.1, List.nodup_append_comm.mp h1.2⟩
  obtain ⟨hln, hlp⟩ := IsRing.links hrot
  generalize hw : v ++ u = w at hrot hnd hln hlp ⊢
  have hxw : x ∉ w := (List.nodup_cons.mp hnd).1
  cases w with
  | nil => exact absurd hln hself
  | cons b w =>
      have hbn : n = b := by rw [hnx] at hln; simpa using hln
      subst hbn
      have hlast : (n :: w).getLast? = some p := by
        rw [hpx] at hlp
        rw [List.getLast?_cons_cons] at hlp
        exact hlp.symm
      have hchain : List.IsChain (Linked next prev) (n :: w) := by
        have h1 := isRing_cons.mp hrot
        rw [List.cons_append, List.isChain_cons_cons, ← List.cons_append] at h1
        exact (List.isChain_append.mp h1.2).1
      have hwnd : (n :: w).Nodup := (List.nodup_cons.mp hnd).2
      have hchain' : List.IsChain (Linked next' prev') (n :: w) := by
        refine List.isChain_iff_forall_rel_of_append_cons_cons.mpr ?_
        intro c d l₁ l₂ heq
        have hcd := List.isChain_iff_forall_rel_of_append_cons_cons.mp hchain heq
        have hnd' : (l₁ ++ c :: d :: l₂).Nodup := heq ▸ hwnd
        have hcx : c ≠ x := fun he => hxw (by rw [heq, he]; simp)
        have hdx : d ≠ x := fun he => hxw (by rw [heq, he]; simp)
        have hcp : c ≠ p := by
          rintro rfl
          have hlast2 : (c :: d :: l₂).getLast? = some c := by
            rw [heq, List.getLast?_append] at hlast; simpa using hlast
          rw [List.getLast?_cons_cons] at hlast2
          have hb := (List.nodup_append.mp hnd').2.1
          exact (List.nodup_cons.mp hb).1 (List.mem_of_getLast? hlast2)
        have hdn : d ≠ n := by
          rintro rfl
          cases l₁ with
          | nil =>
              have hc : d = c := by
                have := congrArg List.head? heq
                simpa using this
              exact (List.nodup_cons.mp hnd').1 (by rw [← hc]; exact List.mem_cons_self)
          | cons e l₁ =>
              have he : d = e := by
                have := congrArg List.head? heq
                simpa using this
              exact (List.nodup_cons.mp hnd').1 (by rw [← he]; simp)
        exact ⟨(hn c hcp hcx).trans hcd.1, (hp d hdn hdx).trans hcd.2⟩
      rw [isRing_cons, ← List.cons_append]
      refine List.isChain_append.mpr ⟨hchain', List.isChain_singleton _, ?_⟩
      intro c hc d hd
      have hcp : p = c := by rw [hlast] at hc; simpa using hc
      have hdn : n = d := by simpa using hd
      subst hcp hdn
      exact ⟨hnp, hpn⟩

end Ring
