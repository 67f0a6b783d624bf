import Hazelnut.Io.Cut
import Hazelnut.Lib.DepthList

/-!
Unmapping of I/O ports.

* `Pieces`: every node of a list is replaced by its pieces outside a range of ports.
* `Cutting`: the invariant of the loop of `unmap_subtree`, kept by a turn (`Cutting.turn`) and so by
  the loop (`Cutting.unmapLoop`).
-/

namespace Hazelnut.Io

open Linked Ring

variable {s₀ s s' : IoMdb} {n x y t e root : Word} {u v w V A done rest : List Word}
  {own₀ own : Word → List Word} {f : Word → List Word} {lo hi : Nat} {c c' : Cut}

/-! ### Pieces -/

/-- Every node `x` of `V` is replaced by the nodes `f x`, which cover what `x` does outside the
ports from `lo` to `hi`. -/
structure Pieces (s s' : IoMdb) (V : List Word) (lo hi : Nat) (f : Word → List Word) : Prop where
  out : ∀ x, x ∉ V → f x = [x]
  tid : ∀ x ∈ V, ∀ y ∈ f x, s'.getTid y = s.getTid x
  depth : ∀ x ∈ V, ∀ y ∈ f x, s'.getDepth y = s.getDepth x
  nonempty : ∀ x ∈ V, ∀ y ∈ f x, s'.getLo y < s'.getHi y ∧ s'.getHi y ≤ s.getHi x
  avoids : ∀ x ∈ V, ∀ y ∈ f x, s'.getHi y ≤ lo ∨ hi ≤ s'.getLo y
  covers : ∀ x ∈ V, ∀ i, i < lo ∨ hi ≤ i → ((∃ y ∈ f x, s'.Covers y i) ↔ s.Covers x i)

/-- The words that hold bounds, task and depth are the same. -/
def SameWords (s s' : IoMdb) (x : Word) : Prop :=
  (s'.node x).w1 = (s.node x).w1 ∧ (s'.node x).w2 = (s.node x).w2

namespace SameWords

lemma getLo (h : SameWords s s' x) : s'.getLo x = s.getLo x := by
  rw [IoMdb.getLo, IoNode.getLo, h.1, IoMdb.getLo, IoNode.getLo]

lemma getHi (h : SameWords s s' x) : s'.getHi x = s.getHi x := by
  rw [IoMdb.getHi, IoNode.getHi, h.2, IoMdb.getHi, IoNode.getHi]

lemma getTid (h : SameWords s s' x) : s'.getTid x = s.getTid x := by
  rw [IoMdb.getTid, IoNode.getTid, h.1, IoMdb.getTid, IoNode.getTid]

lemma depth (h : SameWords s s' x) : (s'.node x).getDepth = (s.node x).getDepth := by
  rw [IoNode.getDepth, h.2, IoNode.getDepth]

lemma getDepth (h : SameWords s s' x) : s'.getDepth x = s.getDepth x := by
  rw [IoMdb.getDepth, h.depth, IoMdb.getDepth]

lemma covers {i : Nat} (h : SameWords s s' x) : s'.Covers x i ↔ s.Covers x i := by
  rw [IoMdb.Covers, h.getLo, h.getHi, IoMdb.Covers]

end SameWords

/-! ### The loop -/

/-- What the loop of `unmap_subtree` may rely on in the nodes `V`, which have `u` before them. -/
structure MayCut (s : IoMdb) (u V : List Word) (lo hi : Nat) : Prop where
  nonempty : ∀ n ∈ V, s.getLo n < s.getHi n ∧ s.getHi n ≤ 65536
  notEnd : ∀ n ∈ V, ¬ (s.getLo n < lo ∧ s.getHi n = hi)
  notFirst : u = [] → ∀ n ∈ V.head?,
    ¬ (lo ≤ s.getLo n ∧ s.getHi n ≤ hi) ∧ ¬ (s.getLo n < lo ∧ hi < s.getHi n)
  notMoved : ∀ D₁ m D₂ n D₃, V = D₁ ++ m :: D₂ ++ n :: D₃ →
    (∀ z ∈ D₂, s.getDepth m < s.getDepth z) →
    s.getDepth m < s.getDepth n → s.getLo m < lo → hi < s.getHi m →
      ¬ (s.getLo n < lo ∧ s.getHi n < hi)

/-- **The loop invariant.**  Of the nodes `V`, which lie between `u` and `w`, `done` have been dealt
with: their pieces are `A`. -/
structure Cutting (s₀ s : IoMdb) (u w : List Word) (e root : Word) (own₀ : Word → List Word)
    (lo hi : Nat) (done rest A : List Word) (own : Word → List Word) (f : Word → List Word)
    (c : Cut) : Prop where
  db : Db s (u ++ A ++ (rest ++ w)) e own
  same : ∀ x ∈ u ++ (rest ++ w) ++ [e], SameWords s₀ s x
  iospace : s.iospace = s₀.iospace
  pieces : Pieces s₀ s done lo hi f
  mem : ∀ y, y ∈ A ↔ ∃ x ∈ done, y ∈ f x
  lists : ∀ t, own t = (own₀ t).flatMap f
  mark : c.splitDepth = iomdbSupDepth ∨ (c.nLeftEnd ∈ A ∧ ∃ D₁ m D₂, done = D₁ ++ m :: D₂ ∧
    (s₀.node m).getDepth = c.splitDepth ∧ (∀ z ∈ D₂, s₀.getDepth m < s₀.getDepth z) ∧
      s₀.getLo m < lo ∧ hi < s₀.getHi m)
  rootDepth : (s.node root).getDepth = (s₀.node root).getDepth
  rootFree : root ∈ s.free → ∀ x ∈ rest, lo ≤ s₀.getLo x ∧ s₀.getHi x ≤ hi
  first : u = [] → done ≠ [] → A ≠ []
  head : ∀ y ∈ A.head?, ∀ x ∈ done.head?, f x ≠ [] → y ∈ f x
  cur : c.n = (rest ++ w ++ [e]).head (by simp)

lemma Placed.mem {Q A' : List Word} (h : Placed n A Q A') : y ∈ A' ↔ y ∈ A ∨ y ∈ Q := by
  cases h with
  | gone => simp
  | kept => simp
  | split hXY _ =>
      rw [hXY]
      simp only [List.mem_append, List.mem_cons, List.not_mem_nil, or_false]
      tauto

namespace Cutting

/-- A turn finds what it relies on. -/
lemma mayTurn (h : Cutting s₀ s u w e root own₀ lo hi done (n :: rest) A own f c)
    (hc : MayCut s₀ u (done ++ n :: rest) lo hi) : MayTurn s u A n lo hi c := by
  have hn := h.same n (by simp)
  have hsup : (s.node n).getDepth < iomdbSupDepth := IoNode.getDepth_lt
  refine ⟨?_, ?_, ?_, fun hnil => ?_, fun h1 h2 => ?_, fun hd => ?_⟩
  all_goals try rw [hn.getLo, hn.getHi]
  · exact (hc.nonempty n (by simp)).1
  · rw [hn.getHi]
    exact (hc.nonempty n (by simp)).2
  · exact hc.notEnd n (by simp)
  · obtain ⟨hu, hA⟩ := List.append_eq_nil_iff.mp hnil
    have hdone : done = [] := by
      by_contra hne
      exact h.first hu hne hA
    exact hc.notFirst hu n (by simp [hdone])
  · rcases h.mark with hs | ⟨-, D₁, m, D₂, hdone, hm, hD, h3, h4⟩
    · rw [hs]
      exact BitVec.le_of_lt hsup
    · rw [← hm, hn.depth]
      refine BitVec.not_lt.mp fun hlt => ?_
      rw [hn.getLo] at h1
      rw [hn.getHi] at h2
      exact hc.notMoved D₁ m D₂ n rest (by rw [hdone]) hD (BitVec.lt_def.mp hlt) h3 h4 ⟨h1, h2⟩
  · rcases h.mark with hs | ⟨hA, -⟩
    · rw [hs] at hd
      exact absurd hd (BitVec.not_lt.mpr (BitVec.le_of_lt hsup))
    · exact hA

lemma notMem_turned (h : Cutting s₀ s u w e root own₀ lo hi done (n :: rest) A own f c) :
    n ∉ A := by
  intro hA
  have htree := h.db.tree.nodup
  rw [List.append_assoc, List.append_assoc, List.append_assoc] at htree
  have h1 := (List.nodup_append.mp htree).2.1
  exact (List.nodup_append.mp h1).2.2 n hA n (by simp) rfl

/-- What is not the node of the turn and lies in the tree is as before. -/
lemma turned_words {Q A' a b : List Word}
    (h : Cutting s₀ s u w e root own₀ lo hi done (n :: rest) A own f c)
    (ht : Turned s s' u A (rest ++ w) e n own lo hi c c' Q A' a b) {x : Word}
    (hx : x ∈ u ++ A ++ (n :: rest ++ w) ++ [e]) (hxn : x ≠ n) : SameWords s s' x :=
  ht.turn.other x hxn (h.db.tree.live x hx).2

lemma turned_done {Q A' a b : List Word}
    (h : Cutting s₀ s u w e root own₀ lo hi done (n :: rest) A own f c)
    (ht : Turned s s' u A (rest ++ w) e n own lo hi c c' Q A' a b) {y : Word} (hy : y ∈ A) :
    SameWords s s' y :=
  h.turned_words ht (by simp [hy]) fun he => h.notMem_turned (he ▸ hy)

/-- The pieces after a turn. -/
lemma turned_pieces {Q A' a b : List Word}
    (h : Cutting s₀ s u w e root own₀ lo hi done (n :: rest) A own f c)
    (hdone : n ∉ done) (ht : Turned s s' u A (rest ++ w) e n own lo hi c c' Q A' a b) :
    Pieces s₀ s' (done ++ [n]) lo hi (Function.update f n Q) := by
  have hn := h.same n (by simp)
  have hfd : ∀ x ∈ done, Function.update f n Q x = f x := fun x hx => by
    have hxn : x ≠ n := fun he => hdone (he ▸ hx)
    rw [Function.update_of_ne hxn]
  have hfn : Function.update f n Q n = Q := Function.update_self n Q f
  have hA : ∀ y ∈ A, SameWords s s' y := fun y hy => h.turned_done ht hy
  have hcases : ∀ x ∈ done ++ [n], x ∈ done ∨ x = n := fun x hx => by simpa using hx
  have hmemA : ∀ x ∈ done, ∀ y ∈ f x, y ∈ A := fun x hx y hy => (h.mem y).mpr ⟨x, hx, hy⟩
  refine ⟨fun x hx => ?_, fun x hx y hy => ?_, fun x hx y hy => ?_, fun x hx y hy => ?_,
    fun x hx y hy => ?_, fun x hx i hi' => ?_⟩
  · have hxn : x ≠ n := fun he => hx (by simp [he])
    rw [Function.update_of_ne hxn]
    exact h.pieces.out x fun hd => hx (by simp [hd])
  all_goals rcases hcases x hx with hd | rfl
  · rw [hfd x hd] at hy
    rw [(hA y (hmemA x hd y hy)).getTid]
    exact h.pieces.tid x hd y hy
  · rw [hfn] at hy
    rw [ht.turn.tid y hy, hn.getTid]
  · rw [hfd x hd] at hy
    rw [(hA y (hmemA x hd y hy)).getDepth]
    exact h.pieces.depth x hd y hy
  · rw [hfn] at hy
    rw [ht.turn.depth y hy, hn.getDepth]
  · rw [hfd x hd] at hy
    rw [(hA y (hmemA x hd y hy)).getLo, (hA y (hmemA x hd y hy)).getHi]
    exact h.pieces.nonempty x hd y hy
  · rw [hfn] at hy
    rw [← hn.getHi]
    exact ht.turn.nonempty y hy
  · rw [hfd x hd] at hy
    rw [(hA y (hmemA x hd y hy)).getLo, (hA y (hmemA x hd y hy)).getHi]
    exact h.pieces.avoids x hd y hy
  · rw [hfn] at hy
    exact ht.turn.avoids y hy
  · rw [hfd x hd, ← h.pieces.covers x hd i hi']
    refine exists_congr fun y => and_congr_right fun hy => ?_
    exact (hA y (hmemA x hd y hy)).covers
  · rw [hfn, ht.turn.covers i hi', hn.covers]

/-- The lists of the tasks after a turn. -/
lemma turned_lists {Q A' a b : List Word}
    (h : Cutting s₀ s u w e root own₀ lo hi done (n :: rest) A own f c)
    (hdone : n ∉ done) (ht : Turned s s' u A (rest ++ w) e n own lo hi c c' Q A' a b) (t : Word) :
    Function.update own (s.getTid n) (a ++ Q ++ b) t = (own₀ t).flatMap
        (Function.update f n Q) := by
  have hfn : Function.update f n Q n = Q := Function.update_self n Q f
  have hnA := h.notMem_turned
  have hfn0 : f n = [n] := h.pieces.out n hdone
  by_cases htn : t = s.getTid n
  · subst htn
    rw [Function.update_self]
    have hown := h.lists (s.getTid n)
    rw [ht.at_node] at hown
    have hmem : n ∈ (own₀ (s.getTid n)).flatMap f := by rw [← hown]; simp
    obtain ⟨x, hx, hnx⟩ := List.mem_flatMap.mp hmem
    have hxd : x ∉ done := fun hxd => hnA ((h.mem n).mpr ⟨x, hxd, hnx⟩)
    obtain rfl : n = x := by
      rw [h.pieces.out x hxd] at hnx
      simpa using hnx
    obtain ⟨a₀, b₀, hab₀⟩ := List.append_of_mem hx
    have hnodup : (a ++ n :: b).Nodup := by
      have := (List.nodup_cons.mp (h.db.tasks.nodup (s.getTid n))).2
      rwa [ht.at_node] at this
    rw [hab₀, List.flatMap_append, List.flatMap_cons, hfn0, List.singleton_append] at hown
    obtain ⟨rfl, rfl⟩ := DepthList.split_unique hnodup hown
    have hout : ∀ l : List Word, n ∉ l.flatMap f →
        l.flatMap (Function.update f n Q) = l.flatMap f :=
      fun l hl => by
        rw [List.flatMap_def, List.flatMap_def]
        refine congrArg _ (List.map_congr_left fun z hz => ?_)
        have hzn : z ≠ n := fun he =>
          hl (List.mem_flatMap.mpr ⟨z, hz, by rw [he, hfn0]; simp⟩)
        rw [Function.update_of_ne hzn]
    have hna : n ∉ a₀.flatMap f := fun hna =>
      (List.nodup_append.mp hnodup).2.2 n hna n (by simp) rfl
    have hnb : n ∉ b₀.flatMap f := (List.nodup_cons.mp (List.nodup_append.mp hnodup).2.1).1
    rw [hab₀, List.flatMap_append, List.flatMap_cons, hfn, hout a₀ hna, hout b₀ hnb]
    simp
  · rw [Function.update_of_ne htn, h.lists t, List.flatMap_def, List.flatMap_def]
    refine congrArg _ (List.map_congr_left fun x hx => ?_)
    have hxn : x ≠ n := by
      rintro rfl
      have hxt : x ∈ own t := by
        rw [h.lists t]
        exact List.mem_flatMap.mpr ⟨x, hx, by simp [hfn0]⟩
      exact htn (h.db.tasks.tid_of_mem hxt).symm
    rw [Function.update_of_ne hxn]

/-- Nothing else in the tree is the node of the turn. -/
lemma turned_outside (h : Cutting s₀ s u w e root own₀ lo hi done (n :: rest) A own f c) :
    ∀ x ∈ u ++ (rest ++ w) ++ [e], x ≠ n := by
  rintro x hx rfl
  have hp : (u ++ A ++ (x :: rest ++ w) ++ [e]).Perm (x :: (u ++ A ++ (rest ++ w) ++ [e])) := by
    have : (u ++ A ++ x :: (rest ++ w ++ [e])).Perm (x :: (u ++ A ++ (rest ++ w ++ [e]))) :=
      List.perm_middle
    simpa using this
  refine (List.nodup_cons.mp (hp.nodup_iff.mp h.db.tree.nodup)).1 ?_
  simp only [List.mem_append] at hx ⊢
  tauto

/-- Where the pieces are after a turn. -/
lemma turned_mem {Q A' a b : List Word}
    (h : Cutting s₀ s u w e root own₀ lo hi done (n :: rest) A own f c)
    (hdone : n ∉ done) (ht : Turned s s' u A (rest ++ w) e n own lo hi c c' Q A' a b) (y : Word) :
    y ∈ A' ↔ ∃ x ∈ done ++ [n], y ∈ Function.update f n Q x := by
  have hfd : ∀ x ∈ done, Function.update f n Q x = f x := fun x hx => by
    have hxn : x ≠ n := fun he => hdone (he ▸ hx)
    rw [Function.update_of_ne hxn]
  have hfn : Function.update f n Q n = Q := Function.update_self n Q f
  rw [ht.placed.mem, h.mem]
  constructor
  · rintro (⟨x, hx, hy⟩ | hy)
    · exact ⟨x, by simp [hx], by rwa [hfd x hx]⟩
    · exact ⟨n, by simp, by rwa [hfn]⟩
  · rintro ⟨x, hx, hy⟩
    rcases List.mem_append.mp hx with hx | hx
    · rw [hfd x hx] at hy
      exact .inl ⟨x, hx, hy⟩
    · obtain rfl : x = n := by simpa using hx
      rw [hfn] at hy
      exact .inr hy

/-- The depth of the root after a turn. -/
lemma turned_rootDepth {Q A' a b : List Word}
    (h : Cutting s₀ s u w e root own₀ lo hi done (n :: rest) A own f c)
    (ht : Turned s s' u A (rest ++ w) e n own lo hi c c' Q A' a b) :
    (s'.node root).getDepth = (s.node root).getDepth := by
  have hn := h.same n (by simp)
  by_cases hwhole : lo ≤ s.getLo n ∧ s.getHi n ≤ hi
  · rw [IoNode.getDepth, (ht.turn.whole hwhole.1 hwhole.2).2.2, IoNode.getDepth]
  · by_cases hrn : root = n
    · rw [hrn]
      exact BitVec.eq_of_toNat_eq (ht.turn.depth n (ht.turn.stays hwhole).1)
    · have hrf : root ∉ s.free := fun hrf => hwhole (by
        have := h.rootFree hrf n (by simp)
        rwa [hn.getLo, hn.getHi])
      exact SameWords.depth (ht.turn.other root hrn hrf)

/-- The first piece after a turn is a piece of the first node that has one. -/
lemma turned_head {Q A' a b : List Word} {x y : Word}
    (h : Cutting s₀ s u w e root own₀ lo hi done (n :: rest) A own f c) (hdone : n ∉ done)
    (ht : Turned s s' u A (rest ++ w) e n own lo hi c c' Q A' a b) (hy : y ∈ A'.head?)
    (hx : x ∈ (done ++ [n]).head?) (hne : Function.update f n Q x ≠ []) :
        y ∈ Function.update f n Q x := by
  cases done with
  | nil =>
      obtain rfl : n = x := by simpa using hx
      have hAnil : A = [] := List.eq_nil_iff_forall_not_mem.mpr fun z hz => by
        simpa using (h.mem z).mp hz
      rw [Function.update_self]
      have := ht.placed.mem.mp (List.mem_of_mem_head? hy)
      simpa [hAnil] using this
  | cons z done =>
      obtain rfl : z = x := by simpa using hx
      have hzn : z ≠ n := fun he => hdone (by simp [he])
      rw [Function.update_of_ne hzn] at hne ⊢
      obtain ⟨b', hb'⟩ := List.exists_mem_of_ne_nil _ hne
      have hAne : A ≠ [] := List.ne_nil_of_mem ((h.mem b').mpr ⟨z, by simp, hb'⟩)
      refine h.head y ?_ z (by simp) hne
      cases ht.placed with
      | gone => exact hy
      | kept => rwa [List.head?_append_of_ne_nil _ hAne] at hy
      | split hXY hX =>
          rw [List.head?_append_of_ne_nil _ (hX hAne)] at hy
          rwa [hXY, List.head?_append_of_ne_nil _ (hX hAne)]

/-- **A turn keeps the invariant.** -/
lemma turn {Q A' a b : List Word}
    (h : Cutting s₀ s u w e root own₀ lo hi done (n :: rest) A own f c)
    (hc : MayTurn s u A n lo hi c) (hnd : (done ++ n :: rest).Nodup)
    (hroot : root = n → lo ≤ s₀.getLo n → s₀.getHi n ≤ hi →
      ∀ x ∈ rest, lo ≤ s₀.getLo x ∧ s₀.getHi x ≤ hi)
    (ht : Turned s s' u A (rest ++ w) e n own lo hi c c' Q A' a b)
    (hcur : c'.n = (rest ++ w ++ [e]).head (by simp)) :
    Cutting s₀ s' u w e root own₀ lo hi (done ++ [n]) rest A'
      (Function.update own (s.getTid n) (a ++ Q ++ b)) (Function.update f n Q) c' := by
  have hn := h.same n (by simp)
  have hdone : n ∉ done := fun hd => (List.nodup_append.mp hnd).2.2 n hd n (by simp) rfl
  refine ⟨?_, fun x hx => ?_, ht.turn.iospace.trans h.iospace, h.turned_pieces hdone ht,
    h.turned_mem hdone ht, h.turned_lists hdone ht, ?_, (h.turned_rootDepth ht).trans h.rootDepth,
    fun hr => ?_, fun hu _ hA' => ?_, fun y hy x hx hne => h.turned_head hdone ht hy hx hne, hcur⟩
  · have := ht.db
    rw [List.append_assoc] at this ⊢
    exact this
  · have h1 := h.same x (by
      simp only [List.mem_append, List.mem_cons] at hx ⊢
      tauto)
    have h2 := h.turned_words ht (x := x) (by
      simp only [List.mem_append, List.mem_cons] at hx ⊢
      tauto) (h.turned_outside x hx)
    exact ⟨h2.1.trans h1.1, h2.2.trans h1.2⟩
  · -- the split mark
    rcases ht.marked with h1 | ⟨h1, h2, h3⟩ | ⟨h1, h2, h3, h4⟩
    · exact .inl h1
    · rcases h.mark with h4 | ⟨h4, D₁, m, D₂, h5, h6, h7, h8⟩
      · rw [h4] at h1
        exact absurd h1 (BitVec.not_lt.mpr (BitVec.le_of_lt IoNode.getDepth_lt))
      · refine .inr ⟨?_, D₁, m, D₂ ++ [n], by rw [h5]; simp, h6.trans h2.symm, fun z hz => ?_, h8⟩
        · rcases h3 with h3 | h3
          · rw [h3]
            exact ht.placed.mem.mpr (.inl h4)
          · exact h3
        · rcases List.mem_append.mp hz with hz | hz
          · exact h7 z hz
          · obtain rfl : z = n := by simpa using hz
            rw [← h6, hn.depth] at h1
            exact BitVec.lt_def.mp h1
    · refine .inr ⟨h4, done, n, [], by simp, ?_, by simp, ?_, ?_⟩
      · rw [h3, hn.depth]
      · rwa [← hn.getLo]
      · rwa [← hn.getHi]
  · intro x hx
    by_cases hwhole : lo ≤ s.getLo n ∧ s.getHi n ≤ hi
    · rcases ((ht.turn.whole hwhole.1 hwhole.2).2.1 root).mp hr with hr' | hr'
      · rw [hn.getLo, hn.getHi] at hwhole
        exact hroot hr' hwhole.1 hwhole.2 x hx
      · exact h.rootFree hr' x (List.mem_cons_of_mem _ hx)
    · exact h.rootFree ((ht.turn.stays hwhole).2 root hr) x (List.mem_cons_of_mem _ hx)
  · have hAnil : A = [] := by
      refine List.eq_nil_iff_forall_not_mem.mpr fun y hy => ?_
      have := ht.placed.mem.mpr (.inl hy)
      simp [hA'] at this
    have hno := (hc.notFirst (by simp [hu, hAnil])).1
    have := ht.placed.mem.mpr (.inr (ht.turn.stays hno).1)
    simp [hA'] at this

lemma sameNodes (h : Cutting s₀ s u w e root own₀ lo hi done rest A own f c) (hs : SameNodes s s') :
    Cutting s₀ s' u w e root own₀ lo hi done rest A own f c := by
  have hlo : s'.getLo = s.getLo := by
    funext x
    rw [IoMdb.getLo, hs.node, IoMdb.getLo]
  have hhi : s'.getHi = s.getHi := by
    funext x
    rw [IoMdb.getHi, hs.node, IoMdb.getHi]
  have htid : s'.getTid = s.getTid := by
    funext x
    rw [IoMdb.getTid, hs.node, IoMdb.getTid]
  have hdepth : s'.getDepth = s.getDepth := by
    funext x
    rw [IoMdb.getDepth, hs.node, IoMdb.getDepth]
  have hp := h.pieces
  refine ⟨h.db.sameLinks hs.links, fun x hx => ?_, hs.iospace.trans h.iospace,
    ⟨hp.out, ?_, ?_, ?_, ?_, fun x hx i hi' => ?_⟩, h.mem, h.lists, h.mark, ?_, ?_,
    h.first, h.head, h.cur⟩
  · rw [SameWords, hs.node]
    exact h.same x hx
  · rw [htid]
    exact hp.tid
  · rw [hdepth]
    exact hp.depth
  · rw [hlo, hhi]
    exact hp.nonempty
  · rw [hlo, hhi]
    exact hp.avoids
  · simp only [IoMdb.Covers, hlo, hhi]
    exact hp.covers x hx i hi'
  · rw [hs.node]
    exact h.rootDepth
  · rw [hs.free]
    exact h.rootFree

/-- **The loop of `unmap_subtree`** deals with all the nodes that are deeper than the root, and with
the root itself if it starts there. -/
lemma unmapLoop {lo hi : Word} {k : Nat} {flag : Bool}
    (h : Cutting s₀ s u w e root own₀ lo.toNat hi.toNat done rest A own f c)
    (hc : MayCut s₀ u (done ++ rest) lo.toNat hi.toNat) (hnd : (done ++ rest).Nodup)
    (hle : lo.toNat ≤ hi.toNat) (hroot : root ≠ 0)
    (hnest : ∀ x ∈ done ++ rest, s₀.getLo root ≤ s₀.getLo x ∧ s₀.getHi x ≤ s₀.getHi root)
    (hend : ∀ x ∈ (w ++ [e]).head?, s₀.getDepth x ≤ s₀.getDepth root)
    (hdeep : ∀ x ∈ rest, s₀.getDepth root < s₀.getDepth x ∨ (flag = true ∧ x ∈ rest.head?))
    (hflag : flag = true → rest ≠ []) (hk : rest.length < k) :
    Meets (Hazelnut.Io.unmapLoop root lo hi k flag c s) fun _ s' => ∃ A' own' f' c',
      Cutting s₀ s' u w e root own₀ lo.toNat hi.toNat (done ++ rest) [] A' own' f' c' := by
  induction rest generalizing s done A own f c k flag with
  | nil =>
      obtain ⟨k, rfl⟩ : ∃ j, k = j + 1 := ⟨k - 1, by simp at hk; omega⟩
      obtain rfl : flag = false := by
        cases flag with
        | false => rfl
        | true => exact absurd rfl (hflag rfl)
      have hmem : c.n ∈ u ++ A ++ ([] ++ w) ++ [e] := by
        rw [h.cur]
        have hin := List.head_mem (l := [] ++ w ++ [e]) (by simp)
        simp only [List.mem_append] at hin ⊢
        tauto
      have hwords := h.same c.n (by
        rw [h.cur]
        have hin := List.head_mem (l := [] ++ w ++ [e]) (by simp)
        simp only [List.mem_append] at hin ⊢
        tauto)
      obtain ⟨s₁, h1, hs₁⟩ := deref_ok (s := s) hroot
      have hno : ¬ ((s.node c.n).getDepth > (s.node root).getDepth ∨ false = true) := by
        rintro (hgt | hf)
        · have hhead : c.n ∈ (w ++ [e]).head? := by
            rw [h.cur, Option.mem_def]
            exact List.head?_eq_some_head _
          have hd := hend c.n hhead
          rw [hwords.depth, h.rootDepth] at hgt
          exact absurd (BitVec.lt_def.mp hgt) (Nat.not_lt.mpr hd)
        · simp at hf
      rw [Hazelnut.Io.unmapLoop, bind_ok (deref_live (h.db.tree.live c.n hmem)),
        bind_ok h1, if_neg hno]
      exact Meets.ok ⟨A, own, f, c, by simpa using h.sameNodes hs₁⟩
  | cons n rest ih =>
      obtain ⟨k, rfl⟩ : ∃ j, k = j + 1 := ⟨k - 1, by simp at hk; omega⟩
      have hcn : c.n = n := by simpa using h.cur
      have hwords := h.same n (by simp)
      have hlive : Live s c.n := hcn ▸ h.db.tree.live n (by simp)
      obtain ⟨s₁, h1, hs₁⟩ := deref_ok (s := s) hroot
      have hyes : (s.node c.n).getDepth > (s.node root).getDepth ∨ flag = true := by
        rcases hdeep n (by simp) with hd | ⟨hf, -⟩
        · refine .inl (BitVec.lt_def.mpr ?_)
          rw [hcn, hwords.depth, h.rootDepth]
          exact hd
        · exact .inr hf
      rw [Hazelnut.Io.unmapLoop, bind_ok (deref_live hlive), bind_ok h1, if_pos hyes]
      have h' := h.sameNodes hs₁
      have hmay := h'.mayTurn hc
      have hdb := h'.db
      refine Meets.bind ((hdb.unmapNode hcn hle hmay).mono fun c' s' hc' => ?_)
      obtain ⟨hcur, Q, A', a, b, ht⟩ := hc'
      have hnext := h'.turn hmay hnd (fun hr h2 h3 x hx => ?_) ht hcur
      · have hlist : done ++ n :: rest = done ++ [n] ++ rest := by simp
        rw [hlist] at hc hnd hnest ⊢
        refine ih hnext hc hnd hnest (fun x hx => ?_) (by simp) (by simp at hk; omega)
        rcases hdeep x (List.mem_cons_of_mem _ hx) with hd | ⟨-, hx'⟩
        · exact .inl hd
        · obtain rfl : n = x := by simpa using hx'
          have hnotin := (List.nodup_append.mp hnd).2.2 n (by simp) n hx
          exact absurd rfl hnotin
      · subst hr
        have := hnest x (by simp [hx])
        omega

end Cutting

/-! ### The whole of `unmap_subtree` -/

/-- The nodes `V` between `u` and `w` have been replaced by their pieces `A`. -/
structure CutOff (s s' : IoMdb) (u V w : List Word) (e : Word) (own : Word → List Word)
    (lo hi : Nat)
    (A : List Word) (own' : Word → List Word) (f : Word → List Word) : Prop where
  db : Db s' (u ++ A ++ w) e own'
  same : ∀ x ∈ u ++ w ++ [e], SameWords s s' x
  iospace : s'.iospace = s.iospace
  pieces : Pieces s s' V lo hi f
  mem : ∀ y, y ∈ A ↔ ∃ x ∈ V, y ∈ f x
  lists : ∀ t, own' t = (own t).flatMap f
  head : ∀ y ∈ A.head?, ∀ x ∈ V.head?, f x ≠ [] → y ∈ f x

/-- At the start nothing has been done. -/
lemma Cutting.start (h : Db s (u ++ (V ++ w)) e own) (hroot : root ∉ s.free) (sd : Word) :
    Cutting s s u w e root own lo hi [] V [] own (fun x => [x])
      ⟨(V ++ w ++ [e]).head (by simp), iomdbSupDepth, sd⟩ where
  db := by simpa using h
  same _ _ := ⟨rfl, rfl⟩
  iospace := rfl
  pieces := ⟨fun _ _ => rfl, by simp, by simp, by simp, by simp, by simp⟩
  mem := by simp
  lists t := by simp
  mark := .inl rfl
  rootDepth := rfl
  rootFree hr := absurd hr hroot
  first _ hd := absurd rfl hd
  head := by simp
  cur := rfl

lemma Cutting.cutOff (h : Cutting s₀ s u w e root own₀ lo hi V [] A own f c) :
    CutOff s₀ s u V w e own₀ lo hi A own f :=
  ⟨by simpa using h.db, by simpa using h.same, h.iospace, h.pieces, h.mem, h.lists, h.head⟩

/-- **`unmap_subtree`**, with `V` the nodes it deals with: those below the root, and the root itself
if the flag for the own space is set. -/
theorem Db.unmapSubtree {lo hi mapmask : Word} {B : List Word} {k : Nat}
    (h : Db s (u ++ root :: (B ++ w)) e own) (hB : ∀ x ∈ B, s.getDepth root < s.getDepth x)
    (hend : ∀ x ∈ (w ++ [e]).head?, s.getDepth x ≤ s.getDepth root)
    (hnest : ∀ x ∈ B, s.getLo root ≤ s.getLo x ∧ s.getHi x ≤ s.getHi root)
    (hle : lo.toNat ≤ hi.toNat) (hk : B.length + 1 < k) {u' V : List Word}
    (hV : if mapmask &&& flushOwnSpace ≠ 0 then u' = u ∧ V = root :: B
      else u' = u ++ [root] ∧ V = B)
    (hc : MayCut s u' V lo.toNat hi.toNat) :
    Meets (Hazelnut.Io.unmapSubtree k root lo hi mapmask s) fun _ s' => ∃ A own' f,
      CutOff s s' u' V w e own lo.toNat hi.toNat A own' f := by
  have hrootl : Live s root := h.live (by simp)
  have hnd : (root :: B).Nodup := by
    have hnd := h.tree.nodup
    have hsub : (root :: B).Sublist (u ++ root :: (B ++ w) ++ [e]) := by
      refine List.Sublist.trans ?_ (List.sublist_append_left _ _)
      refine List.Sublist.trans ?_ (List.sublist_append_right _ _)
      exact (List.sublist_append_left B w).cons_cons root
    exact hnd.sublist hsub
  unfold Hazelnut.Io.unmapSubtree
  by_cases hm : mapmask &&& flushOwnSpace ≠ 0
  · rw [if_pos hm] at hV
    obtain ⟨rfl, rfl⟩ := hV
    simp only [hm, not_false_eq_true, decide_true, if_true, ne_eq]
    have hstart : Cutting s s u' w e root own lo.toNat hi.toNat [] (root :: B) [] own (fun x => [x])
        ⟨root, iomdbSupDepth, 0⟩ := Cutting.start (by simpa using h) hrootl.2 0
    refine (hstart.unmapLoop (by simpa using hc) hnd hle hrootl.1 (fun x hx => ?_) hend
      (fun x hx => ?_) (by simp) (by simpa using hk)).mono fun _ s' hs' => ?_
    · rcases List.mem_cons.mp (by simpa using hx) with rfl | hx
      · exact ⟨Nat.le_refl _, Nat.le_refl _⟩
      · exact hnest x hx
    · rcases List.mem_cons.mp hx with rfl | hx
      · exact .inr (by simp)
      · exact .inl (hB x hx)
    · obtain ⟨A, own', f, c', hcut⟩ := hs'
      exact ⟨A, own', f, hcut.cutOff⟩
  · rw [if_neg hm] at hV
    obtain ⟨rfl, rfl⟩ := hV
    have hstart : Cutting s s (u ++ [root]) w e root own lo.toNat hi.toNat [] V [] own
      (fun x => [x])
        ⟨(V ++ w ++ [e]).head (by simp), iomdbSupDepth, 0⟩ :=
      Cutting.start (by simpa using h) hrootl.2 0
    have hnext : (s.node root).next = (V ++ w ++ [e]).head (by simp) := by
      obtain ⟨q, v', hq⟩ : ∃ q v', V ++ w ++ [e] = q :: v' := by
        cases V <;> cases w <;> exact ⟨_, _, rfl⟩
      have htree := h.tree
      have hlist : u ++ root :: (V ++ w) ++ [e] = u ++ root :: q :: v' := by
        rw [← hq]
        simp
      rw [hlist] at htree
      rw [htree.links.1]
      simp [hq]
    have hm' : mapmask &&& flushOwnSpace = 0 := not_not.mp hm
    simp only [hm', ne_eq, not_true, decide_false, Bool.false_eq_true, if_false]
    rw [bind_ok (deref_live hrootl), hnext]
    refine (hstart.unmapLoop (by simpa using hc) (List.nodup_cons.mp hnd).2 hle hrootl.1 hnest hend
      (fun x hx => .inl (hB x hx)) (by simp) (by omega)).mono fun _ s' hs' => ?_
    obtain ⟨A, own', f, c', hcut⟩ := hs'
    exact ⟨A, own', f, hcut.cutOff⟩

end Hazelnut.Io
