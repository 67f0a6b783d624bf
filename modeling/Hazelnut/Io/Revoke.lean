import Hazelnut.Io.Unmap

/-!
Revoking an I/O flexpage.

* `IoMdb.WellFormed`: well-formed I/O mapping databases.
* `MayRevoke`: the nodes in which `unmap_subtree` does what it is meant to do.
* `Revoking`: the invariant of the loop of `unmap_io_fpage` over the nodes of the task, kept by
  `Revoking.step` and `Revoking.skip`.
* `unmapIoFpage_revokes`: exactly what lies below the nodes of the task is revoked.
* `unmapIoFpage_empty_node`: where it goes wrong.
-/

namespace Hazelnut.Io

open Linked Ring DepthList

variable {s₀ s s' : IoMdb} {m n x y z q r t e : Word} {u v w l l₀ V A P todo : List Word}
  {own₀ own own' : Word → List Word} {f : Word → List Word} {lo hi : Nat}

/-! ### Well-formed databases -/

/-- The mapping tree is `l`, with the terminator `e`, and `own` has the nodes of every task: the
nodes of a task are disjoint and in order, and no node reaches out of one it descends from. -/
structure IoMdb.WellFormed (s : IoMdb) (l : List Word) (e : Word) (own : Word → List Word) : Prop
    extends Db s l e own where
  owned : ∀ t, ∀ x ∈ own t, x ∈ l
  nonempty : ∀ x ∈ l, s.getLo x < s.getHi x ∧ s.getHi x ≤ 65536
  sorted : ∀ t, (own t).Pairwise fun x y => s.getHi x ≤ s.getLo y
  nested : ∀ x y, Descends s.getDepth l x y → s.getLo x ≤ s.getLo y ∧ s.getHi y ≤ s.getHi x

/-- `n` is `r` or descends from it. -/
def Under (s : IoMdb) (l : List Word) (r n : Word) : Prop := n = r ∨ Descends s.getDepth l r n

namespace IoMdb.WellFormed

lemma under_nested (h : s.WellFormed l e own) (hx : Under s l r x) :
    s.getLo r ≤ s.getLo x ∧ s.getHi x ≤ s.getHi r := by
  rcases hx with rfl | hx
  · exact ⟨Nat.le_refl _, Nat.le_refl _⟩
  · exact h.nested r x hx

/-- Two nodes of a task have no node below both. -/
lemma under_unique (h : s.WellFormed l e own) (hr : r ∈ own t) (hq : q ∈ own t)
    (hxr : Under s l r x) (hxq : Under s l q x) : r = q := by
  by_contra hne
  have hxl : x ∈ l := by
    rcases hxr with rfl | hx
    · exact h.owned t x hr
    · exact hx.mem.2
  have h1 := h.under_nested hxr
  have h2 := h.under_nested hxq
  have h3 := (h.nonempty x hxl).1
  have hdis : s.getHi r ≤ s.getLo q ∨ s.getHi q ≤ s.getLo r := by
    obtain ⟨a, b, hab⟩ := List.append_of_mem hr
    have hs := h.sorted t
    rw [hab] at hs hq
    obtain ⟨-, hs2, hs3⟩ := List.pairwise_append.mp hs
    rcases List.mem_append.mp hq with hq | hq
    · exact .inr (hs3 q hq r (by simp))
    · rcases List.mem_cons.mp hq with rfl | hq
      · exact absurd rfl hne
      · exact .inl ((List.pairwise_cons.mp hs2).1 q hq)
  omega

end IoMdb.WellFormed

/-! ### The condition -/

/-- The nodes below `r`, and `r` itself if the own space is flushed. -/
def Visits (s : IoMdb) (l : List Word) (flag : Prop) (r n : Word) : Prop :=
  (flag ∧ n = r) ∨ Descends s.getDepth l r n

/-- Where the range ends a node ends in front of it or behind it; the first node of the mapping tree
is neither freed nor split; and below a node that is split no node lies in front of the range or
ends in it. -/
structure MayRevoke (s : IoMdb) (l : List Word) (flag : Prop) (r : Word) (lo hi : Nat) : Prop where
  notEnd : ∀ n, Visits s l flag r n → ¬ (s.getLo n < lo ∧ s.getHi n = hi)
  notFirst : flag → l.head? = some r →
    ¬ (lo ≤ s.getLo r ∧ s.getHi r ≤ hi) ∧ ¬ (s.getLo r < lo ∧ hi < s.getHi r)
  notMoved : ∀ m n, Visits s l flag r m → Descends s.getDepth l m n → s.getLo m < lo →
    hi < s.getHi m → ¬ (s.getLo n < lo ∧ s.getHi n < hi)

/-! ### Pieces of one node -/

namespace Pieces

lemma whole_of_nil (h : Pieces s s' V lo hi f) (hx : x ∈ V) (hne : s.getLo x < s.getHi x)
    (hf : f x = []) : lo ≤ s.getLo x ∧ s.getHi x ≤ hi := by
  have hno : ∀ i, i < lo ∨ hi ≤ i → ¬ s.Covers x i := fun i hi' hc => by
    simpa [hf] using (h.covers x hx i hi').mpr hc
  have h1 := hno (s.getLo x)
  have h2 := hno (s.getHi x - 1)
  simp only [IoMdb.Covers] at h1 h2
  omega

lemma nil_of_whole (h : Pieces s s' V lo hi f) (hx : x ∈ V) (hlo : lo ≤ s.getLo x)
    (hhi : s.getHi x ≤ hi) : f x = [] := by
  refine List.eq_nil_iff_forall_not_mem.mpr fun y hy => ?_
  have h1 := h.nonempty x hx y hy
  have h2 := h.avoids x hx y hy
  have h3 := (h.covers x hx (s'.getLo y) (by omega)).mp ⟨y, hy, by simp only [IoMdb.Covers]; omega⟩
  simp only [IoMdb.Covers] at h3
  omega

end Pieces

/-- The nodes below one node of the tree, as a part of the list. -/
lemma Db.exists_zone (h : Db s l e own) (hq : q ∈ l) : ∃ u B w, l = u ++ q :: (B ++ w) ∧
    (∀ x ∈ B, s.getDepth q < s.getDepth x) ∧ (∀ x ∈ (w ++ [e]).head?, s.getDepth x ≤ s.getDepth q) ∧
      ∀ x, Descends s.getDepth l q x ↔ x ∈ B := by
  obtain ⟨u, v, rfl⟩ := List.append_of_mem hq
  obtain ⟨B, w, rfl, hB, hw⟩ := exists_block s.getDepth (s.getDepth q) v
  have hnd : (u ++ q :: (B ++ w)).Nodup := (List.nodup_append.mp h.tree.nodup).1
  refine ⟨u, B, w, rfl, hB, ?_, fun x => descends_block_iff hnd hB hw⟩
  cases w with
  | nil =>
      intro x hx
      obtain rfl : e = x := by simpa using hx
      have h0 : s.getDepth e = 0 := by rw [IoMdb.getDepth, h.terminator]; rfl
      omega
  | cons c w => simpa using hw

/-! ### The loop over the nodes of the task -/

/-- **The loop invariant of `unmap_io_fpage`.**  Of the nodes of task `t`, those in `P` have been
dealt with or are pieces of such; at and below those in `todo` nothing has changed. -/
structure Revoking (s₀ s : IoMdb) (l₀ l : List Word) (e : Word) (own₀ own : Word → List Word)
    (t : Word) (flag : Prop) (lo hi : Nat) (P todo : List Word) : Prop where
  db : Db s l e own
  iospace : s.iospace = s₀.iospace
  owned : ∀ t, ∀ x ∈ own t, x ∈ l
  nonempty : ∀ x ∈ l, s.getLo x < s.getHi x ∧ s.getHi x ≤ 65536
  lists : own t = P ++ todo
  tail : ∃ d, own₀ t = d ++ todo
  same : ∀ r ∈ todo, ∀ x, Under s₀ l₀ r x → SameWords s₀ s x
  desc : ∀ r ∈ todo, ∀ m, Under s₀ l₀ r m →
    ∀ n, Descends s.getDepth l m n ↔ Descends s₀.getDepth l₀ m n
  first : ∀ r ∈ todo, l.head? = some r → l₀.head? = some r
  covers : ∀ t i, i < lo ∨ hi ≤ i →
    ((∃ x ∈ own t, s.Covers x i) ↔ ∃ x ∈ own₀ t, s₀.Covers x i)
  inside : ∀ t' x i, lo ≤ i → i < hi → ((x ∈ own t' ∧ s.Covers x i) ↔ x ∈ own₀ t' ∧ s₀.Covers x i ∧
    ¬∃ r ∈ own₀ t, r ∉ todo ∧ Visits s₀ l₀ flag r x)
  done : ∀ x ∈ P, ∀ y, Descends s.getDepth l x y → s.getHi y ≤ lo ∨ hi ≤ s.getLo y

/-- The nodes `V` below `q`, with `q` itself if the own space is flushed. -/
structure Zone (s : IoMdb) (l : List Word) (e : Word) (flag : Prop) (q : Word)
    (u V w : List Word) : Prop where
  eq : l = u ++ (V ++ w)
  mem : ∀ x, x ∈ V ↔ Visits s l flag q x
  deep : ∀ x ∈ V, s.getDepth q ≤ s.getDepth x
  behind : ∀ x ∈ (w ++ [e]).head?, s.getDepth x ≤ s.getDepth q
  front : (flag ∧ V.head? = some q) ∨ (¬flag ∧ ∃ u', u = u' ++ [q])

variable {flag : Prop}

lemma Zone.outside (h : Zone s l e flag q u V w) (hx : x ∈ l) (hxV : x ∉ V) : x ∈ u ++ w := by
  rw [h.eq] at hx
  simp only [List.mem_append] at hx ⊢
  tauto

/-- A node that all before the zone lies below has the root of the zone below it. -/
lemma Zone.descends (h : Zone s l e flag q u V w) (ho : Opens s.getDepth u m) (hne : m ≠ q)
    (hdeep : flag → s.getDepth m < s.getDepth q) : Descends s.getDepth l m q := by
  rcases h.front with ⟨hf, hhead⟩ | ⟨-, u', rfl⟩
  · obtain ⟨B, rfl⟩ := List.head?_eq_some_iff.mp hhead
    rw [h.eq]
    exact descends_append.mpr (.inr (.inr ⟨ho, [], B ++ w, rfl, hdeep hf, by simp⟩))
  · obtain ⟨a, b, hab, hb⟩ := ho
    rcases List.eq_nil_or_concat b with rfl | ⟨b', z, rfl⟩
    · exact absurd (by simpa using hab : u' = a ∧ q = m).2.symm hne
    · obtain ⟨rfl, rfl⟩ : u' = a ++ m :: b' ∧ q = z := by
        have h1 : u' ++ [q] = (a ++ m :: b') ++ [z] := by simpa using hab
        exact ⟨List.append_inj_left' h1 rfl, by simpa using List.append_inj_right' h1 rfl⟩
      rw [h.eq]
      exact ⟨a, b', V ++ w, by simp, hb q (by simp), fun x hx => hb x (by simp [hx])⟩

namespace Revoking

/-- At the start. -/
lemma start (h : s₀.WellFormed l₀ e own₀) :
    Revoking s₀ s₀ l₀ l₀ e own₀ own₀ t flag lo hi [] (own₀ t) where
  db := h.toDb
  iospace := rfl
  owned := h.owned
  nonempty := h.nonempty
  lists := rfl
  tail := ⟨[], rfl⟩
  same _ _ _ _ := ⟨rfl, rfl⟩
  desc _ _ _ _ _ := Iff.rfl
  first _ _ := id
  covers _ _ _ := Iff.rfl
  inside t' x i _ _ := by
    refine ⟨fun ⟨h1, h2⟩ => ⟨h1, h2, fun ⟨r, hr, hr', _⟩ => hr' hr⟩, fun ⟨h1, h2, _⟩ => ⟨h1, h2⟩⟩
  done := by simp

section first

variable (h : Revoking s₀ s l₀ l e own₀ own t flag lo hi P (q :: todo))
    (hwf : s₀.WellFormed l₀ e own₀)
include h

lemma mem_own {r : Word} (hr : r ∈ q :: todo) : r ∈ own₀ t := by
  obtain ⟨d, hd⟩ := h.tail
  rw [hd]
  exact List.mem_append_right _ hr

lemma notMem_todo : q ∉ todo := by
  have hnd := h.db.tasks.nodup t
  rw [ringOf, h.lists] at hnd
  have h1 := (List.nodup_append.mp (List.nodup_cons.mp hnd).2).2.1
  exact (List.nodup_cons.mp h1).1

lemma notMem_done : q ∉ P := fun hq => by
  have hnd := h.db.tasks.nodup t
  rw [ringOf, h.lists] at hnd
  exact (List.nodup_append.mp (List.nodup_cons.mp hnd).2).2.2 q hq q (by simp) rfl

lemma mem_tree {r : Word} (hr : r ∈ q :: todo) {x : Word} (hx : Under s₀ l₀ r x) : x ∈ l := by
  rcases hx with rfl | hx
  · exact h.owned t x (h.lists ▸ List.mem_append_right _ hr)
  · exact ((h.desc r hr r (.inl rfl) x).mpr hx).mem.2

/-- `q` has been dealt with, too. -/
lemma dealt_iff (x : Word) : (∃ r ∈ own₀ t, r ∉ todo ∧ Visits s₀ l₀ flag r x) ↔
    (∃ r ∈ own₀ t, r ∉ q :: todo ∧ Visits s₀ l₀ flag r x) ∨ Visits s₀ l₀ flag q x := by
  constructor
  · rintro ⟨r, hr, hr', hx⟩
    by_cases hrq : r = q
    · exact .inr (hrq ▸ hx)
    · exact .inl ⟨r, hr, by simp [hrq, hr'], hx⟩
  · rintro (⟨r, hr, hr', hx⟩ | hx)
    · exact ⟨r, hr, fun hm => hr' (List.mem_cons_of_mem _ hm), hx⟩
    · exact ⟨q, h.mem_own (by simp), h.notMem_todo, hx⟩

include hwf

/-- A node that the range does not meet. -/
lemma skip (hq : s₀.getHi q ≤ lo ∨ hi ≤ s₀.getLo q) :
    Revoking s₀ s l₀ l e own₀ own t flag lo hi (P ++ [q]) todo := by
  have havoid : ∀ y, Under s₀ l₀ q y → s₀.getHi y ≤ lo ∨ hi ≤ s₀.getLo y := fun y hy => by
    have h1 := hwf.under_nested hy
    omega
  refine ⟨h.db, h.iospace, h.owned, h.nonempty, by simpa using h.lists, ?_,
    fun r hr => h.same r (List.mem_cons_of_mem _ hr), fun r hr =>
    h.desc r (List.mem_cons_of_mem _ hr),
    fun r hr => h.first r (List.mem_cons_of_mem _ hr), h.covers,
      fun t' x i h1 h2 => ?_, fun x hx y hy => ?_⟩
  · obtain ⟨d, hd⟩ := h.tail
    exact ⟨d ++ [q], by simpa using hd⟩
  · rw [h.inside t' x i h1 h2, h.dealt_iff]
    refine and_congr_right fun _ => and_congr_right fun hc => ?_
    rw [not_or]
    refine ⟨fun hno => ⟨hno, fun hv => ?_⟩, fun hno => hno.1⟩
    have hx : Under s₀ l₀ q x := hv.imp (fun hv => hv.2) id
    have h3 := havoid x hx
    simp only [IoMdb.Covers] at hc
    omega
  · rcases List.mem_append.mp hx with hx | hx
    · exact h.done x hx y hy
    · obtain rfl : x = q := by simpa using hx
      have hy' : Under s₀ l₀ x y := .inr ((h.desc x (by simp) x (.inl rfl) y).mp hy)
      have hwords := h.same x (by simp) y hy'
      rw [hwords.getHi, hwords.getLo]
      exact havoid y hy'

end first

end Revoking

/-! ### One node of the task -/

lemma flatMap_of_out {l : List Word} (h : ∀ x ∈ l, f x = [x]) : l.flatMap f = l := by
  induction l with
  | nil => rfl
  | cons a l ih =>
      rw [List.flatMap_cons, h a (by simp), ih fun x hx => h x (by simp [hx])]
      rfl

namespace IoMdb.WellFormed

lemma nodup (h : s.WellFormed l e own) : l.Nodup := (List.nodup_append.mp h.tree.nodup).1

lemma under_trans (h : s.WellFormed l e own) (hx : Under s l r m) (hd : Descends s.getDepth l m n) :
    Under s l r n := by
  rcases hx with rfl | hx
  · exact .inr hd
  · exact .inr (hx.trans h.nodup hd)

end IoMdb.WellFormed

namespace CutOff

variable {own' : Word → List Word}

lemma mem_own (h : CutOff s s' u V w e own lo hi A own' f) : x ∈ own' t ↔ ∃ z ∈ own t, x ∈ f z := by
  rw [h.lists, List.mem_flatMap]

lemma words (h : CutOff s s' u V w e own lo hi A own' f) (hx : x ∈ u ++ w) : SameWords s s' x :=
  h.same x (List.mem_append_left _ hx)

/-- The pieces are none of the nodes around them. -/
lemma notMem (h : CutOff s s' u V w e own lo hi A own' f) (hx : x ∈ u ++ w) : x ∉ A := fun hA => by
  have hnd := (List.nodup_append.mp h.db.tree.nodup).1
  obtain ⟨h1, -, h2⟩ := List.nodup_append.mp hnd
  rcases List.mem_append.mp hx with hx | hx
  · exact (List.nodup_append.mp h1).2.2 x hx x hA rfl
  · exact h2 x (List.mem_append_right _ hA) x hx rfl

end CutOff

namespace Revoking

section step

variable {own' : Word → List Word}
  (h : Revoking s₀ s l₀ l e own₀ own t flag lo hi P (q :: todo)) (hwf : s₀.WellFormed l₀ e own₀)
  (hz : Zone s l e flag q u V w) (hcut : CutOff s s' u V w e own lo hi A own' f)

include h

lemma visits_iff : Visits s l flag q x ↔ Visits s₀ l₀ flag q x :=
  or_congr_right (h.desc q (by simp) q (.inl rfl) x)

include hz

lemma under_of_zone (hx : x ∈ V) : Under s₀ l₀ q x :=
  (h.visits_iff.mp ((hz.mem x).mp hx)).imp (fun hv => hv.2) id

lemma notMem_of_outside (hx : x ∈ u ++ w) : x ∉ V := fun hV => by
  have hnd := (List.nodup_append.mp h.db.tree.nodup).1
  rw [hz.eq] at hnd
  obtain ⟨-, h1, h2⟩ := List.nodup_append.mp hnd
  rcases List.mem_append.mp hx with hx | hx
  · exact h2 x hx x (List.mem_append_left _ hV) rfl
  · exact (List.nodup_append.mp h1).2.2 x hV x hx rfl

include hwf in
/-- What is in the zone of `q` is below no other node of the task. -/
lemma notMem_zone (hr : r ∈ todo) (hx : Under s₀ l₀ r x) : x ∉ V := fun hxV => by
  have heq := hwf.under_unique (h.mem_own (List.mem_cons_of_mem _ hr)) (h.mem_own (by simp)) hx
    (h.under_of_zone hz hxV)
  exact h.notMem_todo (heq ▸ hr)

include hwf in
/-- Of the nodes of the task, only `q` is in its zone. -/
lemma own_zone (hx : x ∈ own t) (hxV : x ∈ V) : x = q := by
  have hu := h.under_of_zone hz hxV
  have hwords := h.same q (by simp) x hu
  have hx₀ : x ∈ l₀ := by
    rcases hu with rfl | hu
    · exact hwf.owned t x (h.mem_own (by simp))
    · exact hu.mem.2
  have hown : x ∈ own₀ t := by
    have h1 := hwf.mem x hx₀
    have h2 : s₀.getTid x = t := by
      rw [← hwords.getTid]
      exact h.db.tasks.tid_of_mem hx
    rwa [h2] at h1
  exact hwf.under_unique hown (h.mem_own (by simp)) (.inl rfl) hu

include hcut

/-- Around the zone, descendants are the same. -/
lemma descends_outside (hm : m ∈ u ++ w) (hn : n ∈ u ++ w) :
    Descends s'.getDepth (u ++ A ++ w) m n ↔ Descends s.getDepth l m n := by
  have hwords : ∀ z ∈ u ++ w, s'.getDepth z = s.getDepth z := fun z hz' => (hcut.words hz').getDepth
  have hhead : ∀ z ∈ w.head?, s.getDepth z ≤ s.getDepth q := fun z hz' => by
    refine hz.behind z ?_
    rw [List.head?_append, Option.mem_def.mp hz']
    rfl
  rw [List.append_assoc, hz.eq]
  constructor
  · intro hd
    refine hd.replace (fun z hz' => (hwords z hz').symm) (hcut.notMem hm) (hcut.notMem hn) hz.deep
      fun z hz' => ?_
    rw [hwords z (List.mem_append_right _ (List.mem_of_mem_head? hz'))]
    exact hhead z hz'
  · intro hd
    refine hd.replace hwords (h.notMem_of_outside hz hm) (h.notMem_of_outside hz hn)
      (fun z hz' => ?_) hhead
    obtain ⟨x, hx, hzx⟩ := (hcut.mem z).mp hz'
    rw [hcut.pieces.depth x hx z hzx]
    exact hz.deep x hx

include hwf in
/-- If a piece is left, one of `q` is. -/
lemma pieces_ne_nil (hq : q ∈ V) (hn : n ∈ A) : f q ≠ [] := fun hnil => by
  have hql : q ∈ l := h.mem_tree (by simp) (.inl rfl)
  have hwhole := hcut.pieces.whole_of_nil hq (h.nonempty q hql).1 hnil
  obtain ⟨x, hx, hnx⟩ := (hcut.mem n).mp hn
  have hu := h.under_of_zone hz hx
  have hnest := hwf.under_nested hu
  have hw1 := h.same q (by simp) q (.inl rfl)
  have hw2 := h.same q (by simp) x hu
  rw [hw1.getLo, hw1.getHi] at hwhole
  have hx' := hcut.pieces.nil_of_whole hx (by rw [hw2.getLo]; omega) (by rw [hw2.getHi]; omega)
  simp [hx'] at hnx

include hwf in
/-- Above a piece of the zone is only what is above `q`. -/
lemma descends_of_piece (hm : m ∈ u ++ w) (hne : m ≠ q) (hn : n ∈ A)
    (hd : Descends s'.getDepth (u ++ A ++ w) m n) : Descends s.getDepth l m q := by
  have hmA := hcut.notMem hm
  have hnout : n ∉ u ++ w := fun hout => hcut.notMem hout hn
  rw [List.append_assoc] at hd
  rcases descends_append.mp hd with hd | hd | ⟨ho, hr⟩
  · exact absurd (List.mem_append_left w hd.mem.2) hnout
  · rcases descends_append.mp hd with hd | hd | ⟨ho, -⟩
    · exact absurd hd.mem.1 hmA
    · exact absurd (List.mem_append_right u hd.mem.2) hnout
    · exact absurd ho.mem hmA
  · have ho' : Opens s.getDepth u m :=
      ho.congr fun z hz' => (hcut.words (List.mem_append_left w hz')).getDepth.symm
    refine hz.descends ho' hne fun hf => ?_
    obtain ⟨a, A', rfl⟩ : ∃ a A', A = a :: A' := List.exists_cons_of_ne_nil (List.ne_nil_of_mem hn)
    obtain ⟨z, hz', hlt⟩ := hr.head
    obtain rfl : a = z := by simpa using hz'
    have hq : V.head? = some q := by
      rcases hz.front with ⟨-, hq⟩ | ⟨hno, -⟩
      · exact hq
      · exact absurd hf hno
    have hqV : q ∈ V := List.mem_of_mem_head? hq
    have ha := hcut.head a (by simp) q hq (h.pieces_ne_nil hwf hz hcut hqV hn)
    rw [hcut.pieces.depth q hqV a ha, (hcut.words hm).getDepth] at hlt
    exact hlt

include hwf in
lemma step_desc (hr : r ∈ todo) (hm : Under s₀ l₀ r m) (n : Word) :
    Descends s'.getDepth (u ++ A ++ w) m n ↔ Descends s₀.getDepth l₀ m n := by
  have hr' : r ∈ q :: todo := List.mem_cons_of_mem _ hr
  have hmout := hz.outside (h.mem_tree hr' hm) (h.notMem_zone hwf hz hr hm)
  have hnq : ¬Under s₀ l₀ r q := fun hrq => by
    have heq := hwf.under_unique (h.mem_own hr') (h.mem_own (by simp)) hrq (.inl rfl)
    exact h.notMem_todo (heq ▸ hr)
  rw [← h.desc r hr' m hm n]
  constructor
  · intro hd
    have hn := hd.mem.2
    by_cases hnA : n ∈ A
    · have hne : m ≠ q := fun he => hnq (he ▸ hm)
      have hmq := (h.desc r hr' m hm q).mp (h.descends_of_piece hwf hz hcut hmout hne hnA hd)
      exact absurd (hwf.under_trans hm hmq) hnq
    · have hnout : n ∈ u ++ w := by
        simp only [List.mem_append] at hn ⊢
        tauto
      exact (h.descends_outside hz hcut hmout hnout).mp hd
  · intro hd
    have hu := hwf.under_trans hm ((h.desc r hr' m hm n).mp hd)
    have hnout := hz.outside hd.mem.2 (h.notMem_zone hwf hz hr hu)
    exact (h.descends_outside hz hcut hmout hnout).mpr hd

include hwf in
lemma step_done (hx : x ∈ P ++ f q) (hd : Descends s'.getDepth (u ++ A ++ w) x y) :
    s'.getHi y ≤ lo ∨ hi ≤ s'.getLo y := by
  by_cases hyA : y ∈ A
  · obtain ⟨z, hz', hyz⟩ := (hcut.mem y).mp hyA
    exact hcut.pieces.avoids z hz' y hyz
  have hyout : y ∈ u ++ w := by
    have hy := hd.mem.2
    simp only [List.mem_append] at hy ⊢
    tauto
  rcases List.mem_append.mp hx with hx | hx
  · have hxo : x ∈ own t := h.lists ▸ List.mem_append_left _ hx
    have hxV : x ∉ V := fun hV => h.notMem_done (h.own_zone hwf hz hxo hV ▸ hx)
    have hxout := hz.outside (h.owned t x hxo) hxV
    have hwords := hcut.words hyout
    rw [hwords.getHi, hwords.getLo]
    exact h.done x hx y ((h.descends_outside hz hcut hxout hyout).mp hd)
  by_cases hqV : q ∈ V
  · -- behind the zone nothing is below `q`
    have hxA : x ∈ A := (hcut.mem x).mpr ⟨q, hqV, hx⟩
    have hxout : x ∉ u ++ w := fun hout => hcut.notMem hout hxA
    rw [List.append_assoc] at hd
    rcases descends_append.mp hd with hd | hd | ⟨ho, -⟩
    · exact absurd (List.mem_append_left w hd.mem.1) hxout
    · rcases descends_append.mp hd with hd | hd | ⟨-, hr⟩
      · exact absurd hd.mem.2 hyA
      · exact absurd (List.mem_append_right u hd.mem.1) hxout
      · obtain ⟨z, hz', hlt⟩ := hr.head
        have hzw : z ∈ u ++ w := List.mem_append_right _ (List.mem_of_mem_head? hz')
        have hbehind : s.getDepth z ≤ s.getDepth q := by
          refine hz.behind z ?_
          rw [List.head?_append, Option.mem_def.mp hz']
          rfl
        rw [hcut.pieces.depth q hqV x hx, (hcut.words hzw).getDepth] at hlt
        omega
    · exact absurd (List.mem_append_left w ho.mem) hxout
  · rw [hcut.pieces.out q hqV, List.mem_singleton] at hx
    subst hx
    have hxout := hz.outside (h.mem_tree (by simp) (.inl rfl)) hqV
    have hyV := (hz.mem y).mpr (.inr ((h.descends_outside hz hcut hxout hyout).mp hd))
    exact absurd hyV (h.notMem_of_outside hz hyout)

include hwf in
/-- **One node of the task** is dealt with. -/
lemma step (hfirst : u = [] → ¬(lo ≤ s.getLo q ∧ s.getHi q ≤ hi)) :
    Revoking s₀ s' l₀ (u ++ A ++ w) e own₀ own' t flag lo hi (P ++ f q) todo := by
  have hout : ∀ {x t'}, x ∈ own t' → x ∉ V → x ∈ u ++ w :=
    fun hx hxV => hz.outside (h.owned _ _ hx) hxV
  have htodo : ∀ r ∈ todo, r ∉ V := fun r hr => h.notMem_zone hwf hz hr (.inl rfl)
  have hkeep : ∀ r ∈ todo, r ∈ own t := fun r hr => by
    rw [h.lists]
    simp [hr]
  refine ⟨hcut.db, hcut.iospace.trans h.iospace, fun t' x hx => ?_, fun x hx => ?_, ?_, ?_,
    fun r hr x hx => ?_,
    fun r hr m hm n => h.step_desc hwf hz hcut hr hm n, fun r hr hhead => ?_, fun t' i hi' => ?_,
    fun t' x i h1 h2 => ?_, fun x hx y hy => h.step_done hwf hz hcut hx hy⟩
  · obtain ⟨z, hzo, hxz⟩ := hcut.mem_own.mp hx
    by_cases hzV : z ∈ V
    · have hxA := (hcut.mem x).mpr ⟨z, hzV, hxz⟩
      simp [hxA]
    · rw [hcut.pieces.out z hzV, List.mem_singleton] at hxz
      have h1 := hout hzo hzV
      rw [← hxz] at h1
      simp only [List.mem_append] at h1 ⊢
      tauto
  · by_cases hxA : x ∈ A
    · obtain ⟨z, hzV, hxz⟩ := (hcut.mem x).mp hxA
      have h1 := hcut.pieces.nonempty z hzV x hxz
      have h2 := h.nonempty z (by rw [hz.eq]; simp [hzV])
      omega
    · have hxout : x ∈ u ++ w := by
        simp only [List.mem_append] at hx ⊢
        tauto
      have hwords := hcut.words hxout
      rw [hwords.getLo, hwords.getHi]
      refine h.nonempty x ?_
      rw [hz.eq]
      simp only [List.mem_append] at hxout ⊢
      tauto
  · have hP : ∀ x ∈ P, f x = [x] := fun x hx => hcut.pieces.out x fun hV => by
      have heq := h.own_zone hwf hz (h.lists ▸ List.mem_append_left _ hx) hV
      exact h.notMem_done (heq ▸ hx)
    rw [hcut.lists, h.lists, List.flatMap_append, List.flatMap_cons, flatMap_of_out hP,
      flatMap_of_out fun r hr => hcut.pieces.out r (htodo r hr), List.append_assoc]
  · obtain ⟨d, hd⟩ := h.tail
    exact ⟨d ++ [q], by simpa using hd⟩
  · have hr' : r ∈ q :: todo := List.mem_cons_of_mem _ hr
    have h1 := h.same r hr' x hx
    have h2 := hcut.words (hz.outside (h.mem_tree hr' hx) (h.notMem_zone hwf hz hr hx))
    exact ⟨h2.1.trans h1.1, h2.2.trans h1.2⟩
  · refine h.first r (List.mem_cons_of_mem _ hr) ?_
    rw [hz.eq]
    cases u with
    | cons c u => simpa using hhead
    | nil =>
        have hrA : r ∉ A := hcut.notMem (hout (hkeep r hr) (htodo r hr))
        rcases hz.front with ⟨-, hq⟩ | ⟨-, u', hu'⟩
        · have hqV : q ∈ V := List.mem_of_mem_head? hq
          cases A with
          | cons a A =>
              obtain rfl : a = r := by simpa using hhead
              exact absurd (by simp) hrA
          | nil =>
              have hnil : f q = [] := List.eq_nil_iff_forall_not_mem.mpr fun y hy => by
                simpa using (hcut.mem y).mpr ⟨q, hqV, hy⟩
              have hql : q ∈ l := h.mem_tree (by simp) (.inl rfl)
              exact absurd (hcut.pieces.whole_of_nil hqV (h.nonempty q hql).1 hnil) (hfirst rfl)
        · simp at hu'
  · rw [← h.covers t' i hi']
    constructor
    · rintro ⟨x, hx, hc⟩
      obtain ⟨z, hzo, hxz⟩ := hcut.mem_own.mp hx
      refine ⟨z, hzo, ?_⟩
      by_cases hzV : z ∈ V
      · exact (hcut.pieces.covers z hzV i hi').mp ⟨x, hxz, hc⟩
      · rw [hcut.pieces.out z hzV, List.mem_singleton] at hxz
        exact (hcut.words (hout hzo hzV)).covers.mp (hxz ▸ hc)
    · rintro ⟨z, hzo, hc⟩
      by_cases hzV : z ∈ V
      · obtain ⟨y, hy, hc'⟩ := (hcut.pieces.covers z hzV i hi').mpr hc
        exact ⟨y, hcut.mem_own.mpr ⟨z, hzo, hy⟩, hc'⟩
      · refine ⟨z, hcut.mem_own.mpr ⟨z, hzo, ?_⟩, (hcut.words (hout hzo hzV)).covers.mpr hc⟩
        rw [hcut.pieces.out z hzV]
        simp
  · -- what still covers a port of the range has not been touched
    have hstep : (x ∈ own' t' ∧ s'.Covers x i) ↔ (x ∈ own t' ∧ s.Covers x i) ∧
        ¬Visits s₀ l₀ flag q x := by
      rw [← h.visits_iff, ← hz.mem x]
      constructor
      · rintro ⟨hx, hc⟩
        obtain ⟨z, hzo, hxz⟩ := hcut.mem_own.mp hx
        by_cases hzV : z ∈ V
        · have h3 := hcut.pieces.avoids z hzV x hxz
          simp only [IoMdb.Covers] at hc
          omega
        · rw [hcut.pieces.out z hzV, List.mem_singleton] at hxz
          subst hxz
          exact ⟨⟨hzo, (hcut.words (hout hzo hzV)).covers.mp hc⟩, hzV⟩
      · rintro ⟨⟨hxo, hc⟩, hxV⟩
        refine ⟨hcut.mem_own.mpr ⟨x, hxo, ?_⟩, (hcut.words (hout hxo hxV)).covers.mpr hc⟩
        rw [hcut.pieces.out x hxV]
        simp
    rw [hstep, h.inside t' x i h1 h2, h.dealt_iff, not_or]
    tauto

end step

end Revoking

/-! ### The whole of `unmap_io_fpage` -/

/-- The zone of a node, with the node and without it. -/
lemma Zone.of_flag (hl : l = u ++ q :: (V ++ w)) (hB : ∀ x ∈ V, s.getDepth q < s.getDepth x)
    (hend : ∀ x ∈ (w ++ [e]).head?, s.getDepth x ≤ s.getDepth q)
    (hdesc : ∀ x, Descends s.getDepth l q x ↔ x ∈ V) (hf : flag) : Zone s l e flag q u
      (q :: V) w where
  eq := by simpa using hl
  mem x := by simp [Visits, hdesc, hf]
  deep x hx := by
    rcases List.mem_cons.mp hx with rfl | hx
    · exact le_rfl
    · exact (hB x hx).le
  behind := hend
  front := .inl ⟨hf, rfl⟩

lemma Zone.of_not_flag (hl : l = u ++ q :: (V ++ w)) (hB : ∀ x ∈ V, s.getDepth q < s.getDepth x)
    (hend : ∀ x ∈ (w ++ [e]).head?, s.getDepth x ≤ s.getDepth q)
    (hdesc : ∀ x, Descends s.getDepth l q x ↔ x ∈ V) (hf : ¬flag) :
      Zone s l e flag q (u ++ [q]) V w where
  eq := by simpa using hl
  mem x := by simp [Visits, hdesc, hf]
  deep x hx := (hB x hx).le
  behind := hend
  front := .inr ⟨hf, u, rfl⟩

/-- **The ports from `lo` to `hi` are revoked from task `t`**: in this range exactly the nodes below
those of the task, and these if the flag is set, cover nothing any more; outside, all is covered as
before. -/
structure Revoked (s s' : IoMdb) (l l' : List Word) (e : Word) (own own' : Word → List Word)
    (t : Word)
    (flag : Prop) (lo hi : Nat) : Prop where
  db : Db s' l' e own'
  owned : ∀ t, ∀ x ∈ own' t, x ∈ l'
  inside : ∀ t' x i, lo ≤ i → i < hi → ((x ∈ own' t' ∧ s'.Covers x i) ↔
    x ∈ own t' ∧ s.Covers x i ∧ ¬∃ r ∈ own t, Visits s l flag r x)
  outside : ∀ t' i, i < lo ∨ hi ≤ i → ((∃ x ∈ own' t', s'.Covers x i) ↔ ∃ x ∈ own t', s.Covers x i)
  below : ∀ x ∈ own' t, ∀ y, Descends s'.getDepth l' x y → s'.getHi y ≤ lo ∨ hi ≤ s'.getLo y
  nonempty : ∀ x ∈ l', s'.getLo x < s'.getHi x

namespace Revoking

section run

variable {mapmask lo hi : Word} {fuel k : Nat}

lemma mayCut {lo hi : Nat} (h : Revoking s₀ s l₀ l e own₀ own t flag lo hi P (q :: todo))
    (hz : Zone s l e flag q u V w) (hmay : MayRevoke s₀ l₀ flag q lo hi) : MayCut s u V lo hi := by
  have hwords : ∀ n ∈ V, SameWords s₀ s n :=
    fun n hn => h.same q (by simp) n (h.under_of_zone hz hn)
  have hvis : ∀ n ∈ V, Visits s₀ l₀ flag q n := fun n hn => h.visits_iff.mp ((hz.mem n).mp hn)
  refine ⟨fun n hn => h.nonempty n ?_, fun n hn => ?_, fun hu n hn => ?_,
    fun D₁ m D₂ n D₃ hV hD hmn => ?_⟩
  · rw [hz.eq]
    simp [hn]
  · rw [(hwords n hn).getLo, (hwords n hn).getHi]
    exact hmay.notEnd n (hvis n hn)
  · rcases hz.front with ⟨hf, hq⟩ | ⟨-, u', hu'⟩
    · obtain rfl : q = n := Option.some.inj (hq.symm.trans hn)
      have hw := h.same q (by simp) q (.inl rfl)
      rw [hw.getLo, hw.getHi]
      refine hmay.notFirst hf (h.first q (by simp) ?_)
      rw [hz.eq, hu, List.nil_append, List.head?_append, hq]
      rfl
    · simp [hu] at hu'
  · have hm : m ∈ V := by simp [hV]
    have hn : n ∈ V := by simp [hV]
    have hd : Descends s.getDepth l m n := ⟨u ++ D₁, D₂, D₃ ++ w, by simp [hz.eq, hV], hmn, hD⟩
    rw [(hwords m hm).getLo, (hwords m hm).getHi, (hwords n hn).getLo, (hwords n hn).getHi]
    exact hmay.notMoved m n (hvis m hm) ((h.desc q (by simp) m (h.under_of_zone hz hm) n).mp hd)

/-- **`unmap_subtree`** for a node of the task. -/
lemma unmapSubtree (hwf : s₀.WellFormed l₀ e own₀)
    (h : Revoking s₀ s l₀ l e own₀ own t (mapmask &&& flushOwnSpace ≠ 0) lo.toNat hi.toNat P
    (q :: todo))
    (hmay : MayRevoke s₀ l₀ (mapmask &&& flushOwnSpace ≠ 0) q lo.toNat hi.toNat)
      (hle : lo.toNat ≤ hi.toNat)
    (hk : l₀.length + 1 < k) :
    Meets (Hazelnut.Io.unmapSubtree k q lo hi mapmask s) fun _ s' => ∃ l' own' P',
      Revoking s₀ s' l₀ l' e own₀ own' t (mapmask &&& flushOwnSpace ≠ 0) lo.toNat
      hi.toNat P' todo := by
  obtain ⟨u, B, w, hl, hB, hend, hdesc⟩ :=
    h.db.exists_zone (h.mem_tree List.mem_cons_self (.inl rfl))
  have hu : ∀ x ∈ B, Descends s₀.getDepth l₀ q x := fun x hx =>
    (h.desc q (by simp) q (.inl rfl) x).mp ((hdesc x).mpr hx)
  have hnest : ∀ x ∈ B, s.getLo q ≤ s.getLo x ∧ s.getHi x ≤ s.getHi q := fun x hx => by
    have hw1 := h.same q (by simp) q (.inl rfl)
    have hw2 := h.same q (by simp) x (.inr (hu x hx))
    rw [hw1.getLo, hw1.getHi, hw2.getLo, hw2.getHi]
    exact hwf.nested q x (hu x hx)
  have hlen : B.length ≤ l₀.length := by
    have hnd := (List.nodup_append.mp h.db.tree.nodup).1
    rw [hl] at hnd
    have hndB : B.Nodup :=
      (List.nodup_append.mp (List.nodup_cons.mp (List.nodup_append.mp hnd).2.1).2).1
    exact (hndB.subperm fun x hx => (hu x hx).mem.2).length_le
  have hdb := h.db
  rw [hl] at hdb
  have hrun : ∀ {u' V : List Word}, Zone s l e (mapmask &&& flushOwnSpace ≠ 0) q u' V w →
      (if mapmask &&& flushOwnSpace ≠ 0 then u' = u ∧ V = q :: B else u' = u ++ [q] ∧ V = B) →
      Meets (Hazelnut.Io.unmapSubtree k q lo hi mapmask s) fun _ s' => ∃ l' own' P',
        Revoking s₀ s' l₀ l' e own₀ own' t (mapmask &&& flushOwnSpace ≠ 0) lo.toNat
        hi.toNat P' todo := by
    intro u' V hz hV
    have hcutok := h.mayCut hz hmay
    refine (hdb.unmapSubtree hB hend hnest hle (by omega) hV hcutok).mono fun _ s' ⟨A, own', f,
      hcut⟩ => ?_
    refine ⟨_, own', _, h.step hwf hz hcut fun hu' => ?_⟩
    rcases hz.front with ⟨-, hq⟩ | ⟨-, v, hv⟩
    · exact (hcutok.notFirst hu' q hq).1
    · simp [hu'] at hv
  by_cases hf : mapmask &&& flushOwnSpace ≠ 0
  · exact hrun (.of_flag hl hB hend hdesc hf) (by rw [if_pos hf]; exact ⟨rfl, rfl⟩)
  · exact hrun (.of_not_flag hl hB hend hdesc hf) (by rw [if_neg hf]; exact ⟨rfl, rfl⟩)

end run

end Revoking

namespace Revoking

section loop

variable {mapmask lo hi parent : Word} {fuel k : Nat}

/-- The node behind `q` in the list of the task. -/
lemma nextSt (h : Revoking s₀ s l₀ l e own₀ own t flag (lo.toNat) (hi.toNat) P (q :: todo))
    (ht : s.iospace t ≠ 0) :
    (s.node q).nextSt = (todo ++ [s.iospace t]).head (by simp) := by
  have hr := h.db.tasks.ring t ht
  have hsplit : ringOf s own t = (s.iospace t :: P) ++ q :: todo := by rw [ringOf, h.lists]; rfl
  rw [hsplit] at hr
  have hlink := (IsRing.links (IsRing.rotate_append hr)).1
  cases todo with
  | nil => simpa using hlink
  | cons c todo => simpa using hlink

/-- **The loop of `unmap_io_fpage`.** -/
lemma loop (hwf : s₀.WellFormed l₀ e own₀) (ht : s₀.iospace t ≠ 0) (hle : lo.toNat ≤ hi.toNat)
    (hmay : ∀ r ∈ own₀ t, s₀.getLo r < hi.toNat → lo.toNat < s₀.getHi r →
      MayRevoke s₀ l₀ (mapmask &&& flushOwnSpace ≠ 0) r lo.toNat hi.toNat)
      (hfuel : l₀.length + 1 < fuel)
    (h : Revoking s₀ s l₀ l e own₀ own t (mapmask &&& flushOwnSpace ≠ 0) lo.toNat hi.toNat P todo)
    (hk : todo.length < k) (hp : parent = (todo ++ [s₀.iospace t]).head (by simp)) :
    Meets (unmapIoLoop fuel lo hi mapmask k parent s) fun _ s' => ∃ l' own' P' todo',
      Revoking s₀ s' l₀ l' e own₀ own' t (mapmask &&& flushOwnSpace ≠ 0) lo.toNat
      hi.toNat P' todo' ∧
        ∀ r ∈ todo', hi.toNat ≤ s₀.getLo r := by
  have ht' : s.iospace t ≠ 0 := by rwa [h.iospace]
  induction todo generalizing s l own P k parent with
  | nil =>
      obtain ⟨k, rfl⟩ : ∃ j, k = j + 1 := ⟨k - 1, by simp at hk; omega⟩
      obtain rfl : parent = s.iospace t := by rw [h.iospace]; simpa using hp
      have hlive := h.db.tasks.live t ht' _ List.mem_cons_self
      rw [unmapIoLoop, bind_ok (deref_live hlive), if_neg (h.db.tasks.dummy t ht')]
      exact Meets.ok ⟨l, own, P, [], h, by simp⟩
  | cons q todo ih =>
      obtain ⟨k, rfl⟩ : ∃ j, k = j + 1 := ⟨k - 1, by simp at hk; omega⟩
      obtain rfl : parent = q := by simpa using hp
      have hown : parent ∈ own t := by rw [h.lists]; simp
      have hlive := h.db.tasks.live t ht' _ (List.mem_cons_of_mem _ hown)
      have hwords := h.same parent (by simp) parent (.inl rfl)
      have hnext := h.nextSt ht'
      rw [h.iospace] at hnext
      rw [unmapIoLoop, bind_ok (deref_live hlive), if_pos (h.db.tasks.notDummy t _ hown)]
      by_cases hlo : (s.node parent).getLo < hi
      · have hlo' : s₀.getLo parent < hi.toNat := by
          rw [← hwords.getLo]
          exact BitVec.lt_def.mp hlo
        rw [if_pos hlo]
        by_cases hhi : (s.node parent).getHi > lo
        · have hhi' : lo.toNat < s₀.getHi parent := by
            rw [← hwords.getHi]
            exact BitVec.lt_def.mp hhi
          have hcut := h.unmapSubtree hwf (hmay parent (h.mem_own (by simp)) hlo' hhi') hle hfuel
          simp only [if_pos hhi]
          refine Meets.bind (hcut.mono fun _ s' ⟨l', own', P', h'⟩ => ?_)
          exact ih h' (by simp at hk; omega) hnext (by rwa [h'.iospace])
        · simp only [if_neg hhi]
          have hskip := h.skip hwf (.inl (by
            rw [← hwords.getHi]
            exact Nat.le_of_not_lt fun hlt => hhi (BitVec.lt_def.mpr hlt)))
          exact ih hskip (by simp at hk; omega) hnext ht'
      · rw [if_neg hlo]
        have hge : hi.toNat ≤ s₀.getLo parent := by
          rw [← hwords.getLo]
          exact Nat.le_of_not_lt fun hlt => hlo (BitVec.lt_def.mpr hlt)
        refine Meets.ok ⟨l, own, P, parent :: todo, h, fun r hr => ?_⟩
        rcases List.mem_cons.mp hr with rfl | hr
        · exact hge
        · -- what comes later in the list lies further behind
          obtain ⟨d, hd⟩ := h.tail
          have hsorted := hwf.sorted t
          rw [hd] at hsorted
          have h1 := (List.pairwise_cons.mp (List.pairwise_append.mp hsorted).2.1).1 r hr
          have h2 := (hwf.nonempty parent (hwf.owned t parent (h.mem_own (by simp)))).1
          omega

/-- At the end. -/
lemma revoked {lo hi : Nat} (hwf : s₀.WellFormed l₀ e own₀)
    (h : Revoking s₀ s l₀ l e own₀ own t flag lo hi P todo) (hrest : ∀ r ∈ todo, hi ≤ s₀.getLo r) :
    Revoked s₀ s l₀ l e own₀ own t flag lo hi := by
  refine ⟨h.db, h.owned, fun t' x i h1 h2 => ?_, h.covers,
    fun x hx y hy => ?_, fun x hx => (h.nonempty x hx).1⟩
  · rw [h.inside t' x i h1 h2]
    refine and_congr_right fun _ => and_congr_right fun hc => not_congr ?_
    refine ⟨fun ⟨r, hr, _, hv⟩ => ⟨r, hr, hv⟩, fun ⟨r, hr, hv⟩ => ⟨r, hr, fun hm => ?_, hv⟩⟩
    have hx : Under s₀ l₀ r x := hv.imp (fun hv => hv.2) id
    have h3 := hwf.under_nested hx
    have h4 := hrest r hm
    simp only [IoMdb.Covers] at hc
    omega
  · rw [h.lists] at hx
    rcases List.mem_append.mp hx with hx | hx
    · exact h.done x hx y hy
    · have hd := (h.desc x hx x (.inl rfl) y).mp hy
      have hwords := h.same x hx y (.inr hd)
      rw [hwords.getLo]
      exact .inr ((hrest x hx).trans (hwf.nested x y hd).1)

end loop

end Revoking

/-- **Revoking an I/O flexpage is exact** if `unmap_subtree` may do its work in the nodes of the
task that the range meets. -/
theorem unmapIoFpage_revokes {fp mapmask : Word} {fuel : Nat} (hwf : s.WellFormed l e own)
    (ht : s.iospace t ≠ 0) (hhi : (iofpPort fp).toNat + (iofpSize fp).toNat ≤ 65536)
    (hmay : ∀ r ∈ own t, s.getLo r < (iofpPort fp).toNat + (iofpSize fp).toNat →
      (iofpPort fp).toNat < s.getHi r →
      MayRevoke s l (mapmask &&& flushOwnSpace ≠ 0) r (iofpPort fp).toNat
        ((iofpPort fp).toNat + (iofpSize fp).toNat)) (hfuel : l.length + 1 < fuel) :
    Meets (unmapIoFpage fuel t fp mapmask s) fun _ s' => ∃ l' own',
      Revoked s s' l l' e own own' t (mapmask &&& flushOwnSpace ≠ 0) (iofpPort fp).toNat
        ((iofpPort fp).toNat + (iofpSize fp).toNat) := by
  have hsum : (iofpPort fp + iofpSize fp).toNat = (iofpPort fp).toNat + (iofpSize fp).toNat := by
    rw [BitVec.toNat_add, Nat.mod_eq_of_lt (by omega)]
  have hsize : ¬iofpSize fp > 1 <<< 16 := fun hgt => by
    have h1 := BitVec.lt_def.mp hgt
    have h2 : (1 <<< 16 : Word).toNat = 65536 := by decide
    omega
  have hlive := hwf.tasks.live t ht _ List.mem_cons_self
  have hlen : (own t).length ≤ l.length := by
    have hnd : (own t).Nodup := (List.nodup_cons.mp (hwf.tasks.nodup t)).2
    exact (hnd.subperm fun x hx => hwf.owned t x hx).length_le
  have hhead : (s.node (s.iospace t)).nextSt = (own t ++ [s.iospace t]).head (by simp) := by
    have hlink := (IsRing.links (hwf.tasks.ring t ht)).1
    cases hown : own t with
    | nil => simpa [hown] using hlink
    | cons c l => simpa [hown] using hlink
  rw [← hsum] at hmay ⊢
  have hget : getIospace t s = .ok ((s.node (s.iospace t)).nextSt, s) := by
    have hs : (get : IoM IoMdb) s = .ok (s, s) := rfl
    unfold getIospace
    rw [bind_ok hs, bind_ok (deref_live hlive)]
    rfl
  have hloop := Revoking.loop hwf ht (by omega) hmay hfuel (Revoking.start hwf)
    (by omega : (own t).length < fuel) hhead
  unfold unmapIoFpage
  simp only [if_neg hsize]
  rw [bind_ok hget]
  refine hloop.mono fun _ s' ⟨l', own', P', todo', h, hrest⟩ => ?_
  exact ⟨l', own', h.revoked hwf hrest⟩

/-! ### Two tasks -/

/-- A node with its links. -/
def linkedNode (lo hi tid depth : Word) (dummy : Bool)
    (next prev nextSt prevSt parent : Word) : IoNode :=
  IoNode.setValues ⟨0, 0, next, prev, nextSt, prevSt, parent⟩ lo hi tid depth dummy

/-- sigma0, as task 2, has all ports, and task 5 has the ports below 32 from it. -/
def twoTasks : IoMdb where
  node p :=
    if p = 0x10 then linkedNode 0 0 2 0 true 0 0 0x20 0x20 0
    else if p = 0x20 then linkedNode 0 65536 2 0 false 0x40 0 0x10 0x10 0x20
    else if p = 0x30 then linkedNode 0 0 5 0 true 0 0 0x40 0x40 0
    else if p = 0x40 then linkedNode 0 32 5 1 false 0x50 0x20 0x30 0x30 0x20
    else linkedNode 0 0 2 0 false 0 0x40 0 0 0
  free := [0x60]
  iospace t := if t = 2 then 0x10 else if t = 5 then 0x30 else 0
  iopbm _ := none
  defaultIopbm _ := BitVec.allOnes 32
  pages := 0
  stale := []

def twoTasksOwn (t : Word) : List Word := if t = 2 then [0x20] else if t = 5 then [0x40] else []

lemma twoTasks_values : (twoTasks.getLo 0x20 = 0 ∧ twoTasks.getHi 0x20 = 65536 ∧
    twoTasks.getDepth 0x20 = 0) ∧
    twoTasks.getLo 0x40 = 0 ∧ twoTasks.getHi 0x40 = 32 ∧ twoTasks.getDepth 0x40 = 1 :=
  ⟨⟨rfl, rfl, rfl⟩, rfl, rfl, rfl⟩

lemma twoTasks_mem (hx : x ∈ [(0x20 : Word), 0x40]) : x = 0x20 ∨ x = 0x40 := by simpa using hx

lemma twoTasks_wellFormed : twoTasks.WellFormed [0x20, 0x40] 0x50 twoTasksOwn := by
  have hcases : ∀ t : Word, twoTasks.iospace t ≠ 0 → t = 2 ∨ t = 5 := fun t ht => by
    by_contra hno
    push Not at hno
    refine ht ?_
    unfold twoTasks
    dsimp only
    rw [if_neg hno.1, if_neg hno.2]
  have hnone : ∀ t : Word, twoTasks.iospace t = 0 → twoTasksOwn t = [] := fun t ht => by
    by_cases h2 : t = 2
    · subst h2
      exact absurd ht (by decide +kernel)
    by_cases h5 : t = 5
    · subst h5
      exact absurd ht (by decide +kernel)
    · rw [twoTasksOwn, if_neg h2, if_neg h5]
  have hown : ∀ t, ∀ x ∈ twoTasksOwn t, (t = 2 ∧ x = 0x20) ∨ (t = 5 ∧ x = 0x40) := fun t x hx => by
    unfold twoTasksOwn at hx
    split_ifs at hx with h2 h5
    · exact .inl ⟨h2, by simpa using hx⟩
    · exact .inr ⟨h5, by simpa using hx⟩
    · simp at hx
  have htree : ∀ x ∈ [0x20, 0x40] ++ [(0x50 : Word)], x = 0x20 ∨ x = 0x40 ∨ x = 0x50 :=
    fun x hx => by simpa using hx
  have hring : ∀ t, twoTasks.iospace t ≠ 0 → ∀ x ∈ ringOf twoTasks twoTasksOwn t,
      (t = 2 ∧ (x = 0x10 ∨ x = 0x20)) ∨ (t = 5 ∧ (x = 0x30 ∨ x = 0x40)) := fun t ht x hx => by
    rcases hcases t ht with rfl | rfl
    · have hlist : ringOf twoTasks twoTasksOwn 2 = [0x10, 0x20] := rfl
      rw [hlist] at hx
      exact .inl ⟨rfl, by simpa using hx⟩
    · have hlist : ringOf twoTasks twoTasksOwn 5 = [0x30, 0x40] := rfl
      rw [hlist] at hx
      exact .inr ⟨rfl, by simpa using hx⟩
  refine ⟨⟨⟨?_, by decide +kernel, fun x hx => ?_⟩,
    ⟨hnone, fun t ht => ?_, fun t => ?_, fun t ht x hx => ?_,
    fun t ht => ?_, fun t x hx => ?_, fun t ht x hx => ?_⟩, fun x hx => ?_, by decide +kernel,
    by decide +kernel, by decide +kernel⟩, fun t x hx => ?_, ?_, ?_, ?_⟩
  · unfold IsLinked
    decide +kernel
  · rcases htree x hx with rfl | rfl | rfl
    · exact ⟨by decide, by simp [twoTasks]⟩
    · exact ⟨by decide, by simp [twoTasks]⟩
    · exact ⟨by decide, by simp [twoTasks]⟩
  · rcases hcases t ht with rfl | rfl
    · unfold IsRing ringOf Linked
      decide +kernel
    · unfold IsRing ringOf Linked
      decide +kernel
  · by_cases h0 : twoTasks.iospace t = 0
    · rw [ringOf, hnone t h0]
      simp
    · rcases hcases t h0 with rfl | rfl
      · decide +kernel
      · decide +kernel
  · rcases hring t ht x hx with ⟨rfl, rfl | rfl⟩ | ⟨rfl, rfl | rfl⟩
    · rfl
    · rfl
    · rfl
    · rfl
  · rcases hcases t ht with rfl | rfl
    · decide +kernel
    · decide +kernel
  · rcases hown t x hx with ⟨-, rfl⟩ | ⟨-, rfl⟩
    · rfl
    · rfl
  · rcases hring t ht x hx with ⟨-, rfl | rfl⟩ | ⟨-, rfl | rfl⟩
    · exact ⟨by decide, by simp [twoTasks]⟩
    · exact ⟨by decide, by simp [twoTasks]⟩
    · exact ⟨by decide, by simp [twoTasks]⟩
    · exact ⟨by decide, by simp [twoTasks]⟩
  · rcases twoTasks_mem hx with rfl | rfl
    · decide +kernel
    · decide +kernel
  · rcases hown t x hx with ⟨-, rfl⟩ | ⟨-, rfl⟩
    · simp
    · simp
  · intro x hx
    obtain ⟨⟨h1, h2, -⟩, h3, h4, -⟩ := twoTasks_values
    rcases twoTasks_mem hx with rfl | rfl
    · rw [h1, h2]
      omega
    · rw [h3, h4]
      omega
  · intro t
    unfold twoTasksOwn
    split_ifs <;> simp
  · intro x y hd
    obtain ⟨hx, hy⟩ := hd.mem
    obtain ⟨-, -, -, -, hlt, -⟩ := hd
    obtain ⟨⟨h1, h2, h3⟩, h4, h5, h6⟩ := twoTasks_values
    rcases twoTasks_mem hx with rfl | rfl
    · rcases twoTasks_mem hy with rfl | rfl
      · omega
      · omega
    · rcases twoTasks_mem hy with rfl | rfl
      · omega
      · omega

/-- The state that `unmap_io_fpage` leads to. -/
def endState (r : Except IoStop (Unit × IoMdb)) : Option IoMdb :=
  match r with
  | .ok (_, s) => some s
  | .error _ => none

lemma twoTasks_run : ∃ s', unmapIoFpage 4 5 0x10010 flushOwnSpace twoTasks = .ok ((), s') ∧
    s'.iospace 5 = 0x30 ∧
    (s'.node 0x30).nextSt = 0x60 ∧ (s'.node 0x60).nextSt = 0x40 ∧ s'.getLo 0x40 = 32 ∧
    s'.getHi 0x40 = 32 := by
  have hrun : (endState (unmapIoFpage 4 5 0x10010 flushOwnSpace twoTasks)).any (fun s' =>
      decide (s'.iospace 5 = 0x30 ∧ (s'.node 0x30).nextSt = 0x60 ∧ (s'.node 0x60).nextSt = 0x40 ∧
        s'.getLo 0x40 = 32 ∧ s'.getHi 0x40 = 32)) = true := by decide +kernel
  generalize unmapIoFpage 4 5 0x10010 flushOwnSpace twoTasks = r at hrun
  match r, hrun with
  | .ok ((), s'), hrun => exact ⟨s', rfl, of_decide_eq_true hrun⟩

lemma twoTasks_iospace : twoTasks.iospace 5 ≠ 0 := by decide

-- nothing of what follows is found out by running it
attribute [irreducible] twoTasks

/-- The ports below 16 are revoked from task 5. -/
theorem unmapIoFpage_revokes_front :
    Meets (unmapIoFpage 4 5 0x10 flushOwnSpace twoTasks) fun _ s' => ∃ l' own',
      Revoked twoTasks s' [0x20, 0x40] l' 0x50 twoTasksOwn own' 5
      (flushOwnSpace &&& flushOwnSpace ≠ 0)
        (iofpPort 0x10).toNat ((iofpPort 0x10).toNat + (iofpSize 0x10).toNat) := by
  have hport : (iofpPort 0x10).toNat = 0 := by rfl
  have hsize : (iofpSize 0x10).toNat = 16 := by decide +kernel
  refine unmapIoFpage_revokes twoTasks_wellFormed twoTasks_iospace (by omega)
    (fun r hr _ _ => ?_) (by decide)
  obtain rfl : r = 0x40 := by
    have h5 : twoTasksOwn 5 = [0x40] := rfl
    rw [h5] at hr
    simpa using hr
  rw [hport]
  exact ⟨fun n _ hn => absurd hn.1 (Nat.not_lt_zero _), fun _ hhead => absurd hhead (by decide),
    fun m n _ _ hm => absurd hm (Nat.not_lt_zero _)⟩

/-- **An empty node is left** when the ports from 16 to 31 are revoked from task 5, where its node
ends. -/
theorem unmapIoFpage_empty_node : twoTasks.WellFormed [0x20, 0x40] 0x50 twoTasksOwn ∧
    ¬Meets (unmapIoFpage 4 5 0x10010 flushOwnSpace twoTasks) fun _ s' => ∃ l' own',
      Revoked twoTasks s' [0x20, 0x40] l' 0x50 twoTasksOwn own' 5
      (flushOwnSpace &&& flushOwnSpace ≠ 0)
        (iofpPort 0x10010).toNat ((iofpPort 0x10010).toNat + (iofpSize 0x10010).toNat) := by
  refine ⟨twoTasks_wellFormed, fun hmeets => ?_⟩
  obtain ⟨s', hr, h1, h2, h3, h4, h5⟩ := twoTasks_run
  rw [hr] at hmeets
  obtain ⟨l', own', h⟩ := hmeets
  -- the node is still in the list of task 5
  have hring := h.db.tasks.ring 5 (by rw [h1]; decide)
  have hfirst : s'.iospace 5 ∈ ringOf s' own' 5 := List.mem_cons_self
  rw [h1] at hfirst
  have hleft : (0x60 : Word) ∈ ringOf s' own' 5 := hring.next_mem hfirst (by rw [h2])
  have hright : (0x40 : Word) ∈ ringOf s' own' 5 := hring.next_mem hleft (by rw [h3])
  have hown : (0x40 : Word) ∈ own' 5 := by
    rcases List.mem_cons.mp hright with heq | hown
    · rw [h1] at heq
      exact absurd heq (by decide)
    · exact hown
  have hne := h.nonempty 0x40 (h.owned 5 0x40 hown)
  omega

end Hazelnut.Io
