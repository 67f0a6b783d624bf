import Hazelnut.Io.Shape

/-!
One turn of the loop of `unmap_subtree`.

* `Db`: both kinds of lists, over the same nodes.
* `Turn`: a node is replaced by the pieces of it outside a range of ports.
* `Db.unmapNode`: what a turn does, where no node is moved to the left part of a split subtree and
  no node is cut at its very end.
-/

namespace Hazelnut.Io

open Linked Ring

variable {s s' : IoMdb} {p q n x y z t e : Word} {u v l A : List Word} {own : Word → List Word}
  {lo hi : Word} {c : Cut}

/-! ### The database -/

namespace IoMdb

/-- The first port of a node. -/
def getLo (s : IoMdb) (x : Word) : Nat := (s.node x).getLo.toNat

/-- The first port behind a node. -/
def getHi (s : IoMdb) (x : Word) : Nat := (s.node x).getHi.toNat

def getDepth (s : IoMdb) (x : Word) : Nat := (s.node x).getDepth.toNat

def getTid (s : IoMdb) (x : Word) : Word := (s.node x).getTid

/-- The port `i` belongs to the node. -/
def Covers (s : IoMdb) (x : Word) (i : Nat) : Prop := s.getLo x ≤ i ∧ i < s.getHi x

end IoMdb

/-- The mapping tree is `l` with the terminator `e` behind it, and `own` has the nodes of the
tasks. -/
structure Db (s : IoMdb) (l : List Word) (e : Word) (own : Word → List Word) : Prop where
  tree : TreeOk s (l ++ [e])
  tasks : TasksOk s own
  mem : ∀ x ∈ l, x ∈ own (s.getTid x)
  free : s.free.Nodup
  zero : 0 ∉ s.free
  terminator : (s.node e).getDepth = 0

/-- The nodes are the same, whatever is in the bitmaps. -/
structure SameNodes (s s' : IoMdb) : Prop where
  node : s'.node = s.node
  iospace : s'.iospace = s.iospace
  free : s'.free = s.free

lemma SameNodes.refl : SameNodes s s := ⟨rfl, rfl, rfl⟩

/-- Bounds may change, the rest stays. -/
structure SameLinks (s s' : IoMdb) : Prop where
  next : ∀ x, (s'.node x).next = (s.node x).next
  prev : ∀ x, (s'.node x).prev = (s.node x).prev
  nextSt : ∀ x, (s'.node x).nextSt = (s.node x).nextSt
  prevSt : ∀ x, (s'.node x).prevSt = (s.node x).prevSt
  tid : ∀ x, (s'.node x).getTid = (s.node x).getTid
  dummy : ∀ x, (s'.node x).getDummy = (s.node x).getDummy
  depth : ∀ x, (s'.node x).getDepth = (s.node x).getDepth
  iospace : s'.iospace = s.iospace
  free : s'.free = s.free

lemma SameNodes.links (h : SameNodes s s') : SameLinks s s' := by
  constructor <;> intros <;> simp only [h.node, h.iospace, h.free]

lemma TreeOk.sameLinks (h : TreeOk s l) (hs : SameLinks s s') : TreeOk s' l :=
  h.congr (fun x _ => hs.next x) (fun x _ => hs.prev x) fun x hx => by
    rw [Live, hs.free]
    exact h.live x hx

lemma TasksOk.sameLinks (h : TasksOk s own) (hs : SameLinks s s') : TasksOk s' own :=
  h.congr hs.iospace fun t ht x hx => ⟨hs.nextSt x, hs.prevSt x, hs.tid x, hs.dummy x, by
    rw [Live, hs.free]
    exact h.live t ht x hx⟩

lemma Db.sameLinks (h : Db s l e own) (hs : SameLinks s s') : Db s' l e own where
  tree := h.tree.sameLinks hs
  tasks := h.tasks.sameLinks hs
  mem x hx := by
    rw [IoMdb.getTid, hs.tid]
    exact h.mem x hx
  free := by
    rw [hs.free]
    exact h.free
  zero := by
    rw [hs.free]
    exact h.zero
  terminator := (hs.depth e).trans h.terminator

lemma setIopbm_ok (tid port size : Word) (s : IoMdb) :
    ∃ s', setIopbm tid port size s = .ok ((), s') ∧ SameNodes s s' := by
  refine ⟨_, rfl, ?_⟩
  dsimp only
  split <;> exact ⟨rfl, rfl, rfl⟩

/-- A node that may be free is read. -/
lemma deref_ok (h : p ≠ 0) : ∃ s', deref p s = .ok (s.node p, s') ∧ SameNodes s s' := by
  refine ⟨_, by rw [deref, if_neg h], ?_⟩
  split <;> exact ⟨rfl, rfl, rfl⟩

namespace Db

lemma live (h : Db s l e own) (hx : x ∈ l) : Live s x := h.tree.live x (by simp [hx])

/-- The ring of a node's task, split at the node. -/
lemma ring_split (h : Db s l e own) (hx : x ∈ l) :
    ∃ a b, own (s.getTid x) = a ++ x :: b := List.append_of_mem (h.mem x hx)

/-- A buffer that is free is in none of the lists. -/
lemma notMem_of_free (h : Db s l e own) (hx : x ∈ s.free) :
    x ∉ l ++ [e] ∧ ∀ t, s.iospace t ≠ 0 → x ∉ ringOf s own t :=
  ⟨fun hl => (h.tree.live x hl).2 hx, fun t ht hr => (h.tasks.live t ht x hr).2 hx⟩

end Db

/-! ### Pieces -/

/-- In place of the node `n` there are the nodes `Q`, which cover what `n` does outside the ports
from `lo` to `hi`. -/
structure Turn (s s' : IoMdb) (n : Word) (lo hi : Nat) (Q : List Word) : Prop where
  other : ∀ x, x ≠ n → x ∉ s.free →
    (s'.node x).w1 = (s.node x).w1 ∧ (s'.node x).w2 = (s.node x).w2
  iospace : s'.iospace = s.iospace
  fresh : ∀ x ∈ Q, x = n ∨ x ∈ s.free
  tid : ∀ x ∈ Q, s'.getTid x = s.getTid n
  depth : ∀ x ∈ Q, s'.getDepth x = s.getDepth n
  nonempty : ∀ x ∈ Q, s'.getLo x < s'.getHi x ∧ s'.getHi x ≤ s.getHi n
  avoids : ∀ x ∈ Q, s'.getHi x ≤ lo ∨ hi ≤ s'.getLo x
  covers : ∀ i, i < lo ∨ hi ≤ i → ((∃ x ∈ Q, s'.Covers x i) ↔ s.Covers n i)
  whole : lo ≤ s.getLo n → s.getHi n ≤ hi → Q = [] ∧
    (∀ x, x ∈ s'.free ↔ x = n ∨ x ∈ s.free) ∧ ∀ x, (s'.node x).w2 = (s.node x).w2
  stays : ¬ (lo ≤ s.getLo n ∧ s.getHi n ≤ hi) → n ∈ Q ∧ ∀ x ∈ s'.free, x ∈ s.free

/-- Where the pieces `Q` of `n` are put: behind the nodes `A` that have been dealt with, the left
one of two possibly among them, but not in front. -/
inductive Placed (n : Word) (A : List Word) : List Word → List Word → Prop where
  | gone : Placed n A [] A
  | kept : Placed n A [n] (A ++ [n])
  | split : ∀ {X Y : List Word} {m : Word}, A = X ++ Y → (A ≠ [] → X ≠ []) →
      Placed n A [m, n] (X ++ m :: (Y ++ [n]))

/-- The split mark after the turn. -/
def Marked (s : IoMdb) (n : Word) (lo hi : Nat) (c c' : Cut) (A' : List Word) : Prop :=
  c'.splitDepth = iomdbSupDepth ∨
    (c.splitDepth < (s.node n).getDepth ∧ c'.splitDepth = c.splitDepth ∧
      (c'.nLeftEnd = c.nLeftEnd ∨ c'.nLeftEnd ∈ A')) ∨
    (s.getLo n < lo ∧ hi < s.getHi n ∧ c'.splitDepth = (s.node n).getDepth ∧ c'.nLeftEnd ∈ A')

/-- What the database is like after a turn at `n`, which has `v` behind it. -/
structure Turned (s s' : IoMdb) (u A v : List Word) (e n : Word) (own : Word → List Word)
    (lo hi : Nat) (c c' : Cut) (Q A' a b : List Word) : Prop where
  turn : Turn s s' n lo hi Q
  at_node : own (s.getTid n) = a ++ n :: b
  db : Db s' (u ++ A' ++ v) e (Function.update own (s.getTid n) (a ++ Q ++ b))
  placed : Placed n A Q A'
  marked : Marked s n lo hi c c' A'

lemma leaveSplit_marked {A' : List Word} {lo hi : Nat} (c : Cut) :
    Marked s n lo hi c (c.leaveSplit (s.node n).getDepth) A' := by
  unfold Cut.leaveSplit
  split
  · exact .inl rfl
  · next h => exact .inr (.inl ⟨BitVec.not_le.mp h, rfl, .inl rfl⟩)

namespace Db

/-- `mdb_free_buffer` for a node that has been taken out of both of its lists. -/
lemma release {l : List Word} {s₂ s₄ : IoMdb} (htree : TreeOk s₂ l) (htasks : TasksOk s₂ own)
    (hl : ∀ x ∈ l, x ≠ n) (hring : ∀ t, s₂.iospace t ≠ 0 → ∀ x ∈ ringOf s₂ own t, x ≠ n)
    (hnode : ∀ x, x ≠ n → s₄.node x = s₂.node x) (hfree : s₄.free = n :: s₂.free)
    (hiospace : s₄.iospace = s₂.iospace) : TreeOk s₄ l ∧ TasksOk s₄ own := by
  have hlive : ∀ x, x ≠ n → Live s₂ x → Live s₄ x := fun x hx hl => by
    refine ⟨hl.1, ?_⟩
    rw [hfree, List.mem_cons, not_or]
    exact ⟨hx, hl.2⟩
  constructor
  · refine htree.congr (fun x hx => ?_) (fun x hx => ?_) fun x hx =>
      hlive x (hl x hx) (htree.live x hx)
    · rw [hnode x (hl x hx)]
    · rw [hnode x (hl x hx)]
  · refine htasks.congr hiospace fun t ht x hx => ?_
    have hxn := hring t ht x hx
    rw [hnode x hxn]
    exact ⟨rfl, rfl, rfl, rfl, hlive x hxn (htasks.live t ht x hx)⟩

/-- **The node lies in the range.** -/
lemma whole (h : Db s (u ++ p :: n :: v) e own) (hn : c.n = n) (hlo : lo.toNat ≤ s.getLo n)
    (hhi : s.getHi n ≤ hi.toNat) :
    ∃ s' c' a b, unmapWhole c s = .ok (c', s') ∧ c'.n = p ∧ own (s.getTid n) = a ++ n :: b ∧
      Turn s s' n lo.toNat hi.toNat [] ∧
      Db s' (u ++ p :: v) e (Function.update own (s.getTid n) (a ++ b)) ∧
      c' = { c.leaveSplit (s.node n).getDepth with n := p } := by
  subst hn
  have hmem : c.n ∈ u ++ p :: c.n :: v := by simp
  obtain ⟨a, b, hab⟩ := h.ring_split hmem
  obtain ⟨s₁, h1, htasks₁, hs₁⟩ := h.tasks.deq hab
  obtain ⟨q, v', hv⟩ : ∃ q v', v ++ [e] = q :: v' := by cases v <;> exact ⟨_, _, rfl⟩
  have htree₁ : TreeOk s₁ (u ++ p :: c.n :: q :: v') := by
    have := h.tree.sameTree hs₁
    rw [← hv]
    simpa using this
  obtain ⟨s₂, h2, htree₂, hs₂, hprev⟩ := htree₁.deq
  have htasks₂ := htasks₁.sameTasks hs₂
  have hw1 : ∀ x, (s₂.node x).w1 = (s.node x).w1 := fun x => (hs₂.w1 x).trans (hs₁.w1 x)
  have hw2 : ∀ x, (s₂.node x).w2 = (s.node x).w2 := fun x => (hs₂.w2 x).trans (hs₁.w2 x)
  have hfree₂ : s₂.free = s.free := hs₂.free.trans hs₁.free
  have hlive₂ : Live s₂ c.n := by
    rw [Live, hfree₂]
    exact h.live hmem
  obtain ⟨s₃, h3, hs₃⟩ := setIopbm_ok (s₂.node c.n).getTid (s₂.node c.n).getLo
    ((s₂.node c.n).getHi - (s₂.node c.n).getLo) s₂
  have hlive₃ : Live s₃ c.n := by
    rw [Live, hs₃.free]
    exact hlive₂
  have hdepth : (s₂.node c.n).getDepth = (s.node c.n).getDepth := by
    rw [IoNode.getDepth, hw2, IoNode.getDepth]
  let s₄ : IoMdb := { s₃ with
    node := Function.update s₃.node c.n { s₃.node c.n with w1 := s₃.free.headD 0 }
    free := c.n :: s₃.free }
  have hnode : ∀ x, x ≠ c.n → s₄.node x = s₂.node x := fun x hx => by
    simp only [s₄, Function.update_of_ne hx, hs₃.node]
  have hfree₄ : s₄.free = c.n :: s.free := by
    simp only [s₄, hs₃.free, hfree₂]
  have hiospace : s₄.iospace = s.iospace :=
    hs₃.iospace.trans (hs₂.iospace.trans hs₁.iospace)
  have hout : ∀ x ∈ u ++ p :: v ++ [e], x ≠ c.n := by
    rintro x hx rfl
    have hnd := h.tree.nodup
    have hp : (u ++ p :: c.n :: v ++ [e]).Perm (c.n :: (u ++ p :: v ++ [e])) := by
      simpa using perm_behind u p c.n (v ++ [e])
    exact (List.nodup_cons.mp (hp.nodup_iff.mp hnd)).1 hx
  have hring : ∀ t', s₂.iospace t' ≠ 0 →
      ∀ x ∈ ringOf s₂ (Function.update own (s.getTid c.n) (a ++ b)) t', x ≠ c.n := by
    rintro t' ht' x hx rfl
    have htid := htasks₂.tid t' ht' _ hx
    rw [IoNode.getTid, hw1] at htid
    have ht : t' = s.getTid c.n := htid.symm
    subst ht
    have hnd := h.tasks.nodup (s.getTid c.n)
    rw [ringOf, hab] at hnd
    have hp : (s.iospace (s.getTid c.n) :: (a ++ c.n :: b)).Perm
        (c.n :: s.iospace (s.getTid c.n) :: (a ++ b)) := by
      have : (s.iospace (s.getTid c.n) :: a ++ c.n :: b).Perm
          (c.n :: (s.iospace (s.getTid c.n) :: a ++ b)) :=
        List.perm_middle
      simpa using this
    refine (List.nodup_cons.mp (hp.nodup_iff.mp hnd)).1 ?_
    rw [ringOf, Function.update_self, hs₂.iospace, hs₁.iospace] at hx
    exact hx
  refine ⟨s₄, { c.leaveSplit (s.node c.n).getDepth with n := p }, a, b, ?_, rfl, hab, ?_, ?_, rfl⟩
  · unfold unmapWhole
    rw [bind_ok h1, bind_ok h2, bind_ok (deref_live hlive₂), bind_ok h3,
      bind_ok (deref_live hlive₃),
      hs₃.node, hprev, hdepth]
    rfl
  · refine ⟨fun x hx _ => ?_, hiospace, by simp, by simp, by simp, by simp, by simp,
      fun i hi' => ?_,
      fun _ _ => ⟨rfl, fun x => by rw [hfree₄, List.mem_cons], fun x => ?_⟩, fun hno =>
      absurd ⟨hlo, hhi⟩ hno⟩
    · rw [hnode x hx]
      exact ⟨hw1 x, hw2 x⟩
    · simp only [List.not_mem_nil, false_and, exists_false, false_iff, IoMdb.Covers]
      omega
    · by_cases hx : x = c.n
      · subst hx
        simp only [s₄, Function.update_self, hs₃.node]
        exact hw2 _
      · rw [hnode x hx]
        exact hw2 x
  · have hlist : u ++ p :: q :: v' = u ++ p :: v ++ [e] := by rw [← hv]; simp
    rw [hlist] at htree₂
    obtain ⟨htree₄, htasks₄⟩ := release htree₂ htasks₂ hout hring hnode (by rw [hfree₄, hfree₂])
      (hiospace.trans (hs₂.iospace.trans hs₁.iospace).symm)
    refine ⟨htree₄, htasks₄, fun x hx => ?_, ?_, ?_, ?_⟩
    · have hxn := hout x (by simp only [List.mem_append] at hx ⊢; exact .inl hx)
      have htid : s₄.getTid x = s.getTid x := by
        rw [IoMdb.getTid, hnode x hxn, IoNode.getTid, hw1, IoMdb.getTid, IoNode.getTid]
      have hxm := h.mem x (by
        simp only [List.mem_append, List.mem_cons] at hx ⊢
        exact hx.imp_right fun h => h.imp_right .inr)
      rw [htid]
      by_cases ht : s.getTid x = s.getTid c.n
      · rw [ht] at hxm ⊢
        rw [hab] at hxm
        rw [Function.update_self]
        simp only [List.mem_append, List.mem_cons] at hxm ⊢
        exact hxm.imp_right fun h => h.resolve_left hxn
      · rw [Function.update_of_ne ht]
        exact hxm
    · rw [hfree₄]
      exact List.nodup_cons.mpr ⟨(h.live hmem).2, h.free⟩
    · rw [hfree₄, List.mem_cons, not_or]
      exact ⟨fun h0 => (h.live hmem).1 h0.symm, h.zero⟩
    · rw [hnode e (hout e (by simp)), IoNode.getDepth, hw2]
      exact h.terminator

/-- A node whose bounds have been changed. -/
lemma resized (h : Db s (u ++ A ++ n :: v) e own) (lo hi : Nat) (c c' : Cut) (hs : SameLinks s s')
    (hother : ∀ x, x ≠ n → s'.node x = s.node x) (hne : s'.getLo n < s'.getHi n)
    (hle : s'.getHi n ≤ s.getHi n) (hav : s'.getHi n ≤ lo ∨ hi ≤ s'.getLo n)
    (hcov : ∀ i, i < lo ∨ hi ≤ i → (s'.Covers n i ↔ s.Covers n i))
    (hno : ¬ (lo ≤ s.getLo n ∧ s.getHi n ≤ hi)) (hm : Marked s n lo hi c c' (A ++ [n])) :
    ∃ Q A' a b, Turned s s' u A v e n own lo hi c c' Q A' a b := by
  obtain ⟨a, b, hab⟩ := h.ring_split (x := n) (by simp)
  refine ⟨[n], A ++ [n], a, b, ?_, hab, ?_, .kept, hm⟩
  · refine ⟨fun x hx _ => ?_, hs.iospace, fun x hx => .inl (by simpa using hx), fun x hx => ?_,
      fun x hx => ?_, fun x hx => ?_, fun x hx => ?_, fun i hi' => ?_, fun hlo hhi =>
      ?_, fun _ => ?_⟩
    · rw [hother x hx]
      exact ⟨rfl, rfl⟩
    · rw [IoMdb.getTid, hs.tid, List.mem_singleton.mp hx, IoMdb.getTid]
    · rw [IoMdb.getDepth, hs.depth, List.mem_singleton.mp hx, IoMdb.getDepth]
    · rw [List.mem_singleton.mp hx]
      exact ⟨hne, hle⟩
    · rw [List.mem_singleton.mp hx]
      exact hav
    · simpa using hcov i hi'
    · exact absurd ⟨hlo, hhi⟩ hno
    · exact ⟨by simp, fun x hx => by rwa [hs.free] at hx⟩
  · have hown : Function.update own (s.getTid n) (a ++ [n] ++ b) = own := by
      rw [Function.update_eq_self_iff, hab]
      simp
    rw [hown]
    have := h.sameLinks hs
    simpa using this

/-- The range begins before the node and ends in or before it. -/
lemma front (h : Db s (u ++ A ++ n :: v) e own) (hn : c.n = n) (hlo : lo.toNat ≤ s.getLo n)
    (hhi : hi.toNat < s.getHi n) (hne : s.getLo n < s.getHi n) (hmax : s.getHi n ≤ 65536) :
    ∃ s' c' Q A' a b, unmapFront hi c s = .ok (c', s') ∧ c'.n = n ∧
      Turned s s' u A v e n own lo.toNat hi.toNat c c' Q A' a b := by
  subst hn
  have hlive : Live s c.n := h.live (by simp)
  have hcn : (c.leaveSplit (s.node c.n).getDepth).n = c.n := by
    unfold Cut.leaveSplit
    split <;> rfl
  by_cases hgt : hi > (s.node c.n).getLo
  · obtain ⟨s₁, h1, hs₁⟩ := setIopbm_ok (s.node c.n).getTid (s.node c.n).getLo
      (hi - (s.node c.n).getLo) s
    have hlive₁ : Live s₁ c.n := by
      rw [Live, hs₁.free]
      exact hlive
    have hl : ((s₁.node c.n).setLo hi).getLo = hi := IoNode.getLo_setLo (by omega)
    have hnode : ∀ x, (s₁.write c.n fun n => n.setLo hi).node x =
        if x = c.n then (s.node c.n).setLo hi else s.node x := fun x => by
      rw [IoMdb.write_node, hs₁.node]
    have hsame : SameLinks s (s₁.write c.n fun n => n.setLo hi) := by
      constructor
      case iospace => exact hs₁.iospace
      case free => exact hs₁.free
      all_goals
        intro x
        rw [hnode]
        split
        · next hx => subst hx; first | rfl | simp
        · rfl
    rw [hs₁.node] at hl
    have hlo' : (s₁.write c.n fun n => n.setLo hi).getLo c.n = hi.toNat := by
      rw [IoMdb.getLo, hnode, if_pos rfl, hl]
    have hhi' : (s₁.write c.n fun n => n.setLo hi).getHi c.n = s.getHi c.n := by
      rw [IoMdb.getHi, hnode, if_pos rfl, IoNode.getHi_setLo, IoMdb.getHi]
    have hgt' : s.getLo c.n < hi.toNat := BitVec.lt_def.mp hgt
    obtain ⟨Q, A', a, b, ht⟩ := h.resized lo.toNat hi.toNat c
      (c.leaveSplit (s.node c.n).getDepth) hsame
      (fun x hx => by rw [hnode, if_neg hx]) (by omega) (by omega) (.inr (by omega))
      (fun i hi' => by simp only [IoMdb.Covers, hlo', hhi']; omega) (by omega) (leaveSplit_marked c)
    refine ⟨_, _, Q, A', a, b, ?_, hcn, ht⟩
    unfold unmapFront
    rw [bind_ok (deref_live hlive)]
    simp only [if_pos hgt]
    rw [bind_ok h1, bind_ok (writeNode_live hlive₁)]
    rfl
  · have hle : hi.toNat ≤ s.getLo c.n := by
      rw [gt_iff_lt, BitVec.lt_def, Nat.not_lt] at hgt
      exact hgt
    obtain ⟨Q, A', a, b, ht⟩ := h.resized lo.toNat hi.toNat c
      (c.leaveSplit (s.node c.n).getDepth) SameNodes.refl.links
      (fun x hx => rfl) (by omega) (by omega) (.inr hle) (fun i hi' => Iff.rfl) (by omega)
      (leaveSplit_marked c)
    refine ⟨_, _, Q, A', a, b, ?_, hcn, ht⟩
    unfold unmapFront
    rw [bind_ok (deref_live hlive)]
    simp only [if_neg hgt]
    rfl

/-- The range begins in or after the node and ends after it; the node is not in a split subtree. -/
lemma back (h : Db s (u ++ A ++ n :: v) e own) (hn : c.n = n) (hlo : s.getLo n < lo.toNat)
    (hhi : s.getHi n < hi.toNat) (hne : s.getLo n < s.getHi n) (hmax : s.getHi n ≤ 65536)
    (hd : (s.node n).getDepth ≤ c.splitDepth) :
    ∃ s' c' Q A' a b, unmapBack lo c s = .ok (c', s') ∧ c'.n = n ∧
      Turned s s' u A v e n own lo.toNat hi.toNat c c' Q A' a b := by
  subst hn
  have hlive : Live s c.n := h.live (by simp)
  have hnd : ¬ (s.node c.n).getDepth > c.splitDepth := BitVec.not_lt.mpr hd
  by_cases hlt : lo < (s.node c.n).getHi
  · obtain ⟨s₁, h1, hs₁⟩ := setIopbm_ok (s.node c.n).getTid lo ((s.node c.n).getHi - lo) s
    have hlive₁ : Live s₁ c.n := by
      rw [Live, hs₁.free]
      exact hlive
    have hlt' : lo.toNat < s.getHi c.n := BitVec.lt_def.mp hlt
    have hh : ((s₁.node c.n).setHi lo).getHi = lo := IoNode.getHi_setHi (by omega)
    have hnode : ∀ x, (s₁.write c.n fun n => n.setHi lo).node x =
        if x = c.n then (s.node c.n).setHi lo else s.node x := fun x => by
      rw [IoMdb.write_node, hs₁.node]
    have hsame : SameLinks s (s₁.write c.n fun n => n.setHi lo) := by
      constructor
      case iospace => exact hs₁.iospace
      case free => exact hs₁.free
      all_goals
        intro x
        rw [hnode]
        split
        · next hx => subst hx; first | rfl | simp
        · rfl
    rw [hs₁.node] at hh
    have hhi' : (s₁.write c.n fun n => n.setHi lo).getHi c.n = lo.toNat := by
      rw [IoMdb.getHi, hnode, if_pos rfl, hh]
    have hlo' : (s₁.write c.n fun n => n.setHi lo).getLo c.n = s.getLo c.n := by
      rw [IoMdb.getLo, hnode, if_pos rfl, IoNode.getLo_setHi, IoMdb.getLo]
    obtain ⟨Q, A', a, b, ht⟩ := h.resized lo.toNat hi.toNat c
      { c with splitDepth := iomdbSupDepth } hsame
      (fun x hx => by rw [hnode, if_neg hx]) (by omega) (by omega) (.inl (by omega))
      (fun i hi' => by simp only [IoMdb.Covers, hlo', hhi']; omega) (by omega) (.inl rfl)
    refine ⟨_, { c with splitDepth := iomdbSupDepth }, Q, A', a, b, ?_, rfl, ht⟩
    unfold unmapBack
    rw [bind_ok (deref_live hlive)]
    simp only [if_pos hlt, if_neg hnd]
    rw [bind_ok h1, bind_ok (writeNode_live hlive₁)]
    rfl
  · have hle : s.getHi c.n ≤ lo.toNat := by
      rw [BitVec.lt_def, Nat.not_lt] at hlt
      exact hlt
    obtain ⟨Q, A', a, b, ht⟩ := h.resized lo.toNat hi.toNat c
      { c with splitDepth := iomdbSupDepth } SameNodes.refl.links
      (fun x hx => rfl) (by omega) (by omega) (.inl hle) (fun i hi' => Iff.rfl)
        (by omega) (.inl rfl)
    refine ⟨_, { c with splitDepth := iomdbSupDepth }, Q, A', a, b, ?_, rfl, ht⟩
    unfold unmapBack
    rw [bind_ok (deref_live hlive)]
    simp only [if_neg hlt, if_neg hnd]
    rfl

/-- The node `n` keeps what lies behind the range, and the new node `m`, which is hooked into the
list of the task only, gets what lies before it. -/
structure Halved (s s' : IoMdb) (l : List Word) (own : Word → List Word) (n m : Word)
    (ps : List Word)
    (lo hi : Word) : Prop where
  tree : TreeOk s' l
  tasks : TasksOk s' own
  live : Live s' m
  new : m ∉ l
  free : s'.free = ps
  iospace : s'.iospace = s.iospace
  other : ∀ x, x ≠ n → x ≠ m → (s'.node x).w1 = (s.node x).w1 ∧ (s'.node x).w2 = (s.node x).w2
  tid_left : s'.getTid m = s.getTid n
  tid_right : s'.getTid n = s.getTid n
  depth_left : (s'.node m).getDepth = (s.node n).getDepth
  depth_right : (s'.node n).getDepth = (s.node n).getDepth
  left : s'.getLo m = s.getLo n ∧ s'.getHi m = lo.toNat
  right : s'.getLo n = hi.toNat ∧ s'.getHi n = s.getHi n

/-- The first half of a split. -/
lemma halve {m : Word} {ps a b : List Word} (h : Db s l e own) (hn : n ∈ l) (hf : s.free = m :: ps)
    (hab : own (s.getTid n) = a ++ n :: b) (hs : SameNodes s s') (hlo : lo.toNat < 131072)
    (hhi : hi.toNat < 65536) :
    ∃ s'', enqThreadList m n ((({ s' with free := ps } : IoMdb).write m fun x =>
        x.setValues (s.node n).getLo lo (s.node n).getTid (s.node n).getDepth false).write n
          fun x => x.setLo hi) = .ok ((), s'') ∧
      Halved s s'' (l ++ [e]) (Function.update own (s.getTid n) (a ++ [m, n] ++ b)) n
          m ps lo hi := by
  have hmf : m ∈ s.free := by rw [hf]; simp
  obtain ⟨hml, hmr⟩ := h.notMem_of_free hmf
  have hmn : m ≠ n := fun he => hml (by simp [he, hn])
  have hps : m ∉ ps := by
    have hnd := h.free
    rw [hf] at hnd
    exact (List.nodup_cons.mp hnd).1
  have hm0 : m ≠ 0 := fun he => h.zero (he ▸ hmf)
  let s₃ : IoMdb := (({ s' with free := ps } : IoMdb).write m fun x =>
    x.setValues (s.node n).getLo lo (s.node n).getTid (s.node n).getDepth false).write n
      fun x => x.setLo hi
  have hnode : ∀ x, x ≠ n → x ≠ m → s₃.node x = s.node x := fun x hxn hxm => by
    simp only [s₃, IoMdb.write_node, if_neg hxn, if_neg hxm, hs.node]
  have hnn : s₃.node n = (s.node n).setLo hi := by
    simp only [s₃, IoMdb.write_node, if_pos, if_neg hmn.symm, hs.node]
  have hnm : s₃.node m =
      (s.node m).setValues (s.node n).getLo lo (s.node n).getTid (s.node n).getDepth false := by
    simp only [s₃, IoMdb.write_node, if_pos, if_neg hmn, hs.node]
  have hlive : ∀ x, Live s x → Live s₃ x := fun x hx =>
    ⟨hx.1, fun hx' => hx.2 (by rw [hf]; exact List.mem_cons_of_mem _ hx')⟩
  have htree : TreeOk s₃ (l ++ [e]) := by
    refine h.tree.congr (fun x hx => ?_) (fun x hx => ?_) fun x hx => hlive x (h.tree.live x hx)
    all_goals
      have hxm : x ≠ m := fun he => hml (he ▸ hx)
      by_cases hxn : x = n
      · rw [hxn, hnn]
        rfl
      · rw [hnode x hxn hxm]
  have htasks : TasksOk s₃ own := by
    refine h.tasks.congr hs.iospace fun t ht x hx => ?_
    have hxm : x ≠ m := fun he => hmr t ht (he ▸ hx)
    have hxl := hlive x (h.tasks.live t ht x hx)
    by_cases hxn : x = n
    · rw [hxn, hnn]
      exact ⟨rfl, rfl, IoNode.getTid_setLo, rfl, hxn ▸ hxl⟩
    · rw [hnode x hxn hxm]
      exact ⟨rfl, rfl, rfl, rfl, hxl⟩
  have ht : s₃.iospace (s.getTid n) ≠ 0 := htasks.task_of_mem (x := n) (by rw [hab]; simp)
  obtain ⟨X, z, hXz⟩ : ∃ X z, s₃.iospace (s.getTid n) :: a = X ++ [z] :=
    ⟨_, _, (List.dropLast_append_getLast (List.cons_ne_nil _ a)).symm⟩
  have hring : ringOf s₃ own (s.getTid n) = X ++ z :: n :: b := by
    rw [ringOf, hab, ← List.cons_append, hXz]
    simp
  have hz := htasks.nextSt_of_split ht hring
  have hlivem : Live s₃ m := ⟨hm0, hps⟩
  obtain ⟨s₄, h4, htasks₄, hs₄⟩ := htasks.enq ht hring
    (fun t' ht' hx => hmr t' (by rwa [← hs.iospace]) (by
      rw [ringOf] at hx ⊢
      rwa [← hs.iospace])) hlivem
    (by rw [hnm, IoNode.getTid_setValues, IoNode.getTid_and, IoMdb.getTid])
    (by rw [hnm, IoNode.getDummy_setValues]; rfl)
  rw [hz] at h4
  have htail : (X ++ z :: m :: n :: b).tail = a ++ [m, n] ++ b := by
    have : X ++ z :: m :: n :: b = (X ++ [z]) ++ m :: n :: b := by simp
    rw [this, ← hXz]
    simp
  rw [htail] at htasks₄
  have hw : ∀ x, (s₄.node x).w1 = (s₃.node x).w1 ∧ (s₄.node x).w2 = (s₃.node x).w2 :=
    fun x => ⟨hs₄.w1 x, hs₄.w2 x⟩
  have hgetLo : ∀ x, (s₄.node x).getLo = (s₃.node x).getLo := fun x => by
    rw [IoNode.getLo, (hw x).1, IoNode.getLo]
  have hgetTid : ∀ x, (s₄.node x).getTid = (s₃.node x).getTid := fun x => by
    rw [IoNode.getTid, (hw x).1, IoNode.getTid]
  have hgetHi : ∀ x, (s₄.node x).getHi = (s₃.node x).getHi := fun x => by
    rw [IoNode.getHi, (hw x).2, IoNode.getHi]
  have hgetDepth : ∀ x, (s₄.node x).getDepth = (s₃.node x).getDepth := fun x => by
    rw [IoNode.getDepth, (hw x).2, IoNode.getDepth]
  refine ⟨s₄, h4, htree.sameTree hs₄, htasks₄, ?_, hml, hs₄.free, hs₄.iospace.trans hs.iospace,
    fun x hxn hxm => ?_, ?_, ?_, ?_, ?_, ⟨?_, ?_⟩, ⟨?_, ?_⟩⟩
  · rw [Live, hs₄.free]
    exact hlivem
  · rw [(hw x).1, (hw x).2, hnode x hxn hxm]
    exact ⟨rfl, rfl⟩
  · rw [IoMdb.getTid, hgetTid, hnm, IoNode.getTid_setValues, IoNode.getTid_and, IoMdb.getTid]
  · rw [IoMdb.getTid, hgetTid, hnn, IoNode.getTid_setLo, IoMdb.getTid]
  · rw [hgetDepth, hnm, IoNode.getDepth_setValues, IoNode.getDepth_and]
  · rw [hgetDepth, hnn, IoNode.getDepth_setLo]
  · rw [IoMdb.getLo, hgetLo, hnm, IoNode.getLo_setValues IoNode.getLo_lt, IoMdb.getLo]
  · rw [IoMdb.getHi, hgetHi, hnm, IoNode.getHi_setValues hlo]
  · rw [IoMdb.getLo, hgetLo, hnn, IoNode.getLo_setLo hhi]
  · rw [IoMdb.getHi, hgetHi, hnn, IoNode.getHi_setLo, IoMdb.getHi]

/-- The second half of a split: the new node is in the mapping tree as well. -/
lemma turned_of_halved {m : Word} {ps a b X Y : List Word} {s₁ s₂ : IoMdb} {c' : Cut}
    (h : Db s (u ++ A ++ n :: v) e own) (hf : s.free = m :: ps)
    (hab : own (s.getTid n) = a ++ n :: b)
    (hh : Halved s s₁ (u ++ A ++ n :: v ++ [e])
      (Function.update own (s.getTid n) (a ++ [m, n] ++ b)) n m ps lo hi)
    (hs : SameTasks s₁ s₂) (htree : TreeOk s₂ (u ++ (X ++ m :: (Y ++ [n])) ++ v ++ [e]))
    (hXY : A = X ++ Y) (hX : A ≠ [] → X ≠ []) (hlo : s.getLo n < lo.toNat)
      (hle : lo.toNat ≤ hi.toNat)
    (hhi : hi.toNat < s.getHi n)
    (hm : Marked s n lo.toNat hi.toNat c c' (X ++ m :: (Y ++ [n]))) :
    Turned s s₂ u A v e n own lo.toNat hi.toNat c c' [m, n] (X ++ m :: (Y ++ [n])) a b := by
  have hml : m ∉ u ++ A ++ n :: v ++ [e] := hh.new
  have hmn : m ≠ n := fun he => hml (by simp [he])
  have hgetLo : ∀ x, s₂.getLo x = s₁.getLo x := fun x => by
    rw [IoMdb.getLo, IoNode.getLo, hs.w1, IoMdb.getLo, IoNode.getLo]
  have hgetHi : ∀ x, s₂.getHi x = s₁.getHi x := fun x => by
    rw [IoMdb.getHi, IoNode.getHi, hs.w2, IoMdb.getHi, IoNode.getHi]
  have hgetTid : ∀ x, s₂.getTid x = s₁.getTid x := fun x => by
    rw [IoMdb.getTid, IoNode.getTid, hs.w1, IoMdb.getTid, IoNode.getTid]
  have hgetDepth : ∀ x, (s₂.node x).getDepth = (s₁.node x).getDepth := fun x => by
    rw [IoNode.getDepth, hs.w2, IoNode.getDepth]
  have hleft : s₂.getLo m = s.getLo n ∧ s₂.getHi m = lo.toNat := by
    rw [hgetLo, hgetHi]
    exact hh.left
  have hright : s₂.getLo n = hi.toNat ∧ s₂.getHi n = s.getHi n := by
    rw [hgetLo, hgetHi]
    exact hh.right
  have hmem : ∀ x ∈ [m, n], x = m ∨ x = n := fun x hx => by simpa using hx
  refine ⟨?_, hab, ?_, .split hXY hX, hm⟩
  · refine ⟨fun x hxn hxf => ?_, hs.iospace.trans hh.iospace, fun x hx => ?_, fun x hx => ?_,
      fun x hx => ?_, fun x hx => ?_, fun x hx => ?_, fun i hi' => ?_, fun h1 h2 => ?_, fun _ => ?_⟩
    · have hxm : x ≠ m := fun he => hxf (by rw [he, hf]; simp)
      rw [hs.w1, hs.w2]
      exact hh.other x hxn hxm
    · rcases hmem x hx with rfl | rfl
      · exact .inr (by rw [hf]; simp)
      · exact .inl rfl
    · rw [hgetTid]
      rcases hmem x hx with rfl | rfl
      · exact hh.tid_left
      · exact hh.tid_right
    · rw [IoMdb.getDepth, hgetDepth, IoMdb.getDepth]
      rcases hmem x hx with rfl | rfl
      · rw [hh.depth_left]
      · rw [hh.depth_right]
    · rcases hmem x hx with rfl | rfl <;> omega
    · rcases hmem x hx with rfl | rfl <;> omega
    · have hcov : (∃ x ∈ [m, n], s₂.Covers x i) ↔ s₂.Covers m i ∨ s₂.Covers n i := by simp
      rw [hcov, IoMdb.Covers, IoMdb.Covers, IoMdb.Covers]
      omega
    · omega
    · refine ⟨by simp, fun x hx => ?_⟩
      rw [hf]
      rw [hs.free, hh.free] at hx
      exact List.mem_cons_of_mem _ hx
  · refine ⟨htree, hh.tasks.sameTasks hs, fun x hx => ?_, ?_, ?_, ?_⟩
    · have hxm : x = m ∨ x ∈ u ++ A ++ n :: v := by
        rw [hXY]
        simp only [List.mem_append, List.mem_cons] at hx ⊢
        tauto
      have htid : s₂.getTid x = s.getTid (if x = m then n else x) := by
        rw [hgetTid]
        split
        · next he => rw [he, hh.tid_left]
        · next hne =>
            by_cases hxn : x = n
            · rw [hxn, hh.tid_right]
            · rw [IoMdb.getTid, IoNode.getTid, (hh.other x hxn hne).1, IoMdb.getTid, IoNode.getTid]
      rw [htid]
      split
      · next he =>
          rw [Function.update_self, he]
          simp
      · next hne =>
          have hxo := h.mem x (hxm.resolve_left hne)
          by_cases ht : s.getTid x = s.getTid n
          · rw [ht] at hxo ⊢
            rw [Function.update_self]
            rw [hab] at hxo
            simp only [List.mem_append, List.mem_cons] at hxo ⊢
            tauto
          · rw [Function.update_of_ne ht]
            exact hxo
    · rw [hs.free, hh.free]
      have hnd := h.free
      rw [hf] at hnd
      exact (List.nodup_cons.mp hnd).2
    · rw [hs.free, hh.free]
      intro h0
      exact h.zero (by rw [hf]; exact List.mem_cons_of_mem _ h0)
    · have hen : e ≠ n := fun he => by
        have hnd := h.tree.nodup
        rw [he] at hnd
        exact (List.nodup_append.mp hnd).2.2 n (by simp) n (by simp) rfl
      have hem : e ≠ m := fun he => hml (by simp [he])
      rw [hgetDepth, IoNode.getDepth, (hh.other e hen hem).2]
      exact h.terminator

end Db

/-- The run does not go wrong, but it may stop for lack of memory. -/
def Meets {α : Type} (r : Except IoStop (α × IoMdb)) (P : α → IoMdb → Prop) : Prop :=
  match r with
  | .ok (a, s) => P a s
  | .error e => e = .memory

namespace Meets

variable {α β : Type} {P Q : α → IoMdb → Prop} {R : β → IoMdb → Prop}
    {r : Except IoStop (α × IoMdb)}
  {m : IoM α} {f : α → IoM β}

lemma ok {a : α} (h : P a s) : Meets (.ok (a, s)) P := h

lemma of_eq {a : α} (hr : r = .ok (a, s)) (h : P a s) : Meets r P := hr ▸ h

lemma mono (h : Meets r P) (hPQ : ∀ a s, P a s → Q a s) : Meets r Q := by
  match r, h with
  | .ok (a, s), h => exact hPQ a s h
  | .error e, h => exact h

lemma bind (h : Meets (m s) fun a s' => Meets (f a s') R) : Meets ((m >>= f) s) R := by
  show Meets ((m s).bind fun p => f p.1 p.2) R
  match m s, h with
  | .ok (a, s'), h => exact h
  | .error e, h => exact h

end Meets

lemma sameTasks_parent : SameTasks s (s.write p fun n => { n with parent := q }) :=
  ⟨fun _ => IoMdb.write_field_same IoNode.w1 fun _ => rfl,
    fun _ => IoMdb.write_field_same IoNode.w2 fun _ => rfl,
    fun _ => IoMdb.write_field_same IoNode.nextSt fun _ => rfl,
    fun _ => IoMdb.write_field_same IoNode.prevSt fun _ => rfl, rfl, rfl⟩

lemma TreeOk.parent (h : TreeOk s l) : TreeOk (s.write p fun n => { n with parent := q }) l :=
  h.congr (fun _ _ => IoMdb.write_field_same IoNode.next fun _ => rfl)
    (fun _ _ => IoMdb.write_field_same IoNode.prev fun _ => rfl) fun x hx => h.live x hx

/-- What a turn of the loop may rely on at the node `n`: it is not cut at its very end, it is not
the first of the tree if something is to be done in front of it, and it is not moved to the left. -/
structure MayTurn (s : IoMdb) (u A : List Word) (n : Word) (lo hi : Nat) (c : Cut) : Prop where
  nonempty : s.getLo n < s.getHi n
  bounded : s.getHi n ≤ 65536
  notEnd : ¬ (s.getLo n < lo ∧ s.getHi n = hi)
  notFirst : u ++ A = [] →
    ¬ (lo ≤ s.getLo n ∧ s.getHi n ≤ hi) ∧ ¬ (s.getLo n < lo ∧ hi < s.getHi n)
  notMoved : s.getLo n < lo → s.getHi n < hi → (s.node n).getDepth ≤ c.splitDepth
  leftEnd : c.splitDepth < (s.node n).getDepth → c.nLeftEnd ∈ A

namespace Db

/-- **The range lies inside the node**, which is split. -/
lemma split (h : Db s (u ++ A ++ n :: v) e own) (hn : c.n = n) (hlo : s.getLo n < lo.toNat)
    (hle : lo.toNat ≤ hi.toNat) (hhi : hi.toNat < s.getHi n)
    (hc : MayTurn s u A n lo.toNat hi.toNat c) :
    Meets (unmapSplit lo hi c s) fun c' s' => c'.n = n ∧
      ∃ Q A' a b, Turned s s' u A v e n own lo.toNat hi.toNat c c' Q A' a b := by
  subst hn
  have hmem : c.n ∈ u ++ A ++ c.n :: v := by simp
  have hlive : Live s c.n := h.live hmem
  have hmax := hc.bounded
  obtain ⟨a, b, hab⟩ := h.ring_split hmem
  obtain ⟨s₁, h1, hs₁⟩ := setIopbm_ok (s.node c.n).getTid lo (hi - lo) s
  unfold unmapSplit
  rw [bind_ok (deref_live hlive), bind_ok h1]
  rcases hf : s.free with _ | ⟨m, ps⟩
  · -- there is no buffer left
    have h2 : mdbAllocNode s₁ = .error .memory := by rw [mdbAllocNode, hs₁.free, hf]
    refine Meets.bind ?_
    rw [h2]
    rfl
  have h2 : mdbAllocNode s₁ = .ok (m, { s₁ with free := ps }) := by rw [mdbAllocNode, hs₁.free, hf]
  have hmf : m ∈ s.free := by rw [hf]; simp
  have hml : m ∉ u ++ A ++ c.n :: v ++ [e] := (h.notMem_of_free hmf).1
  have hmn : c.n ≠ m := fun he => hml (by simp [← he])
  have hlive₂ : Live ({ s₁ with free := ps } : IoMdb) c.n :=
    ⟨hlive.1, fun hx => hlive.2 (by rw [hf]; exact List.mem_cons_of_mem _ hx)⟩
  have hlivem : Live ({ s₁ with free := ps } : IoMdb) m := by
    refine ⟨fun h0 => h.zero (h0 ▸ hmf), ?_⟩
    have hnd := h.free
    rw [hf] at hnd
    exact (List.nodup_cons.mp hnd).1
  have hlo17 : lo.toNat < 131072 := by omega
  have hhi16 : hi.toNat < 65536 := by omega
  obtain ⟨s₃, h3, hh⟩ := h.halve hmem hf hab hs₁ hlo17 hhi16
  have hnode₂ : ({ s₁ with free := ps } : IoMdb).node c.n = s.node c.n := by
    show s₁.node c.n = _
    rw [hs₁.node]
  rw [bind_ok h2, bind_ok (deref_live hlive₂), hnode₂, bind_ok (writeNode_live hlivem),
    bind_ok (writeNode_live (by simpa using hlive₂)), bind_ok h3]
  have hlive₃ : ∀ x ∈ u ++ A ++ c.n :: v ++ [e], Live s₃ x := hh.tree.live
  rw [bind_ok (deref_live (hlive₃ c.n (by simp))), hh.depth_right]
  by_cases hd : (s.node c.n).getDepth > c.splitDepth
  · -- in a split subtree: behind the end of the left part
    rw [if_pos hd]
    obtain ⟨X, Y, rfl⟩ := List.append_of_mem (hc.leftEnd hd)
    obtain ⟨q, v', hq⟩ : ∃ q v', Y ++ c.n :: v ++ [e] = q :: v' := by
      cases Y <;> exact ⟨_, _, rfl⟩
    have hlist : u ++ (X ++ c.nLeftEnd :: Y) ++ c.n :: v ++
        [e] = u ++ X ++ c.nLeftEnd :: q :: v' := by
      rw [← hq]
      simp
    have hh' := hh
    rw [hlist] at hh'
    obtain ⟨s₄, h4, htree₄, hs₄⟩ := hh'.tree.enq hh'.new hh'.live
    have hlist' : u ++ X ++ c.nLeftEnd :: m :: q :: v' =
        u ++ ((X ++ [c.nLeftEnd]) ++ m :: (Y ++ [c.n])) ++ v ++ [e] := by
      rw [← hq]
      simp
    rw [hlist'] at htree₄
    have hl : Live s₄ c.nLeftEnd := htree₄.live _ (by simp)
    have hm : Live s₄ m := htree₄.live _ (by simp)
    rw [bind_ok h4, bind_ok (deref_live hl), bind_ok (deref_live hm), bind_ok (setParent_live hm)]
    refine Meets.ok ⟨rfl, _, _, a, b, h.turned_of_halved hf hab hh (hs₄.trans sameTasks_parent)
      htree₄.parent (by simp) (by simp) hlo hle hhi (.inr (.inl ⟨hd, rfl, .inr (by simp)⟩))⟩
  · -- elsewhere: in front of the node
    rw [if_neg hd]
    have hne : u ++ A ≠ [] := fun hnil => (hc.notFirst hnil).2 ⟨hlo, hhi⟩
    obtain ⟨w, p, hw⟩ : ∃ w p, u ++ A = w ++ [p] :=
      ⟨_, _, (List.dropLast_append_getLast hne).symm⟩
    have hlist : u ++ A ++ c.n :: v ++ [e] = w ++ p :: c.n :: (v ++ [e]) := by
      rw [hw]
      simp
    have hh' := hh
    rw [hlist] at hh'
    obtain ⟨s₄, h4, htree₄, hs₄⟩ := hh'.tree.enq hh'.new hh'.live
    have hlist' : w ++ p :: m :: c.n :: (v ++ [e]) = u ++
        (A ++ m :: ([] ++ [c.n])) ++ v ++ [e] := by
      have h5 : w ++ p :: m :: c.n :: (v ++ [e]) = (w ++ [p]) ++ m :: c.n :: (v ++ [e]) := by simp
      rw [h5, ← hw]
      simp
    rw [hlist'] at htree₄
    have hlc : Live s₄ c.n := htree₄.live _ (by simp)
    have hlm : Live s₄ m := htree₄.live _ (by simp)
    have hprev := hh'.tree.links.2
    rw [bind_ok (deref_live (hlive₃ c.n (by simp))), hprev, bind_ok h4, bind_ok (deref_live hlc),
      bind_ok (setParent_live hlm), bind_ok (deref_live (by simpa using hlc))]
    have hdepth : ((s₄.write m fun y => { y with parent := (s₄.node c.n).parent }).node
      c.n).getDepth =
        (s.node c.n).getDepth := by
      rw [IoMdb.write_node_ne hmn, IoNode.getDepth, hs₄.w2, ← IoNode.getDepth, hh.depth_right]
    refine Meets.ok ⟨rfl, _, _, a, b, h.turned_of_halved hf hab hh (hs₄.trans sameTasks_parent)
      htree₄.parent (by simp) id hlo hle hhi ?_⟩
    exact .inr (.inr ⟨hlo, hhi, hdepth, by simp⟩)

/-- **One turn** of the loop of `unmap_subtree`. -/
lemma unmapNode (h : Db s (u ++ A ++ n :: v) e own) (hn : c.n = n) (hle : lo.toNat ≤ hi.toNat)
    (hc : MayTurn s u A n lo.toNat hi.toNat c) :
    Meets (unmapNode lo hi c s) fun c' s' => c'.n = (v ++ [e]).head (by simp) ∧
      ∃ Q A' a b, Turned s s' u A v e n own lo.toNat hi.toNat c c' Q A' a b := by
  have hne := hc.nonempty
  have hmax := hc.bounded
  obtain ⟨q, v', hq⟩ : ∃ q v', v ++ [e] = q :: v' := by cases v <;> exact ⟨_, _, rfl⟩
  have hlive : Live s c.n := hn ▸ h.live (by simp)
  -- what comes last in a turn: the link of a node that has `v` behind it
  have hstep : ∀ {s' : IoMdb} {c' : Cut} {w : List Word} {own' : Word → List Word},
      Db s' (w ++ c'.n :: v) e own' → Meets ((do return { c' with n := (← deref c'.n).next }) s')
        fun c'' s'' => c''.n = (v ++ [e]).head (by simp) ∧ s'' = s' ∧
          c''.splitDepth = c'.splitDepth ∧ c''.nLeftEnd = c'.nLeftEnd := by
    intro s' c' w own' h'
    have htree : TreeOk s' (w ++ c'.n :: q :: v') := by
      have := h'.tree
      rw [← hq]
      simpa using this
    rw [bind_ok (deref_live (htree.live _ (by simp))), htree.links.1]
    exact Meets.ok ⟨by simp [hq], rfl, rfl, rfl⟩
  have hmarked : ∀ {c' c'' : Cut} {A' : List Word}, Marked s n lo.toNat hi.toNat c c' A' →
      c''.splitDepth = c'.splitDepth → c''.nLeftEnd = c'.nLeftEnd →
      Marked s n lo.toNat hi.toNat c c'' A' := by
    intro c' c'' A' hm h1 h2
    rw [Marked, h1, h2]
    exact hm
  -- the cases in which the node stays
  have hstays : ∀ {m : IoM Cut}, ¬ (lo.toNat ≤ s.getLo n ∧ s.getHi n ≤ hi.toNat) →
      (Meets (m s) fun c' s' => c'.n = n ∧
        ∃ Q A' a b, Turned s s' u A v e n own lo.toNat hi.toNat c c' Q A' a b) →
      Meets ((do let c' ← m; return { c' with n := (← deref c'.n).next }) s) fun c' s' =>
        c'.n = (v ++ [e]).head (by simp) ∧
          ∃ Q A' a b, Turned s s' u A v e n own lo.toNat hi.toNat c c' Q A' a b := by
    intro m hno hm
    refine Meets.bind (hm.mono fun c' s' hc' => ?_)
    obtain ⟨hcn, Q, A', a, b, ht⟩ := hc'
    have hlast : ∃ w, u ++ A' ++ v = w ++ c'.n :: v := by
      have hnQ := (ht.turn.stays hno).1
      rw [hcn]
      cases ht.placed with
      | gone => simp at hnQ
      | kept => exact ⟨u ++ A, by simp⟩
      | @split X Y m' hXY _ => exact ⟨u ++ (X ++ m' :: Y), by simp⟩
    obtain ⟨w, hw⟩ := hlast
    have hdb := ht.db
    rw [hw] at hdb
    refine (hstep hdb).mono fun c'' s'' hc'' => ?_
    obtain ⟨h1, rfl, h2, h3⟩ := hc''
    exact ⟨h1, Q, A', a, b, { ht with marked := hmarked ht.marked h2 h3 }⟩
  unfold Hazelnut.Io.unmapNode
  rw [bind_ok (deref_live hlive), hn]
  by_cases h1 : lo ≤ (s.node n).getLo
  · have h1' : lo.toNat ≤ s.getLo n := BitVec.le_def.mp h1
    by_cases h2 : hi ≥ (s.node n).getHi
    · have h2' : s.getHi n ≤ hi.toNat := BitVec.le_def.mp h2
      have hnil : u ++ A ≠ [] := fun hnil => (hc.notFirst hnil).1 ⟨h1', h2'⟩
      obtain ⟨w, p, hw⟩ : ∃ w p, u ++ A = w ++ [p] :=
        ⟨_, _, (List.dropLast_append_getLast hnil).symm⟩
      have hlist : u ++ A ++ n :: v = w ++ p :: n :: v := by
        rw [hw]
        simp
      have h' := h
      rw [hlist] at h'
      obtain ⟨s', c', a, b, hrun, hp, hab, hturn, hdb, hc'⟩ := h'.whole hn h1' h2'
      simp only [if_pos h1, if_pos h2]
      rw [bind_ok hrun]
      rw [← hp] at hdb
      refine (hstep hdb).mono fun c'' s'' hc'' => ?_
      obtain ⟨h3, rfl, h4, h5⟩ := hc''
      have hm : Marked s n lo.toNat hi.toNat c c' A := by
        rw [hc']
        exact leaveSplit_marked c
      refine ⟨h3, [], A, a, b, hturn, hab, ?_, .gone, hmarked hm h4 h5⟩
      rw [hp] at hdb
      have hlist' : u ++ A ++ v = w ++ p :: v := by
        rw [hw]
        simp
      rw [hlist']
      simpa using hdb
    · have h2' : hi.toNat < s.getHi n := by
        rw [ge_iff_le, BitVec.le_def, Nat.not_le] at h2
        exact h2
      simp only [if_pos h1, if_neg h2]
      refine hstays (by omega) ?_
      obtain ⟨s', c', Q, A', a, b, hrun, hcn, ht⟩ :=
        @front _ _ _ _ _ _ _ lo _ _ h hn h1' h2' hne hmax
      exact Meets.of_eq hrun ⟨hcn, Q, A', a, b, ht⟩
  · have h1' : s.getLo n < lo.toNat := by
      rw [BitVec.le_def, Nat.not_le] at h1
      exact h1
    have hend := hc.notEnd
    by_cases h2 : hi > (s.node n).getHi
    · have h2' : s.getHi n < hi.toNat := BitVec.lt_def.mp h2
      simp only [if_neg h1, if_pos h2]
      refine hstays (by omega) ?_
      obtain ⟨s', c', Q, A', a, b, hrun, hcn, ht⟩ :=
        @back _ _ _ _ _ _ _ lo _ _ h hn h1' h2' hne hmax (hc.notMoved h1' h2')
      exact Meets.of_eq hrun ⟨hcn, Q, A', a, b, ht⟩
    · have h2' : hi.toNat ≤ s.getHi n := by
        rw [gt_iff_lt, BitVec.lt_def, Nat.not_lt] at h2
        exact h2
      simp only [if_neg h1, if_neg h2]
      exact hstays (by omega) (h.split hn h1' hle (by omega) hc)

end Db

end Hazelnut.Io
