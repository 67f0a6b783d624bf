import Mathlib.Data.List.Flatten
import Hazelnut.Apps.Malloc
import Hazelnut.Lib.Intervals
import Hazelnut.Lib.Linked

/-!
Safety of `malloc` and `free` of user programs.
-/

namespace Hazelnut

open Bytes Nodes Linked Intervals

variable {m m' : Nat → Nat} {x y v w : Nat}

/-! ### Nodes -/

/-- Two nodes are the same or do not overlap. -/
def Clear (x y : Nat) : Prop := x = y ∨ x + 16 ≤ y ∨ y + 16 ≤ x

lemma Clear.symm (h : Clear x y) : Clear y x := by
  unfold Clear at *
  omega

/-- A field of a node that is written, and the fields of nodes after that. -/
lemma ld_st_node {k j : Nat} (h : Clear x y) (hk : k = 0 ∨ k = 4 ∨ k = 8 ∨ k = 12)
    (hj : j = 0 ∨ j = 4 ∨ j = 8 ∨ j = 12) (hne : k ≠ j ∨ x ≠ y) :
    ld (st m (x + k) v) (y + j) = ld m (y + j) := by
  unfold Clear at h
  exact ld_st_of_disjoint (by omega)

section fields

variable (h : Clear x y)
include h

lemma base_setBase : base (setBase m x v) y = if x = y then v % 2 ^ 32 else base m y := by
  split_ifs with he
  · subst he
    exact ld_st_self
  · exact ld_st_node (k := 0) (j := 0) h (by simp) (by simp) (.inr he)

lemma base_setSize : base (setSize m x v) y = base m y :=
  ld_st_node (k := 4) (j := 0) h (by simp) (by simp) (by simp)

lemma base_setNext : base (setNext m x v) y = base m y :=
  ld_st_node (k := 8) (j := 0) h (by simp) (by simp) (by simp)

lemma base_setPrev : base (setPrev m x v) y = base m y :=
  ld_st_node (k := 12) (j := 0) h (by simp) (by simp) (by simp)

lemma size_setBase : size (setBase m x v) y = size m y :=
  ld_st_node (k := 0) (j := 4) h (by simp) (by simp) (by simp)

lemma size_setSize : size (setSize m x v) y = if x = y then v % 2 ^ 32 else size m y := by
  split_ifs with he
  · subst he
    exact ld_st_self
  · exact ld_st_node (k := 4) (j := 4) h (by simp) (by simp) (.inr he)

lemma size_setNext : size (setNext m x v) y = size m y :=
  ld_st_node (k := 8) (j := 4) h (by simp) (by simp) (by simp)

lemma size_setPrev : size (setPrev m x v) y = size m y :=
  ld_st_node (k := 12) (j := 4) h (by simp) (by simp) (by simp)

lemma next_setBase : next (setBase m x v) y = next m y :=
  ld_st_node (k := 0) (j := 8) h (by simp) (by simp) (by simp)

lemma next_setSize : next (setSize m x v) y = next m y :=
  ld_st_node (k := 4) (j := 8) h (by simp) (by simp) (by simp)

lemma next_setNext : next (setNext m x v) y = if x = y then v % 2 ^ 32 else next m y := by
  split_ifs with he
  · subst he
    exact ld_st_self
  · exact ld_st_node (k := 8) (j := 8) h (by simp) (by simp) (.inr he)

lemma next_setPrev : next (setPrev m x v) y = next m y :=
  ld_st_node (k := 12) (j := 8) h (by simp) (by simp) (by simp)

lemma prev_setBase : prev (setBase m x v) y = prev m y :=
  ld_st_node (k := 0) (j := 12) h (by simp) (by simp) (by simp)

lemma prev_setSize : prev (setSize m x v) y = prev m y :=
  ld_st_node (k := 4) (j := 12) h (by simp) (by simp) (by simp)

lemma prev_setNext : prev (setNext m x v) y = prev m y :=
  ld_st_node (k := 8) (j := 12) h (by simp) (by simp) (by simp)

lemma prev_setPrev : prev (setPrev m x v) y = if x = y then v % 2 ^ 32 else prev m y := by
  split_ifs with he
  · subst he
    exact ld_st_self
  · exact ld_st_node (k := 12) (j := 12) h (by simp) (by simp) (.inr he)

end fields

lemma field_lt : base m x < 2 ^ 32 ∧ size m x < 2 ^ 32 ∧ next m x < 2 ^ 32 ∧ prev m x < 2 ^ 32 :=
  ⟨ld_lt, ld_lt, ld_lt, ld_lt⟩

/-- Two nodes do not overlap. -/
def Off (x y : Nat) : Prop := x + 16 ≤ y ∨ y + 16 ≤ x

instance : Std.Symm Off := ⟨fun _ _ h => h.symm⟩

lemma Off.ne (h : Off x y) : x ≠ y := by
  unfold Off at h
  omega

lemma Off.clear (h : Off x y) : Clear x y := .inr h

variable (L : Layout) {tmp sz : Nat}

/-- The nodes of two lists do not overlap. -/
lemma clear_of_pairwise {l : List Nat} (h : l.Pairwise Off) (hx : x ∈ l) (hy : y ∈ l) :
    Clear x y := by
  by_cases hne : x = y
  · exact .inl hne
  · exact (h.forall hx hy hne).clear

section take

variable {B A : Nat} (hd : [tmp, B, L.aHead, A].Pairwise Off) (hB : base m tmp = B)
  (hA : next m L.aHead = A)
include hd hB hA

/-- `takeBlock` with what it reads. -/
lemma takeBlock_eq : takeBlock L tmp sz m =
    let m := setSize (setBase m B (B + 16)) B sz
    let m := setSize (setBase m tmp (B + (sz + 16))) tmp (size m tmp + 2 ^ 32 - (sz + 16))
    let m := setPrev (setNext m B A) B L.aHead
    let m := setNext (setPrev m A B) L.aHead B
    (base m B, m) := by
  have hc : ∀ x ∈ [tmp, B, L.aHead, A], ∀ y ∈ [tmp, B, L.aHead, A], Clear x y :=
    fun x hx y hy => clear_of_pairwise hd hx hy
  simp only [List.mem_cons, List.not_mem_nil, or_false, forall_eq_or_imp, forall_eq] at hc
  obtain ⟨⟨ctt, ctB, cta, ctA⟩, ⟨cBt, cBB, cBa, cBA⟩, ⟨cat, caB, caa, caA⟩, -⟩ := hc
  simp only [List.pairwise_cons, List.mem_cons, List.not_mem_nil, or_false, forall_eq_or_imp,
    forall_eq] at hd
  obtain ⟨⟨h1, -, -⟩, ⟨h4, -⟩, -⟩ := hd
  have n1 : B ≠ tmp := h1.ne.symm
  have n4 : B ≠ L.aHead := h4.ne
  simp (disch := assumption) only [takeBlock, hB, hA, base_setBase, base_setSize, size_setBase,
    size_setSize, next_setBase, next_setSize, next_setNext, next_setPrev, if_neg n1, if_neg n4]

/-- What `takeBlock` writes. -/
lemma takeBlock_fields (hsz : sz + 16 ≤ size m tmp) (hend : B + (sz + 16) < 2 ^ 32)
    (ha : L.aHead < 2 ^ 32) :
    (takeBlock L tmp sz m).1 = B + 16 ∧
    ∀ y, Clear tmp y → Clear B y → Clear L.aHead y → Clear A y →
      base (takeBlock L tmp sz m).2 y =
        (if tmp = y then B + (sz + 16) else if B = y then B + 16 else base m y) ∧
      size (takeBlock L tmp sz m).2 y =
        (if tmp = y then size m tmp - (sz + 16) else if B = y then sz else size m y) ∧
      next (takeBlock L tmp sz m).2 y =
        (if L.aHead = y then B else if B = y then A else next m y) ∧
      prev (takeBlock L tmp sz m).2 y =
        (if A = y then B else if B = y then L.aHead else prev m y) := by
  have hS := (field_lt (m := m) (x := tmp)).2.1
  have hAlt : A < 2 ^ 32 := hA ▸ (field_lt (m := m) (x := L.aHead)).2.2.1
  have e1 : (B + 16) % 2 ^ 32 = B + 16 := Nat.mod_eq_of_lt (by omega)
  have e2 : (B + (sz + 16)) % 2 ^ 32 = B + (sz + 16) := Nat.mod_eq_of_lt hend
  have e3 : (size m tmp + 2 ^ 32 - (sz + 16)) % 2 ^ 32 = size m tmp - (sz + 16) := by omega
  have e4 : sz % 2 ^ 32 = sz := Nat.mod_eq_of_lt (by omega)
  have e5 : B % 2 ^ 32 = B := Nat.mod_eq_of_lt (by omega)
  have e6 : A % 2 ^ 32 = A := Nat.mod_eq_of_lt hAlt
  have e7 : L.aHead % 2 ^ 32 = L.aHead := Nat.mod_eq_of_lt ha
  have hc : ∀ x ∈ [tmp, B, L.aHead, A], Clear x B :=
    fun x hx => clear_of_pairwise hd hx (by simp)
  have hBt : Clear B tmp := clear_of_pairwise hd (by simp) (by simp)
  simp only [List.mem_cons, List.not_mem_nil, or_false, forall_eq_or_imp, forall_eq] at hc
  obtain ⟨ctB, cBB, caB, cAB⟩ := hc
  have n1 : B ≠ tmp := ((List.pairwise_cons.mp hd).1 B (by simp)).ne.symm
  rw [takeBlock_eq L hd hB hA]
  constructor
  · simp (disch := assumption) only [base_setNext, base_setPrev, base_setSize, base_setBase,
      if_neg n1.symm, if_true, e1]
  · intro y ct cB ca cA
    simp only
    refine ⟨?_, ?_, ?_, ?_⟩
    · simp (disch := assumption) only [base_setNext, base_setPrev, base_setSize,
        base_setBase, e1, e2]
    · simp (disch := assumption) only [size_setNext, size_setPrev, size_setBase, size_setSize,
        if_neg n1, e3, e4]
    · simp (disch := assumption) only [next_setNext, next_setPrev, next_setBase,
        next_setSize, e5, e6]
    · simp (disch := assumption) only [prev_setPrev, prev_setNext, prev_setBase,
        prev_setSize, e5, e7]

end take

/-- What `insertBefore` writes. -/
lemma insertBefore_fields {tmp2 P : Nat} (hd : [tmp, tmp2, P].Pairwise Off)
    (hP : prev m tmp2 = P) (ht : tmp < 2 ^ 32) (ht2 : tmp2 < 2 ^ 32)
    (c1 : Clear tmp y) (c2 : Clear tmp2 y) (c3 : Clear P y) :
    base (insertBefore tmp tmp2 m) y = base m y ∧ size (insertBefore tmp tmp2 m) y = size m y ∧
    next (insertBefore tmp tmp2 m) y =
      (if tmp = y then tmp2 else if P = y then tmp else next m y) ∧
    prev (insertBefore tmp tmp2 m) y =
      (if tmp2 = y then tmp else if tmp = y then P else prev m y) := by
  have hPlt : P < 2 ^ 32 := hP ▸ (field_lt (m := m) (x := tmp2)).2.2.2
  have e1 : tmp % 2 ^ 32 = tmp := Nat.mod_eq_of_lt ht
  have e2 : tmp2 % 2 ^ 32 = tmp2 := Nat.mod_eq_of_lt ht2
  have e3 : P % 2 ^ 32 = P := Nat.mod_eq_of_lt hPlt
  have cP : Clear P tmp2 := clear_of_pairwise hd (by simp) (by simp)
  have heq : insertBefore tmp tmp2 m =
      setPrev (setNext (setPrev (setNext m P tmp) tmp P) tmp tmp2) tmp2 tmp := by
    simp (disch := assumption) only [insertBefore, hP, prev_setNext]
  rw [heq]
  refine ⟨?_, ?_, ?_, ?_⟩
  · simp (disch := assumption) only [base_setNext, base_setPrev]
  · simp (disch := assumption) only [size_setNext, size_setPrev]
  · simp (disch := assumption) only [next_setNext, next_setPrev, e1, e2]
  · simp (disch := assumption) only [prev_setNext, prev_setPrev, e1, e3]

/-- A node is taken out of its list. -/
def unlinkNode (tmp : Nat) (m : Nat → Nat) : Nat → Nat :=
  setPrev (setNext m (prev m tmp) (next m tmp))
    (next (setNext m (prev m tmp) (next m tmp)) tmp)
    (prev (setNext m (prev m tmp) (next m tmp)) tmp)

/-- What `unlinkNode` writes. -/
lemma unlinkNode_fields {N P : Nat} (hd : [tmp, N, P].Pairwise Off)
    (hN : next m tmp = N) (hP : prev m tmp = P) (c2 : Clear N y) (c3 : Clear P y) :
    base (unlinkNode tmp m) y = base m y ∧ size (unlinkNode tmp m) y = size m y ∧
    next (unlinkNode tmp m) y = (if P = y then N else next m y) ∧
    prev (unlinkNode tmp m) y = (if N = y then P else prev m y) := by
  have e1 : N % 2 ^ 32 = N := Nat.mod_eq_of_lt (hN ▸ (field_lt (m := m) (x := tmp)).2.2.1)
  have e3 : P % 2 ^ 32 = P := Nat.mod_eq_of_lt (hP ▸ (field_lt (m := m) (x := tmp)).2.2.2)
  have cP : Clear P tmp := clear_of_pairwise hd (by simp) (by simp)
  have nP : P ≠ tmp := ((List.pairwise_cons.mp hd).1 P (by simp)).ne.symm
  have heq : unlinkNode tmp m = setPrev (setNext m P N) N P := by
    simp (disch := assumption) only [unlinkNode, hN, hP, next_setNext, prev_setNext, if_neg nP]
  rw [heq]
  refine ⟨?_, ?_, ?_, ?_⟩
  · simp (disch := assumption) only [base_setNext, base_setPrev]
  · simp (disch := assumption) only [size_setNext, size_setPrev]
  · simp (disch := assumption) only [next_setNext, next_setPrev, e1]
  · simp (disch := assumption) only [prev_setNext, prev_setPrev, e3]

/-! ### The heap -/

/-- What a node describes. -/
structure Blk where
  hdr : Nat
  base : Nat
  size : Nat
deriving DecidableEq

/-- The end of an area. -/
def Blk.fin (b : Blk) : Nat := b.base + b.size

/-- The node and the area of a free area. -/
def freeUnits (b : Blk) : List (Nat × Nat) := [(b.hdr, b.hdr + 16), (b.base, b.fin)]

/-- The intervals the heap is cut into: the nodes of free areas, the free areas, and the
allocated blocks with their nodes. -/
def units (fr al : List Blk) : List (Nat × Nat) :=
  fr.flatMap freeUnits ++ al.map fun b => (b.hdr, b.fin)

/-- The nodes in use. -/
def nodes (fr al : List Blk) : List Nat :=
  [L.head, L.tail, L.aHead, L.aTail] ++ (fr.map Blk.hdr ++ al.map Blk.hdr)

/-- The memory holds the lists of free areas `fr` and of allocated blocks `al`. -/
structure MInv (h : MHeap) (fr al : List Blk) : Prop where
  init : h.init = true
  start : L.heapStart ≤ h.heapEnd
  fits : h.heapEnd < 2 ^ 32
  headZero : base h.mem L.head = 0 ∧ size h.mem L.head = 0
  frLinked : IsLinked (next h.mem) (prev h.mem) (L.head :: (fr.map Blk.hdr ++ [L.tail]))
  alLinked : IsLinked (next h.mem) (prev h.mem) (L.aHead :: (al.map Blk.hdr ++ [L.aTail]))
  fields : ∀ b ∈ fr ++ al, base h.mem b.hdr = b.base ∧ size h.mem b.hdr = b.size
  alBase : ∀ b ∈ al, b.base = b.hdr + 16
  cut : Cut L.heapStart h.heapEnd (units fr al)
  ordered : fr.Pairwise fun b c => b.fin ≤ c.base

variable {L} {h : MHeap} {fr al u w : List Blk} {b c : Blk}

open scoped List in
lemma units_free : units (u ++ b :: w) al ~ freeUnits b ++ units (u ++ w) al := by
  have hmid : u ++ b :: w ~ b :: (u ++ w) := List.perm_middle
  have hflat := (hmid.flatMap_right freeUnits).append_right (al.map fun b => (b.hdr, b.fin))
  rw [List.flatMap_cons, List.append_assoc] at hflat
  exact hflat

open scoped List in
lemma units_alloc : units fr (u ++ b :: w) ~ (b.hdr, b.fin) :: units fr (u ++ w) := by
  have hmid : u ++ b :: w ~ b :: (u ++ w) := List.perm_middle
  have hmap := ((hmid.map fun b => (b.hdr, b.fin))).append_left (fr.flatMap freeUnits)
  exact hmap.trans List.perm_middle

lemma Layout.static_ne (L : Layout) : L.head ≠ L.tail ∧ L.head ≠ L.aHead ∧ L.head ≠ L.aTail ∧
    L.tail ≠ L.aHead ∧ L.tail ≠ L.aTail ∧ L.aHead ≠ L.aTail := by
  have h := L.apart
  simp only [List.pairwise_cons, List.mem_cons, List.not_mem_nil, or_false, forall_eq_or_imp,
    forall_eq] at h
  omega

lemma Layout.heapStart_le (L : Layout) : L.dataEnd ≤ L.heapStart := by
  unfold heapStart
  omega

lemma mem_units_free (hb : b ∈ fr) :
    (b.hdr, b.hdr + 16) ∈ units fr al ∧ (b.base, b.fin) ∈ units fr al := by
  constructor
  · exact List.mem_append_left _ (List.mem_flatMap.mpr ⟨b, hb, by simp [freeUnits]⟩)
  · exact List.mem_append_left _ (List.mem_flatMap.mpr ⟨b, hb, by simp [freeUnits]⟩)

lemma mem_units_alloc (hb : b ∈ al) : (b.hdr, b.fin) ∈ units fr al :=
  List.mem_append_right _ (List.mem_map.mpr ⟨b, hb, rfl⟩)

lemma mem_nodes_fr (hx : x ∈ L.head :: (fr.map Blk.hdr ++ [L.tail])) : x ∈ nodes L fr al := by
  simp only [nodes, List.mem_append, List.mem_cons, List.not_mem_nil, or_false] at hx ⊢
  tauto

lemma mem_nodes_al (hx : x ∈ L.aHead :: (al.map Blk.hdr ++ [L.aTail])) : x ∈ nodes L fr al := by
  simp only [nodes, List.mem_append, List.mem_cons, List.not_mem_nil, or_false] at hx ⊢
  tauto

lemma nodup_ends {l : List Nat} (hnd : l.Nodup) (hx : x ∉ l) (hy : y ∉ l) (hxy : x ≠ y) :
    (x :: (l ++ [y])).Nodup := by
  simp only [List.nodup_cons, List.mem_append, List.mem_singleton, not_or, List.nodup_append,
    List.not_mem_nil, not_false_eq_true, List.nodup_nil, and_true, true_and, forall_eq]
  exact ⟨⟨hx, hxy⟩, hnd, fun a ha he => hy (he ▸ ha)⟩

namespace MInv

/-- The bounds of a node in use. -/
lemma hdr_bounds (hi : MInv L h fr al) (hx : x ∈ fr.map Blk.hdr ++ al.map Blk.hdr) :
    L.heapStart ≤ x ∧ x + 16 ≤ h.heapEnd := by
  rcases List.mem_append.mp hx with hx | hx
  · obtain ⟨b, hb, rfl⟩ := List.mem_map.mp hx
    have := hi.cut.inside (b.hdr, b.hdr + 16) (mem_units_free hb).1
    exact ⟨this.1, this.2.2⟩
  · obtain ⟨b, hb, rfl⟩ := List.mem_map.mp hx
    have := hi.cut.inside (b.hdr, b.fin) (mem_units_alloc hb)
    have := hi.alBase b hb
    simp only [Blk.fin] at *
    omega

/-- The nodes in use do not overlap. -/
lemma nodesOff (hi : MInv L h fr al) : (nodes L fr al).Pairwise Off := by
  have hlow := L.heapStart_le
  refine List.pairwise_append.mpr ⟨L.apart, List.pairwise_append.mpr ⟨?_, ?_, ?_⟩, ?_⟩
  · have hfr := (List.pairwise_flatMap.mp (List.pairwise_append.mp hi.cut.sep).1).2
    refine List.pairwise_map.mpr (hfr.imp fun {b c} hbc => ?_)
    exact hbc (b.hdr, b.hdr + 16) (by simp [freeUnits]) (c.hdr, c.hdr + 16) (by simp [freeUnits])
  · have hal := List.pairwise_map.mp (List.pairwise_append.mp hi.cut.sep).2.1
    refine List.pairwise_map.mpr (hal.imp_of_mem fun {b c} hb hc hbc => ?_)
    have hb' := hi.alBase b hb
    have hc' := hi.alBase c hc
    simp only [Sided, Off, Blk.fin] at *
    omega
  · intro x hx y hy
    obtain ⟨b, hb, rfl⟩ := List.mem_map.mp hx
    obtain ⟨c, hc, rfl⟩ := List.mem_map.mp hy
    have hbc := (List.pairwise_append.mp hi.cut.sep).2.2 (b.hdr, b.hdr + 16)
      (List.mem_flatMap.mpr ⟨b, hb, by simp [freeUnits]⟩) _ (List.mem_map.mpr ⟨c, hc, rfl⟩)
    have hc' := hi.alBase c hc
    simp only [Sided, Off, Blk.fin] at *
    omega
  · intro x hx y hy
    have hx' := L.inside x hx
    have hy' := hi.hdr_bounds hy
    exact .inl (by omega)

lemma clear (hi : MInv L h fr al) (hx : x ∈ nodes L fr al) (hy : y ∈ nodes L fr al) : Clear x y :=
  clear_of_pairwise hi.nodesOff hx hy

lemma nodup (hi : MInv L h fr al) : (nodes L fr al).Nodup := hi.nodesOff.imp fun h => h.ne

lemma node_lt (hi : MInv L h fr al) (hx : x ∈ nodes L fr al) : x + 16 < 2 ^ 32 := by
  have hlow := L.heapStart_le
  have hstart := hi.start
  have hfits := hi.fits
  rcases List.mem_append.mp hx with hx | hx
  · have := L.inside x hx
    omega
  · have := hi.hdr_bounds hx
    omega

/-- A free area of 16 bytes or more does not overlap the nodes. -/
lemma area_off (hi : MInv L h (u ++ b :: w) al) (hsz : 16 ≤ b.size)
    (hx : x ∈ nodes L (u ++ b :: w) al) : Off b.base x := by
  have hsep := (hi.cut.perm units_free).sep
  have hb := hi.cut.inside (b.base, b.fin) (mem_units_free (by simp)).2
  have hlow := L.heapStart_le
  simp only [freeUnits, List.cons_append, List.nil_append, List.pairwise_cons, List.mem_cons,
    forall_eq_or_imp] at hsep
  obtain ⟨⟨hself, -⟩, harea, -⟩ := hsep
  have hfin : b.fin = b.base + b.size := rfl
  rcases List.mem_append.mp hx with hx | hx
  · have := L.inside x hx
    exact .inr (by omega)
  · rcases List.mem_append.mp hx with hx | hx
    · obtain ⟨c, hc, rfl⟩ := List.mem_map.mp hx
      by_cases hcb : c ∈ u ++ w
      · have := harea (c.hdr, c.hdr + 16) (mem_units_free hcb).1
        simp only [Sided, Off] at *
        omega
      · obtain rfl : c = b := by
          simp only [List.mem_append, List.mem_cons] at hc hcb
          tauto
        simp only [Sided, Off] at *
        omega
    · obtain ⟨c, hc, rfl⟩ := List.mem_map.mp hx
      have hc' := hi.alBase c hc
      have := harea (c.hdr, c.fin) (mem_units_alloc hc)
      simp only [Sided, Off, Blk.fin] at *
      omega

/-- The nodes in the heap are not the static ones. -/
lemma hdr_ne_static (hi : MInv L h fr al) (hx : x ∈ fr.map Blk.hdr ++ al.map Blk.hdr)
    (hy : y ∈ [L.head, L.tail, L.aHead, L.aTail]) : x ≠ y := by
  have h1 := hi.hdr_bounds hx
  have h2 := L.inside y hy
  have h3 := L.heapStart_le
  omega

/-- The nodes of free areas are not those of blocks. -/
lemma fr_ne_al (hi : MInv L h fr al) (hx : x ∈ fr.map Blk.hdr) (hy : y ∈ al.map Blk.hdr) :
    x ≠ y :=
  ((List.pairwise_append.mp (List.pairwise_append.mp hi.nodesOff).2.1).2.2 x hx y hy).ne

/-- Other free areas have other nodes. -/
lemma fr_ne_fr (hi : MInv L h (u ++ b :: w) al) (hc : c ∈ u ++ w) : b.hdr ≠ c.hdr := by
  have hsep := (hi.cut.perm units_free).sep
  simp only [freeUnits, List.cons_append, List.nil_append, List.pairwise_cons, List.mem_cons,
    forall_eq_or_imp] at hsep
  have := hsep.1.2 (c.hdr, c.hdr + 16) (mem_units_free hc).1
  simp only [Sided] at this
  omega

/-- The list of free areas has other nodes than the list of blocks. -/
lemma lists_ne (hi : MInv L h fr al) (hx : x ∈ L.head :: (fr.map Blk.hdr ++ [L.tail]))
    (hy : y ∈ L.aHead :: (al.map Blk.hdr ++ [L.aTail])) : x ≠ y := by
  have hst := L.static_ne
  have hx' : x = L.head ∨ x = L.tail ∨ x ∈ fr.map Blk.hdr := by
    simp only [List.mem_cons, List.mem_append, List.not_mem_nil, or_false] at hx
    tauto
  have hy' : y = L.aHead ∨ y = L.aTail ∨ y ∈ al.map Blk.hdr := by
    simp only [List.mem_cons, List.mem_append, List.not_mem_nil, or_false] at hy
    tauto
  rcases hx' with rfl | rfl | hx'
  · rcases hy' with rfl | rfl | hy'
    · exact hst.2.1
    · exact hst.2.2.1
    · exact (hi.hdr_ne_static (List.mem_append_right _ hy') (by simp)).symm
  · rcases hy' with rfl | rfl | hy'
    · exact hst.2.2.2.1
    · exact hst.2.2.2.2.1
    · exact (hi.hdr_ne_static (List.mem_append_right _ hy') (by simp)).symm
  · rcases hy' with rfl | rfl | hy'
    · exact hi.hdr_ne_static (List.mem_append_left _ hx') (by simp)
    · exact hi.hdr_ne_static (List.mem_append_left _ hx') (by simp)
    · exact hi.fr_ne_al hx' hy'

lemma frNodup (hi : MInv L h fr al) : (L.head :: (fr.map Blk.hdr ++ [L.tail])).Nodup := by
  have hnd : (fr.map Blk.hdr).Nodup :=
    (List.pairwise_append.mp (List.pairwise_append.mp hi.nodesOff).2.1).1.imp fun h => h.ne
  have hst := L.static_ne
  have hne : ∀ y ∈ [L.head, L.tail, L.aHead, L.aTail], y ∉ fr.map Blk.hdr :=
    fun y hy hm => hi.hdr_ne_static (List.mem_append_left _ hm) hy rfl
  exact nodup_ends hnd (hne _ (by simp)) (hne _ (by simp)) hst.1

lemma alNodup (hi : MInv L h fr al) : (L.aHead :: (al.map Blk.hdr ++ [L.aTail])).Nodup := by
  have hnd : (al.map Blk.hdr).Nodup :=
    (List.pairwise_append.mp (List.pairwise_append.mp hi.nodesOff).2.1).2.1.imp fun h => h.ne
  have hst := L.static_ne
  have hne : ∀ y ∈ [L.head, L.tail, L.aHead, L.aTail], y ∉ al.map Blk.hdr :=
    fun y hy hm => hi.hdr_ne_static (List.mem_append_right _ hm) hy rfl
  exact nodup_ends hnd (hne _ (by simp)) (hne _ (by simp)) hst.2.2.2.2.2

/-- The list of allocated blocks starts with a node. -/
lemma next_aHead (hi : MInv L h fr al) : ∃ l, al.map Blk.hdr ++
    [L.aTail] = next h.mem L.aHead :: l := by
  have hlink := hi.alLinked
  cases hal : al.map Blk.hdr ++ [L.aTail] with
  | nil => simp at hal
  | cons y l =>
      rw [hal] at hlink
      have : next h.mem L.aHead = y := (List.isChain_cons_cons.mp hlink).1.1
      exact ⟨l, by rw [this]⟩

end MInv

/-- The area that is left, and the block that is taken from it. -/
def Blk.rest (b : Blk) (sz : Nat) : Blk := ⟨b.hdr, b.base + (sz + 16), b.size - (sz + 16)⟩
def Blk.front (b : Blk) (sz : Nat) : Blk := ⟨b.base, b.base + 16, sz⟩

namespace MInv

open scoped List in
/-- The intervals of an allocated block and of a free area. -/
lemma units_both : units (u ++ b :: w) (c :: al) ~
    (c.hdr, c.fin) :: (b.base, b.fin) :: (b.hdr, b.hdr + 16) :: units (u ++ w) al := by
  have h1 : units (u ++ b :: w) (c :: al) ~ (c.hdr, c.fin) :: units (u ++ b :: w) al :=
    List.perm_middle
  have h2 : units (u ++ b :: w) al ~ (b.base, b.fin) :: (b.hdr, b.hdr + 16) :: units (u ++ w) al :=
    units_free.trans (List.Perm.swap ..)
  exact h1.trans (h2.cons _)

/-- The intervals after a block is taken. -/
lemma cut_take (hi : MInv L h (u ++ b :: w) al) (hsz : sz + 16 ≤ b.size) :
    Cut L.heapStart h.heapEnd (units (u ++ b.rest sz :: w) (b.front sz :: al)) := by
  have hcut := (hi.cut.perm units_free).perm (List.Perm.swap ..)
  have hfin : b.fin = b.base + b.size := rfl
  have hsplit := hcut.split (a := b.base + (sz + 16)) (c := b.base + (sz + 16)) (by simp) le_rfl
    (by simp only; omega)
  refine Cut.perm ?_ units_both.symm
  have h1 : (b.front sz).fin = b.base + (sz + 16) := by simp only [Blk.front, Blk.fin]; omega
  have h2 : (b.rest sz).fin = b.fin := by simp only [Blk.rest, Blk.fin]; omega
  rw [h1, h2]
  exact hsplit

/-- The fields after a block is taken, of the nodes that were there and of the new one. -/
lemma take_fields (hi : MInv L h (u ++ b :: w) al) (hsz : sz + 16 ≤ b.size) {A : Nat}
    {l : List Nat} (hl : al.map Blk.hdr ++ [L.aTail] = A :: l) (hA : next h.mem L.aHead = A) :
    (takeBlock L b.hdr sz h.mem).1 = b.base + 16 ∧
    (∀ y ∈ nodes L (u ++ b :: w) al,
      base (takeBlock L b.hdr sz h.mem).2 y = (if b.hdr = y then b.base + (sz + 16)
      else base h.mem y) ∧
      size (takeBlock L b.hdr sz h.mem).2 y = (if b.hdr = y then b.size - (sz + 16)
        else size h.mem y) ∧
      next (takeBlock L b.hdr sz h.mem).2 y = (if L.aHead = y then b.base else next h.mem y) ∧
      prev (takeBlock L b.hdr sz h.mem).2 y = (if A = y then b.base else prev h.mem y)) ∧
    base (takeBlock L b.hdr sz h.mem).2 b.base = b.base + 16 ∧
    size (takeBlock L b.hdr sz h.mem).2 b.base = sz ∧
    next (takeBlock L b.hdr sz h.mem).2 b.base = A ∧
    prev (takeBlock L b.hdr sz h.mem).2 b.base = L.aHead := by
  have hb : b ∈ u ++ b :: w := by simp
  obtain ⟨hbase, hsize⟩ := hi.fields b (by simp)
  have hbin := hi.cut.inside (b.base, b.fin) (mem_units_free hb).2
  have hfits := hi.fits
  have hfin : b.fin = b.base + b.size := rfl
  have hAl : A ∈ L.aHead :: (al.map Blk.hdr ++ [L.aTail]) := by simp [hl]
  have hbl : b.hdr ∈ L.head :: ((u ++ b :: w).map Blk.hdr ++ [L.tail]) := by simp
  have hAn : A ∈ nodes L (u ++ b :: w) al := mem_nodes_al hAl
  have hbn : b.hdr ∈ nodes L (u ++ b :: w) al := mem_nodes_fr hbl
  have han : L.aHead ∈ nodes L (u ++ b :: w) al := mem_nodes_al (by simp)
  have hBoff : ∀ x ∈ nodes L (u ++ b :: w) al, Off b.base x := fun x hx =>
    hi.area_off (by omega) hx
  have hne3 : L.aHead ≠ A := by
    have hnd := hi.alNodup
    rw [hl] at hnd
    exact fun he => (List.nodup_cons.mp hnd).1 (by simp [he])
  have hd : [b.hdr, b.base, L.aHead, A].Pairwise Off := by
    have hoff := hi.nodesOff
    simp only [List.pairwise_cons, List.mem_cons, List.not_mem_nil, or_false, forall_eq_or_imp,
      forall_eq]
    exact ⟨⟨(hBoff _ hbn).symm, hoff.forall hbn han (hi.lists_ne hbl (by simp)),
      hoff.forall hbn hAn (hi.lists_ne hbl hAl)⟩,
      ⟨hBoff _ han, hBoff _ hAn⟩, hoff.forall han hAn hne3, by simp, .nil⟩
  have hszm : sz + 16 ≤ size h.mem b.hdr := by omega
  have haLt := hi.node_lt han
  obtain ⟨hptr, hfields⟩ := takeBlock_fields L hd hbase hA hszm (by omega) (by omega)
  refine ⟨hptr, fun y hy => ?_, ?_⟩
  · obtain ⟨h1, h2, h3, h4⟩ := hfields y (hi.clear hbn hy) (hBoff y hy).clear (hi.clear han hy)
      (hi.clear hAn hy)
    have hne := (hBoff y hy).ne
    rw [if_neg hne] at h1 h2 h3 h4
    rw [hsize] at h2
    exact ⟨h1, h2, h3, h4⟩
  · obtain ⟨h1, h2, h3, h4⟩ := hfields b.base (hBoff _ hbn).clear.symm (.inl rfl)
      (hBoff _ han).clear.symm (hBoff _ hAn).clear.symm
    rw [if_neg (hBoff _ hbn).ne.symm, if_pos rfl] at h1 h2
    rw [if_neg (hBoff _ han).ne.symm, if_pos rfl] at h3
    rw [if_neg (hBoff _ hAn).ne.symm, if_pos rfl] at h4
    exact ⟨h1, h2, h3, h4⟩

/-- The list of blocks with a new one in front. -/
lemma alLinked_take (hi : MInv L h fr al) {B A : Nat} {l : List Nat}
    (hl : al.map Blk.hdr ++ [L.aTail] = A :: l)
    (hnext : ∀ y ∈ nodes L fr al, next m' y = if L.aHead = y then B else next h.mem y)
    (hprev : ∀ y ∈ nodes L fr al, prev m' y = if A = y then B else prev h.mem y)
    (hBn : next m' B = A) (hBp : prev m' B = L.aHead) :
    IsLinked (next m') (prev m') (L.aHead :: B :: (al.map Blk.hdr ++ [L.aTail])) := by
  have hlink := hi.alLinked
  have hnd := hi.alNodup
  rw [hl] at hlink hnd ⊢
  have hmem : ∀ x ∈ L.aHead :: A :: l, x ∈ nodes L fr al := fun x hx => mem_nodes_al (hl ▸ hx)
  exact IsLinked.insert_ite (u := []) hlink hnd hBp hBn (fun y hy => hnext y (hmem y hy))
    fun y hy => hprev y (hmem y hy)

/-- **A block is taken** from the front of a free area. -/
lemma take (hi : MInv L h (u ++ b :: w) al) (hsz : sz + 16 ≤ b.size) :
    (takeBlock L b.hdr sz h.mem).1 = b.base + 16 ∧
      MInv L { h with mem := (takeBlock L b.hdr sz h.mem).2 } (u ++ b.rest sz :: w)
        (b.front sz :: al) := by
  obtain ⟨l, hl⟩ := hi.next_aHead
  obtain ⟨hptr, hget, hnew⟩ := hi.take_fields hsz hl rfl
  refine ⟨hptr, ?_⟩
  generalize (takeBlock L b.hdr sz h.mem).2 = m' at hget hnew ⊢
  have hbl : b.hdr ∈ L.head :: ((u ++ b :: w).map Blk.hdr ++ [L.tail]) := by simp
  have hmap : (u ++ b.rest sz :: w).map Blk.hdr = (u ++ b :: w).map Blk.hdr := by simp [Blk.rest]
  have hold : ∀ c ∈ (u ++ w) ++ al, base m' c.hdr = c.base ∧ size m' c.hdr = c.size := by
    intro c hc
    have hcase : c ∈ u ++ w ∨ c ∈ al := List.mem_append.mp hc
    have hmem : c ∈ u ++ b :: w ++ al := by
      simp only [List.mem_append, List.mem_cons] at hcase ⊢
      tauto
    have hcn : c.hdr ∈ nodes L (u ++ b :: w) al :=
      List.mem_append_right _ (by rw [← List.map_append]; exact List.mem_map.mpr ⟨c, hmem, rfl⟩)
    have hne : b.hdr ≠ c.hdr := by
      rcases hcase with hc | hc
      · exact hi.fr_ne_fr hc
      · exact hi.fr_ne_al (by simp) (List.mem_map.mpr ⟨c, hc, rfl⟩)
    rw [(hget _ hcn).1, (hget _ hcn).2.1, if_neg hne, if_neg hne]
    exact hi.fields c hmem
  refine ⟨hi.init, hi.start, hi.fits, ?_, ?_, ?_, ?_, ?_, hi.cut_take hsz, ?_⟩
  · have hg := hget L.head (mem_nodes_fr (by simp))
    have h1 : b.hdr ≠ L.head := hi.hdr_ne_static (by simp) (by simp)
    rw [hg.1, hg.2.1, if_neg h1, if_neg h1]
    exact hi.headZero
  · rw [hmap]
    refine hi.frLinked.congr (fun x hx => ?_) fun x hx => ?_
    · have hx' := (List.dropLast_sublist _).subset hx
      rw [(hget x (mem_nodes_fr hx')).2.2.1, if_neg (hi.lists_ne hx' (by simp)).symm]
    · have hx' := List.mem_of_mem_tail hx
      rw [(hget x (mem_nodes_fr hx')).2.2.2, if_neg (hi.lists_ne hx' (by simp [hl])).symm]
  · exact hi.alLinked_take hl (fun y hy => (hget y hy).2.2.1) (fun y hy => (hget y hy).2.2.2)
      hnew.2.2.1 hnew.2.2.2
  · intro c hc
    have hcase : c = b.rest sz ∨ c = b.front sz ∨ c ∈ (u ++ w) ++ al := by
      simp only [List.mem_append, List.mem_cons] at hc ⊢
      tauto
    rcases hcase with rfl | rfl | hc'
    · have hg := hget b.hdr (mem_nodes_fr hbl)
      rw [if_pos rfl, if_pos rfl] at hg
      exact ⟨hg.1, hg.2.1⟩
    · exact ⟨hnew.1, hnew.2.1⟩
    · exact hold c hc'
  · intro c hc
    rcases List.mem_cons.mp hc with rfl | hc
    · rfl
    · exact hi.alBase c hc
  · have hord := hi.ordered
    have hrest : (b.rest sz).fin = b.fin := by simp only [Blk.rest, Blk.fin]; omega
    have hbase' : b.base ≤ (b.rest sz).base := by simp only [Blk.rest]; omega
    simp only [List.pairwise_append, List.pairwise_cons, List.mem_cons, forall_eq_or_imp, hrest]
      at hord ⊢
    exact ⟨hord.1, hord.2.1, fun c hc => ⟨(hord.2.2 c hc).1.trans hbase', (hord.2.2 c hc).2⟩⟩

/-- **A free area changes** its place and size, and keeps its node. -/
lemma resize (hi : MInv L h (u ++ b :: w) al) {b' : Blk} {e : Nat} (hh : b'.hdr = b.hdr)
    (hget : ∀ y ∈ nodes L (u ++ b :: w) al,
      base m' y = (if b.hdr = y then b'.base else base h.mem y) ∧
      size m' y = (if b.hdr = y then b'.size else size h.mem y) ∧
      next m' y = next h.mem y ∧ prev m' y = prev h.mem y)
    (hcut : Cut L.heapStart e (units (u ++ b' :: w) al))
    (hord : (u ++ b' :: w).Pairwise fun b c => b.fin ≤ c.base) (hstart : L.heapStart ≤ e)
    (he : e < 2 ^ 32) : MInv L ⟨m', h.init, e⟩ (u ++ b' :: w) al := by
  have hmap : (u ++ b' :: w).map Blk.hdr = (u ++ b :: w).map Blk.hdr := by simp [hh]
  refine ⟨hi.init, hstart, he, ?_, ?_, ?_, ?_, hi.alBase, hcut, hord⟩
  · have hg := hget L.head (mem_nodes_fr (by simp))
    have h1 : b.hdr ≠ L.head := hi.hdr_ne_static (by simp) (by simp)
    rw [hg.1, hg.2.1, if_neg h1, if_neg h1]
    exact hi.headZero
  · rw [hmap]
    refine hi.frLinked.congr (fun x hx => ?_) fun x hx => ?_
    · exact (hget x (mem_nodes_fr ((List.dropLast_sublist _).subset hx))).2.2.1
    · exact (hget x (mem_nodes_fr (List.mem_of_mem_tail hx))).2.2.2
  · refine hi.alLinked.congr (fun x hx => ?_) fun x hx => ?_
    · exact (hget x (mem_nodes_al ((List.dropLast_sublist _).subset hx))).2.2.1
    · exact (hget x (mem_nodes_al (List.mem_of_mem_tail hx))).2.2.2
  · intro c hc
    have hcase : c = b' ∨ c ∈ u ++ w ∨ c ∈ al := by
      simp only [List.mem_append, List.mem_cons] at hc ⊢
      tauto
    rcases hcase with rfl | hcase
    · have hg := hget b.hdr (mem_nodes_fr (by simp))
      rw [if_pos rfl, if_pos rfl] at hg
      rw [hh]
      exact ⟨hg.1, hg.2.1⟩
    · have hmem : c ∈ u ++ b :: w ++ al := by
        simp only [List.mem_append, List.mem_cons] at hcase ⊢
        tauto
      have hcn : c.hdr ∈ nodes L (u ++ b :: w) al :=
        List.mem_append_right _ (by rw [← List.map_append]; exact List.mem_map.mpr ⟨c, hmem, rfl⟩)
      have hne : b.hdr ≠ c.hdr := by
        rcases hcase with hc | hc
        · exact hi.fr_ne_fr hc
        · exact hi.fr_ne_al (by simp) (List.mem_map.mpr ⟨c, hc, rfl⟩)
      rw [(hget _ hcn).1, (hget _ hcn).2.1, if_neg hne, if_neg hne]
      exact hi.fields c hmem

/-- **A free area is put in** before the node `q`. -/
lemma insertNode (hi : MInv L h (u ++ w) al) {n : Blk} {e q : Nat} {l : List Nat}
    (hq : w.map Blk.hdr ++ [L.tail] = q :: l) (hoff : ∀ x ∈ nodes L (u ++ w) al, Off n.hdr x)
    (hn : n.hdr < 2 ^ 32) (hnew : base m n.hdr = n.base ∧ size m n.hdr = n.size)
    (hsame : ∀ y ∈ nodes L (u ++ w) al, base m y = base h.mem y ∧ size m y = size h.mem y ∧
      next m y = next h.mem y ∧ prev m y = prev h.mem y)
    (hcut : Cut L.heapStart e (units (u ++ n :: w) al))
    (hord : (u ++ n :: w).Pairwise fun b c => b.fin ≤ c.base) (hstart : L.heapStart ≤ e)
    (he : e < 2 ^ 32) : MInv L ⟨insertBefore n.hdr q m, h.init, e⟩ (u ++ n :: w) al := by
  obtain ⟨v, P, hP⟩ : ∃ v P, L.head :: u.map Blk.hdr = v ++ [P] :=
    (List.eq_nil_or_concat' (L.head :: u.map Blk.hdr)).resolve_left (by simp)
  have hall : L.head :: ((u ++ w).map Blk.hdr ++ [L.tail]) = v ++ P :: q :: l := by
    rw [List.map_append, List.append_assoc, hq, ← List.cons_append, hP]
    simp
  have hlink := hi.frLinked
  have hnd := hi.frNodup
  rw [hall] at hlink hnd
  have hmem : ∀ x ∈ v ++ P :: q :: l, x ∈ nodes L (u ++ w) al := fun x hx =>
    mem_nodes_fr (hall ▸ hx)
  have hPn := hmem P (by simp)
  have hqn := hmem q (by simp)
  have hqP : prev m q = P := by
    rw [(hsame q hqn).2.2.2]
    exact (isLinked_split.mp hlink).2.1.2
  have hPq : P ≠ q := by
    intro he
    have := (List.nodup_append.mp hnd).2.1
    exact (List.nodup_cons.mp this).1 (by simp [he])
  have hd : [n.hdr, q, P].Pairwise Off := by
    simp only [List.pairwise_cons, List.mem_cons, List.not_mem_nil, or_false, forall_eq_or_imp,
      forall_eq]
    exact ⟨⟨hoff q hqn, hoff P hPn⟩, hi.nodesOff.forall hqn hPn hPq.symm, by simp, .nil⟩
  have hqlt := hi.node_lt hqn
  -- the fields of the nodes that were there, and of the new one
  have hget := fun y (hy : y ∈ nodes L (u ++ w) al) => insertBefore_fields hd hqP hn (by omega)
    (hoff y hy).clear (hi.clear hqn hy) (hi.clear hPn hy)
  have hself := insertBefore_fields hd hqP hn (by omega) (.inl rfl) (hoff q hqn).clear.symm
    (hoff P hPn).clear.symm
  rw [if_pos rfl, if_neg (hoff q hqn).ne.symm, if_pos rfl] at hself
  generalize insertBefore n.hdr q m = m' at hget hself ⊢
  have hget' : ∀ y ∈ nodes L (u ++ w) al, base m' y = base h.mem y ∧ size m' y = size h.mem y ∧
      next m' y = (if P = y then n.hdr else next h.mem y) ∧
      prev m' y = (if q = y then n.hdr else prev h.mem y) := by
    intro y hy
    obtain ⟨h1, h2, h3, h4⟩ := hget y hy
    obtain ⟨g1, g2, g3, g4⟩ := hsame y hy
    rw [if_neg (hoff y hy).ne, g3] at h3
    rw [if_neg (hoff y hy).ne, g4] at h4
    exact ⟨h1.trans g1, h2.trans g2, h3, h4⟩
  refine ⟨hi.init, hstart, he, ?_, ?_, ?_, ?_, hi.alBase, hcut, hord⟩
  · have hg := hget' L.head (mem_nodes_fr (by simp))
    rw [hg.1, hg.2.1]
    exact hi.headZero
  · have hall' : L.head :: ((u ++ n :: w).map Blk.hdr ++ [L.tail]) = v ++ P :: n.hdr :: q :: l := by
      rw [List.map_append, List.append_assoc, List.map_cons, List.cons_append, hq,
        ← List.cons_append, hP]
      simp
    rw [hall']
    exact hlink.insert_ite hnd hself.2.2.2 hself.2.2.1 (fun y hy => (hget' y (hmem y hy)).2.2.1)
      fun y hy => (hget' y (hmem y hy)).2.2.2
  · refine hi.alLinked.congr (fun x hx => ?_) fun x hx => ?_
    · have hx' := (List.dropLast_sublist _).subset hx
      rw [(hget' x (mem_nodes_al hx')).2.2.1, if_neg (hi.lists_ne (by rw [hall]; simp) hx')]
    · have hx' := List.mem_of_mem_tail hx
      rw [(hget' x (mem_nodes_al hx')).2.2.2, if_neg (hi.lists_ne (by rw [hall]; simp) hx')]
  · intro c hc
    have hcase : c = n ∨ c ∈ u ++ w ++ al := by
      simp only [List.mem_append, List.mem_cons] at hc ⊢
      tauto
    rcases hcase with rfl | hc'
    · exact ⟨hself.1.trans hnew.1, hself.2.1.trans hnew.2⟩
    · have hcn : c.hdr ∈ nodes L (u ++ w) al :=
        List.mem_append_right _ (by rw [← List.map_append]; exact List.mem_map.mpr ⟨c, hc', rfl⟩)
      rw [(hget' _ hcn).1, (hget' _ hcn).2.1]
      exact hi.fields c hc'

end MInv

end Hazelnut
