import Mathlib.Data.List.Perm.Basic
import Hazelnut.Lib.DepthList
import Hazelnut.Mdb.Flush

/-!
Well-formed mapping databases.

`Db` is the database as it is read off the memory from `sigma0_mapnode` on: the
root arrays, and for every root node the chain of mapping nodes that hangs off it,
in the order of the `next` pointers.  A chain is a tree of mappings of one page
size in pre-order; a root array below a mapping node holds the smaller mappings
made from it.

* `Pool`: the buffers the allocator manages.
* `Path`: a stretch of a chain, with `next` pointers and back links as the code
  encodes them.
* `Links`: the memory holds the database, and every buffer of the pool is either
  reached exactly once or free.
* `Ordered`, `WellFormed`: the depths form pre-orders, and both together.
-/

namespace Hazelnut

/-! ### Buffers -/

/-- The bits that are zero in the address of a buffer. -/
def Buf.mask : Buf → Word
  | .mnode => 3
  | .dual => 3
  | .roots => 0xfff

/-- The buffers that the allocator manages, handed out or free, and the address of
the static `sigma0_mapnode`. -/
structure Pool where
  bufs : Buf → List Word
  sigma0 : Word
  nodup : ∀ b, (bufs b).Nodup
  ne_zero : ∀ b, ∀ p ∈ bufs b, p ≠ 0
  aligned : ∀ b, ∀ p ∈ bufs b, p &&& b.mask = 0
  sigma0_ne_zero : sigma0 ≠ 0
  sigma0_aligned : sigma0 &&& 3 = 0
  sigma0_static : sigma0 ∉ bufs .mnode

/-! ### Links -/

/-- A place that leads to a mapping node: a root node or a mapping node. -/
inductive Link where
  | root (r : Word)
  | node (p : Word)
  deriving DecidableEq, Repr

/-- The back link of a node with page table entry `pg` reached from `l`. -/
def Link.back (pg : Word) : Link → Word
  | .root r => (r ^^^ pg) ||| 1
  | .node p => p ^^^ pg

/-- The address of a link. -/
def Link.addr : Link → Word
  | .root r => r
  | .node p => p

namespace Mdb

variable (h : Mdb)

/-- The dual node, or null, and the mapping node a link leads to. -/
def next : Link → Word × Word
  | .root r => rnodeNext h r
  | .node p => mnodeNext h p

/-- The link leads to a dual node. -/
def Tagged : Link → Prop
  | .root r => (h.rnode r).isNextRoot
  | .node p => (h.mnode p).isNextRoot

/-- `set_next` and `set_ptr` of a mapping node. -/
def setNext (p : Word) : Link → Mdb
  | .root r => h.setRNode r (RNode.ptrM p)
  | .node q => h.setMNode q ((h.mnode q).setNextM p)

/-- `set_backlink`. -/
def setBack (p pg : Word) : Link → Mdb
  | .root r => h.setMNode p ((h.mnode p).setBacklinkR r pg)
  | .node q => h.setMNode p ((h.mnode p).setBacklinkM q pg)

variable {h} {l : Link} {p : Word}

lemma next_fst_of_not_tagged (hl : ¬ h.Tagged l) : (h.next l).1 = 0 := by
  cases l with
  | root r => simp only [Tagged] at hl; simp [next, rnodeNext, hl]
  | node p => simp only [Tagged] at hl; simp [next, mnodeNext, hl]

@[simp] lemma next_freeBuffer (b : Buf) (q : Word) : (h.freeBuffer b q).next l = h.next l := by
  cases l <;> rfl

@[simp] lemma tagged_freeBuffer (b : Buf) (q : Word) :
    (h.freeBuffer b q).Tagged l ↔ h.Tagged l := by
  cases l <;> rfl

/-- Only the `w3` word of a mapping node matters to what comes after it. -/
lemma next_setMNode_of_w3 {n : MNode} (hn : n.w3 = (h.mnode p).w3) (l : Link) :
    (h.setMNode p n).next l = h.next l := by
  cases l with
  | root r => rfl
  | node q =>
      by_cases hq : q = p
      · subst hq
        simp only [next, mnodeNext, setMNode, Function.update_self, MNode.isNextRoot,
          MNode.getNext, hn]
        rfl
      · simp [next, mnodeNext, setMNode, hq]

lemma tagged_setMNode_of_w3 {n : MNode} (hn : n.w3 = (h.mnode p).w3) (l : Link) :
    (h.setMNode p n).Tagged l ↔ h.Tagged l := by
  cases l with
  | root r => rfl
  | node q =>
      by_cases hq : q = p
      · subst hq
        simp only [Tagged, setMNode, Function.update_self, MNode.isNextRoot, hn]
      · simp [Tagged, setMNode, hq]

@[simp] lemma next_setBack (pg : Word) (k : Link) : (h.setBack p pg k).next l = h.next l := by
  cases k with
  | root r => exact next_setMNode_of_w3 (n := (h.mnode p).setBacklinkR r pg) rfl l
  | node q => exact next_setMNode_of_w3 (n := (h.mnode p).setBacklinkM q pg) rfl l

@[simp] lemma tagged_setBack (pg : Word) (k : Link) :
    (h.setBack p pg k).Tagged l ↔ h.Tagged l := by
  cases k with
  | root r => exact tagged_setMNode_of_w3 (n := (h.mnode p).setBacklinkR r pg) rfl l
  | node q => exact tagged_setMNode_of_w3 (n := (h.mnode p).setBacklinkM q pg) rfl l

@[simp] lemma setBack_w1 (pg : Word) (k : Link) :
    ((h.setBack p pg k).mnode p).w1 = k.back pg := by
  cases k <;> simp [setBack, setMNode, MNode.setBacklinkM, MNode.setBacklinkR, Link.back]

lemma setBack_mnode_of_ne {q : Word} (hq : q ≠ p) (pg : Word) (k : Link) :
    (h.setBack p pg k).mnode q = h.mnode q := by
  cases k <;> simp [setBack, setMNode, hq]

@[simp] lemma setBack_w2 (pg : Word) (k : Link) (q : Word) :
    ((h.setBack p pg k).mnode q).w2 = (h.mnode q).w2 := by
  by_cases hq : q = p
  · subst hq
    cases k <;> simp [setBack, setMNode, MNode.setBacklinkM, MNode.setBacklinkR]
  · rw [setBack_mnode_of_ne hq]

@[simp] lemma setBack_dual (pg : Word) (k : Link) : (h.setBack p pg k).dual = h.dual := by
  cases k <;> rfl

@[simp] lemma setBack_free (pg : Word) (k : Link) : (h.setBack p pg k).free = h.free := by
  cases k <;> rfl

@[simp] lemma setBack_sigma0 (pg : Word) (k : Link) :
    (h.setBack p pg k).sigma0Mapnode = h.sigma0Mapnode := by
  cases k <;> rfl

/-- A link to a mapping node is not a link to a dual node. -/
lemma not_tagged_setNext (hp : p &&& 3 = 0) (l : Link) : ¬ (h.setNext p l).Tagged l := by
  have h1 : p &&& 1 = 0 := by
    have : (p &&& 3) &&& 1 = 0 := by rw [hp]; rfl
    rwa [BitVec.and_assoc] at this
  cases l with
  | root r =>
      have : RNode.ptrM p &&& 1 = 0 := by
        rw [RNode.ptrM, BitVec.and_or_distrib_right, h1]; rfl
      simpa [Tagged, setNext, setRNode, RNode.isNextRoot] using this
  | node q => simpa [Tagged, setNext, setMNode, MNode.isNextRoot, MNode.setNextM] using h1

lemma next_setNext (hp : p &&& 3 = 0) (l : Link) : (h.setNext p l).next l = (0, p) := by
  have ht := not_tagged_setNext (h := h) hp l
  cases l with
  | root r =>
      have : RNode.getMap (RNode.ptrM p) = p := Word.or_and_not hp (by decide)
      simp only [Tagged, setNext, setRNode, Function.update_self] at ht
      simp [next, rnodeNext, setNext, setRNode, ht, this]
  | node q =>
      have h1 : p &&& 1 = 0 := by
        have : (p &&& 3) &&& 1 = 0 := by rw [hp]; rfl
        rwa [BitVec.and_assoc] at this
      have : MNode.getNext ((h.mnode q).setNextM p) = p := Word.and_not_eq h1
      simp only [Tagged, setNext, setMNode, Function.update_self] at ht
      simp [next, mnodeNext, setNext, setMNode, ht, this]

lemma next_setNext_of_ne {k : Link} (hk : k ≠ l) : (h.setNext p l).next k = h.next k := by
  cases l with
  | root r =>
      cases k with
      | root r' => simp_all [next, rnodeNext, setNext, setRNode]
      | node q' => rfl
  | node q =>
      cases k with
      | root r' => rfl
      | node q' => simp_all [next, mnodeNext, setNext, setMNode]

lemma tagged_setNext_of_ne {k : Link} (hk : k ≠ l) :
    (h.setNext p l).Tagged k ↔ h.Tagged k := by
  cases l <;> cases k <;> simp_all [Tagged, setNext, setRNode, setMNode]

@[simp] lemma setNext_w1 (l : Link) (q : Word) :
    ((h.setNext p l).mnode q).w1 = (h.mnode q).w1 := by
  cases l with
  | root r => rfl
  | node k =>
      by_cases hq : q = k
      · subst hq; simp [setNext, setMNode, MNode.setNextM]
      · simp [setNext, setMNode, hq]

@[simp] lemma setNext_w2 (l : Link) (q : Word) :
    ((h.setNext p l).mnode q).w2 = (h.mnode q).w2 := by
  cases l with
  | root r => rfl
  | node k =>
      by_cases hq : q = k
      · subst hq; simp [setNext, setMNode, MNode.setNextM]
      · simp [setNext, setMNode, hq]

@[simp] lemma setNext_dual (l : Link) : (h.setNext p l).dual = h.dual := by cases l <;> rfl

@[simp] lemma setNext_free (l : Link) : (h.setNext p l).free = h.free := by cases l <;> rfl

@[simp] lemma setNext_sigma0 (l : Link) : (h.setNext p l).sigma0Mapnode = h.sigma0Mapnode := by
  cases l <;> rfl

end Mdb

/-! ### Chains -/

/-- A mapping node of the database: its address, its page table entry, its space
and its depth. -/
structure Ent where
  ptr : Word
  pg : Word
  space : Word
  depth : Nat
  deriving DecidableEq, Repr

/-- The mapping node `e` is what the link `l` leads to. -/
structure EntAt (h : Mdb) (l : Link) (e : Ent) : Prop where
  next : (h.next l).2 = e.ptr
  back : (h.mnode e.ptr).w1 = l.back e.pg
  depth : (h.mnode e.ptr).getDepth.toNat = e.depth
  space : (h.mnode e.ptr).getSpace = e.space

/-- The mapping nodes `es` follow each other, the first one at `l`. -/
def Path (h : Mdb) : Link → List Ent → Prop
  | _, [] => True
  | l, e :: es => EntAt h l e ∧ Path h (.node e.ptr) es

/-- The link after the mapping nodes `es`. -/
def lastLink : Link → List Ent → Link
  | l, [] => l
  | _, e :: es => lastLink (.node e.ptr) es

/-- The pointer to the first node of a chain. -/
def headPtr : List Ent → Word
  | [] => 0
  | e :: _ => e.ptr

section Path

variable {h h' : Mdb} {l : Link} {e : Ent} {u v : List Ent}

lemma lastLink_append : lastLink l (u ++ v) = lastLink (lastLink l u) v := by
  induction u generalizing l with
  | nil => rfl
  | cons e u ih => exact ih

lemma lastLink_mem_links :
    lastLink l u ∈ l :: u.map (fun e => Link.node e.ptr) := by
  induction u generalizing l with
  | nil => exact List.mem_cons_self
  | cons e u ih => exact List.mem_cons_of_mem _ ih

@[simp] lemma lastLink_concat : lastLink l (u ++ [e]) = .node e.ptr := by
  rw [lastLink_append]; rfl

lemma lastLink_mem : lastLink l u = l ∨ ∃ e ∈ u, lastLink l u = .node e.ptr := by
  rcases List.eq_nil_or_concat u with rfl | ⟨v, e, rfl⟩
  · exact .inl rfl
  · exact .inr ⟨e, by simp, by simp⟩

lemma path_append : Path h l (u ++ v) ↔ Path h l u ∧ Path h (lastLink l u) v := by
  induction u generalizing l with
  | nil => simp [Path, lastLink]
  | cons e u ih => simp [Path, lastLink, ih, and_assoc]

/-- A stretch is kept by what leaves its nodes, and all links but the last, alone. -/
lemma Path.congr (hp : Path h l u) (hl : ∀ k, k ≠ lastLink l u →
      (k = l ∨ ∃ e ∈ u, k = .node e.ptr) → (h'.next k).2 = (h.next k).2)
    (hlast : (l :: u.map fun e => Link.node e.ptr).Nodup)
    (h1 : ∀ e ∈ u, (h'.mnode e.ptr).w1 = (h.mnode e.ptr).w1)
    (h2 : ∀ e ∈ u, (h'.mnode e.ptr).w2 = (h.mnode e.ptr).w2) : Path h' l u := by
  induction u generalizing l with
  | nil => trivial
  | cons e u ih =>
      obtain ⟨he, hu⟩ := hp
      have hne : l ≠ lastLink l (e :: u) := by
        intro heq
        have hm : lastLink l (e :: u) ∈ (e :: u).map fun e => Link.node e.ptr := by
          rcases lastLink_mem (l := .node e.ptr) (u := u) with h | ⟨a, ha, h⟩
          · rw [lastLink, h]; simp
          · rw [lastLink, h]; exact List.mem_map.mpr ⟨a, by simp [ha], rfl⟩
        rw [← heq] at hm
        exact (List.nodup_cons.mp hlast).1 hm
      refine ⟨⟨?_, ?_, ?_, ?_⟩, ih hu ?_ (List.nodup_cons.mp hlast).2 ?_ ?_⟩
      · rw [hl l hne (.inl rfl), he.next]
      · rw [h1 e (by simp), he.back]
      · rw [MNode.getDepth, h2 e (by simp), ← he.depth, MNode.getDepth]
      · rw [MNode.getSpace, h2 e (by simp), ← he.space, MNode.getSpace]
      · intro k hk hmem
        refine hl k hk (.inr ?_)
        rcases hmem with rfl | ⟨a, ha, rfl⟩
        · exact ⟨e, by simp, rfl⟩
        · exact ⟨a, by simp [ha], rfl⟩
      · exact fun a ha => h1 a (by simp [ha])
      · exact fun a ha => h2 a (by simp [ha])

end Path

/-! ### Slots of root arrays -/

lemma toNat_mod_of_aligned {b : Word} (hb : b &&& 0xfff = 0) : b.toNat % 4096 = 0 := by
  have h := congrArg BitVec.toNat hb
  rw [BitVec.toNat_and] at h
  have hm : (0xfff : Word).toNat = 2 ^ 12 - 1 := by decide
  rw [hm, Nat.and_two_pow_sub_one_eq_mod] at h
  simpa using h

lemma slot_toNat {b : Word} (hb : b &&& 0xfff = 0) {i : Nat} (hi : i < 1024) :
    (slot b i).toNat = b.toNat + 4 * i := by
  have hm := toNat_mod_of_aligned hb
  have hlt := b.isLt
  have h4 : (4 * BitVec.ofNat 32 i : Word).toNat = 4 * i := by
    rw [BitVec.toNat_mul, BitVec.toNat_ofNat]
    simp
    omega
  rw [slot, BitVec.toNat_add, h4]
  omega

lemma slot_inj {b b' : Word} (hb : b &&& 0xfff = 0) (hb' : b' &&& 0xfff = 0) {i j : Nat}
    (hi : i < 1024) (hj : j < 1024) (h : slot b i = slot b' j) : b = b' ∧ i = j := by
  have hn := congrArg BitVec.toNat h
  rw [slot_toNat hb hi, slot_toNat hb' hj] at hn
  have h1 := toNat_mod_of_aligned hb
  have h2 := toNat_mod_of_aligned hb'
  refine ⟨BitVec.eq_of_toNat_eq ?_, ?_⟩ <;> omega

lemma slot_succ (b : Word) (i : Nat) : slot b i + 4 = slot b (i + 1) := by
  simp only [slot, BitVec.ofNat_add]
  rw [BitVec.add_assoc]
  congr 1
  rw [BitVec.mul_add]
  rfl

/-! ### The database -/

/-- A root array: the link that leads to its dual node, the dual node, the array and
the depth of the mapping node it belongs to. -/
structure Arr where
  link : Link
  dual : Word
  base : Word
  depth : Nat
  deriving DecidableEq, Repr

/-- The root nodes of an array. -/
def Arr.slots (a : Arr) : List Word := (List.range 1024).map (slot a.base)

/-- The database: the array below `sigma0_mapnode`, which is of the larger pages,
the arrays of smaller pages, and the chains of all root nodes. -/
structure Db where
  top : Arr
  arrs : List Arr
  chain : Word → List Ent

namespace Db

variable (db : Db)

def arrays : List Arr := db.top :: db.arrs

/-- All root nodes. -/
def slots : List Word := db.arrays.flatMap Arr.slots

/-- All mapping nodes but `sigma0_mapnode`. -/
def ents : List Ent := db.slots.flatMap db.chain

/-- The links of the chain at the root node `r`. -/
def chainLinks (r : Word) : List Link :=
  .root r :: (db.chain r).map fun e => .node e.ptr

variable {db} in
lemma mem_chainLinks {r : Word} {x : Ent} (hx : x ∈ db.chain r) :
    .node x.ptr ∈ db.chainLinks r :=
  List.mem_cons_of_mem _ (List.mem_map.mpr ⟨x, hx, rfl⟩)

def setChain (r : Word) (c : List Ent) : Db :=
  { db with chain := Function.update db.chain r c }

/-- The depths of every chain form a pre-order. -/
def Ordered : Prop :=
  ∀ a ∈ db.arrays, ∀ r ∈ a.slots, DepthList.Ordered Ent.depth a.depth a.depth (db.chain r)

end Db

/-- A link of the database. -/
def Live (pool : Pool) (db : Db) (l : Link) : Prop :=
  l = .node pool.sigma0 ∨ ∃ r ∈ db.slots, l ∈ db.chainLinks r

/-- The memory `h` holds the database `db`, and every buffer of the pool is either
reached exactly once or free. -/
structure Links (pool : Pool) (h : Mdb) (db : Db) : Prop where
  sigma0 : h.sigma0Mapnode = pool.sigma0
  sigma0_back : (h.mnode pool.sigma0).w1 = 0
  sigma0_depth : (h.mnode pool.sigma0).getDepth = 0
  sigma0_space : (h.mnode pool.sigma0).getSpace = 0
  sigma0_next : (h.next (.node pool.sigma0)).2 = 0
  top_link : db.top.link = .node pool.sigma0
  top_depth : db.top.depth = 0
  path : ∀ r ∈ db.slots, Path h (.root r) (db.chain r)
  path_end : ∀ r ∈ db.slots, (h.next (lastLink (.root r) (db.chain r))).2 = 0
  dual : ∀ a ∈ db.arrays, (h.next a.link).1 = a.dual
  base : ∀ a ∈ db.arrays, (h.dual a.dual).root = a.base
  owner : ∀ r ∈ db.slots, ∀ l ∈ db.chainLinks r, h.Tagged l → ∃ a ∈ db.arrs, a.link = l
  link : ∀ a ∈ db.arrs, ∃ r ∈ db.top.slots, (a.link = .root r ∧ a.depth = 0) ∨
    ∃ e ∈ db.chain r, a.link = .node e.ptr ∧ a.depth = e.depth
  pg : ∀ e ∈ db.ents, e.pg &&& 3 = 0
  mnodes : (db.ents.map Ent.ptr ++ h.free .mnode).Perm (pool.bufs .mnode)
  duals : (db.arrays.map Arr.dual ++ h.free .dual).Perm (pool.bufs .dual)
  roots : (db.arrays.map Arr.base ++ h.free .roots).Perm (pool.bufs .roots)

/-- The memory `h` holds the well-formed database `db`. -/
structure WellFormed (pool : Pool) (h : Mdb) (db : Db) : Prop extends Links pool h db where
  ordered : db.Ordered

end Hazelnut
