import Hazelnut.Mdb.Integrity

/-!
The mapping database as a tree, and what `mdb_map` does to it.

* `Db.Node`: the mapping nodes with their page sizes, the root of all mappings among them.
* `Db.Parent`: in a chain the parent of a node is the nearest node before it that is less
  deep; if there is none, it is the node the array of the chain belongs to.
* `Db.Mapped`: where `mdb_map` puts the new node.
* `mdbMap_adds`: it adds one child and leaves the rest of the tree as it was.
-/

namespace Hazelnut

open List

/-! ### The tree -/

/-- `sigma0_mapnode` as a node. -/
def Pool.root (pool : Pool) : Ent := ⟨pool.sigma0, 0, 0, 0⟩

/-- The mapping node an array belongs to.  What hangs off a root node of the larger pages
has been mapped from `sigma0_mapnode` directly. -/
def Arr.node (pool : Pool) (a : Arr) : Ent :=
  match a.link with
  | .node q => ⟨q, 0, 0, a.depth⟩
  | .root _ => ⟨pool.sigma0, 0, 0, a.depth⟩

lemma Arr.node_depth (pool : Pool) (a : Arr) : (a.node pool).depth = a.depth := by
  unfold Arr.node
  split <;> rfl

namespace Db

/-- The mapping nodes of a database, with the sizes of their pages. -/
inductive Node (pool : Pool) (db : Db) : Ent → Nat → Prop
  | sigma0 : Node pool db pool.root 2
  | ent {r : Word} {e : Ent} (hr : r ∈ db.slots) (he : e ∈ db.chain r) :
      Node pool db e (db.pgsize r)

/-- The mapping node at `q` has been derived from the one at `p`. -/
def Parent (pool : Pool) (db : Db) (p q : Word) : Prop :=
  ∃ a ∈ db.arrays, ∃ r ∈ a.slots, ∃ x y,
    DepthList.IsParent Ent.depth (a.node pool :: db.chain r) x y ∧ x.ptr = p ∧ y.ptr = q

/-- The array below the link `l`, where the top array need not be created. -/
def Leads (db : Db) (l : Link) (a : Arr) (db' : Db) : Prop :=
  (a = db.top ∧ a.link = l ∧ db' = db) ∨ db.Below l a db'

/-- The way down from a link of pages of size `f` to an array of pages of size `t`, along
the root nodes that the address `w` selects.  Missing arrays are created. -/
inductive Descent (w : Word) (t : Nat) : Nat → Link → Arr → Db → Db → Prop
  | last {l : Link} {a : Arr} {db db' : Db} (hl : db.Leads l a db') : Descent w t (t + 1) l a db db'
  | step {f : Nat} {l : Link} {a a' : Arr} {db db₁ db' : Db} (hl : db.Leads l a db₁)
      (hd : Descent w t f (.root (slot a.base (tableIndex w f))) a' db₁ db') :
      Descent w t (f + 1) l a' db db'

/-- Where the new node `n` goes that is mapped from `f`: behind `f` if the pages are of the
same size, else in front of the chain that the address selects in the array of the new
size. -/
inductive Mapped (db : Db) (f : Ent) (w : Word) (n : Ent) : Nat → Nat → Db → Prop
  | behind {sz : Nat} {r : Word} {pre post : List Ent} (hr : r ∈ db.slots)
      (hc : db.chain r = pre ++ f :: post) :
      Mapped db f w n sz sz (db.setChain r (pre ++ f :: n :: post))
  | below {sz t : Nat} {a : Arr} {db₁ : Db} (hd : Descent w t sz (.node f.ptr) a db db₁) :
      Mapped db f w n sz t (db₁.setChain (slot a.base (tableIndex w t))
        (n :: db₁.chain (slot a.base (tableIndex w t))))

end Db

/-! ### Nodes and parents under changes of the database -/

variable {pool : Pool} {h : Mdb} {db db' : Db} {r p q : Word} {e f n x : Ent}
  {pre post c : List Ent} {a : Arr} {l : Link} {w tPg tSpace : Word} {sz t : Nat}

lemma Db.pgsize_setChain (s : Word) : (db.setChain r c).pgsize s = db.pgsize s := by
  unfold Db.pgsize
  rfl

lemma Db.pgsize_addArr (s : Word) : (db.addArr a).pgsize s = db.pgsize s := by
  unfold Db.pgsize
  rfl

/-- A new array holds no node. -/
lemma Db.node_addArr (hn : ∀ s ∈ a.slots, s ∉ db.slots) {s : Nat} :
    (db.addArr a).Node pool x s ↔ db.Node pool x s := by
  constructor
  · rintro (_ | ⟨hr, he⟩)
    · exact .sigma0
    · rename_i r
      by_cases hra : r ∈ a.slots
      · rw [Db.addArr_chain_new hra] at he
        simp at he
      · rw [Db.addArr_chain hra] at he
        rw [Db.pgsize_addArr]
        exact .ent ((Db.mem_addArr_slots.mp hr).resolve_left hra) he
  · rintro (_ | ⟨hr, he⟩)
    · exact .sigma0
    · rename_i r
      have hra : r ∉ a.slots := fun h => hn r h hr
      rw [← Db.addArr_chain hra] at he
      have hnode : (db.addArr a).Node pool x ((db.addArr a).pgsize r) :=
        .ent (Db.mem_addArr_slots (a := a).mpr (.inr hr)) he
      rwa [Db.pgsize_addArr] at hnode

lemma Db.parent_addArr (hn : ∀ s ∈ a.slots, s ∉ db.slots) :
    (db.addArr a).Parent pool p q ↔ db.Parent pool p q := by
  have hno : ∀ x y z, ¬ DepthList.IsParent Ent.depth [z] x y := by
    rintro x y z ⟨u, v, w, hl, -⟩
    have := congrArg List.length hl
    simp at this
    omega
  constructor
  · rintro ⟨b, hb, r, hr, x, y, hp, rfl, rfl⟩
    by_cases hra : r ∈ a.slots
    · rw [Db.addArr_chain_new hra] at hp
      exact absurd hp (hno x y _)
    · rw [Db.addArr_chain hra] at hp
      refine ⟨b, ?_, r, hr, x, y, hp, rfl, rfl⟩
      rcases List.mem_cons.mp hb with rfl | hb
      · exact List.mem_cons_self
      · rcases List.mem_cons.mp hb with rfl | hb
        · exact absurd hr hra
        · exact List.mem_cons_of_mem _ hb
  · rintro ⟨b, hb, r, hr, x, y, hp, rfl, rfl⟩
    have hra : r ∉ a.slots := fun h => hn r h (Links.mem_slots hb hr)
    rw [← Db.addArr_chain hra] at hp
    refine ⟨b, ?_, r, hr, x, y, hp, rfl, rfl⟩
    rcases List.mem_cons.mp hb with rfl | hb
    · exact List.mem_cons_self
    · exact List.mem_cons_of_mem _ (List.mem_cons_of_mem _ hb)

/-- One more node in a chain. -/
lemma Db.node_insert (hr : r ∈ db.slots) (hc : db.chain r = pre ++ post) {s : Nat} :
    (db.setChain r (pre ++ n :: post)).Node pool x s ↔
      db.Node pool x s ∨ (x = n ∧ s = db.pgsize r) := by
  constructor
  · rintro (_ | ⟨hr', he⟩)
    · exact .inl .sigma0
    · rename_i r'
      rw [Db.pgsize_setChain]
      by_cases hne : r' = r
      · subst hne
        rw [Db.setChain_chain_self] at he
        by_cases hx : x = n
        · exact .inr ⟨hx, rfl⟩
        · refine .inl (.ent hr ?_)
          rw [hc]
          simpa [hx] using he
      · rw [Db.setChain_chain_of_ne hne] at he
        exact .inl (.ent hr' he)
  · have hslots : (db.setChain r (pre ++ n :: post)).slots = db.slots := rfl
    rintro ((_ | ⟨hr', he⟩) | ⟨rfl, rfl⟩)
    · exact .sigma0
    · rename_i r'
      rw [← Db.pgsize_setChain (r := r) (c := pre ++ n :: post)]
      refine .ent hr' ?_
      by_cases hne : r' = r
      · subst hne
        rw [Db.setChain_chain_self]
        rw [hc] at he
        simpa using (List.mem_append.mp he).imp_right .inr
      · rwa [Db.setChain_chain_of_ne hne]
    · rw [← Db.pgsize_setChain (r := r) (c := pre ++ x :: post)]
      refine .ent hr ?_
      rw [Db.setChain_chain_self]
      simp

/-- **A new child takes no child from another node.**  The new node goes right behind its
parent, in the chain with the node of the array in front. -/
lemma Db.parent_insert (ho : db.Ordered) (hu : ∀ b ∈ db.arrays, r ∈ b.slots → b = a)
    (ha : a ∈ db.arrays) (hr : r ∈ a.slots) {u v : List Ent}
    (hc : a.node pool :: db.chain r = u ++ x :: v)
    (hc' : a.node pool :: c = u ++ x :: n :: v) (hd : n.depth = x.depth + 1) :
    (db.setChain r c).Parent pool p q ↔ db.Parent pool p q ∨ (p = x.ptr ∧ q = n.ptr) := by
  have hv : ∀ z ∈ v.head?, z.depth ≤ x.depth + 1 := by
    have hr' := ho a ha r hr
    nth_rewrite 2 [← Arr.node_depth pool a] at hr'
    exact hr'.split_le hc
  have hins : ∀ y z, DepthList.IsParent Ent.depth (a.node pool :: c) y z ↔
      DepthList.IsParent Ent.depth (a.node pool :: db.chain r) y z ∨ (y = x ∧ z = n) := by
    intro y z
    rw [hc, hc']
    exact DepthList.isParent_insert hd hv
  constructor
  · rintro ⟨b, hb, r', hr', y, z, hp, rfl, rfl⟩
    by_cases hne : r' = r
    · subst hne
      obtain rfl := hu b hb hr'
      rw [Db.setChain_chain_self] at hp
      rcases (hins y z).mp hp with hp | ⟨rfl, rfl⟩
      · exact .inl ⟨b, hb, r', hr', y, z, hp, rfl, rfl⟩
      · exact .inr ⟨rfl, rfl⟩
    · rw [Db.setChain_chain_of_ne hne] at hp
      exact .inl ⟨b, hb, r', hr', y, z, hp, rfl, rfl⟩
  · rintro (⟨b, hb, r', hr', y, z, hp, rfl, rfl⟩ | ⟨rfl, rfl⟩)
    · refine ⟨b, hb, r', hr', y, z, ?_, rfl, rfl⟩
      by_cases hne : r' = r
      · subst hne
        obtain rfl := hu b hb hr'
        rw [Db.setChain_chain_self]
        exact (hins y z).mpr (.inl hp)
      · rwa [Db.setChain_chain_of_ne hne]
    · refine ⟨a, ha, r, hr, x, n, ?_, rfl, rfl⟩
      rw [Db.setChain_chain_self]
      exact (hins x n).mpr (.inr ⟨rfl, rfl⟩)

/-! ### One more node -/

/-- The database `db'` has one node more than `db`: the child `n` of `f`, of page size `t`. -/
structure Db.Adds (pool : Pool) (db : Db) (f n : Ent) (t : Nat) (db' : Db) : Prop where
  fresh : ∀ x s, db.Node pool x s → x.ptr ≠ n.ptr
  nodes : ∀ x s, db'.Node pool x s ↔ db.Node pool x s ∨ (x = n ∧ s = t)
  parents : ∀ p q, db'.Parent pool p q ↔ db.Parent pool p q ∨ (p = f.ptr ∧ q = n.ptr)

/-- A free buffer is not a node. -/
lemma Links.fresh (hs : Links pool h db) (hp : p ∈ h.free .mnode) {s : Nat}
    (hx : db.Node pool x s) : x.ptr ≠ p := by
  rintro rfl
  cases hx with
  | sigma0 => exact pool.sigma0_static (hs.mnodes.subset (List.mem_append_right _ hp))
  | ent hr he => exact hs.ptr_not_free (Links.mem_ents hr he) hp

/-- Behind a node. -/
lemma Db.adds_behind (hw : WellFormed pool h db) (hr : r ∈ db.slots)
    (hc : db.chain r = pre ++ f :: post) (hn : n.depth = f.depth + 1)
    (hp : n.ptr ∈ h.free .mnode) :
    db.Adds pool f n (db.pgsize r) (db.setChain r (pre ++ f :: n :: post)) where
  fresh := fun _ _ hx => hw.fresh hp hx
  nodes := by
    intro x s
    have hc' : db.chain r = (pre ++ [f]) ++ post := by simpa using hc
    have hins : (db.setChain r ((pre ++ [f]) ++ n :: post)).Node pool x s ↔
        db.Node pool x s ∨ (x = n ∧ s = db.pgsize r) := Db.node_insert hr hc'
    simpa using hins
  parents := by
    intro p q
    obtain ⟨a, ha, hra⟩ := List.mem_flatMap.mp hr
    exact Db.parent_insert (u := a.node pool :: pre) hw.ordered
      (fun b hb hrb => hw.arr_unique hb ha hrb hra) ha hra (by rw [hc]; rfl) rfl hn

/-- In front of a chain. -/
lemma Db.adds_front (ho : db.Ordered) (hu : ∀ b ∈ db.arrays, r ∈ b.slots → b = a)
    (ha : a ∈ db.arrays) (hr : r ∈ a.slots) (hn : n.depth = a.depth + 1)
    (hf : (a.node pool).ptr = f.ptr) (hp : ∀ x s, db.Node pool x s → x.ptr ≠ n.ptr) :
    db.Adds pool f n (db.pgsize r) (db.setChain r (n :: db.chain r)) where
  fresh := hp
  nodes := by
    intro x s
    have hc : db.chain r = [] ++ db.chain r := rfl
    exact Db.node_insert (Links.mem_slots ha hr) hc
  parents := by
    intro p q
    rw [← hf]
    exact Db.parent_insert (u := []) ho hu ha hr rfl rfl (by rw [hn, Arr.node_depth])

lemma Db.Below.mem (hb : db.Below l a db') : a ∈ db'.arrays := by
  cases hb with
  | old ha => exact List.mem_cons_of_mem _ ha
  | new => exact List.mem_cons_of_mem _ List.mem_cons_self

lemma Db.Below.link (hb : db.Below l a db') : a.link = l := by
  cases hb with
  | old _ hl => exact hl
  | new hl => exact hl

lemma Db.Below.ordered (hb : db.Below l a db') (ho : db.Ordered) : db'.Ordered := by
  cases hb with
  | old => exact ho
  | new _ _ hr => exact ho.addArr hr

lemma Db.Below.node (hb : db.Below l a db') {s : Nat} :
    db'.Node pool x s ↔ db.Node pool x s := by
  cases hb with
  | old => exact Iff.rfl
  | new _ _ hr => exact Db.node_addArr hr

lemma Db.Below.parent (hb : db.Below l a db') :
    db'.Parent pool p q ↔ db.Parent pool p q := by
  cases hb with
  | old => exact Iff.rfl
  | new _ _ hr => exact Db.parent_addArr hr

/-- The array below a link is of the smaller pages. -/
lemma Db.Below.pgsize (hb : db.Below l a db') {h' : Mdb} {c : Word → List Ent}
    (hs : Links pool h' { db' with chain := c }) (hr : r ∈ a.slots) : db'.pgsize r = 0 := by
  have ha : a ∈ db'.arrs := by
    cases hb with
    | old ha => exact ha
    | new => exact List.mem_cons_self
  have hz := hs.pgsize_small ha hr
  unfold Db.pgsize at hz ⊢
  exact hz

/-- A new node in the array below a link. -/
lemma Db.Below.adds (hb : db.Below l a db') (hw : WellFormed pool h db) {h' : Mdb} {i : Nat}
    (hi : i < 1024)
    (hs : Links pool h' (db'.setChain (slot a.base i) (n :: db'.chain (slot a.base i))))
    (hn : n.depth = a.depth + 1) (hf : (a.node pool).ptr = f.ptr) (hp : n.ptr ∈ h.free .mnode) :
    db.Adds pool f n 0 (db'.setChain (slot a.base i) (n :: db'.chain (slot a.base i))) := by
  have hr : slot a.base i ∈ a.slots := slot_mem hi
  have hadds : db'.Adds pool f n (db'.pgsize (slot a.base i))
      (db'.setChain (slot a.base i) (n :: db'.chain (slot a.base i))) :=
    Db.adds_front (hb.ordered hw.ordered) (fun b hm hrb => hs.arr_unique hm hb.mem hrb hr)
      hb.mem hr hn hf
    (fun x s hx => hw.fresh hp (hb.node.mp hx))
  rw [hb.pgsize hs hr] at hadds
  refine ⟨fun x s hx => hw.fresh hp hx, fun x s => ?_, fun p q => ?_⟩
  · rw [hadds.nodes, hb.node]
  · rw [hadds.parents, hb.parent]

/-! ### Out of buffers -/

lemma mdbMap_none (fPg tSpace : Word) (hg : w &&& 1 = 0) (hm : h.free .mnode = []) :
    mdbMap h q fPg sz w tPg t tSpace = none := by
  simpa [mdbMap, Mdb.allocBuffer, hm] using hg

lemma mdbCreateRoots_none (hk : h.free .roots = [] ∨ h.free .dual = []) :
    mdbCreateRoots sz h = none := by
  rcases hk with hb | hd
  · simp [mdbCreateRoots, Mdb.allocBuffer, hb]
  · cases hb : h.free .roots with
    | nil => simp [mdbCreateRoots, Mdb.allocBuffer, hb]
    | cons b bs => simp [mdbCreateRoots, Mdb.allocBuffer, hb, hd]

lemma mdbMap_small_none (fPg tSpace : Word) (hg : w &&& 1 = 0) (hp : p ∈ (h.free .mnode).head?)
    (hk : h.free .roots = [] ∨ h.free .dual = []) (hq : (mnodeNext h q).1 = 0) :
    mdbMap h q fPg 1 w tPg 0 tSpace = none := by
  have hk' : (h.take .mnode).free .roots = [] ∨ (h.take .mnode).free .dual = [] := by
    simpa [Mdb.take] using hk
  simpa [mdbMap, allocBuffer_eq hp, hq, mdbCreateRoots_none hk'] using hg

lemma mdbMap_tiny_none (fPg tSpace : Word) (hg : w &&& 1 = 0) (hp : p ∈ (h.free .mnode).head?)
    (hk : h.free .roots = [] ∨ h.free .dual = []) {root : Word} (hq : (mnodeNext h q).1 ≠ 0)
    (hroot : slot (h.dual (mnodeNext h q).1).root (tableIndex w 1) = root)
    (hr : (rnodeNext h root).1 = 0) :
    mdbMap h q fPg 2 w tPg 0 tSpace = none := by
  have hk' : (h.take .mnode).free .roots = [] ∨ (h.take .mnode).free .dual = [] := by
    simpa [Mdb.take] using hk
  have hd : (h.take .mnode).dual = h.dual := rfl
  have hn : rnodeNext (h.take .mnode) root = rnodeNext h root :=
    Mdb.next_take (l := .root root) .mnode
  simp only [mdbMap, if_neg (not_not_intro hg), allocBuffer_eq hp, Option.bind_eq_bind,
    Option.bind_some, if_neg (show ¬ (2 : Nat) = 0 by omega), if_pos (show (0 : Nat) < 2 by omega),
    if_neg hq, mdbIndexRoot, pure, hd, hroot, hn, show (2 : Nat) - 1 = 0 + 1 by omega, mdbDescend,
    if_pos (show (0 : Nat) < 0 + 1 by omega), if_pos hr, mdbCreateRoots_none hk', Option.bind_none]

/-! ### What `mdb_map` adds -/

/-- A call of `mdb_map` for a node `f` with pages of size `sz` has to create an array: it is for
small pages, and there is no array yet below the large page. -/
def Db.NeedsArray (db : Db) (f : Ent) (w : Word) (sz t : Nat) : Prop :=
  t = 0 ∧ (sz = 1 ∧ (∀ a ∈ db.arrays, a.link ≠ .node f.ptr) ∨
    sz = 2 ∧ ∀ a ∈ db.arrays, a.link ≠ .root (slot db.top.base (tableIndex w 1)))

/-- What a call of `mdb_map` for a node `f` with pages of size `sz` does: it finds no buffer for
the node, or none for an array that it has to create, or the database has one node more, below
`f`, of the new size and where it belongs. -/
def MapAdds (pool : Pool) (h : Mdb) (db : Db) (f : Ent) (fPg : Word) (sz : Nat) (w tPg : Word)
    (t : Nat) (tSpace : Word) : Prop :=
  (mdbMap h f.ptr fPg sz w tPg t tSpace = none ∧ (h.free .mnode = [] ∨
    db.NeedsArray f w sz t ∧ (h.free .roots = [] ∨ h.free .dual = []))) ∨
  ∃ p h' db', mdbMap h f.ptr fPg sz w tPg t tSpace = some (p, h') ∧ WellFormed pool h' db' ∧
    db.Mapped f w ⟨p, tPg, tSpace &&& spaceMask, f.depth + 1⟩ sz t db' ∧
    db.Adds pool f ⟨p, tPg, tSpace &&& spaceMask, f.depth + 1⟩ t db'

lemma exists_head {k : Buf} : h.free k = [] ∨ ∃ p, p ∈ (h.free k).head? := by
  cases hk : h.free k with
  | nil => exact .inl rfl
  | cons p ps => exact .inr ⟨p, rfl⟩

/-- Either the buffers for a new array are there, or one of the two is missing. -/
lemma exists_buffers (h : Mdb) : (h.free .roots = [] ∨ h.free .dual = []) ∨
    ∃ b d, b ∈ (h.free .roots).head? ∧ d ∈ (h.free .dual).head? := by
  rcases exists_head (h := h) (k := .roots) with hb | ⟨b, hb⟩
  · exact .inl (.inl hb)
  · rcases exists_head (h := h) (k := .dual) with hd | ⟨d, hd⟩
    · exact .inl (.inr hd)
    · exact .inr ⟨b, d, hb, hd⟩

/-- A link without a tag leads to no array. -/
lemma Links.no_arr (hs : Links pool h db) (ht : ¬ h.Tagged l) : ∀ a ∈ db.arrays, a.link ≠ l :=
  fun _ ha heq => ht (heq ▸ hs.tagged_of_arr ha)

lemma node_of_link_node {q : Word} (hl : a.link = .node q) : (a.node pool).ptr = q := by
  rw [Arr.node, hl]

lemma node_of_link_root (hl : a.link = .root r) : (a.node pool).ptr = pool.sigma0 := by
  rw [Arr.node, hl]

/-- From a large page to a smaller one. -/
lemma adds_small (fPg tSpace : Word) (hw : WellFormed pool h db) (hr : r ∈ db.top.slots)
    (hf : f ∈ db.chain r) (hd : f.depth < 255) (hg : w &&& 1 = 0) (hpg : tPg &&& 3 = 0)
    (hp : p ∈ (h.free .mnode).head?) : MapAdds pool h db f fPg 1 w tPg 0 tSpace := by
  obtain ⟨pre, post, hc⟩ := List.append_of_mem hf
  have hi := tableIndex_lt w (Nat.zero_le 1)
  have hrs := Links.mem_top_slots hr
  by_cases ht : h.Tagged (.node f.ptr)
  · obtain ⟨h', a, hmap, hb, hdep, hw'⟩ := mdbMap_small_tagged fPg tSpace hw hrs hc hd hpg hg hp ht
    refine .inr ⟨p, h', _, hmap, hw', .below (.last (.inr hb)), ?_⟩
    exact hb.adds hw hi hw'.toLinks (by rw [hdep]) (node_of_link_node hb.link)
      (List.mem_of_mem_head? hp)
  · rcases exists_buffers h with hk | ⟨b, d, hb, hdl⟩
    · have hneeds : db.NeedsArray f w 1 0 := ⟨rfl, .inl ⟨rfl, hw.toLinks.no_arr ht⟩⟩
      exact .inl ⟨mdbMap_small_none fPg tSpace hg hp hk (Mdb.next_fst_of_not_tagged ht),
        .inr ⟨hneeds, hk⟩⟩
    · obtain ⟨h', a, db', hmap, hb, hdep, hw'⟩ :=
        mdbMap_small fPg tSpace hw hr hc hd hpg hg hp hb hdl
      refine .inr ⟨p, h', _, hmap, hw', .below (.last (.inr hb)), ?_⟩
      exact hb.adds hw hi hw'.toLinks (by rw [hdep]) (node_of_link_node hb.link)
        (List.mem_of_mem_head? hp)

/-- From the root to a large page. -/
lemma adds_large (fPg tSpace : Word) (hw : WellFormed pool h db) (hg : w &&& 1 = 0)
    (hpg : tPg &&& 3 = 0) (hp : p ∈ (h.free .mnode).head?) :
    MapAdds pool h db pool.root fPg 2 w tPg 1 tSpace := by
  obtain ⟨h', hmap, hw'⟩ := mdbMap_sigma0 (w := w) fPg tSpace hw hpg hg hp
  have hr : slot db.top.base (tableIndex w 1) ∈ db.top.slots := slot_mem (tableIndex_lt w le_rfl)
  have htop : db.top ∈ db.arrays := List.mem_cons_self
  refine .inr ⟨p, h', _, hmap, hw', .below (.last (.inl ⟨rfl, hw.top_link, rfl⟩)), ?_⟩
  have hadds := Db.adds_front (f := pool.root)
    (n := ⟨p, tPg, tSpace &&& spaceMask, pool.root.depth + 1⟩) hw.ordered
    (fun b hb hrb => hw.arr_unique hb htop hrb hr) htop hr (by rw [hw.top_depth]; rfl)
    (node_of_link_node hw.top_link) (fun x s hx => hw.fresh (List.mem_of_mem_head? hp) hx)
  rwa [Db.pgsize_top hr] at hadds

/-- From the root to a small page. -/
lemma adds_tiny (fPg tSpace : Word) (hw : WellFormed pool h db) (hg : w &&& 1 = 0)
    (hpg : tPg &&& 3 = 0) (hp : p ∈ (h.free .mnode).head?) :
    MapAdds pool h db pool.root fPg 2 w tPg 0 tSpace := by
  have hi := tableIndex_lt w (Nat.zero_le 1)
  have htop : db.Leads (.node pool.sigma0) db.top db := .inl ⟨rfl, hw.top_link, rfl⟩
  by_cases ht : h.Tagged (.root (slot db.top.base (tableIndex w 1)))
  · obtain ⟨h', a, hmap, hb, hdep, hw'⟩ := mdbMap_tiny_tagged fPg tSpace hw hpg hg hp ht
    refine .inr ⟨p, h', _, hmap, hw', .below (.step htop (.last (.inr hb))), ?_⟩
    exact hb.adds hw hi hw'.toLinks (by rw [hdep]; rfl) (node_of_link_root hb.link)
      (List.mem_of_mem_head? hp)
  · rcases exists_buffers h with hk | ⟨b, d, hb, hdl⟩
    · obtain ⟨-, hne, hbase⟩ := hw.next_sigma0
      have hneeds : db.NeedsArray pool.root w 2 0 := ⟨rfl, .inr ⟨rfl, hw.toLinks.no_arr ht⟩⟩
      refine .inl ⟨?_, .inr ⟨hneeds, hk⟩⟩
      exact mdbMap_tiny_none fPg tSpace hg hp hk hne
        (congrArg (fun x => slot x (tableIndex w 1)) hbase) (Mdb.next_fst_of_not_tagged ht)
    · obtain ⟨h', a, db', hmap, hb, hdep, hw'⟩ :=
        mdbMap_tiny_untagged fPg tSpace hw hpg hg hp hb hdl ht
      refine .inr ⟨p, h', _, hmap, hw', .below (.step htop (.last (.inr hb))), ?_⟩
      exact hb.adds hw hi hw'.toLinks (by rw [hdep]; rfl) (node_of_link_root hb.link)
        (List.mem_of_mem_head? hp)

/-- From any node to pages not above its own size. -/
lemma mapAdds (fPg tSpace : Word) (hw : WellFormed pool h db) (hf : db.Node pool f sz)
    (hd : f.depth < 255) (hle : t ≤ sz) (ht : t ≤ 1) (hg : w &&& 1 = 0) (hpg : tPg &&& 3 = 0) :
    MapAdds pool h db f fPg sz w tPg t tSpace := by
  rcases exists_head (h := h) (k := .mnode) with hm | ⟨p, hp⟩
  · exact .inl ⟨mdbMap_none fPg tSpace hg hm, .inl hm⟩
  cases hf with
  | sigma0 =>
      obtain rfl | rfl : t = 0 ∨ t = 1 := by omega
      · exact adds_tiny fPg tSpace hw hg hpg hp
      · exact adds_large fPg tSpace hw hg hpg hp
  | ent hr he =>
      rename_i r
      rcases Nat.eq_or_lt_of_le hle with rfl | hlt
      · obtain ⟨pre, post, hc⟩ := List.append_of_mem he
        obtain ⟨h', hmap, hw'⟩ := mdbMap_same fPg tSpace hw hr hc hd hpg hg hp
        exact .inr ⟨p, h', _, hmap, hw', .behind hr hc,
          Db.adds_behind hw hr hc rfl (List.mem_of_mem_head? hp)⟩
      · have hsz : db.pgsize r = 1 := by
          have := Db.pgsize_le db r
          omega
        have hrt : r ∈ db.top.slots := by
          by_contra hn
          rw [Db.pgsize_of_not_top hn] at hsz
          omega
        obtain rfl : t = 0 := by omega
        rw [hsz]
        exact adds_small fPg tSpace hw hrt he hd hg hpg hp

/-- **`mdb_map` adds one child.**  For every node of a well-formed database and every page
size not above its own, either there is no buffer for the node or for an array that is missing,
or there is one node more, a child of the given one, one deeper, behind it in its chain or in front
of the chain the address selects; the database is well formed, and all other nodes are as before,
with the same parents. -/
theorem mdbMap_adds (fPg tSpace : Word) (hw : WellFormed pool h db) (hf : db.Node pool f sz)
    (hd : f.depth < 255) (hle : t ≤ sz) (ht : t ≤ 1) (hg : w &&& 1 = 0) (hpg : tPg &&& 3 = 0) :
    MapAdds pool h db f fPg sz w tPg t tSpace :=
  mapAdds fPg tSpace hw hf hd hle ht hg hpg

/-- The first small page that is mapped, with buffers for an array at hand. -/
theorem mdbMap_adds_first : ∃ h db, mdbInit twoMem = some h ∧ (∀ k, h.free k ≠ []) ∧
    MapAdds twoPool h db twoPool.root 0 2 0x400000 0x8000 0 0x6000 := by
  have hf : Fresh twoPool twoMem := ⟨rfl, fun _ => rfl⟩
  obtain ⟨h, hinit, hw⟩ := mdbInit_wellFormed (b := 0x4000) (d := 0x2000) hf rfl rfl
  refine ⟨h, _, hinit, ?_, mdbMap_adds 0 0x6000 hw .sigma0 (by decide) (Nat.zero_le 2)
    (Nat.zero_le 1) (by decide) (by decide)⟩
  have hm := hw.mnodes.length_eq
  rw [Db.initial_ents] at hm
  have hd : h.free .dual = [0x2008] := free_twoPool rfl hw.duals (List.Perm.refl _)
  have hb : h.free .roots = [0x5000] := free_twoPool rfl hw.roots (List.Perm.refl _)
  intro k
  cases k with
  | mnode =>
      intro h0
      rw [h0] at hm
      simp [twoPool] at hm
  | dual => simp [hd]
  | roots => simp [hb]

end Hazelnut
