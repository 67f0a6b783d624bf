import Hazelnut.Mdb.Tree

/-!
The depth of mapping nodes over whole runs of mappings.

* `Made`: a mapping that has been made.  A run keeps the list of them, so that the tree of mappings
  is known apart from the depths that the database stores.
* `MapRun`: `mdb_init`, and any calls of `mdb_map` on nodes that are there.
* `Faithful`: what holds of a run as long as no depth has left its eight bits; `Faithful.map` is one
  mapping.
* `Faithful.descends_iff`: in a chain, the nodes that `mdb_flush` passes while the depth is above
  `startdepth` are the descendants.
* `mapRun_depth_iff`: the runs whose stored depths are the real ones.
* `MapRun.chain`, `mapRun_depth_wraps`: a chain of 256 mappings.
-/

namespace Hazelnut

open List

/-! ### Runs -/

/-- A mapping: the new node, the node it has been made from, and the size of its page. -/
structure Made where
  child : Word
  parent : Word
  pgsize : Nat
  deriving DecidableEq, Repr

/-- The node at `q` has been made from the one at `p`. -/
def MadeFrom (hist : List Made) (p q : Word) : Prop := ∃ m ∈ hist, m.parent = p ∧ m.child = q

/-- There is a node at an address, for pages of a size. -/
inductive Sized (pool : Pool) (hist : List Made) : Word → Nat → Prop
  | sigma0 : Sized pool hist pool.sigma0 2
  | made {m : Made} (hm : m ∈ hist) : Sized pool hist m.child m.pgsize

/-- The number of ancestors of a node. -/
inductive Ancestors (pool : Pool) (hist : List Made) : Word → Nat → Prop
  | sigma0 : Ancestors pool hist pool.sigma0 0
  | made {m : Made} {n : Nat} (hm : m ∈ hist) (hn : Ancestors pool hist m.parent n) :
      Ancestors pool hist m.child (n + 1)

/-- Any sequence of mappings. -/
inductive MapRun (pool : Pool) : Mdb → List Made → Prop
  | init {h h' : Mdb} (hf : Fresh pool h) (hi : mdbInit h = some h') : MapRun pool h' []
  | map {h h' : Mdb} {hist : List Made} {f p fPg w tPg tSpace : Word} {sz t : Nat}
      (hr : MapRun pool h hist) (hf : Sized pool hist f sz) (hle : t ≤ sz) (ht : t ≤ 1)
      (hg : w &&& 1 = 0) (hpg : tPg &&& 3 = 0)
      (hm : mdbMap h f fPg sz w tPg t tSpace = some (p, h')) :
      MapRun pool h' (⟨p, f, t⟩ :: hist)

/-- The stored depth of every node is the number of its ancestors. -/
def DepthsReal (pool : Pool) (h : Mdb) (hist : List Made) : Prop :=
  ∀ p n, Ancestors pool hist p n → (h.mnode p).getDepth.toNat = n

/-- A walk along a chain from a node passes its descendants, as long as the depth is above that of
the node, and nothing else. -/
def FlushClassifies (pool : Pool) (h : Mdb) (hist : List Made) : Prop :=
  ∃ db, WellFormed pool h db ∧ ∀ r ∈ db.slots, ∀ x ∈ db.chain r, ∀ y ∈ db.chain r,
    (DepthList.Descends Ent.depth (db.chain r) x y ↔
      Relation.TransGen (MadeFrom hist) x.ptr y.ptr)

variable {pool : Pool} {h h' : Mdb} {hist : List Made} {db db' : Db} {m : Made} {p q f : Word}
  {n k s t : Nat}

/-! ### Ancestors -/

lemma Ancestors.sized (ha : Ancestors pool hist p n) : ∃ s, Sized pool hist p s := by
  cases ha with
  | sigma0 => exact ⟨_, .sigma0⟩
  | made hm _ => exact ⟨_, .made hm⟩

lemma Ancestors.cons (ha : Ancestors pool hist p n) : Ancestors pool (m :: hist) p n := by
  induction ha with
  | sigma0 => exact .sigma0
  | made hm _ ih => exact .made (List.mem_cons_of_mem _ hm) ih

/-- A new node is no ancestor of the others. -/
lemma Ancestors.of_cons (hne : ∀ s, ¬Sized pool hist m.child s)
    (hpar : ∀ m' ∈ hist, ∃ s, Sized pool hist m'.parent s) (ha : Ancestors pool (m :: hist) p n)
    (hp : p ≠ m.child) : Ancestors pool hist p n := by
  induction ha with
  | sigma0 => exact .sigma0
  | @made m' n hm _ ih =>
    rcases List.mem_cons.mp hm with rfl | hm
    · exact absurd rfl hp
    · refine .made hm (ih fun heq => ?_)
      obtain ⟨s, hs⟩ := hpar m' hm
      exact hne s (heq ▸ hs)

lemma sized_cons : Sized pool (m :: hist) p s ↔
    Sized pool hist p s ∨ p = m.child ∧ s = m.pgsize := by
  constructor
  · intro hs
    cases hs with
    | sigma0 => exact .inl .sigma0
    | made hm =>
      rcases List.mem_cons.mp hm with rfl | hm
      · exact .inr ⟨rfl, rfl⟩
      · exact .inl (.made hm)
  · rintro (hs | ⟨rfl, rfl⟩)
    · cases hs with
      | sigma0 => exact .sigma0
      | made hm => exact .made (List.mem_cons_of_mem _ hm)
    · exact .made List.mem_cons_self

lemma madeFrom_cons : MadeFrom (m :: hist) p q ↔ MadeFrom hist p q ∨ p = m.parent ∧
    q = m.child := by
  constructor
  · rintro ⟨m', hm, rfl, rfl⟩
    rcases List.mem_cons.mp hm with rfl | hm
    · exact .inr ⟨rfl, rfl⟩
    · exact .inl ⟨m', hm, rfl, rfl⟩
  · rintro (⟨m', hm, rfl, rfl⟩ | ⟨rfl, rfl⟩)
    · exact ⟨m', List.mem_cons_of_mem _ hm, rfl, rfl⟩
    · exact ⟨m, List.mem_cons_self, rfl, rfl⟩

/-! ### Faithful databases -/

/-- The database is that of the mappings made, and its depths are the numbers of ancestors. -/
structure Faithful (pool : Pool) (h : Mdb) (hist : List Made) (db : Db) : Prop where
  wf : WellFormed pool h db
  nodes : ∀ p s, (∃ x, x.ptr = p ∧ db.Node pool x s) ↔ Sized pool hist p s
  depth : ∀ x s, db.Node pool x s → ∀ n, Ancestors pool hist x.ptr n ↔ n = x.depth
  parents : ∀ p q, db.Parent pool p q ↔ MadeFrom hist p q
  known : ∀ m ∈ hist, ∃ s, Sized pool hist m.parent s ∧ m.pgsize ≤ s

namespace Faithful

lemma initial {d b : Word} (hw : WellFormed pool h (Db.initial pool d b)) :
    Faithful pool h [] (Db.initial pool d b) where
  wf := hw
  nodes p s := by
    constructor
    · rintro ⟨x, rfl, hx⟩
      cases hx with
      | sigma0 => exact .sigma0
      | ent hr he => exact absurd (Links.mem_ents hr he) (by
          rw [Db.initial_ents]; exact List.not_mem_nil)
    · intro hs
      cases hs with
      | sigma0 => exact ⟨pool.root, rfl, .sigma0⟩
      | made hm => exact absurd hm List.not_mem_nil
  depth x s hx n := by
    cases hx with
    | sigma0 =>
      constructor
      · intro ha
        generalize hp : pool.root.ptr = p at ha
        cases ha with
        | sigma0 => rfl
        | made hm => exact absurd hm List.not_mem_nil
      · rintro rfl
        exact .sigma0
    | ent hr he => exact absurd (Links.mem_ents hr he) (by
        rw [Db.initial_ents]; exact List.not_mem_nil)
  parents p q := by
    constructor
    · rintro ⟨a, ha, r, hr, x, y, ⟨u, v, w, hl, -, -⟩, -, -⟩
      have hnil : (Db.initial pool d b).chain r = [] := rfl
      rw [hnil] at hl
      have hlen := congrArg List.length hl
      simp only [List.length_append, List.length_cons, List.length_nil] at hlen
      omega
    · rintro ⟨m, hm, -⟩
      exact absurd hm List.not_mem_nil
  known m hm := absurd hm List.not_mem_nil

/-- One more mapping. -/
lemma map (hF : Faithful pool h hist db) {x : Ent} {sp pg : Word} (hx : db.Node pool x k)
    (hle : t ≤ k) (hw' : WellFormed pool h' db')
    (ha : db.Adds pool x ⟨p, pg, sp, x.depth + 1⟩ t db') :
    Faithful pool h' (⟨p, x.ptr, t⟩ :: hist) db' := by
  have hfresh : ∀ s, ¬Sized pool hist p s := fun s hs => by
    obtain ⟨y, hy, hn⟩ := (hF.nodes p s).mpr hs
    exact ha.fresh y s hn hy
  have hpar : ∀ m ∈ hist, ∃ s, Sized pool hist m.parent s := fun m hm =>
    (hF.known m hm).imp fun _ => And.left
  refine ⟨hw', fun q s => ?_, fun y s hy n => ?_, fun q q' => ?_, fun m hm => ?_⟩
  · rw [sized_cons, ← hF.nodes]
    constructor
    · rintro ⟨y, rfl, hy⟩
      rcases (ha.nodes y s).mp hy with hy | ⟨rfl, rfl⟩
      · exact .inl ⟨y, rfl, hy⟩
      · exact .inr ⟨rfl, rfl⟩
    · rintro (⟨y, rfl, hy⟩ | ⟨rfl, rfl⟩)
      · exact ⟨y, rfl, (ha.nodes y s).mpr (.inl hy)⟩
      · exact ⟨_, rfl, (ha.nodes _ _).mpr (.inr ⟨rfl, rfl⟩)⟩
  · rcases (ha.nodes y s).mp hy with hy | ⟨rfl, rfl⟩
    · have hne : y.ptr ≠ p := ha.fresh y s hy
      rw [← hF.depth y s hy n]
      exact ⟨fun h => h.of_cons hfresh hpar hne, Ancestors.cons⟩
    · constructor
      · intro hn
        generalize hq : (⟨p, pg, sp, x.depth + 1⟩ : Ent).ptr = q at hn
        cases hn with
        | sigma0 =>
          have hp : p = pool.sigma0 := hq
          exact absurd (hp ▸ Sized.sigma0) (hfresh 2)
        | @made m' n hm hn =>
          rcases List.mem_cons.mp hm with rfl | hm
          · have hold := hn.of_cons hfresh hpar (ha.fresh x k hx)
            rw [(hF.depth x k hx n).mp hold]
          · have hp : p = m'.child := hq
            exact absurd (hp ▸ Sized.made hm) (hfresh m'.pgsize)
      · rintro rfl
        exact .made List.mem_cons_self ((hF.depth x k hx _).mpr rfl).cons
  · rw [ha.parents, madeFrom_cons, hF.parents]
  · rcases List.mem_cons.mp hm with rfl | hm
    · refine ⟨k, sized_cons.mpr (.inl ?_), hle⟩
      exact (hF.nodes x.ptr k).mp ⟨x, rfl, hx⟩
    · obtain ⟨s, hs, hms⟩ := hF.known m hm
      exact ⟨s, sized_cons.mpr (.inl hs), hms⟩

/-- The stored depths are those of the database. -/
lemma depthsReal (hF : Faithful pool h hist db) : DepthsReal pool h hist := by
  intro p n ha
  obtain ⟨s, hs⟩ := ha.sized
  obtain ⟨x, rfl, hx⟩ := (hF.nodes p s).mpr hs
  rw [(hF.depth x s hx n).mp ha]
  cases hx with
  | sigma0 =>
    rw [show pool.root.ptr = pool.sigma0 from rfl, hF.wf.sigma0_depth]
    rfl
  | ent hr he =>
    obtain ⟨pre, post, hc⟩ := List.append_of_mem he
    exact (hF.wf.entAt hr hc).depth

/-! ### Chains -/

lemma node_unique (hF : Faithful pool h hist db) {x y : Ent} (hx : db.Node pool x s)
    (hy : db.Node pool y t) (heq : x.ptr = y.ptr) : s = t := by
  have hstatic : ∀ {r : Word} {e : Ent}, r ∈ db.slots → e ∈ db.chain r → e.ptr ≠ pool.sigma0 := by
    intro r e hr he hsig
    refine pool.sigma0_static (hsig ▸ ?_)
    exact hF.wf.mnodes.subset (List.mem_append_left _ (List.mem_map_of_mem (Links.mem_ents hr he)))
  cases hx with
  | sigma0 =>
    cases hy with
    | sigma0 => rfl
    | ent hr he => exact absurd heq.symm (hstatic hr he)
  | ent hr he =>
    cases hy with
    | sigma0 => exact absurd heq (hstatic hr he)
    | ent hr' he' => rw [hF.wf.chain_unique hr hr' he he' heq]

lemma sized_unique (hF : Faithful pool h hist db) (hs : Sized pool hist p s)
    (ht : Sized pool hist p t) :
    s = t := by
  obtain ⟨x, hxp, hx⟩ := (hF.nodes p s).mpr hs
  obtain ⟨y, hyp, hy⟩ := (hF.nodes p t).mpr ht
  exact hF.node_unique hx hy (hxp.trans hyp.symm)

/-- Pages do not get larger from a node to those made from it. -/
lemma sized_of_derived (hF : Faithful pool h hist db) (hd : Relation.TransGen (MadeFrom hist) p q)
    (hq : Sized pool hist q t) : ∃ s, Sized pool hist p s ∧ t ≤ s := by
  have hstep : ∀ {b q t}, MadeFrom hist b q → Sized pool hist q t →
      ∃ s, Sized pool hist b s ∧ t ≤ s := by
    rintro b q t ⟨m, hm, rfl, rfl⟩ hq
    rw [hF.sized_unique hq (.made hm)]
    exact hF.known m hm
  induction hd generalizing t with
  | single hb => exact hstep hb hq
  | tail _ hb ih =>
    obtain ⟨s, hs, hts⟩ := hstep hb hq
    obtain ⟨s', hs', hss⟩ := ih hs
    exact ⟨s', hs', hts.trans hss⟩

/-- The node an array belongs to has larger pages than the array. -/
lemma sized_node (hF : Faithful pool h hist db) {a : Arr} {r : Word} (ha : a ∈ db.arrays)
    (hr : r ∈ a.slots) :
    ∃ s, Sized pool hist (a.node pool).ptr s ∧ db.pgsize r < s := by
  have hle := Db.pgsize_le db r
  have hsigma : (a.node pool).ptr = pool.sigma0 →
      ∃ s, Sized pool hist (a.node pool).ptr s ∧ db.pgsize r < s := fun h =>
    ⟨2, h ▸ .sigma0, by omega⟩
  rcases List.mem_cons.mp ha with rfl | ha
  · exact hsigma (node_of_link_node hF.wf.top_link)
  · obtain ⟨r', hr', ⟨hl, -⟩ | ⟨e, he, hl, -⟩⟩ := hF.wf.link a ha
    · exact hsigma (node_of_link_root hl)
    · refine ⟨1, ?_, by rw [Links.pgsize_small hF.wf.toLinks ha hr]; exact Nat.one_pos⟩
      rw [node_of_link_node hl, ← hF.nodes, ← Db.pgsize_top hr']
      exact ⟨e, rfl, .ent (Links.mem_top_slots hr') he⟩

/-- The node another one has been made from, as the chain of that one shows it. -/
lemma parent_in_chain (hF : Faithful pool h hist db) {a : Arr} {r : Word} {y : Ent}
    (ha : a ∈ db.arrays)
    (hr : r ∈ a.slots) (hy : y ∈ db.chain r) (hm : MadeFrom hist p y.ptr) :
    p = (a.node pool).ptr ∨ ∃ x, x.ptr = p ∧ DepthList.IsParent Ent.depth (db.chain r) x y := by
  obtain ⟨a', ha', r', hr', x, y', hpar, rfl, hyy⟩ := (hF.parents _ _).mpr hm
  have hslot := Links.mem_slots ha hr
  have hslot' := Links.mem_slots ha' hr'
  have hy' : y' ∈ db.chain r' := by
    rcases DepthList.isParent_cons.mp hpar with ⟨-, v, w, hl, -, -⟩ | ⟨u, v, w, hl, -, -⟩
    · rw [hl]
      simp
    · rw [hl]
      simp
  obtain rfl := hF.wf.ptr_inj (Links.mem_ents hslot' hy') (Links.mem_ents hslot hy) hyy
  obtain rfl := hF.wf.chain_unique hslot hslot' hy hy' rfl
  obtain rfl := hF.wf.arr_unique ha ha' hr hr'
  rcases DepthList.isParent_cons.mp hpar with ⟨rfl, -⟩ | hin
  · exact .inl rfl
  · exact .inr ⟨x, rfl, hin⟩

/-- **The comparison of depths finds the descendants.** -/
lemma descends_iff (hF : Faithful pool h hist db) {r : Word} (hr : r ∈ db.slots) {x y : Ent}
    (hx : x ∈ db.chain r) (hy : y ∈ db.chain r) :
    DepthList.Descends Ent.depth (db.chain r) x y ↔
        Relation.TransGen (MadeFrom hist) x.ptr y.ptr := by
  obtain ⟨a, ha, hra⟩ := List.mem_flatMap.mp hr
  have hnodup : (db.chain r).Nodup := List.Nodup.of_map _ (hF.wf.nodup_chain hr)
  constructor
  · intro hd
    refine Relation.TransGen.lift Ent.ptr (fun u v huv => ?_) x y hd.transGen
    exact (hF.parents _ _).mp ⟨a, ha, r, hra, u, v,
      DepthList.isParent_cons.mpr (.inr huv), rfl, rfl⟩
  · intro hd
    -- the node of the array has larger pages than `x`, so it is not made from `x`
    have hnode : ∀ {q}, q = x.ptr ∨ Relation.TransGen (MadeFrom hist) x.ptr q →
        q ≠ (a.node pool).ptr := by
      rintro q hq rfl
      obtain ⟨s, hs, hlt⟩ := hF.sized_node ha hra
      have hsx : Sized pool hist x.ptr (db.pgsize r) := (hF.nodes _ _).mp ⟨x, rfl, .ent hr hx⟩
      rcases hq with heq | hq
      · rw [heq] at hs
        rw [hF.sized_unique hs hsx] at hlt
        exact Nat.lt_irrefl _ hlt
      · obtain ⟨s', hs', hle⟩ := hF.sized_of_derived hq hs
        rw [hF.sized_unique hs' hsx] at hle
        omega
    generalize hq : y.ptr = q at hd
    induction hd generalizing y with
    | single hb =>
      rcases hF.parent_in_chain ha hra hy (hq ▸ hb) with heq | ⟨z, hz, hpar⟩
      · exact absurd heq (hnode (.inl rfl))
      · have hmem := hpar.left_mem
        rw [hF.wf.ptr_inj (Links.mem_ents hr hx) (Links.mem_ents hr hmem) hz.symm]
        exact hpar.descends
    | tail hab hb ih =>
      rcases hF.parent_in_chain ha hra hy (hq ▸ hb) with heq | ⟨z, hz, hpar⟩
      · exact absurd heq (hnode (.inr hab))
      · have hmem := hpar.left_mem
        exact (ih hmem hz).trans hnodup hpar.descends

end Faithful

/-- As long as no mapping is made from a node with 255 ancestors. -/
lemma MapRun.faithful (hr : MapRun pool h hist)
    (hd : ∀ m ∈ hist, ∀ n, Ancestors pool hist m.parent n → n < 255) :
    ∃ db, Faithful pool h hist db := by
  induction hr with
  | @init h h' hf hi =>
    rcases exists_buffers h with hk | ⟨b, d, hb, hdl⟩
    · rw [mdbInit, mdbCreateRoots_none hk] at hi
      cases hi
    · obtain ⟨h₀, hi₀, hw⟩ := mdbInit_wellFormed hf hb hdl
      rw [hi] at hi₀
      cases hi₀
      exact ⟨_, Faithful.initial hw⟩
  | @map h h' hist f p fPg w tPg tSpace sz t _ hf hle ht hg hpg hm ih =>
    obtain ⟨db, hF⟩ := ih fun m hmem n ha => hd m (List.mem_cons_of_mem _ hmem) n ha.cons
    obtain ⟨x, rfl, hx⟩ := (hF.nodes f sz).mpr hf
    have hdepth : x.depth < 255 :=
      hd _ List.mem_cons_self _ ((hF.depth x sz hx x.depth).mpr rfl).cons
    rcases mapAdds fPg tSpace hF.wf hx hdepth hle ht hg hpg with
      ⟨hnone, -⟩ | ⟨p', h'', db', hmap, hw', -, hadds⟩
    · rw [hm] at hnone
      cases hnone
    · rw [hm] at hmap
      cases hmap
      exact ⟨db', hF.map hx hle hw' hadds⟩

/-! ### The condition -/

/-- A stored depth has eight bits. -/
lemma getDepth_lt (h : Mdb) (p : Word) : (h.mnode p).getDepth.toNat < 256 := by
  rw [MNode.getDepth, BitVec.toNat_and]
  exact Nat.lt_succ_of_le Nat.and_le_right

/-- A node that is too deep has no depth of its own. -/
lemma DepthsReal.lt (hd : DepthsReal pool h hist) (ha : Ancestors pool hist p n) : n < 256 := by
  rw [← hd p n ha]
  exact getDepth_lt h p

/-- **The depths are the real ones, and `mdb_flush` tells descendants by them**, in exactly the runs
that make no mapping from a node with 255 ancestors or more. -/
theorem mapRun_depth_iff (hr : MapRun pool h hist) :
    (DepthsReal pool h hist ∧ FlushClassifies pool h hist) ↔
      ∀ m ∈ hist, ∀ n, Ancestors pool hist m.parent n → n < 255 := by
  constructor
  · rintro ⟨hd, -⟩ m hm n hn
    have hlt := hd.lt (.made hm hn)
    omega
  · intro hd
    obtain ⟨db, hF⟩ := hr.faithful hd
    exact ⟨hF.depthsReal, db, hF.wf, fun r hr x hx y hy => hF.descends_iff hr hx hy⟩

/-! ### A chain of mappings -/

lemma exists_head_of_lt {b : Buf} (hk : k < (h.free b).length) : ∃ p, p ∈ (h.free b).head? := by
  rcases exists_head (h := h) (k := b) with hnil | hp
  · rw [hnil] at hk
    exact absurd hk (Nat.not_lt_zero k)
  · exact hp

/-- Hooking in takes no buffers. -/
lemma hookIn_free (l : Link) (p : Word) (nw : MNode) (dual nmap : Word) (b : Buf) :
    (hookIn h l p nw dual nmap).free b = h.free b := by
  unfold hookIn
  split_ifs <;> cases l <;> rfl

lemma hookFront_free (r p tPg tSpace nd : Word) (b : Buf) :
    (hookFront h p r tPg tSpace nd).free b = h.free b := by
  unfold hookFront
  exact hookIn_free ..

/-- Mappings that are each made from the one before, as many as there are buffers for. -/
lemma MapRun.chain (hr : MapRun pool h hist) (hs : Sized pool hist p s) (hle : s ≤ 1)
    (ha : Ancestors pool hist p n) (hk : k ≤ (h.free .mnode).length) :
    ∃ h' hist' p', MapRun pool h' hist' ∧ Ancestors pool hist' p' (n + k) := by
  induction k generalizing h hist p n with
  | zero => exact ⟨h, hist, p, hr, ha⟩
  | succ k ih =>
    obtain ⟨q, hq⟩ := exists_head_of_lt (Nat.lt_of_succ_le hk)
    have hmap : mdbMap h p 0 s 0 0 s 0 = _ := mdbMap_same_eq (by simp) hq
    have hrun := hr.map hs le_rfl hle (by simp) (by simp) hmap
    have hfree : k ≤ ((hookIn (h.take .mnode) (.node p) q
        (sameNode h q p 0 0 (mnodeNext h p).2) (mnodeNext h p).1 (mnodeNext h p).2).free
        .mnode).length := by
      rw [hookIn_free]
      simp only [Mdb.take, Function.update_self, List.length_tail]
      omega
    obtain ⟨h', hist', p', hr', ha'⟩ := ih hrun (.made List.mem_cons_self)
      (.made List.mem_cons_self ha.cons) hfree
    exact ⟨h', hist', p', hr', by rw [← Nat.add_assoc, Nat.add_right_comm]; exact ha'⟩

/-- The address of a mapping node. -/
def deepNode (i : Nat) : Word := BitVec.ofNat 32 (0x10000 + 16 * i)

lemma deepNode_toNat {i : Nat} (hi : i < 300) : (deepNode i).toNat = 0x10000 + 16 * i := by
  rw [deepNode, BitVec.toNat_ofNat]
  exact Nat.mod_eq_of_lt (by omega)

lemma deepNode_ne {i : Nat} (hi : i < 300) {p : Word} (hp : p.toNat < 0x10000) :
    deepNode i ≠ p := by
  intro heq
  rw [← heq, deepNode_toNat hi] at hp
  omega

lemma deepNode_aligned {i : Nat} (hi : i < 300) : deepNode i &&& 3 = 0 := by
  apply BitVec.eq_of_toNat_eq
  rw [BitVec.toNat_and, deepNode_toNat hi]
  change (0x10000 + 16 * i) &&& 2 ^ 2 - 1 = 0
  rw [Nat.and_two_pow_sub_one_eq_mod]
  omega

/-- Three hundred mapping nodes, two dual nodes and two arrays. -/
def deepBufs : Buf → List Word
  | .mnode => (List.range 300).map deepNode
  | .dual => [0x2000, 0x2008]
  | .roots => [0x4000, 0x5000]

lemma deepBufs_nodup (b : Buf) : (deepBufs b).Nodup := by
  cases b with
  | mnode =>
      refine List.Nodup.map_on (fun i hi j hj heq => ?_) List.nodup_range
      have := congrArg BitVec.toNat heq
      rw [deepNode_toNat (List.mem_range.mp hi), deepNode_toNat (List.mem_range.mp hj)] at this
      omega
  | dual => simp [deepBufs]
  | roots => simp [deepBufs]

lemma deepBufs_ne_zero (b : Buf) : ∀ p ∈ deepBufs b, p ≠ 0 := by
  cases b with
  | mnode =>
      intro p hp hz
      obtain ⟨i, hi, rfl⟩ := List.mem_map.mp hp
      exact deepNode_ne (List.mem_range.mp hi) (by simp) hz
  | dual => simp [deepBufs]
  | roots => simp [deepBufs]

lemma deepBufs_aligned (b : Buf) : ∀ p ∈ deepBufs b, p &&& b.mask = 0 := by
  cases b with
  | mnode =>
      intro p hp
      obtain ⟨i, hi, rfl⟩ := List.mem_map.mp hp
      exact deepNode_aligned (List.mem_range.mp hi)
  | dual => simp [deepBufs, Buf.mask]
  | roots => simp [deepBufs, Buf.mask]

lemma sigma0_deepBufs : (0x100 : Word) ∉ deepBufs .mnode := by
  intro hp
  obtain ⟨i, hi, heq⟩ := List.mem_map.mp hp
  exact deepNode_ne (List.mem_range.mp hi) (by simp) heq

def deepPool : Pool where
  bufs := deepBufs
  sigma0 := 0x100
  nodup := deepBufs_nodup
  ne_zero := deepBufs_ne_zero
  aligned := deepBufs_aligned
  sigma0_ne_zero := twoPool.sigma0_ne_zero
  sigma0_aligned := twoPool.sigma0_aligned
  sigma0_static := sigma0_deepBufs

/-- The memory before `mdb_init`. -/
def deepMem : Mdb := { twoMem with free := deepPool.bufs, sigma0Mapnode := deepPool.sigma0 }

/-- Sigma0 maps a large page, of which a first part is mapped on twice and a second part once. -/
def familyRun : Option ((Word × Word × Word × Word) × Mdb) := do
  let h₀ ← mdbInit deepMem
  let (p, h₁) ← mdbMap h₀ 0x100 0 2 0x400000 0x8000 1 0x6000
  let (q, h₂) ← mdbMap h₁ p 0x8000 1 0x400000 0x9000 0 0x7000
  let (r, h₃) ← mdbMap h₂ q 0x9000 0 0x400000 0xA000 0 0x7800
  let (t, h₄) ← mdbMap h₃ p 0x8000 1 0x401000 0xB000 0 0x7C00
  return ((p, q, r, t), h₄)

lemma familyRun_eq : familyRun.map (fun c => (c.1, (c.2.mnode c.1.2.2.1).getDepth)) =
    some ((deepNode 0, deepNode 1, deepNode 2, deepNode 3), 3) := by
  decide +kernel

def family : List Made :=
  [⟨deepNode 3, deepNode 0, 0⟩, ⟨deepNode 2, deepNode 1, 0⟩, ⟨deepNode 1, deepNode 0, 0⟩,
    ⟨deepNode 0, deepPool.sigma0, 1⟩]

/-- How deep the nodes of the family are. -/
def familyDepth (p : Word) : Nat :=
  if p = deepNode 0 then 1
  else if p = deepNode 1 ∨ p = deepNode 3 then 2
  else if p = deepNode 2 then 3
  else 0

lemma ancestors_family (ha : Ancestors deepPool family p n) : n = familyDepth p := by
  have hchild : ∀ m ∈ family, familyDepth m.child = familyDepth m.parent + 1 := by decide
  induction ha with
  | sigma0 => decide
  | made hm _ ih => rw [hchild _ hm, ih]

/-- The last node of a chain of three has depth 3. -/
theorem mapRun_depth_init : ∃ h, MapRun deepPool h family ∧ DepthsReal deepPool h family ∧
    FlushClassifies deepPool h family ∧ (h.mnode (deepNode 2)).getDepth = 3 := by
  obtain ⟨⟨⟨_, _, _, _⟩, _⟩, hrun, heq⟩ := Option.map_eq_some_iff.mp familyRun_eq
  simp only [Prod.mk.injEq] at heq
  obtain ⟨⟨rfl, rfl, rfl, rfl⟩, hdepth⟩ := heq
  simp only [familyRun, Option.bind_eq_bind, Option.bind_eq_some_iff, Option.pure_def,
    Option.some.injEq, Prod.mk.injEq, Prod.exists] at hrun
  obtain ⟨h₀, m0, _, h₁, m1, _, h₂, m2, _, h₃, m3, _, h₄, m4, ⟨rfl, rfl, rfl, rfl⟩, rfl⟩ := hrun
  have hf : Fresh deepPool deepMem := ⟨rfl, fun _ => rfl⟩
  have r1 := (MapRun.init hf m0).map .sigma0 (by decide) (by decide) (by decide) (by decide) m1
  have r2 := r1.map (.made (List.mem_cons_self ..)) (by decide) (by decide)
    (by decide) (by decide) m2
  have r3 := r2.map (.made (List.mem_cons_self ..)) (by decide) (by decide)
    (by decide) (by decide) m3
  have r4 : MapRun deepPool h₄ family :=
    r3.map (.made (m := ⟨deepNode 0, deepPool.sigma0, 1⟩) (by simp)) (by decide)
      (by decide) (by decide)
      (by decide) m4
  have hfew : ∀ m ∈ family, familyDepth m.parent < 255 := by decide
  obtain ⟨hreal, hflush⟩ := (mapRun_depth_iff r4).mpr fun m hm n hn =>
    (ancestors_family hn).trans_lt (hfew m hm)
  exact ⟨h₄, r4, hreal, hflush, hdepth⟩

/-- **A chain of 256 mappings**: the node made last has 256 ancestors, more than its depth can say.
-/
theorem mapRun_depth_wraps : ∃ h hist, MapRun deepPool h hist ∧
    ¬(DepthsReal deepPool h hist ∧ FlushClassifies deepPool h hist) := by
  have hf : Fresh deepPool deepMem := ⟨rfl, fun _ => rfl⟩
  obtain ⟨h, hi, hw⟩ := mdbInit_wellFormed (b := 0x4000) (d := 0x2000) hf rfl rfl
  have hfree : 299 < (h.free .mnode).length := by
    have hlen := hw.mnodes.length_eq
    rw [Db.initial_ents] at hlen
    simp only [List.map_nil, List.nil_append] at hlen
    rw [hlen]
    simp [deepPool, deepBufs]
  obtain ⟨p, hp⟩ := exists_head_of_lt hfree
  -- sigma0 maps a large page
  obtain ⟨-, hne, -⟩ := hw.toLinks.next_sigma0
  have hrun := (MapRun.init hf hi).map .sigma0 (Nat.le_succ 1) le_rfl
    (show (0 : Word) &&& 1 = 0 by simp) (by simp) (mdbMap_small_old 0 0 0 (t := 1) (by simp) hp hne)
  obtain ⟨h', hist, q, hr, ha⟩ := hrun.chain (k := 255) (.made List.mem_cons_self) le_rfl
    (.made List.mem_cons_self .sigma0) (by
      rw [hookFront_free]
      simp only [Mdb.take, Function.update_self, List.length_tail]
      omega)
  refine ⟨h', hist, hr, ?_⟩
  rintro ⟨hd, -⟩
  exact absurd (hd.lt ha) (by omega)

end Hazelnut
