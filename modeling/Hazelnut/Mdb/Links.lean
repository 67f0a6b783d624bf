import Mathlib.Data.List.Pairwise
import Hazelnut.Mdb.Shape

/-!
The database under changes of one chain.

* Consequences of `Links`: the nodes of the database are distinct buffers of the
  pool, chains and arrays do not overlap, and back links decode.
* `Links.setChain`: a change of the memory that only concerns one chain keeps the
  rest of the database.
* `Links.remove`, `Links.insert`, `Links.grant`: unlinking a node, hooking one in
  and exchanging the page table entry of one.
-/

namespace Hazelnut

open List

/-- Exchanging the value of one element in a `flatMap`. -/
lemma flatMap_update_perm {α β : Type*} [DecidableEq α] {l : List α} (hl : l.Nodup) {a : α}
    (ha : a ∈ l) (f : α → List β) (c : List β) :
    ∃ k, l.flatMap f ~ f a ++ k ∧ l.flatMap (Function.update f a c) ~ c ++ k := by
  obtain ⟨u, v, rfl⟩ := List.append_of_mem ha
  have hv : a ∉ v := (List.nodup_cons.mp (List.nodup_append.mp hl).2.1).1
  have hu : a ∉ u := fun h => (List.nodup_append.mp hl).2.2 a h a (by simp) rfl
  have hcongr : ∀ w : List α, a ∉ w → w.flatMap (Function.update f a c) = w.flatMap f := by
    intro w hw
    refine List.flatMap_congr fun x hx => ?_
    rw [Function.update_of_ne fun he : x = a => hw (he ▸ hx)]
  refine ⟨u.flatMap f ++ v.flatMap f, ?_, ?_⟩
  · rw [List.flatMap_append, List.flatMap_cons]
    exact List.perm_append_comm_assoc ..
  · rw [List.flatMap_append, List.flatMap_cons, hcongr u hu, hcongr v hv, Function.update_self]
    exact List.perm_append_comm_assoc ..

lemma Db.setChain_chain_self (db : Db) (r : Word) (c : List Ent) :
    (db.setChain r c).chain r = c := Function.update_self ..

lemma Db.setChain_chain_of_ne {db : Db} {r r' : Word} {c : List Ent} (hr : r' ≠ r) :
    (db.setChain r c).chain r' = db.chain r' := Function.update_of_ne hr ..

namespace Links

variable {pool : Pool} {h h' : Mdb} {db : Db} {a : Arr} {r r' : Word} {e e' : Ent} {l : Link}
  {pre post c : List Ent}

/-! ### Buffers -/

lemma mem_ents (hr : r ∈ db.slots) (he : e ∈ db.chain r) : e ∈ db.ents :=
  List.mem_flatMap.mpr ⟨r, hr, he⟩

lemma mem_slots (ha : a ∈ db.arrays) (hr : r ∈ a.slots) : r ∈ db.slots :=
  List.mem_flatMap.mpr ⟨a, ha, hr⟩

lemma mem_top_slots (hr : r ∈ db.top.slots) : r ∈ db.slots := mem_slots List.mem_cons_self hr

lemma ptr_mem (hs : Links pool h db) (he : e ∈ db.ents) : e.ptr ∈ pool.bufs .mnode :=
  hs.mnodes.subset (List.mem_append_left _ (List.mem_map_of_mem he))

lemma ptr_ne_zero (hs : Links pool h db) (he : e ∈ db.ents) : e.ptr ≠ 0 :=
  pool.ne_zero _ _ (hs.ptr_mem he)

lemma ptr_aligned (hs : Links pool h db) (he : e ∈ db.ents) : e.ptr &&& 3 = 0 :=
  pool.aligned _ _ (hs.ptr_mem he)

lemma ptr_ne_sigma0 (hs : Links pool h db) (he : e ∈ db.ents) : e.ptr ≠ pool.sigma0 :=
  fun heq => pool.sigma0_static (heq ▸ hs.ptr_mem he)

lemma nodup_ptrs (hs : Links pool h db) : (db.ents.map Ent.ptr).Nodup :=
  (List.nodup_append.mp (hs.mnodes.nodup_iff.mpr (pool.nodup _))).1

lemma ptr_not_free (hs : Links pool h db) (he : e ∈ db.ents) : e.ptr ∉ h.free .mnode :=
  fun hf => (List.nodup_append.mp (hs.mnodes.nodup_iff.mpr (pool.nodup _))).2.2 e.ptr
    (List.mem_map_of_mem he) _ hf rfl

lemma ptr_inj (hs : Links pool h db) (he : e ∈ db.ents) (he' : e' ∈ db.ents)
    (heq : e.ptr = e'.ptr) : e = e' :=
  List.inj_on_of_nodup_map hs.nodup_ptrs he he' heq

lemma dual_mem (hs : Links pool h db) (ha : a ∈ db.arrays) : a.dual ∈ pool.bufs .dual :=
  hs.duals.subset (List.mem_append_left _ (List.mem_map_of_mem ha))

lemma dual_ne_zero (hs : Links pool h db) (ha : a ∈ db.arrays) : a.dual ≠ 0 :=
  pool.ne_zero _ _ (hs.dual_mem ha)

lemma dual_inj (hs : Links pool h db) {a' : Arr} (ha : a ∈ db.arrays) (ha' : a' ∈ db.arrays)
    (heq : a.dual = a'.dual) : a = a' :=
  List.inj_on_of_nodup_map
    (List.nodup_append.mp (hs.duals.nodup_iff.mpr (pool.nodup _))).1 ha ha' heq

lemma base_mem (hs : Links pool h db) (ha : a ∈ db.arrays) : a.base ∈ pool.bufs .roots :=
  hs.roots.subset (List.mem_append_left _ (List.mem_map_of_mem ha))

lemma base_aligned (hs : Links pool h db) (ha : a ∈ db.arrays) : a.base &&& 0xfff = 0 :=
  pool.aligned _ _ (hs.base_mem ha)

lemma nodup_bases (hs : Links pool h db) : (db.arrays.map Arr.base).Nodup :=
  (List.nodup_append.mp (hs.roots.nodup_iff.mpr (pool.nodup _))).1

lemma nodup_arr_slots (hs : Links pool h db) (ha : a ∈ db.arrays) : a.slots.Nodup := by
  refine List.Nodup.map_on (fun i hi j hj hij => ?_) List.nodup_range
  have hb := hs.base_aligned ha
  exact (slot_inj hb hb (List.mem_range.mp hi) (List.mem_range.mp hj) hij).2

/-- The array of a root node is determined by the root node. -/
lemma arr_unique (hs : Links pool h db) {a' : Arr} (ha : a ∈ db.arrays) (ha' : a' ∈ db.arrays)
    (hr : r ∈ a.slots) (hr' : r ∈ a'.slots) : a = a' := by
  obtain ⟨i, hi, rfl⟩ := List.mem_map.mp hr
  obtain ⟨j, hj, hij⟩ := List.mem_map.mp hr'
  have hb := slot_inj (hs.base_aligned ha') (hs.base_aligned ha) (List.mem_range.mp hj)
    (List.mem_range.mp hi) hij
  exact List.inj_on_of_nodup_map hs.nodup_bases ha ha' hb.1.symm

lemma nodup_slots (hs : Links pool h db) : db.slots.Nodup := by
  rw [Db.slots, List.nodup_flatMap]
  refine ⟨fun a ha => hs.nodup_arr_slots ha, ?_⟩
  have hn : db.arrays.Nodup := List.Nodup.of_map _ hs.nodup_bases
  refine hn.imp_of_mem fun {a b} ha hb hne r hra hrb => ?_
  exact hne (hs.arr_unique ha hb hra hrb)

lemma slot_mem_roots (hs : Links pool h db) (hr : r ∈ db.slots) :
    ∃ b ∈ pool.bufs .roots, ∃ i < 1024, r = slot b i := by
  obtain ⟨a, ha, hra⟩ := List.mem_flatMap.mp hr
  obtain ⟨i, hi, rfl⟩ := List.mem_map.mp hra
  exact ⟨a.base, hs.base_mem ha, i, List.mem_range.mp hi, rfl⟩

lemma slot_ne_zero (hs : Links pool h db) (hr : r ∈ db.slots) : r ≠ 0 := by
  obtain ⟨b, hb, i, hi, rfl⟩ := hs.slot_mem_roots hr
  intro h0
  have hn := slot_toNat (pool.aligned _ _ hb) hi
  rw [h0] at hn
  refine pool.ne_zero _ _ hb (BitVec.eq_of_toNat_eq ?_)
  simp at hn ⊢
  omega

lemma slot_aligned (hs : Links pool h db) (hr : r ∈ db.slots) : r &&& 3 = 0 := by
  obtain ⟨b, hb, i, hi, rfl⟩ := hs.slot_mem_roots hr
  have hn := slot_toNat (pool.aligned _ _ hb) hi
  have hm := toNat_mod_of_aligned (pool.aligned _ _ hb)
  refine BitVec.eq_of_toNat_eq ?_
  have h3 : (3 : Word).toNat = 2 ^ 2 - 1 := by decide
  rw [BitVec.toNat_and, h3, Nat.and_two_pow_sub_one_eq_mod, hn]
  simp
  omega

lemma nodup_ents (hs : Links pool h db) : db.ents.Nodup := List.Nodup.of_map _ hs.nodup_ptrs

/-- A mapping node is in one chain only. -/
lemma chain_unique (hs : Links pool h db) (hr : r ∈ db.slots) (hr' : r' ∈ db.slots)
    (he : e ∈ db.chain r) (he' : e' ∈ db.chain r') (heq : e.ptr = e'.ptr) : r = r' := by
  have hee : e = e' := hs.ptr_inj (mem_ents hr he) (mem_ents hr' he') heq
  by_contra hne
  have hd := (List.nodup_flatMap.mp hs.nodup_ents).2
  have : Std.Symm (Function.onFun List.Disjoint db.chain) :=
    ⟨fun _ _ hdis => List.Disjoint.symm hdis⟩
  have hdis := hd.forall hr hr' hne
  exact hdis he (hee ▸ he')

lemma nodup_chain (hs : Links pool h db) (hr : r ∈ db.slots) :
    ((db.chain r).map Ent.ptr).Nodup := by
  refine List.Nodup.map_on (fun a ha b hb hab => ?_)
    ((List.nodup_flatMap.mp hs.nodup_ents).1 r hr)
  exact hs.ptr_inj (mem_ents hr ha) (mem_ents hr hb) hab

lemma nodup_chainLinks (hs : Links pool h db) (hr : r ∈ db.slots) : (db.chainLinks r).Nodup := by
  refine List.nodup_cons.mpr ⟨by simp, ?_⟩
  have hn := (hs.nodup_chain hr).map (f := Link.node) fun a b hab => Link.node.inj hab
  simpa [List.map_map, Function.comp_def] using hn

/-- The links of different chains are different. -/
lemma chainLinks_disjoint (hs : Links pool h db) (hr : r ∈ db.slots) (hr' : r' ∈ db.slots)
    (hne : r ≠ r') (hl : l ∈ db.chainLinks r) : l ∉ db.chainLinks r' := by
  intro hl'
  rcases List.mem_cons.mp hl with rfl | hl
  · rcases List.mem_cons.mp hl' with heq | hl'
    · exact hne (Link.root.inj heq)
    · simp at hl'
  · obtain ⟨e, he, rfl⟩ := List.mem_map.mp hl
    rcases List.mem_cons.mp hl' with heq | hl'
    · simp at heq
    · obtain ⟨e', he', heq⟩ := List.mem_map.mp hl'
      exact hne (hs.chain_unique hr hr' he he' (Link.node.inj heq).symm)

lemma tagged_of_arr (hs : Links pool h db) (ha : a ∈ db.arrays) : h.Tagged a.link := by
  by_contra hn
  exact hs.dual_ne_zero ha (by rw [← hs.dual a ha, Mdb.next_fst_of_not_tagged hn])

lemma tagged_iff (hs : Links pool h db) (hr : r ∈ db.slots) (hl : l ∈ db.chainLinks r) :
    h.Tagged l ↔ (h.next l).1 ≠ 0 := by
  refine ⟨fun ht => ?_, fun hne => ?_⟩
  · obtain ⟨a, ha, rfl⟩ := hs.owner r hr l hl ht
    rw [hs.dual a (List.mem_cons_of_mem _ ha)]
    exact hs.dual_ne_zero (List.mem_cons_of_mem _ ha)
  · by_contra hn
    exact hne (Mdb.next_fst_of_not_tagged hn)

/-- The link an array hangs off is a link of the database. -/
lemma live_link (hs : Links pool h db) (ha : a ∈ db.arrs) : Live pool db a.link := by
  obtain ⟨r, hr, hcase⟩ := hs.link a ha
  refine .inr ⟨r, mem_top_slots hr, ?_⟩
  rcases hcase with ⟨heq, -⟩ | ⟨e, he, heq, -⟩
  · rw [heq]; exact List.mem_cons_self
  · rw [heq]; exact Db.mem_chainLinks he

/-! ### Changing one chain -/

lemma ents_setChain_perm (hs : Links pool h db) (hr : r ∈ db.slots) (c : List Ent) :
    ∃ k, db.ents ~ db.chain r ++ k ∧ (db.setChain r c).ents ~ c ++ k :=
  flatMap_update_perm hs.nodup_slots hr db.chain c

/-- What a change of the memory that concerns the chain at `r` alone has to keep. -/
structure Local (pool : Pool) (h h' : Mdb) (db : Db) (r : Word) (c : List Ent) : Prop where
  sigma0 : h'.sigma0Mapnode = h.sigma0Mapnode
  next : ∀ k, Live pool db k → k ∉ db.chainLinks r → k ∉ c.map (fun e => Link.node e.ptr) →
    h'.next k = h.next k
  tagged : ∀ k, Live pool db k → k ∉ db.chainLinks r → k ∉ c.map (fun e => Link.node e.ptr) →
    (h'.Tagged k ↔ h.Tagged k)
  mnode : ∀ p, p ∉ (db.chain r).map Ent.ptr → p ∉ c.map Ent.ptr →
    (h'.mnode p).w1 = (h.mnode p).w1 ∧ (h'.mnode p).w2 = (h.mnode p).w2
  base : ∀ a ∈ db.arrays, (h'.dual a.dual).root = (h.dual a.dual).root
  dual : ∀ a ∈ db.arrs, a.link ∈ db.chainLinks r → (h'.next a.link).1 = (h.next a.link).1
  owner : ∀ k, k = .root r ∨ k ∈ c.map (fun e => Link.node e.ptr) → h'.Tagged k →
    k ∈ db.chainLinks r ∧ h.Tagged k
  depth : ∀ e ∈ db.chain r, h.Tagged (.node e.ptr) → ∃ e' ∈ c, e'.ptr = e.ptr ∧ e'.depth = e.depth
  pg : ∀ e ∈ c, e.pg &&& 3 = 0
  mnodes : c.map Ent.ptr ++ h'.free .mnode ~ (db.chain r).map Ent.ptr ++ h.free .mnode
  duals : h'.free .dual = h.free .dual
  roots : h'.free .roots = h.free .roots

/-- The nodes of the new chain are in no other one. -/
lemma Local.ptr_ne (hl : Local pool h h' db r c) (hs : Links pool h db) (hr : r ∈ db.slots)
    (hr' : r' ∈ db.slots) (hne : r' ≠ r) (he : e ∈ db.chain r') : e.ptr ∉ c.map Ent.ptr := by
  intro hc
  rcases List.mem_append.mp (hl.mnodes.subset (List.mem_append_left _ hc)) with hm | hm
  · obtain ⟨e', he', heq⟩ := List.mem_map.mp hm
    exact hne (hs.chain_unique hr' hr he he' heq.symm)
  · exact hs.ptr_not_free (mem_ents hr' he) hm

lemma Local.links_ne (hl : Local pool h h' db r c) (hs : Links pool h db) (hr : r ∈ db.slots)
    (hr' : r' ∈ db.slots) (hne : r' ≠ r) {k : Link} (hk : k ∈ db.chainLinks r') :
    k ∉ db.chainLinks r ∧ k ∉ c.map (fun e => Link.node e.ptr) := by
  refine ⟨hs.chainLinks_disjoint hr' hr hne hk, fun hc => ?_⟩
  obtain ⟨e', he', rfl⟩ := List.mem_map.mp hc
  rcases List.mem_cons.mp hk with heq | hk
  · simp at heq
  · obtain ⟨e, he, heq⟩ := List.mem_map.mp hk
    exact hl.ptr_ne hs hr hr' hne he
      (List.mem_map.mpr ⟨e', he', (Link.node.inj heq).symm⟩)

lemma Local.sigma0_ne (hl : Local pool h h' db r c) (hs : Links pool h db) (hr : r ∈ db.slots) :
    pool.sigma0 ∉ (db.chain r).map Ent.ptr ∧ pool.sigma0 ∉ c.map Ent.ptr := by
  have h1 : pool.sigma0 ∉ (db.chain r).map Ent.ptr := by
    intro hm
    obtain ⟨e, he, heq⟩ := List.mem_map.mp hm
    exact hs.ptr_ne_sigma0 (mem_ents hr he) heq
  refine ⟨h1, fun hm => ?_⟩
  rcases List.mem_append.mp (hl.mnodes.subset (List.mem_append_left _ hm)) with hm | hm
  · exact h1 hm
  · exact pool.sigma0_static (hs.mnodes.subset (List.mem_append_right _ hm))

lemma node_mem_iff {q : Word} {c : List Ent} :
    Link.node q ∈ c.map (fun e => Link.node e.ptr) ↔ q ∈ c.map Ent.ptr := by
  simp [List.mem_map]

lemma Local.link_sigma0 (hl : Local pool h h' db r c) (hs : Links pool h db) (hr : r ∈ db.slots) :
    Link.node pool.sigma0 ∉ db.chainLinks r ∧
      Link.node pool.sigma0 ∉ c.map (fun e => Link.node e.ptr) := by
  obtain ⟨h1, h2⟩ := hl.sigma0_ne hs hr
  refine ⟨fun hm => ?_, fun hm => h2 (node_mem_iff.mp hm)⟩
  rcases List.mem_cons.mp hm with heq | hm
  · simp at heq
  · exact h1 (node_mem_iff.mp hm)

/-- **A change of one chain.**  If the memory still holds a chain at `r` and all
else is kept, it holds the database with that chain exchanged. -/
theorem setChain (hs : Links pool h db) (hr : r ∈ db.slots) (hl : Local pool h h' db r c)
    (hp : Path h' (.root r) c) (hend : (h'.next (lastLink (.root r) c)).2 = 0) :
    Links pool h' (db.setChain r c) := by
  obtain ⟨hσ1, hσ2⟩ := hl.link_sigma0 hs hr
  have hσm := hl.mnode _ (hl.sigma0_ne hs hr).1 (hl.sigma0_ne hs hr).2
  have hchain : ∀ r', r' ≠ r → (db.setChain r c).chain r' = db.chain r' := fun r' hne =>
    Function.update_of_ne hne ..
  have hchain' : (db.setChain r c).chain r = c := Function.update_self ..
  have hlast : ∀ r' (es : List Ent), lastLink (.root r') es = .root r' ∨
      lastLink (.root r') es ∈ es.map (fun e => Link.node e.ptr) := by
    intro r' es
    rcases lastLink_mem (l := .root r') (u := es) with h | ⟨a, ha, h⟩
    · exact .inl h
    · exact .inr (h ▸ List.mem_map.mpr ⟨a, ha, rfl⟩)
  refine
    { sigma0 := hl.sigma0.trans hs.sigma0
      sigma0_back := hσm.1.trans hs.sigma0_back
      sigma0_depth := by rw [← hs.sigma0_depth, MNode.getDepth, hσm.2, MNode.getDepth]
      sigma0_space := by rw [← hs.sigma0_space, MNode.getSpace, hσm.2, MNode.getSpace]
      sigma0_next := by rw [hl.next _ (.inl rfl) hσ1 hσ2, hs.sigma0_next]
      top_link := hs.top_link
      top_depth := hs.top_depth
      path := ?_
      path_end := ?_
      dual := ?_
      base := fun a ha => (hl.base a ha).trans (hs.base a ha)
      owner := ?_
      link := ?_
      pg := ?_
      mnodes := ?_
      duals := by rw [hl.duals]; exact hs.duals
      roots := by rw [hl.roots]; exact hs.roots }
  · intro r' hr'
    by_cases hne : r' = r
    · rw [hne, hchain']; exact hp
    · rw [hchain r' hne]
      refine (hs.path r' hr').congr (fun k _ hk => ?_) (hs.nodup_chainLinks hr') ?_ ?_
      · have hk' : k ∈ db.chainLinks r' := by
          rcases hk with rfl | ⟨e, he, rfl⟩
          · exact List.mem_cons_self
          · exact List.mem_cons_of_mem _ (List.mem_map.mpr ⟨e, he, rfl⟩)
        obtain ⟨h1, h2⟩ := hl.links_ne hs hr hr' hne hk'
        rw [hl.next k (.inr ⟨r', hr', hk'⟩) h1 h2]
      · intro e he
        refine (hl.mnode _ (fun hm => ?_) (hl.ptr_ne hs hr hr' hne he)).1
        obtain ⟨e', he', heq⟩ := List.mem_map.mp hm
        exact hne (hs.chain_unique hr' hr he he' heq.symm)
      · intro e he
        refine (hl.mnode _ (fun hm => ?_) (hl.ptr_ne hs hr hr' hne he)).2
        obtain ⟨e', he', heq⟩ := List.mem_map.mp hm
        exact hne (hs.chain_unique hr' hr he he' heq.symm)
  · intro r' hr'
    by_cases hne : r' = r
    · rw [hne, hchain']; exact hend
    · rw [hchain r' hne]
      have hk : lastLink (.root r') (db.chain r') ∈ db.chainLinks r' := by
        rcases hlast r' (db.chain r') with h | h
        · rw [h]; exact List.mem_cons_self
        · exact List.mem_cons_of_mem _ h
      obtain ⟨h1, h2⟩ := hl.links_ne hs hr hr' hne hk
      rw [hl.next _ (.inr ⟨r', hr', hk⟩) h1 h2]
      exact hs.path_end r' hr'
  · intro a ha
    rcases List.mem_cons.mp ha with rfl | ha'
    · change (h'.next db.top.link).1 = db.top.dual
      rw [hs.top_link, hl.next _ (.inl rfl) hσ1 hσ2, ← hs.top_link]
      exact hs.dual _ List.mem_cons_self
    · by_cases hm : a.link ∈ db.chainLinks r
      · rw [hl.dual a ha' hm]; exact hs.dual a ha
      · rw [hl.next _ (hs.live_link ha') hm (fun hc => ?_)]
        · exact hs.dual a ha
        · -- a link of the new chain that was in another chain
          obtain ⟨r', hr', hd⟩ := hs.link a ha'
          rcases hd with ⟨heq, -⟩ | ⟨e, he, heq, -⟩
          · rw [heq] at hc; simp at hc
          · rw [heq, node_mem_iff] at hc
            by_cases hne : r' = r
            · subst hne
              exact hm (by rw [heq]; exact List.mem_cons_of_mem _ (List.mem_map.mpr ⟨e, he, rfl⟩))
            · exact hl.ptr_ne hs hr (mem_top_slots hr') hne he hc
  · intro r' hr' k hk ht
    by_cases hne : r' = r
    · subst hne
      have hk' : k = .root r' ∨ k ∈ c.map (fun e => Link.node e.ptr) := by
        rw [Db.chainLinks, hchain'] at hk
        exact List.mem_cons.mp hk
      obtain ⟨hm, ht⟩ := hl.owner k hk' ht
      exact hs.owner r' hr k hm ht
    · have hk' : k ∈ db.chainLinks r' := by rwa [Db.chainLinks, hchain r' hne] at hk
      obtain ⟨h1, h2⟩ := hl.links_ne hs hr hr' hne hk'
      exact hs.owner r' hr' k hk' ((hl.tagged k (.inr ⟨r', hr', hk'⟩) h1 h2).mp ht)
  · intro a ha
    obtain ⟨r', hr', hd⟩ := hs.link a ha
    refine ⟨r', hr', hd.imp_right ?_⟩
    rintro ⟨e, he, heq, hde⟩
    by_cases hne : r' = r
    · subst hne
      have ht : h.Tagged (.node e.ptr) := heq ▸ hs.tagged_of_arr (List.mem_cons_of_mem _ ha)
      obtain ⟨e', he', hptr, hdep⟩ := hl.depth e he ht
      exact ⟨e', by rwa [hchain'], by rw [heq, hptr], by rw [hde, hdep]⟩
    · exact ⟨e, by rwa [hchain r' hne], heq, hde⟩
  · intro e he
    obtain ⟨r', hr', he⟩ := List.mem_flatMap.mp he
    by_cases hne : r' = r
    · rw [hne, hchain'] at he; exact hl.pg e he
    · rw [hchain r' hne] at he; exact hs.pg e (mem_ents hr' he)
  · obtain ⟨k, hk, hk'⟩ := hs.ents_setChain_perm hr c
    calc (db.setChain r c).ents.map Ent.ptr ++ h'.free .mnode
        ~ (c ++ k).map Ent.ptr ++ h'.free .mnode := (hk'.map _).append_right _
      _ ~ k.map Ent.ptr ++ (c.map Ent.ptr ++ h'.free .mnode) := by
          rw [List.map_append, List.append_assoc]
          exact List.perm_append_comm_assoc ..
      _ ~ k.map Ent.ptr ++ ((db.chain r).map Ent.ptr ++ h.free .mnode) := hl.mnodes.append_left _
      _ ~ (db.chain r ++ k).map Ent.ptr ++ h.free .mnode := by
          rw [List.map_append, List.append_assoc]
          exact List.perm_append_comm_assoc ..
      _ ~ db.ents.map Ent.ptr ++ h.free .mnode := (hk.map _).symm.append_right _
      _ ~ pool.bufs .mnode := hs.mnodes

/-! ### Unlinking a node -/

/-- The memory after the node `e` behind `k` and before `post` has been unlinked. -/
def unlinked (h : Mdb) (k : Link) (post : List Ent) : Mdb :=
  match post with
  | [] => h.setNext 0 k
  | f :: _ => (h.setNext f.ptr k).setBack f.ptr f.pg k

lemma unlinked_next (hp : ∀ f ∈ post, f.ptr &&& 3 = 0) (k : Link) :
    (unlinked h k post).next k = (0, headPtr post) := by
  cases post with
  | nil => exact Mdb.next_setNext rfl k
  | cons f post => simpa [unlinked, headPtr] using Mdb.next_setNext (hp f (by simp)) k

lemma unlinked_next_of_ne {k j : Link} (hj : j ≠ k) : (unlinked h k post).next j = h.next j := by
  cases post with
  | nil => exact Mdb.next_setNext_of_ne hj
  | cons f post => simpa [unlinked] using Mdb.next_setNext_of_ne hj

lemma unlinked_not_tagged (hp : ∀ f ∈ post, f.ptr &&& 3 = 0) (k : Link) :
    ¬ (unlinked h k post).Tagged k := by
  cases post with
  | nil => exact Mdb.not_tagged_setNext rfl k
  | cons f post => simpa [unlinked] using Mdb.not_tagged_setNext (hp f (by simp)) k

lemma unlinked_tagged_of_ne {k j : Link} (hj : j ≠ k) :
    (unlinked h k post).Tagged j ↔ h.Tagged j := by
  cases post with
  | nil => exact Mdb.tagged_setNext_of_ne hj
  | cons f post => simpa [unlinked] using Mdb.tagged_setNext_of_ne hj

@[simp] lemma unlinked_w2 (k : Link) (q : Word) :
    ((unlinked h k post).mnode q).w2 = (h.mnode q).w2 := by
  cases post <;> simp [unlinked]

lemma unlinked_w1 (k : Link) {q : Word} (hq : ∀ f ∈ post.head?, q ≠ f.ptr) :
    ((unlinked h k post).mnode q).w1 = (h.mnode q).w1 := by
  cases post with
  | nil => simp [unlinked]
  | cons f post =>
      have hne : q ≠ f.ptr := hq f (by simp)
      simp [unlinked, Mdb.setBack_mnode_of_ne hne]

@[simp] lemma unlinked_dual (k : Link) : (unlinked h k post).dual = h.dual := by
  cases post <;> simp [unlinked]

@[simp] lemma unlinked_free (k : Link) : (unlinked h k post).free = h.free := by
  cases post <;> simp [unlinked]

@[simp] lemma unlinked_sigma0 (k : Link) :
    (unlinked h k post).sigma0Mapnode = h.sigma0Mapnode := by
  cases post <;> simp [unlinked]

/-- The links of a chain, split at one of its nodes. -/
lemma chainLinks_split (hc : db.chain r = pre ++ e :: post) :
    db.chainLinks r = (.root r :: pre.map fun e => Link.node e.ptr) ++
      .node e.ptr :: post.map fun e => Link.node e.ptr := by
  simp [Db.chainLinks, hc]

/-- The link before a node is none of the links from the node on. -/
lemma lastLink_ne (hs : Links pool h db) (hr : r ∈ db.slots) (hc : db.chain r = pre ++ e :: post) :
    ∀ k ∈ Link.node e.ptr :: post.map (fun e => Link.node e.ptr), k ≠ lastLink (.root r) pre := by
  rintro k hk rfl
  have hn := hs.nodup_chainLinks hr
  rw [chainLinks_split hc] at hn
  exact (List.nodup_append.mp hn).2.2 _ lastLink_mem_links _ hk rfl

lemma nodup_split (hs : Links pool h db) (hr : r ∈ db.slots)
    (hc : db.chain r = pre ++ e :: post) :
    (pre.map Ent.ptr ++ e.ptr :: post.map Ent.ptr).Nodup := by
  simpa [hc] using hs.nodup_chain hr

/-- **Unlinking.**  A node without a dual node, behind a link without one, is taken
out of its chain. -/
theorem remove (hs : Links pool h db) (hr : r ∈ db.slots) (hc : db.chain r = pre ++ e :: post)
    (hk : ¬ h.Tagged (lastLink (.root r) pre)) (he : ¬ h.Tagged (.node e.ptr)) :
    Links pool ((unlinked h (lastLink (.root r) pre) post).freeBuffer .mnode e.ptr)
      (db.setChain r (pre ++ post)) := by
  have hmem : ∀ f ∈ pre ++ e :: post, f ∈ db.ents := fun f hf => mem_ents hr (hc ▸ hf)
  have hpost : ∀ f ∈ post, f.ptr &&& 3 = 0 := fun f hf =>
    hs.ptr_aligned (hmem f (by simp [hf]))
  have hne := hs.lastLink_ne hr hc
  have hnd := hs.nodup_split hr hc
  have hlinks := chainLinks_split hc
  have hlast : lastLink (.root r) pre ∈ db.chainLinks r := by
    rw [hlinks]; exact List.mem_append_left _ lastLink_mem_links
  have hpath := hs.path r hr
  rw [hc, path_append] at hpath
  obtain ⟨hpre, hent, hpath⟩ := hpath
  have hend := hs.path_end r hr
  rw [hc, lastLink_append] at hend
  refine hs.setChain hr
    { sigma0 := by simp [Mdb.freeBuffer]
      next := ?_
      tagged := ?_
      mnode := ?_
      base := by simp [Mdb.freeBuffer]
      dual := ?_
      owner := ?_
      depth := ?_
      pg := fun f hf => hs.pg f (hmem f ?_)
      mnodes := ?_
      duals := by simp [Mdb.freeBuffer]
      roots := by simp [Mdb.freeBuffer] } ?_ ?_
  · intro j _ hj _
    rw [Mdb.next_freeBuffer]
    exact unlinked_next_of_ne fun heq => hj (heq ▸ hlast)
  · intro j _ hj _
    rw [Mdb.tagged_freeBuffer]
    exact unlinked_tagged_of_ne fun heq => hj (heq ▸ hlast)
  · intro q hq _
    refine ⟨unlinked_w1 _ fun f hf heq => hq ?_, unlinked_w2 ..⟩
    rw [hc, heq]
    exact List.mem_map_of_mem (by simp [List.mem_of_mem_head? hf])
  · intro a ha _
    have hat := hs.tagged_of_arr (List.mem_cons_of_mem _ ha)
    have hka : a.link ≠ lastLink (.root r) pre := fun heq => hk (heq ▸ hat)
    rw [Mdb.next_freeBuffer, unlinked_next_of_ne hka]
  · intro j hj ht
    rw [Mdb.tagged_freeBuffer] at ht
    have hjk : j ≠ lastLink (.root r) pre := by
      rintro rfl
      exact unlinked_not_tagged hpost _ ht
    refine ⟨?_, (unlinked_tagged_of_ne hjk).mp ht⟩
    rcases hj with rfl | hj
    · exact List.mem_cons_self
    · obtain ⟨f, hf, rfl⟩ := List.mem_map.mp hj
      refine List.mem_cons_of_mem _ (List.mem_map.mpr ⟨f, ?_, rfl⟩)
      rw [hc]
      rcases List.mem_append.mp hf with hf | hf <;> simp [hf]
  · intro f hf ht
    refine ⟨f, ?_, rfl, rfl⟩
    rw [hc] at hf
    rcases List.mem_append.mp hf with hf | hf
    · simp [hf]
    · rcases List.mem_cons.mp hf with rfl | hf
      · exact absurd ht he
      · simp [hf]
  · rcases List.mem_append.mp hf with hf | hf <;> simp [hf]
  · simp only [Mdb.freeBuffer, unlinked_free, Function.update_self, hc, List.map_append,
      List.map_cons, List.append_assoc, List.cons_append]
    refine List.Perm.append_left _ ?_
    exact List.perm_middle
  · -- the new chain
    rw [path_append]
    refine ⟨hpre.congr (fun j hj _ => ?_) ?_ (fun f hf => ?_) (fun f _ => unlinked_w2 ..), ?_⟩
    · rw [Mdb.next_freeBuffer, unlinked_next_of_ne hj]
    · have hn := hs.nodup_chainLinks hr
      rw [hlinks] at hn
      exact (List.nodup_append.mp hn).1
    · refine unlinked_w1 _ fun g hg heq => ?_
      exact (List.nodup_append.mp hnd).2.2 _ (List.mem_map_of_mem hf) _
        (List.mem_cons_of_mem _ (List.mem_map_of_mem (List.mem_of_mem_head? hg))) heq
    · cases post with
      | nil => trivial
      | cons f post =>
          obtain ⟨hf, hpath⟩ := hpath
          refine ⟨⟨?_, ?_, ?_, ?_⟩, hpath.congr (fun j _ hj => ?_) ?_ (fun g hg => ?_)
            (fun g _ => unlinked_w2 ..)⟩
          · rw [Mdb.next_freeBuffer, unlinked_next hpost]; rfl
          · exact Mdb.setBack_w1 ..
          · rw [← hf.depth, MNode.getDepth, MNode.getDepth]
            exact congrArg (fun w => (w &&& depthMask).toNat) (unlinked_w2 ..)
          · rw [← hf.space, MNode.getSpace, MNode.getSpace]
            exact congrArg (fun w => w &&& spaceMask) (unlinked_w2 ..)
          · rw [Mdb.next_freeBuffer, unlinked_next_of_ne]
            refine hne j (List.mem_cons_of_mem _ ?_)
            rcases hj with rfl | ⟨g, hg, rfl⟩
            · simp
            · exact List.mem_map.mpr ⟨g, by simp [hg], rfl⟩
          · have hn := hs.nodup_chainLinks hr
            rw [hlinks] at hn
            exact (List.nodup_cons.mp (List.nodup_append.mp hn).2.1).2
          · refine unlinked_w1 _ fun g' hg' heq => ?_
            obtain rfl : f = g' := by simpa using hg'
            have hn := (List.nodup_cons.mp (List.nodup_append.mp hnd).2.1).2
            exact (List.nodup_cons.mp hn).1 (heq ▸ List.mem_map_of_mem hg)
  · rw [Mdb.next_freeBuffer, lastLink_append]
    cases post with
    | nil => simp [lastLink, unlinked_next (h := h) hpost, headPtr]
    | cons f post =>
        rw [unlinked_next_of_ne]
        · exact hend
        · exact hne _ (List.mem_cons_of_mem _ (by exact lastLink_mem_links))

end Links

end Hazelnut
