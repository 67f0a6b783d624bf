import Hazelnut.Mdb.Insert

/-!
New root arrays.

* `clearRoots_slot`, `clearRoots_of_ne`: what `mdb_create_roots` writes.
* `arrayed`: the memory after an array has been hung off a link.
* `Links.addArray`: it holds the database with that array, whose chains are empty.
-/

namespace Hazelnut

open List

variable {pool : Pool} {h h' : Mdb} {db : Db} {r : Word} {e : Ent} {l k : Link}
  {p q b d : Word} {a : Arr} {n i : Nat}

/-! ### `mdb_create_roots` -/

@[simp] lemma clearRoots_mnode : (clearRoots n p h).mnode = h.mnode := by
  induction n generalizing p h with
  | zero => rw [clearRoots]
  | succ n ih => rw [clearRoots, ih]; rfl

@[simp] lemma clearRoots_dual : (clearRoots n p h).dual = h.dual := by
  induction n generalizing p h with
  | zero => rw [clearRoots]
  | succ n ih => rw [clearRoots, ih]; rfl

@[simp] lemma clearRoots_free : (clearRoots n p h).free = h.free := by
  induction n generalizing p h with
  | zero => rw [clearRoots]
  | succ n ih => rw [clearRoots, ih]; rfl

@[simp] lemma clearRoots_sigma0 : (clearRoots n p h).sigma0Mapnode = h.sigma0Mapnode := by
  induction n generalizing p h with
  | zero => rw [clearRoots]
  | succ n ih => rw [clearRoots, ih]; rfl

lemma slot_add_four (b : Word) (i : Nat) : slot (b + 4) i = slot b (i + 1) := by
  rw [← slot_succ, slot, slot, BitVec.add_assoc, BitVec.add_assoc, BitVec.add_comm 4]

lemma clearRoots_of_ne (hq : ∀ i < n, q ≠ slot p i) :
    (clearRoots n p h).rnode q = h.rnode q := by
  induction n generalizing p h with
  | zero => rw [clearRoots]
  | succ n ih =>
      rw [clearRoots, ih fun i hi => by rw [slot_add_four]; exact hq (i + 1) (by omega)]
      have hp : q ≠ p := by simpa [slot] using hq 0 (by omega)
      simp [Mdb.setRNode, hp]

/-- A root node that is null stays null. -/
lemma clearRoots_zero (hq : h.rnode q = 0) : (clearRoots n p h).rnode q = 0 := by
  induction n generalizing p h with
  | zero => rwa [clearRoots]
  | succ n ih =>
      rw [clearRoots]
      refine ih ?_
      by_cases hp : q = p
      · subst hp
        simp only [Mdb.setRNode, Function.update_self]
        decide
      · simpa [Mdb.setRNode, hp] using hq

lemma clearRoots_slot (hi : i < n) : (clearRoots n p h).rnode (slot p i) = 0 := by
  induction n generalizing p h i with
  | zero => omega
  | succ n ih =>
      rw [clearRoots]
      cases i with
      | zero =>
          refine clearRoots_zero ?_
          have hp : slot p 0 = p := by simp [slot]
          simp only [hp, Mdb.setRNode, Function.update_self]
          decide
      | succ i =>
          rw [← slot_add_four]
          exact ih (by omega)

/-! ### Hanging an array off a link -/

namespace Mdb

/-- `set_next` and `set_ptr` of a dual node. -/
def setNextDual (h : Mdb) (d : Word) : Link → Mdb
  | .root r => h.setRNode r (RNode.ptrR d)
  | .node q => h.setMNode q ((h.mnode q).setNextR d)

lemma tagged_setNextDual (l : Link) : (h.setNextDual d l).Tagged l := by
  cases l with
  | root r =>
      have h1 : RNode.ptrR d &&& 1 = 1 := by
        rw [RNode.ptrR, BitVec.or_assoc, BitVec.or_comm 1 2, ← BitVec.or_assoc]
        exact Word.or_and_self
      simp only [Tagged, setNextDual, setRNode, Function.update_self, RNode.isNextRoot, h1]
      decide
  | node q =>
      have h1 : (d ||| 1) &&& 1 = 1 := Word.or_and_self
      simp only [Tagged, setNextDual, setMNode, Function.update_self, MNode.isNextRoot,
        MNode.setNextR, h1]
      decide

lemma next_setNextDual (hd : d &&& 3 = 0) (l : Link) :
    (h.setNextDual d l).next l = (d, (h.dual d).map) := by
  have ht := tagged_setNextDual (h := h) (d := d) l
  cases l with
  | root r =>
      have hm : RNode.getMap (RNode.ptrR d) = d := by
        rw [RNode.getMap, RNode.ptrR, BitVec.or_assoc]
        exact Word.or_and_not hd (by decide)
      simp only [Tagged, setNextDual, setRNode, Function.update_self] at ht
      simp [next, rnodeNext, setNextDual, setRNode, ht, hm]
  | node q =>
      have hm : ((h.mnode q).setNextR d).getNext = d :=
        Word.or_and_not (and_one_of_aligned hd) (by decide)
      simp only [Tagged, setNextDual, setMNode, Function.update_self] at ht
      simp [next, mnodeNext, setNextDual, setMNode, ht, hm]

lemma next_setNextDual_of_ne (hk : k ≠ l) : (h.setNextDual d l).next k = h.next k := by
  cases l with
  | root r =>
      cases k with
      | root r' => simp_all [next, rnodeNext, setNextDual, setRNode]
      | node q' => rfl
  | node q =>
      cases k with
      | root r' => rfl
      | node q' => simp_all [next, mnodeNext, setNextDual, setMNode]

lemma tagged_setNextDual_of_ne (hk : k ≠ l) :
    (h.setNextDual d l).Tagged k ↔ h.Tagged k := by
  cases l <;> cases k <;> simp_all [Tagged, setNextDual, setRNode, setMNode]

@[simp] lemma setNextDual_w1 (l : Link) (q : Word) :
    ((h.setNextDual d l).mnode q).w1 = (h.mnode q).w1 := by
  cases l with
  | root r => rfl
  | node k =>
      by_cases hq : q = k
      · subst hq; simp [setNextDual, setMNode, MNode.setNextR]
      · simp [setNextDual, setMNode, hq]

@[simp] lemma setNextDual_w2 (l : Link) (q : Word) :
    ((h.setNextDual d l).mnode q).w2 = (h.mnode q).w2 := by
  cases l with
  | root r => rfl
  | node k =>
      by_cases hq : q = k
      · subst hq; simp [setNextDual, setMNode, MNode.setNextR]
      · simp [setNextDual, setMNode, hq]

@[simp] lemma setNextDual_dual (l : Link) : (h.setNextDual d l).dual = h.dual := by
  cases l <;> rfl

@[simp] lemma setNextDual_free (l : Link) : (h.setNextDual d l).free = h.free := by
  cases l <;> rfl

@[simp] lemma setNextDual_sigma0 (l : Link) :
    (h.setNextDual d l).sigma0Mapnode = h.sigma0Mapnode := by
  cases l <;> rfl

end Mdb

/-- The memory after an array at `b` with dual node `d` has been hung off the link `l`. -/
def arrayed (h : Mdb) (l : Link) (d b : Word) : Mdb :=
  ((((clearRoots 1024 b h).setDual d { map := (h.next l).2, root := b }).setNextDual d l).take
    .roots).take .dual

/-- No chains at the root nodes `rs`, else those of `c`. -/
@[irreducible] def emptyAt (rs : List Word) (c : Word → List Ent) (r : Word) : List Ent :=
  if r ∈ rs then [] else c r

lemma emptyAt_of_mem {rs : List Word} (hr : r ∈ rs) (c : Word → List Ent) :
    emptyAt rs c r = [] := by
  unfold emptyAt
  exact if_pos hr

lemma emptyAt_of_not_mem {rs : List Word} (hr : r ∉ rs) (c : Word → List Ent) :
    emptyAt rs c r = c r := by
  unfold emptyAt
  exact if_neg hr

/-- The database with one more array, all of whose chains are empty. -/
def Db.addArr (db : Db) (a : Arr) : Db :=
  { db with arrs := a :: db.arrs, chain := emptyAt a.slots db.chain }

section addArray

/-- Root nodes outside the new array are read as before. -/
lemma next_clearRoots (hk : ∀ i < 1024, k ≠ .root (slot b i)) :
    (clearRoots 1024 b h).next k = h.next k := by
  cases k with
  | root r =>
      have hr : (clearRoots 1024 b h).rnode r = h.rnode r :=
        clearRoots_of_ne fun i hi heq => hk i hi (heq ▸ rfl)
      simp [Mdb.next, rnodeNext, hr]
  | node q => simp [Mdb.next, mnodeNext]

lemma tagged_clearRoots (hk : ∀ i < 1024, k ≠ .root (slot b i)) :
    (clearRoots 1024 b h).Tagged k ↔ h.Tagged k := by
  cases k with
  | root r =>
      have hr : (clearRoots 1024 b h).rnode r = h.rnode r :=
        clearRoots_of_ne fun i hi heq => hk i hi (heq ▸ rfl)
      simp [Mdb.Tagged, hr]
  | node q => simp [Mdb.Tagged]

/-- The root nodes of the new array lead nowhere. -/
lemma next_clearRoots_slot (hi : i < 1024) :
    (clearRoots 1024 b h).next (.root (slot b i)) = (0, 0) := by
  have hr : (clearRoots 1024 b h).rnode (slot b i) = 0 := clearRoots_slot hi
  have h0 : ¬ RNode.isNextRoot 0 := by decide
  have h1 : RNode.getMap 0 = 0 := by decide
  simp only [Mdb.next, rnodeNext, hr, if_neg h0, h1]

lemma not_tagged_clearRoots_slot (hi : i < 1024) :
    ¬ (clearRoots 1024 b h).Tagged (.root (slot b i)) := by
  have hr : (clearRoots 1024 b h).rnode (slot b i) = 0 := clearRoots_slot hi
  simp only [Mdb.Tagged, hr]
  decide

variable (hs : Links pool h db) (hb : b ∈ (h.free .roots).head?)
include hs hb

/-- The new array is none of the database. -/
lemma Links.base_ne (ha : a ∈ db.arrays) : a.base ≠ b := by
  rintro rfl
  exact (List.nodup_append.mp (hs.roots.nodup_iff.mpr (pool.nodup _))).2.2 _
    (List.mem_map_of_mem ha) _ (List.mem_of_mem_head? hb) rfl

lemma Links.new_base_aligned : b &&& 0xfff = 0 :=
  pool.aligned .roots b (hs.roots.subset (List.mem_append_right _ (List.mem_of_mem_head? hb)))

lemma Links.new_slot_not_mem (hi : i < 1024) : slot b i ∉ db.slots := by
  intro hm
  obtain ⟨a, ha, hra⟩ := List.mem_flatMap.mp hm
  obtain ⟨j, hj, heq⟩ := List.mem_map.mp hra
  exact hs.base_ne hb ha (slot_inj (hs.base_aligned ha) (hs.new_base_aligned hb)
    (List.mem_range.mp hj) hi heq).1

lemma Links.live_ne_slot (hk : Live pool db k) : ∀ i < 1024, k ≠ .root (slot b i) := by
  rintro i hi rfl
  rcases hk with hk | ⟨r, hr, hk⟩
  · simp at hk
  · rcases List.mem_cons.mp hk with heq | hk
    · exact hs.new_slot_not_mem hb hi ((Link.root.inj heq) ▸ hr)
    · simp at hk

end addArray

lemma Arr.mem_slots : r ∈ a.slots ↔ ∃ i < 1024, r = slot a.base i := by
  simp [Arr.slots, eq_comm]

lemma Db.addArr_chain (hr : r ∉ a.slots) : (db.addArr a).chain r = db.chain r :=
  emptyAt_of_not_mem hr _

lemma Db.addArr_chain_new (hr : r ∈ a.slots) : (db.addArr a).chain r = [] :=
  emptyAt_of_mem hr _

lemma Db.mem_addArr_slots : r ∈ (db.addArr a).slots ↔ r ∈ a.slots ∨ r ∈ db.slots := by
  simp only [Db.slots, Db.arrays, Db.addArr, List.flatMap_cons, List.mem_append]
  exact or_left_comm

namespace Links

lemma addArr_ents (hn : ∀ r ∈ a.slots, r ∉ db.slots) : (db.addArr a).ents = db.ents := by
  have hnew : a.slots.flatMap (db.addArr a).chain = [] := by
    rw [List.flatMap_eq_nil_iff]
    exact fun r hr => Db.addArr_chain_new hr
  have hold : ∀ w : List Word, (∀ r ∈ w, r ∈ db.slots) →
      w.flatMap (db.addArr a).chain = w.flatMap db.chain := fun w hw =>
    List.flatMap_congr fun r hr => Db.addArr_chain fun hra => hn r hra (hw r hr)
  have h1 := hold db.top.slots fun r hr => mem_top_slots hr
  have h2 := hold (db.arrs.flatMap Arr.slots) fun r hr => by
    obtain ⟨x, hx, hrx⟩ := List.mem_flatMap.mp hr
    exact mem_slots (List.mem_cons_of_mem _ hx) hrx
  have hslots : (db.addArr a).slots = db.top.slots ++ (a.slots ++ db.arrs.flatMap Arr.slots) := by
    simp only [Db.slots, Db.arrays, Db.addArr, List.flatMap_cons]
  have hslots' : db.slots = db.top.slots ++ db.arrs.flatMap Arr.slots := by
    simp only [Db.slots, Db.arrays, List.flatMap_cons]
  rw [Db.ents, Db.ents, hslots, hslots', List.flatMap_append, List.flatMap_append,
    List.flatMap_append, hnew, h1, h2, List.nil_append]

/-- What is read after an array with the dual node `d` has been put below the link `l`. -/
structure Arrayed (pool : Pool) (h h' : Mdb) (db : Db) (l : Link) (d : Word) : Prop where
  tag : ∀ j, Live pool db j → j ≠ l → (h'.Tagged j ↔ h.Tagged j)
  next : ∀ j, Live pool db j → j ≠ l → h'.next j = h.next j
  next_link : h'.next l = (d, (h.next l).2)
  w1 : ∀ x, (h'.mnode x).w1 = (h.mnode x).w1
  w2 : ∀ x, (h'.mnode x).w2 = (h.mnode x).w2

lemma Arrayed.next_snd {d : Word} (hA : Arrayed pool h h' db l d) {j : Link} (hj : Live pool db j) :
    (h'.next j).2 = (h.next j).2 := by
  by_cases hjl : j = l
  · rw [hjl, hA.next_link]
  · rw [hA.next j hj hjl]

lemma arrayed_spec (hs : Links pool h db) (hb : b ∈ (h.free .roots).head?) (hdal : d &&& 3 = 0)
    (hdne : ∀ x ∈ db.arrays, x.dual ≠ d) : Arrayed pool h (arrayed h l d b) db l d := by
  have hdual : ∀ j, Live pool db j → h.Tagged j → (h.next j).1 ≠ d := by
    rintro j (rfl | ⟨r', hr', hj⟩) htj
    · rw [← hs.top_link, hs.dual _ List.mem_cons_self]
      exact hdne _ List.mem_cons_self
    · obtain ⟨x, hx, rfl⟩ := hs.owner r' hr' j hj htj
      rw [hs.dual x (List.mem_cons_of_mem _ hx)]
      exact hdne x (List.mem_cons_of_mem _ hx)
  refine ⟨fun j hj hjl => ?_, fun j hj hjl => ?_, ?_, fun x => ?_, fun x => ?_⟩
  · rw [arrayed, Mdb.tagged_take, Mdb.tagged_take, Mdb.tagged_setNextDual_of_ne hjl,
      Mdb.tagged_setDual, tagged_clearRoots (hs.live_ne_slot hb hj)]
  · have hc := next_clearRoots (h := h) (hs.live_ne_slot hb hj)
    rw [arrayed, Mdb.next_take, Mdb.next_take, Mdb.next_setNextDual_of_ne hjl,
      Mdb.next_setDual_of_ne, hc]
    intro htj
    rw [hc]
    exact hdual j hj ((tagged_clearRoots (hs.live_ne_slot hb hj)).mp htj)
  · rw [arrayed, Mdb.next_take, Mdb.next_take, Mdb.next_setNextDual hdal]
    simp [Mdb.setDual]
  · simp [arrayed, Mdb.take, Mdb.setDual]
  · simp [arrayed, Mdb.take, Mdb.setDual]

/-- The chains of the new array are empty, and the others are as before. -/
lemma arrayed_path (hs : Links pool h db) {depth : Nat}
    (hA : Arrayed pool h (arrayed h l d b) db l d)
    (hlive : Live pool db l) (hb : b ∈ (h.free .roots).head?)
    (hold : ∀ x ∈ db.slots, (db.addArr ⟨l, d, b, depth⟩).chain x = db.chain x) {x : Word}
    (hx : x ∈ (db.addArr ⟨l, d, b, depth⟩).slots) :
    Path (arrayed h l d b) (.root x) ((db.addArr ⟨l, d, b, depth⟩).chain x) ∧
      ((arrayed h l d b).next
        (lastLink (.root x) ((db.addArr ⟨l, d, b, depth⟩).chain x))).2 = 0 := by
  rcases Db.mem_addArr_slots.mp hx with hx | hx
  · rw [Db.addArr_chain_new hx]
    obtain ⟨i, hi, rfl⟩ := Arr.mem_slots.mp hx
    have hne : Link.root (slot b i) ≠ l := fun heq => hs.live_ne_slot hb hlive i hi heq.symm
    have h0 : ¬ (clearRoots 1024 b h).Tagged (.root (slot b i)) := not_tagged_clearRoots_slot hi
    refine ⟨trivial, ?_⟩
    rw [lastLink, arrayed, Mdb.next_take, Mdb.next_take, Mdb.next_setNextDual_of_ne hne,
      Mdb.next_setDual_of_ne fun h => absurd h h0, next_clearRoots_slot hi]
  · rw [hold x hx]
    have hlivec : ∀ j ∈ db.chainLinks x, Live pool db j := fun j hj => .inr ⟨x, hx, hj⟩
    constructor
    · refine (hs.path x hx).congr (fun j _ hj => hA.next_snd (hlivec j ?_))
        (hs.nodup_chainLinks hx) (fun e _ => hA.w1 _) (fun e _ => hA.w2 _)
      rcases hj with rfl | ⟨e, he, rfl⟩
      · exact List.mem_cons_self
      · exact Db.mem_chainLinks he
    · rw [hA.next_snd (hlivec _ lastLink_mem_links)]
      exact hs.path_end x hx

/-- **A new array.**  Two free buffers become a root array and its dual node below a link
of the larger pages. -/
theorem addArray (hs : Links pool h db) {depth : Nat} (hr : r ∈ db.top.slots)
    (hl : (l = .root r ∧ depth = 0) ∨ ∃ e ∈ db.chain r, l = .node e.ptr ∧ depth = e.depth)
    (ht : ¬ h.Tagged l) (hb : b ∈ (h.free .roots).head?) (hd : d ∈ (h.free .dual).head?) :
    Links pool (arrayed h l d b) (db.addArr ⟨l, d, b, depth⟩) := by
  have hdf : d ∈ h.free .dual := List.mem_of_mem_head? hd
  have hdp : d ∈ pool.bufs .dual := hs.duals.subset (List.mem_append_right _ hdf)
  have hdal : d &&& 3 = 0 := pool.aligned .dual d hdp
  have hdne : ∀ x ∈ db.arrays, x.dual ≠ d := by
    rintro x hx rfl
    exact (List.nodup_append.mp (hs.duals.nodup_iff.mpr (pool.nodup _))).2.2 _
      (List.mem_map_of_mem hx) _ hdf rfl
  have hlive : Live pool db l := by
    refine .inr ⟨r, mem_top_slots hr, ?_⟩
    rcases hl with ⟨rfl, -⟩ | ⟨e, he, rfl, -⟩
    · exact List.mem_cons_self
    · exact Db.mem_chainLinks he
  have hlσ : l ≠ .node pool.sigma0 := by
    rintro rfl
    rcases hl with ⟨heq, -⟩ | ⟨e, he, heq, -⟩
    · simp at heq
    · exact hs.ptr_ne_sigma0 (mem_ents (mem_top_slots hr) he) (Link.node.inj heq).symm
  have hnew : ∀ x ∈ (⟨l, d, b, depth⟩ : Arr).slots, x ∉ db.slots := by
    intro x hx
    obtain ⟨i, hi, rfl⟩ := Arr.mem_slots.mp hx
    exact hs.new_slot_not_mem hb hi
  have hold : ∀ x ∈ db.slots, (db.addArr ⟨l, d, b, depth⟩).chain x = db.chain x := fun x hx =>
    Db.addArr_chain fun hxa => hnew x hxa hx
  have hA := hs.arrayed_spec (l := l) hb hdal hdne
  have hlivec : ∀ x ∈ db.slots, ∀ j ∈ db.chainLinks x, Live pool db j := fun x hx j hj =>
    .inr ⟨x, hx, hj⟩
  refine
    { sigma0 := by simpa [arrayed, Mdb.take, Mdb.setDual] using hs.sigma0
      sigma0_back := (hA.w1 _).trans hs.sigma0_back
      sigma0_depth := by rw [← hs.sigma0_depth, MNode.getDepth, hA.w2, MNode.getDepth]
      sigma0_space := by rw [← hs.sigma0_space, MNode.getSpace, hA.w2, MNode.getSpace]
      sigma0_next := by rw [hA.next _ (.inl rfl) hlσ.symm, hs.sigma0_next]
      top_link := hs.top_link
      top_depth := hs.top_depth
      path := fun x hx => (hs.arrayed_path hA hlive hb hold hx).1
      path_end := fun x hx => (hs.arrayed_path hA hlive hb hold hx).2
      dual := ?_
      base := ?_
      owner := ?_
      link := ?_
      pg := fun e he => hs.pg e (by rwa [addArr_ents hnew] at he)
      mnodes := ?_
      duals := ?_
      roots := ?_ }
  · intro x hx
    rcases List.mem_cons.mp hx with rfl | hx
    · change ((arrayed h l d b).next db.top.link).1 = db.top.dual
      rw [hs.top_link, hA.next _ (.inl rfl) hlσ.symm, ← hs.top_link]
      exact hs.dual _ List.mem_cons_self
    · rcases List.mem_cons.mp hx with rfl | hx
      · rw [hA.next_link]
      · have hxl : x.link ≠ l := fun heq =>
          ht (heq ▸ hs.tagged_of_arr (List.mem_cons_of_mem _ hx))
        rw [hA.next _ (hs.live_link hx) hxl]
        exact hs.dual x (List.mem_cons_of_mem _ hx)
  · intro x hx
    have hroot : ∀ y ∈ db.arrays, ((arrayed h l d b).dual y.dual).root = y.base := by
      intro y hy
      have hyd := hdne y hy
      simpa [arrayed, Mdb.take, Mdb.setDual, hyd] using hs.base y hy
    rcases List.mem_cons.mp hx with rfl | hx
    · exact hroot _ List.mem_cons_self
    · rcases List.mem_cons.mp hx with rfl | hx
      · simp [arrayed, Mdb.take, Mdb.setDual]
      · exact hroot x (List.mem_cons_of_mem _ hx)
  · intro x hx j hj htj
    by_cases hjl : j = l
    · exact ⟨⟨l, d, b, depth⟩, List.mem_cons_self, hjl.symm⟩
    rcases Db.mem_addArr_slots.mp hx with hx | hx
    · rw [Db.chainLinks, Db.addArr_chain_new hx] at hj
      obtain rfl : j = .root x := by simpa using hj
      obtain ⟨i, hi, rfl⟩ := Arr.mem_slots.mp hx
      rw [arrayed, Mdb.tagged_take, Mdb.tagged_take, Mdb.tagged_setNextDual_of_ne hjl,
        Mdb.tagged_setDual] at htj
      exact absurd htj (not_tagged_clearRoots_slot hi)
    · rw [Db.chainLinks, hold x hx] at hj
      obtain ⟨y, hy, hyl⟩ := hs.owner x hx j hj ((hA.tag j (hlivec x hx j hj) hjl).mp htj)
      exact ⟨y, List.mem_cons_of_mem _ hy, hyl⟩
  · intro x hx
    have hchain : ∀ y ∈ db.top.slots, (db.addArr ⟨l, d, b, depth⟩).chain y = db.chain y :=
      fun y hy => hold y (mem_top_slots hy)
    rcases List.mem_cons.mp hx with rfl | hx
    · refine ⟨r, hr, ?_⟩
      rw [hchain r hr]
      exact hl
    · obtain ⟨y, hy, hcase⟩ := hs.link x hx
      refine ⟨y, hy, ?_⟩
      rw [hchain y hy]
      exact hcase
  · rw [addArr_ents hnew]
    simpa [arrayed, Mdb.take, Mdb.setDual] using hs.mnodes
  · obtain ⟨ds, hds⟩ : ∃ ds, h.free .dual = d :: ds := ⟨_, List.eq_cons_of_mem_head? hd⟩
    have hp := hs.duals
    rw [hds] at hp
    refine List.Perm.trans ?_ hp
    simp only [Db.arrays, Db.addArr, arrayed, Mdb.take, Mdb.setDual, List.map_cons]
    simpa [hds] using (List.perm_middle (a := d)).symm
  · obtain ⟨bs, hbs⟩ : ∃ bs, h.free .roots = b :: bs := ⟨_, List.eq_cons_of_mem_head? hb⟩
    have hp := hs.roots
    rw [hbs] at hp
    refine List.Perm.trans ?_ hp
    simp only [Db.arrays, Db.addArr, arrayed, Mdb.take, Mdb.setDual, List.map_cons]
    simpa [hbs] using (List.perm_middle (a := b)).symm

end Links

/-- The depths of the empty chains form pre-orders. -/
lemma Db.Ordered.addArr (ho : db.Ordered) (hn : ∀ r ∈ a.slots, r ∉ db.slots) :
    (db.addArr a).Ordered := by
  intro x hx r hr
  have hmem : x = a ∨ x ∈ db.arrays := by
    rcases List.mem_cons.mp hx with rfl | hx
    · exact .inr List.mem_cons_self
    · exact (List.mem_cons.mp hx).imp_right (List.mem_cons_of_mem _)
  by_cases hra : r ∈ a.slots
  · rw [Db.addArr_chain_new hra]
    trivial
  · rw [Db.addArr_chain hra]
    rcases hmem with rfl | hx
    · exact absurd hr hra
    · exact ho x hx r hr

end Hazelnut
