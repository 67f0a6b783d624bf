import Mathlib.Data.List.TakeWhile
import Hazelnut.Mdb.Tree

/-!
What `mdb_flush` does without `MDB_FLUSH`.

* `Db.Derived`: the nodes that have been derived from a node, itself among them.
* `remap_readonly`: the database is left as it is, and what happens to the page tables is that
  entries of derived nodes lose their write permission.
-/

namespace Hazelnut

variable {pool : Pool} {k : Maps} {db : Db} {x y : Ent} {a : Arr} {p r w mode : Word} {t : Nat}

/-- The nodes of the chains that have been derived from the one at `p`. -/
def Db.Derived (pool : Pool) (db : Db) (p : Word) (x : Ent) : Prop :=
  x ∈ db.ents ∧ Relation.ReflTransGen (db.Parent pool) p x.ptr

/-- Within one chain, and from the node the chain hangs below. -/
lemma Db.parent_of_descends (ha : a ∈ db.arrays) (hr : r ∈ a.slots)
    (h : DepthList.Descends Ent.depth (a.node pool :: db.chain r) x y) :
    Relation.ReflTransGen (db.Parent pool) x.ptr y.ptr :=
  (Relation.TransGen.lift Ent.ptr (fun u v huv => ⟨a, ha, r, hr, u, v, huv, rfl, rfl⟩) x y
    h.transGen).to_reflTransGen

/-- The nodes that follow a node deeper. -/
lemma Place.derived (m : Place db) (hx : x ∈ m.e :: m.post.takeWhile (m.e.depth < ·.depth)) :
    db.Derived pool m.e.ptr x := by
  obtain ⟨a, ha, hr⟩ := List.mem_flatMap.mp m.mem
  have hmem : ∀ y ∈ m.e :: m.post, y ∈ db.ents := fun y hy =>
    Links.mem_ents m.mem (by rw [m.chain]; exact List.mem_append_right _ hy)
  rcases List.mem_cons.mp hx with rfl | hx
  · exact ⟨hmem _ List.mem_cons_self, .refl⟩
  · refine ⟨hmem x (List.mem_cons_of_mem _ ((List.takeWhile_sublist _).subset hx)),
      Db.parent_of_descends ha hr ?_⟩
    have hdeeper : ∀ y ∈ m.post.takeWhile (m.e.depth < ·.depth), m.e.depth < y.depth :=
      fun y hy => by simpa using List.mem_takeWhile_imp hy
    obtain ⟨u, v, huv⟩ := List.append_of_mem hx
    have hpost : m.post = u ++ x :: v ++ m.post.dropWhile (m.e.depth < ·.depth) := by
      rw [← huv, List.takeWhile_append_dropWhile]
    generalize m.post.dropWhile (m.e.depth < ·.depth) = rest at hpost
    refine ⟨a.node pool :: m.pre, u, v ++ rest, ?_, hdeeper x hx, fun z hz => hdeeper z ?_⟩
    · rw [m.chain, hpost]
      simp
    · rw [huv]
      exact List.mem_append_left _ hz

/-- The nodes in the array below a node. -/
lemma Db.derived_below (ho : db.Ordered) (hx : db.Derived pool p x) (ha : a ∈ db.arrs)
    (hl : a.link = .node x.ptr) (hr : r ∈ a.slots) (hy : y ∈ db.chain r) :
    db.Derived pool p y := by
  have ha' : a ∈ db.arrays := List.mem_cons_of_mem _ ha
  have hnode : (a.node pool).ptr = x.ptr := by rw [Arr.node, hl]
  refine ⟨Links.mem_ents (Links.mem_slots ha' hr) hy, hx.2.trans ?_⟩
  rw [← hnode]
  refine Db.parent_of_descends ha' hr ?_
  obtain ⟨u, v, huv⟩ := List.append_of_mem hy
  have hdeeper : ∀ z ∈ db.chain r, (a.node pool).depth < z.depth := by
    intro z hz
    rw [Arr.node_depth]
    exact (ho a ha' r hr).lt_of_mem hz
  refine ⟨[], u, v, by rw [huv]; rfl, hdeeper y hy, fun z hz => hdeeper z ?_⟩
  rw [huv]
  exact List.mem_append_left _ hz

/-- The flush returns and leaves the database as it is.  No entry of the page tables changes but
for its write permission, which is only taken away, and only from the node itself and from nodes
derived from it. -/
def RemapKeeps (pool : Pool) (k : Maps) (m : Place db) (fAddr : Word) (t : Nat) (mode : Word) :
    Prop :=
  ∃ fuel res k', mdbFlush fuel k m.e.ptr m.e.pg (db.pgsize m.r) fAddr t mode = some (res, k') ∧
    k'.mdb = k.mdb ∧ ∀ pg : Word,
      (k'.ptab.isValid pg ↔ k.ptab.isValid pg) ∧ k'.ptab.address pg = k.ptab.address pg ∧
      k'.ptab pg &&& ~~~pageWritable = k.ptab pg &&& ~~~pageWritable ∧
      (k'.ptab.isWritable pg → k.ptab.isWritable pg) ∧
      (k'.ptab pg ≠ k.ptab pg → ∃ x, db.Derived pool m.e.ptr x ∧ x.pg = pg)

/-- **Remapping read-only changes nothing but write permission.** -/
theorem remap_readonly (w : Word) (hw : WellFormed pool k.mdb db) (m : Place db) (ht : t ≤ 1)
    (hfl : ¬ modeFlush mode) : RemapKeeps pool k m w t mode := by
  obtain ⟨fuel, res, k', hfuel, hm, hp⟩ := flush_remap (w := w) (P := db.Derived pool m.e.ptr)
    hw.toLinks m.mem m.chain hfl ht (fun x hx => m.derived hx)
    (fun x hx a ha hl r hr y hy => Db.derived_below hw.ordered hx ha hl hr hy)
  refine ⟨fuel, res, k', hfuel, hm, fun pg => ?_⟩
  have hv : pageValid &&& pageWritable = 0 := by decide
  have hf : framePart &&& pageWritable = 0 := by decide
  have hz : pageWritable &&& ~~~pageWritable = 0 := by decide
  unfold Ptab.isValid Ptab.address Ptab.isWritable
  rcases hp.entry pg with h | ⟨h, hx⟩
  · rw [h]
    exact ⟨Iff.rfl, rfl, rfl, id, fun hne => absurd rfl hne⟩
  · rw [h, Word.and_not_and_of_disjoint hv, Word.and_not_and_of_disjoint hf]
    refine ⟨Iff.rfl, rfl, ?_, fun hw => absurd ?_ hw, fun _ => hx⟩
    · rw [BitVec.and_assoc, BitVec.and_self]
    · rw [BitVec.and_assoc, BitVec.and_comm (~~~pageWritable), hz]
      exact BitVec.and_zero

/-- A large page with a small one below it. -/
theorem remap_readonly_twoRun : ∃ h db, ∃ m : Place db, twoRun = some h ∧
    WellFormed twoPool h db ∧ RemapKeeps twoPool ⟨h, fun _ => 7⟩ m 0 1 mdbAllSpaces := by
  obtain ⟨h, db, m, hrun, hw, -⟩ := twoRun_spec
  exact ⟨h, db, m, hrun, hw, remap_readonly (k := ⟨h, fun _ => 7⟩) 0 hw m le_rfl
    (by simp [modeFlush, mdbAllSpaces, mdbFlushBit])⟩

end Hazelnut
