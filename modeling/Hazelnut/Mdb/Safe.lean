import Hazelnut.Mdb.Remap

/-!
Flushes that leave the database well formed.

* `Db.pgsize`: the page size at which a chain is linked.
* `flush_chain`: a flush that meets no dual node removes a block of a chain.
* `flush_slot`: a flush of a smaller page empties one slot of an array.
* `flush_refused`, `flush_last`, `flush_empty`: the other flushes that do no harm.
* `Db.Ordered.setChain`: the depths stay a pre-order.
-/

namespace Hazelnut

variable {pool : Pool} {db : Db} {r : Word} {e f g : Ent} {pre post blk : List Ent} {k : Maps}
  {w mode : Word} {t : Nat} {a : Arr}

/-- The page size of the nodes in the chain at `r`. -/
@[irreducible] def Db.pgsize (db : Db) (r : Word) : Nat := if r ∈ db.top.slots then 1 else 0

lemma Db.pgsize_le (db : Db) (r : Word) : db.pgsize r ≤ 1 := by
  unfold Db.pgsize
  split <;> omega

lemma Db.pgsize_top (hr : r ∈ db.top.slots) : db.pgsize r = 1 := by
  unfold Db.pgsize
  exact if_pos hr

lemma Db.pgsize_of_not_top (hr : r ∉ db.top.slots) : db.pgsize r = 0 := by
  unfold Db.pgsize
  exact if_neg hr

namespace Links

variable {h : Mdb}

/-- A chain of the smaller pages hangs off an array below the top. -/
lemma exists_small (hr : r ∈ db.slots) (hz : db.pgsize r = 0) :
    ∃ a ∈ db.arrs, r ∈ a.slots := by
  obtain ⟨a, ha, hra⟩ := List.mem_flatMap.mp hr
  rcases List.mem_cons.mp ha with rfl | ha
  · rw [Db.pgsize_top hra] at hz
    simp at hz
  · exact ⟨a, ha, hra⟩

lemma pgsize_small (hs : Links pool h db) (ha : a ∈ db.arrs) (hr : r ∈ a.slots) :
    db.pgsize r = 0 := by
  refine Db.pgsize_of_not_top fun htop => hs.top_not_mem ?_
  rw [hs.arr_unique List.mem_cons_self (List.mem_cons_of_mem _ ha) htop hr]
  exact ha

end Links

/-- A run that returns. -/
lemma mdbFlush_of_reaches {fMap fPg : Word} {sz : Nat} {res : Int} {s : Flush}
    (hr : Reaches w t (k.mdb.mnode fMap).getDepth
      (.visit (flushInit k fMap fPg sz mode)) (.done res s)) :
    ∃ fuel, mdbFlush fuel k fMap fPg sz w t mode = some (res, s.toMaps) := by
  obtain ⟨n, hn⟩ := hr
  exact ⟨n, by simp only [mdbFlush, hn]⟩

/-- Where `mdb_flush` starts. -/
lemma at_flushInit (hs : Links pool k.mdb db) (hr : r ∈ db.slots)
    (hc : db.chain r = pre ++ e :: post) (sz : Nat) (mode : Word) :
    At pool (flushInit k e.ptr e.pg sz mode) db r pre e post :=
  ⟨hs, hr, hc, rfl, rfl⟩

lemma startdepth_eq (hs : Links pool k.mdb db) (hr : r ∈ db.slots)
    (hc : db.chain r = pre ++ e :: post) : (k.mdb.mnode e.ptr).getDepth.toNat = e.depth :=
  (hs.entAt hr hc).depth

/-- `mode & MDB_ALL_SPACES`. -/
def modeAll (mode : Word) : Prop := mode &&& mdbAllSpaces ≠ 0

instance (mode : Word) : Decidable (modeAll mode) := inferInstanceAs (Decidable (_ ≠ _))

/-- `mode & MDB_FLUSH`. -/
def modeFlush (mode : Word) : Prop := mode &&& mdbFlushBit ≠ 0

instance (mode : Word) : Decidable (modeFlush mode) := inferInstanceAs (Decidable (_ ≠ _))

/-- **A flush that meets no dual node** removes the nodes derived from the first one,
and the first one as well if its own space is included. -/
theorem flush_chain (hs : Links pool k.mdb db) (hr : r ∈ db.slots)
    (hc : db.chain r = pre ++ e :: (blk ++ post)) (hfl : modeFlush mode)
    (hle : db.pgsize r ≤ t) (htag : ∀ x ∈ e :: blk, ¬ k.mdb.Tagged (.node x.ptr))
    (hk : modeAll mode → ¬ k.mdb.Tagged (lastLink (.root r) pre))
    (hblk : ∀ x ∈ blk, e.depth < x.depth) (hpost : ∀ x ∈ post.head?, x.depth ≤ e.depth) :
    ∃ fuel k', mdbFlush fuel k e.ptr e.pg (db.pgsize r) w t mode = some (0, k') ∧
      Links pool k'.mdb (db.setChain r (pre ++ (if modeAll mode then post else e :: post))) ∧
      k'.ptab = k.ptab.clearAll
        ((if modeAll mode then e :: blk else blk).map Ent.pg) := by
  generalize db.pgsize r = sz at hle ⊢
  have ha := at_flushInit hs hr hc sz mode
  have hd := startdepth_eq hs hr hc
  have hblk' : ∀ x ∈ blk, (k.mdb.mnode e.ptr).getDepth.toNat < x.depth := by rwa [hd]
  have hpost' : ∀ x ∈ post.head?, x.depth ≤ (k.mdb.mnode e.ptr).getDepth.toNat := by rwa [hd]
  by_cases hall : modeAll mode
  · obtain ⟨s', hr', hl', hp'⟩ := ha.remove_block (w := w) (t := t) hall hfl hle (hk hall)
      htag hblk' hpost' (fun h => h.2 rfl) rfl
    obtain ⟨fuel, hfuel⟩ := mdbFlush_of_reaches hr'
    exact ⟨fuel, s'.toMaps, hfuel, by rwa [if_pos hall], by rwa [if_pos hall]⟩
  · have hkeep : ¬ ((flushInit k e.ptr e.pg sz mode).allSpaces ∧
        (flushInit k e.ptr e.pg sz mode).flushing) := fun h => hall h.1
    rw [if_neg hall, if_neg hall]
    cases blk with
    | nil =>
        obtain ⟨s', hr', hm', hp'⟩ := ha.keep_one (w := w) (t := t) hkeep (fun _ => hle)
          (htag e (by simp)) hpost' (fun h => h.2 rfl) rfl
        rw [if_neg (by exact hall)] at hp'
        obtain ⟨fuel, hfuel⟩ := mdbFlush_of_reaches hr'
        refine ⟨fuel, s'.toMaps, hfuel, ?_, hp'⟩
        have hsame : db.setChain r (pre ++ e :: post) = db := by
          rw [Db.setChain, ← List.nil_append post, ← hc, Function.update_eq_self]
        rw [hsame, hm']
        exact hs
    | cons f blk =>
        obtain ⟨s₁, hr₁, ha₁, hm₁, hp₁, hs₁, -⟩ :=
          ha.step_keep (w := w) (t := t) (d := (k.mdb.mnode e.ptr).getDepth) hkeep
            (fun _ => hle) (htag e (by simp))
        rw [if_neg (by exact hall)] at hp₁
        have hs₂ := hs₁.trans (Flush.same_spread (t := t))
        obtain ⟨s₃, hr₃, hl₃, hp₃⟩ := ha₁.spread.remove_block (w := w) (t := t)
          (Flush.spread_allSpaces (by rw [hs₁.fPgsize]; exact hle)) (hs₂.flushing.mpr hfl)
          (by rw [hs₂.fPgsize]; exact hle)
          (by rw [lastLink_concat, Flush.spread_mdb, hm₁]; exact htag e (by simp))
          (fun x hx => by rw [Flush.spread_mdb, hm₁]; exact htag x (by simp_all))
          (fun x hx => hblk' x (by simp_all)) hpost'
          (fun h => by rw [hs₂.root] at h; exact h.2 rfl) (by rw [hs₂.rcnt]; rfl)
        obtain ⟨fuel, hfuel⟩ := mdbFlush_of_reaches
          ((hr₁.trans (ha₁.scan_visit (hblk' f (by simp)))).trans hr₃)
        refine ⟨fuel, s₃.toMaps, hfuel, by simpa using hl₃, ?_⟩
        rw [hp₃, Flush.spread_ptab, hp₁]
        rfl

/-- The first element of a list with a property. -/
lemma exists_first {α : Type*} (P : α → Prop) (l : List α) :
    (∀ x ∈ l, ¬ P x) ∨ ∃ u y v, l = u ++ y :: v ∧ (∀ x ∈ u, ¬ P x) ∧ P y := by
  induction l with
  | nil => exact .inl (by simp)
  | cons b l ih =>
      by_cases hb : P b
      · exact .inr ⟨[], b, l, rfl, by simp, hb⟩
      · rcases ih with hl | ⟨u, y, v, rfl, hu, hy⟩
        · exact .inl (by simpa [hb] using hl)
        · exact .inr ⟨b :: u, y, v, rfl, by simpa [hb] using hu, hy⟩

@[simp] lemma Db.setChain_self : db.setChain r (db.chain r) = db := by
  simp [Db.setChain]

/-- The slot of the array below a node that belongs to the flushed page is emptied. -/
lemma At.empty_slot {s : Flush} {d : Word} (ha : At pool s db r pre e post) (hb : a ∈ db.arrs)
    (hl : a.link = .node e.ptr) (hall : ¬ s.allSpaces) (hfl : s.flushing) (hsz : s.fPgsize = 1)
    (hd : ∀ x ∈ db.chain (slot a.base (tableIndex w 0)), d.toNat < x.depth) :
    ∃ s', Reaches w 0 d (.visit s) (.done 0 s') ∧
      Links pool s'.mdb (db.setChain (slot a.base (tableIndex w 0)) []) ∧
      s'.ptab = s.ptab.clearAll ((db.chain (slot a.base (tableIndex w 0))).map Ent.pg) := by
  obtain ⟨s₁, hr₁, hm₁, h0, hsz₁, hroot₁, hrc₁, hmode, hp₁⟩ :=
    ha.enter_slot (w := w) (d := d) (t := 0) hb hl (fun h => hall h.1) (fun h => hall h.1)
      (by omega)
  simp only [hsz, Nat.sub_self] at hsz₁ hroot₁
  rw [if_neg hall] at hp₁
  have hidx : tableIndex w 0 < 1024 := Nat.mod_lt _ (by decide)
  generalize tableIndex w 0 = i at hidx hroot₁ hd ⊢
  have hlinks₁ : Links pool s₁.mdb db := by rw [hm₁]; exact ha.links
  have hslot := slot_mem (a := a) hidx
  have hmem := Links.mem_slots (List.mem_cons_of_mem _ hb) hslot
  cases hchain : db.chain (slot a.base i) with
  | nil =>
      obtain ⟨s₂, hr₂, hm₂, hp₂⟩ := scan_empty (w := w) (t := 0) (d := d) hlinks₁ hb hroot₁
        hrc₁ (by omega) (fun j hj hj' => by rwa [show j = i by omega]) h0
      refine ⟨s₂, hr₁.trans hr₂, ?_, by rw [hp₂, hp₁]; rfl⟩
      rw [← hchain, Db.setChain_self, hm₂]
      exact hlinks₁
  | cons x xs =>
      have hscan := scan_first (w := w) (t := 0) (d := d) hlinks₁ hb (k := 0) hroot₁
        (by omega) (by omega) (fun j hj hj' => by omega) (by simpa using hchain) h0
      rw [Nat.add_zero] at hscan
      have ha₂ : At pool { s₁ with
          root := slot a.base i, rcnt := s₁.rcnt - 0 - 1, fMap := x.ptr, fPg := x.pg, pmap := 0,
          proot := slot a.base i } db (slot a.base i) [] x (xs ++ []) :=
        ⟨hlinks₁, hmem, by simpa using hchain, rfl, rfl⟩
      have hs := Flush.same_spread (t := 0) (s := { s₁ with
          root := slot a.base i, rcnt := s₁.rcnt - 0 - 1, fMap := x.ptr, fPg := x.pg, pmap := 0,
          proot := slot a.base i })
      have hun : ∀ l ∈ db.chainLinks (slot a.base i), ¬ s₁.mdb.Tagged l :=
        hlinks₁.small_untagged hb hslot
      obtain ⟨s₃, hr₃, hl₃, hp₃⟩ := ha₂.spread.remove_block (w := w) (t := 0)
        (Flush.spread_allSpaces (by exact hsz₁.le))
        (hs.flushing.mpr (by simpa only [Flush.flushing, hmode] using hfl))
        (by rw [hs.fPgsize]; exact hsz₁.le)
        (by rw [Flush.spread_mdb]; exact hun _ List.mem_cons_self)
        (fun y hy => by
          rw [Flush.spread_mdb]
          refine hun _ ?_
          rw [Db.chainLinks, hchain]
          exact List.mem_cons_of_mem _ (List.mem_map.mpr ⟨y, hy, rfl⟩))
        (fun y hy => hd y (by rw [hchain]; simp [hy])) (by simp) (fun h => by omega)
        (by rw [hs.rcnt]; simp [hrc₁])
      refine ⟨s₃, ((hr₁.trans hscan).trans (ha₂.scan_visit (hd x (by rw [hchain]; simp)))).trans
        hr₃, by simpa using hl₃, ?_⟩
      rw [hp₃, Flush.spread_ptab]
      exact congrArg (Ptab.clearAll · _) hp₁

/-- **A flush of a smaller page** below a node of the larger ones.  Nodes of the
larger pages are passed over until the first one with an array below it, and there
the slot of the page is emptied. -/
theorem flush_slot (hs : Links pool k.mdb db) (hr : r ∈ db.top.slots)
    (hc : db.chain r = pre ++ e :: (blk ++ post)) (hfl : modeFlush mode) (hall : ¬ modeAll mode)
    (hblk : ∀ x ∈ blk, e.depth < x.depth) (hpost : ∀ x ∈ post.head?, x.depth ≤ e.depth)
    (hord : db.Ordered) :
    ((∀ x ∈ e :: blk, ¬ k.mdb.Tagged (.node x.ptr)) ∧
      ∃ fuel, mdbFlush fuel k e.ptr e.pg 1 w 0 mode = some (0, k)) ∨
    ∃ u g v, e :: blk = u ++ g :: v ∧ (∀ x ∈ u, ¬ k.mdb.Tagged (.node x.ptr)) ∧
      ∃ a ∈ db.arrs, a.link = .node g.ptr ∧
      ∃ fuel k', mdbFlush fuel k e.ptr e.pg 1 w 0 mode = some (0, k') ∧
        Links pool k'.mdb (db.setChain (slot a.base (tableIndex w 0)) []) ∧
        k'.ptab = k.ptab.clearAll
          ((db.chain (slot a.base (tableIndex w 0))).map Ent.pg) := by
  have hrs := Links.mem_top_slots hr
  have ha := at_flushInit hs hrs hc 1 mode
  have hd := startdepth_eq hs hrs hc
  have hkeep : ¬ ((flushInit k e.ptr e.pg 1 mode).allSpaces ∧
      (flushInit k e.ptr e.pg 1 mode).flushing) := fun h => hall h.1
  have hle : (flushInit k e.ptr e.pg 1 mode).allSpaces ↔
      (flushInit k e.ptr e.pg 1 mode).fPgsize ≤ 0 :=
    ⟨fun h => absurd h hall, fun h => by simp [flushInit] at h⟩
  rcases exists_first (fun x : Ent => k.mdb.Tagged (.node x.ptr)) (e :: blk) with
    hun | ⟨u, g, v, hsplit, hu, hg⟩
  · obtain ⟨s', hr', hm', hp'⟩ := ha.keep_block (w := w) hkeep hle hun (by rwa [hd])
      (by rwa [hd]) (fun h => h.2 rfl) rfl
    rw [if_neg (by exact hall)] at hp'
    obtain ⟨fuel, hfuel⟩ := mdbFlush_of_reaches hr'
    refine .inl ⟨hun, fuel, hfuel.trans ?_⟩
    have : s'.toMaps = k := by
      cases k
      cases hs' : s'.toMaps
      simp_all [flushInit]
    rw [this]
  · -- the first node with an array below
    have hgmem : g ∈ db.chain r := by
      have : g ∈ e :: blk := by rw [hsplit]; simp
      rw [hc]
      rcases List.mem_cons.mp this with rfl | h <;> simp_all
    obtain ⟨a, hb, hl⟩ := hs.owner r hrs (.node g.ptr)
      (List.mem_cons_of_mem _ (List.mem_map.mpr ⟨g, hgmem, rfl⟩)) hg
    refine .inr ⟨u, g, v, hsplit, hu, a, hb, hl, ?_⟩
    -- what hangs off the array is deeper than the node
    have hdepth : ∀ x ∈ db.chain (slot a.base (tableIndex w 0)),
        (k.mdb.mnode e.ptr).getDepth.toNat < x.depth := by
      intro x hx
      rw [hd]
      have hidx : tableIndex w 0 < 1024 := Nat.mod_lt _ (by decide)
      have hlt := (hord a (List.mem_cons_of_mem _ hb) _ (slot_mem hidx)).lt_of_mem hx
      have hge : e.depth ≤ a.depth := by
        obtain ⟨r', hr', hcase⟩ := hs.link a hb
        rcases hcase with ⟨heq, -⟩ | ⟨g', hg', heq, hdep⟩
        · rw [hl] at heq; simp at heq
        · have hgg : g' = g := hs.ptr_inj (Links.mem_ents (Links.mem_top_slots hr') hg')
            (Links.mem_ents hrs hgmem) (Link.node.inj (heq.symm.trans hl))
          rw [hdep, hgg]
          have : g ∈ e :: blk := by rw [hsplit]; simp
          rcases List.mem_cons.mp this with rfl | h
          · exact le_rfl
          · exact (hblk g h).le
      omega
    cases u with
    | nil =>
        obtain ⟨rfl, rfl⟩ : e = g ∧ blk = v := by simpa using hsplit
        obtain ⟨s', hr', hl', hp'⟩ := ha.empty_slot (w := w) hb hl hall hfl rfl hdepth
        obtain ⟨fuel, hfuel⟩ := mdbFlush_of_reaches hr'
        exact ⟨fuel, s'.toMaps, hfuel, hl', hp'⟩
    | cons e' u =>
        obtain ⟨rfl, rfl⟩ : e = e' ∧ blk = u ++ g :: v := by simpa using hsplit
        have ha' : At pool (flushInit k e.ptr e.pg 1 mode) db r pre e (u ++ g :: (v ++ post)) := by
          simpa using ha
        obtain ⟨s₁, hr₁, ha₁, hm₁, hp₁, hs₁, hall₁⟩ := ha'.walk_keep (w := w)
          (d := (k.mdb.mnode e.ptr).getDepth) hkeep hle hu
          (fun x hx => by
            rw [hd]
            refine hblk x ?_
            rcases List.mem_append.mp hx with hx | hx
            · simp [hx]
            · simp_all)
        rw [if_neg (by exact hall)] at hp₁
        obtain ⟨s₂, hr₂, hl₂, hp₂⟩ := ha₁.empty_slot (w := w) hb hl
          (fun h => hall (hall₁.mp h)) (hs₁.flushing.mpr hfl) hs₁.fPgsize hdepth
        obtain ⟨fuel, hfuel⟩ := mdbFlush_of_reaches (hr₁.trans hr₂)
        exact ⟨fuel, s₂.toMaps, hfuel, hl₂, by rw [hp₂, hp₁]; rfl⟩

/-- A page that is too small to be flushed with its own space: nothing happens. -/
lemma flush_refused (hs : Links pool k.mdb db) (hr : r ∈ db.slots)
    (hc : db.chain r = pre ++ e :: post) (hall : modeAll mode) (hpost : post ≠ []) :
    mdbFlush 1 k e.ptr e.pg 1 w 0 mode = some (-1, k) := by
  have ha := at_flushInit hs hr hc 1 mode
  have hne : headPtr post ≠ 0 := fun h0 =>
    hpost ((hs.headPtr_ne_zero hr (hc.trans (List.append_cons ..))).mp h0)
  have hv : flushVisit w 0 (flushInit k e.ptr e.pg 1 mode) = none := by
    rw [flushVisit, ha.next_eq]
    exact if_pos ⟨hall, by simp [flushInit], hne⟩
  simp only [mdbFlush, Function.iterate_one, flushStep, hv]
  rfl

/-- The last node of a chain of larger pages is flushed with its own space. -/
lemma flush_last (hs : Links pool k.mdb db) (hr : r ∈ db.slots)
    (hc : db.chain r = pre ++ [e]) (hfl : modeFlush mode) (hall : modeAll mode)
    (hk : ¬ k.mdb.Tagged (lastLink (.root r) pre)) (he : ¬ k.mdb.Tagged (.node e.ptr)) :
    ∃ fuel k', mdbFlush fuel k e.ptr e.pg 1 w 0 mode = some (0, k') ∧
      Links pool k'.mdb (db.setChain r pre) ∧ k'.ptab = k.ptab.clear e.pg := by
  have ha := at_flushInit hs hr hc 1 mode
  obtain ⟨s₁, hr₁, h0, hl₁, hp₁, hs₁, -⟩ := ha.last_remove (w := w) (t := 0)
    (d := (k.mdb.mnode e.ptr).getDepth) hall hfl hk he
  rw [if_neg fun h => by omega] at hr₁
  obtain ⟨fuel, hfuel⟩ := mdbFlush_of_reaches (hr₁.trans (.single (flushStep_scan_done
    (fun _ => by rw [hs₁.rcnt]; rfl) fun hne => absurd h0 hne)))
  refine ⟨fuel, _, hfuel, by simpa using hl₁, ?_⟩
  rw [Flush.spread_ptab, hp₁]
  rfl

/-- The array below the node is empty: it is walked over, and nothing else happens. -/
lemma flush_empty (hs : Links pool k.mdb db) (hr : r ∈ db.slots)
    (hc : db.chain r = pre ++ e :: post) (hall : ¬ modeAll mode) (hb : a ∈ db.arrs)
    (hl : a.link = .node e.ptr) (hempty : ∀ r' ∈ a.slots, db.chain r' = []) :
    ∃ fuel k', mdbFlush fuel k e.ptr e.pg 1 w 1 mode = some (0, k') ∧ k'.mdb = k.mdb := by
  have ha := at_flushInit hs hr hc 1 mode
  obtain ⟨s₁, hr₁, hm₁, h0, hsz₁, hroot₁, hrc₁, -⟩ := ha.enter_keep (w := w) (t := 1)
    (d := (k.mdb.mnode e.ptr).getDepth) hb hl (fun h => hall h.1) (fun h => hall h.1)
    (by simp [flushInit])
  have hrc : s₁.rcnt = 1024 := hrc₁
  obtain ⟨s₂, hr₂, hm₂, -⟩ := scan_empty (w := w) (t := 1)
    (d := (k.mdb.mnode e.ptr).getDepth) (by rw [hm₁]; exact hs) hb hroot₁ hrc (by omega)
    (fun j _ hj => hempty _ (slot_mem (by omega))) h0
  obtain ⟨fuel, hfuel⟩ := mdbFlush_of_reaches (hr₁.trans hr₂)
  exact ⟨fuel, _, hfuel, hm₂.trans hm₁⟩

/-- Remap mode, whatever the node.  `P` holds of the node and of those that follow it deeper, and
of all below a node of which it holds. -/
lemma flush_remap {P : Ent → Prop} (hs : Links pool k.mdb db) (hr : r ∈ db.slots)
    (hc : db.chain r = pre ++ e :: post) (hfl : ¬ modeFlush mode) (ht : t ≤ 1)
    (hP : ∀ x ∈ e :: post.takeWhile (e.depth < ·.depth), P x)
    (hbelow : ∀ x, P x → ∀ a ∈ db.arrs, a.link = .node x.ptr →
      ∀ r ∈ a.slots, ∀ y ∈ db.chain r, P y) :
    ∃ fuel res k', mdbFlush fuel k e.ptr e.pg (db.pgsize r) w t mode = some (res, k') ∧
      k'.mdb = k.mdb ∧ k.ptab.Remapped P k'.ptab := by
  rw [← startdepth_eq hs hr hc] at hP
  by_cases htop : r ∈ db.top.slots
  · rw [Db.pgsize_top htop]
    have ha := at_flushInit hs hr hc 1 mode
    obtain ⟨res, s', hr', hm', hp'⟩ := ha.remap_large (w := w)
      (d := (k.mdb.mnode e.ptr).getDepth) hfl rfl ht rfl rfl hP hbelow
    obtain ⟨fuel, hfuel⟩ := mdbFlush_of_reaches hr'
    exact ⟨fuel, res, _, hfuel, hm', hp'⟩
  · have hz : db.pgsize r = 0 := Db.pgsize_of_not_top htop
    obtain ⟨a, hb, hra⟩ := Links.exists_small hr hz
    rw [hz]
    have ha := at_flushInit hs hr hc 0 mode
    rcases ha.remap_small (w := w) (t := t) (d := (k.mdb.mnode e.ptr).getDepth) hfl
      (by simp [flushInit])
      (fun x hx => hs.small_untagged hb hra _ (Db.mem_chainLinks (by
        rw [hc]
        exact List.mem_append_right _ hx))) hP with
      ⟨s', hr', hm', hp'⟩ | ⟨s', hr', h0, hm', hp', hs'⟩
    · obtain ⟨fuel, hfuel⟩ := mdbFlush_of_reaches hr'
      exact ⟨fuel, 0, _, hfuel, hm', hp'⟩
    · rw [if_neg fun h => h.2 rfl] at hr'
      obtain ⟨fuel, hfuel⟩ := mdbFlush_of_reaches (hr'.trans (.single (flushStep_scan_done
        (fun _ => by rw [hs'.rcnt]; rfl) fun hne => absurd h0 hne)))
      exact ⟨fuel, 0, _, hfuel, by rw [Flush.spread_mdb, hm']; rfl,
        by rw [Flush.spread_ptab]; exact hp'⟩

/-! ### Well-formed databases -/

/-- The depths stay a pre-order if those of the exchanged chain are one. -/
lemma Db.Ordered.setChain {c : List Ent} (ho : db.Ordered)
    (hc : ∀ a ∈ db.arrays, r ∈ a.slots → DepthList.Ordered Ent.depth a.depth a.depth c) :
    (db.setChain r c).Ordered := by
  intro a ha r' hr'
  by_cases hne : r' = r
  · subst hne
    have : (db.setChain r' c).chain r' = c := Function.update_self ..
    rw [this]
    exact hc a ha hr'
  · have : (db.setChain r c).chain r' = db.chain r' := Function.update_of_ne hne ..
    rw [this]
    exact ho a ha r' hr'

/-- A place in the database: a mapping node with its chain. -/
structure Place (db : Db) where
  r : Word
  pre : List Ent
  e : Ent
  post : List Ent
  mem : r ∈ db.slots
  chain : db.chain r = pre ++ e :: post

namespace Place

variable (m : Place db)

/-- The link that leads to the node. -/
def link : Link := lastLink (.root m.r) m.pre

/-- The node itself, or a node of the same page size derived from it. -/
def Cone (x : Ent) : Prop := x = m.e ∨ DepthList.Descends Ent.depth (db.chain m.r) m.e x

/-- The nodes derived from a node are a block behind it. -/
lemma exists_block {h : Mdb} (hs : Links pool h db) :
    ∃ blk post, m.post = blk ++ post ∧ (∀ x ∈ blk, m.e.depth < x.depth) ∧
      (∀ x ∈ post.head?, x.depth ≤ m.e.depth) ∧ ∀ x, m.Cone x ↔ x ∈ m.e :: blk := by
  obtain ⟨blk, post, hp, hblk, hpost⟩ := DepthList.exists_block Ent.depth m.e.depth m.post
  refine ⟨blk, post, hp, hblk, hpost, fun x => ?_⟩
  have hc : db.chain m.r = m.pre ++ m.e :: (blk ++ post) := by rw [m.chain, hp]
  have hn : (m.pre ++ m.e :: (blk ++ post)).Nodup := by
    rw [← hc]
    exact List.Nodup.of_map _ (hs.nodup_chain m.mem)
  rw [Cone, hc, DepthList.descends_block_iff hn hblk hpost, List.mem_cons]

end Place

/-- **When a flush does no harm.**  Remap mode and flushes of smaller pages never do.
For a node of the larger pages that is flushed as a whole, neither the node nor one
derived from it has an array below it, and, if the node itself goes, nor has the link
that leads to it; or the node stays, and the array below it is empty.  Where a smaller
page is flushed with its own space, the same holds of the node, unless it is followed
by another one. -/
def FlushSafe (h : Mdb) (m : Place db) (t : Nat) (mode : Word) : Prop :=
  modeFlush mode → m.r ∈ db.top.slots →
    if t = 1 then
      (¬ modeAll mode ∧ ∃ a ∈ db.arrs, a.link = .node m.e.ptr ∧ ∀ r ∈ a.slots, db.chain r = []) ∨
      (modeAll mode → ¬ h.Tagged m.link) ∧ ∀ x, m.Cone x → ¬ h.Tagged (.node x.ptr)
    else modeAll mode → m.post = [] → ¬ h.Tagged m.link ∧ ¬ h.Tagged (.node m.e.ptr)

/-- The flush returns, and leaves a well-formed database. -/
def FlushKeeps (pool : Pool) (k : Maps) (m : Place db) (fAddr : Word) (t : Nat)
    (mode : Word) : Prop :=
  ∃ fuel res k', mdbFlush fuel k m.e.ptr m.e.pg (db.pgsize m.r) fAddr t mode = some (res, k') ∧
    ∃ db', WellFormed pool k'.mdb db'

/-- A harmless flush keeps the database well formed. -/
theorem FlushSafe.keeps {m : Place db} (hw : WellFormed pool k.mdb db) (ht : t ≤ 1)
    (hsafe : FlushSafe k.mdb m t mode) : FlushKeeps pool k m w t mode := by
  have hs := hw.toLinks
  obtain ⟨blk, post, hp, hblk, hpost, hcone⟩ := m.exists_block hs
  have hc : db.chain m.r = m.pre ++ m.e :: (blk ++ post) := by rw [m.chain, hp]
  have hord : ∀ a ∈ db.arrays, m.r ∈ a.slots →
      DepthList.Ordered Ent.depth a.depth a.depth (m.pre ++ m.e :: (blk ++ post)) :=
    fun a ha hr => hc ▸ hw.ordered a ha m.r hr
  -- the block goes, with or without the node itself
  have hchain : (∀ x ∈ m.e :: blk, ¬ k.mdb.Tagged (.node x.ptr)) →
      (modeAll mode → ¬ k.mdb.Tagged m.link) → modeFlush mode → db.pgsize m.r ≤ t →
      FlushKeeps pool k m w t mode := by
    intro htag hk hfl hle
    obtain ⟨fuel, k', hfuel, hl, -⟩ := flush_chain (w := w) hs m.mem hc hfl hle htag hk
      hblk hpost
    refine ⟨fuel, 0, k', hfuel, _, hl, hw.ordered.setChain fun a ha hr => ?_⟩
    split
    · exact (hord a ha hr).remove hpost
    · exact (hord a ha hr).erase hpost
  by_cases hfl : modeFlush mode
  · by_cases htop : m.r ∈ db.top.slots
    · have hsz := Db.pgsize_top htop
      have hsafe := hsafe hfl htop
      by_cases ht1 : t = 1
      · rw [if_pos ht1] at hsafe
        rcases hsafe with ⟨hall, a, hb, hl, hempty⟩ | ⟨hk, hun⟩
        · obtain ⟨fuel, k', hfuel, hm⟩ := flush_empty (w := w) hs m.mem m.chain hall hb hl
            hempty
          exact ⟨fuel, 0, k', by rw [hsz, ht1]; exact hfuel, db, by rw [hm]; exact hw⟩
        · exact hchain (fun x hx => hun x ((hcone x).mpr hx)) hk hfl (by omega)
      · obtain rfl : t = 0 := by omega
        rw [if_neg (by omega)] at hsafe
        by_cases hall : modeAll mode
        · by_cases hpe : m.post = []
          · obtain ⟨hk, he⟩ := hsafe hall hpe
            have hc' : db.chain m.r = m.pre ++ [m.e] := by rw [m.chain, hpe]
            obtain ⟨fuel, k', hfuel, hl, -⟩ := flush_last (w := w) hs m.mem hc' hfl hall hk he
            refine ⟨fuel, 0, k', by rw [hsz]; exact hfuel, _, hl,
              hw.ordered.setChain fun a ha hr => ?_⟩
            have ho := hw.ordered a ha m.r hr
            rw [hc'] at ho
            simpa using DepthList.Ordered.remove (u := m.pre) (x := m.e) (v := []) (w := []) ho
              (by simp)
          · exact ⟨1, -1, k, by rw [hsz]; exact flush_refused hs m.mem m.chain hall hpe, db, hw⟩
        · rw [FlushKeeps, hsz]
          rcases flush_slot (w := w) hs htop hc hfl hall hblk hpost hw.ordered with
            ⟨-, fuel, hfuel⟩ | ⟨u, g, v, -, -, a, hb, -, fuel, k', hfuel, hl, -⟩
          · exact ⟨fuel, 0, k, hfuel, db, hw⟩
          · exact ⟨fuel, 0, k', hfuel, _, hl, hw.ordered.setChain fun _ _ _ => trivial⟩
    · have hz : db.pgsize m.r = 0 := Db.pgsize_of_not_top htop
      obtain ⟨a, hb, hra⟩ := Links.exists_small m.mem hz
      have hun := hs.small_untagged hb hra
      refine hchain (fun x hx => hun _ (Db.mem_chainLinks ?_)) (fun _ => hun _ ?_) hfl (by omega)
      · rw [hc]
        rcases List.mem_cons.mp hx with rfl | hx
        · simp
        · simp [hx]
      · rw [Links.chainLinks_split hc]
        exact List.mem_append_left _ lastLink_mem_links
  · obtain ⟨fuel, res, k', hfuel, hm, -⟩ := flush_remap (w := w) (P := fun _ => True) hs m.mem
      m.chain hfl ht (fun _ _ => trivial) (fun _ _ _ _ _ _ _ _ _ => trivial)
    exact ⟨fuel, res, k', hfuel, db, by rw [hm]; exact hw⟩

end Hazelnut
