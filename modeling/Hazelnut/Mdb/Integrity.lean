import Hazelnut.Mdb.Leak
import Hazelnut.Mdb.Map

/-!
When `mdb_flush` keeps the database well formed.

`FlushSafe` is not only enough (`FlushSafe.keeps`): every other flush loses a dual node
or frees an array that is still in use, so that the database it leaves, if it returns at
all, is malformed (`flushKeeps_iff`).
-/

namespace Hazelnut

variable {pool : Pool} {db db' : Db} {r : Word} {e f g : Ent} {pre post blk : List Ent} {k : Maps}
  {s : Flush} {w mode d : Word} {t : Nat} {a : Arr}

lemma reaches_of_mdbFlush {fMap fPg : Word} {sz fuel : Nat} {res : Int} {k' : Maps}
    (h : mdbFlush fuel k fMap fPg sz w t mode = some (res, k')) :
    ∃ s, s.toMaps = k' ∧ Reaches w t (k.mdb.mnode fMap).getDepth
      (.visit (flushInit k fMap fPg sz mode)) (.done res s) := by
  unfold mdbFlush at h
  split at h
  · rename_i r s hrun
    obtain ⟨rfl, rfl⟩ : r = res ∧ s.toMaps = k' := by simpa using h
    exact ⟨s, rfl, fuel, hrun⟩
  · simp at h

/-- What is behind a link of the database. -/
lemma Links.next_nodeOrNull {h : Mdb} (hs : Links pool h db) {l : Link} (hl : Live pool db l) :
    NodeOrNull db (h.next l).2 := by
  have hhead : ∀ r ∈ db.slots, ∀ u v, db.chain r = u ++ v → NodeOrNull db (headPtr v) := by
    intro r hr u v hc
    cases v with
    | nil => exact .inl rfl
    | cons f v => exact .inr (List.mem_map_of_mem (Links.mem_ents hr (by simp [hc])))
  rcases hl with rfl | ⟨r, hr, hl⟩
  · exact .inl hs.sigma0_next
  · rcases List.mem_cons.mp hl with rfl | hl
    · rw [hs.next_root hr]
      exact hhead r hr [] _ rfl
    · obtain ⟨e, he, rfl⟩ := List.mem_map.mp hl
      obtain ⟨u, v, hc⟩ := List.append_of_mem he
      rw [hs.next_node hr hc]
      exact hhead r hr (u ++ [e]) v (by simpa using hc)

lemma tame_flushInit (hs : Links pool k.mdb db) (hr : r ∈ db.slots)
    (hc : db.chain r = pre ++ e :: post) (sz : Nat) (mode : Word) :
    TameAt pool db k.mdb (.visit (flushInit k e.ptr e.pg sz mode)) := by
  have hmem : e ∈ db.ents := Links.mem_ents hr (by simp [hc])
  have hnil : InArray db 0 0 := fun h => absurd h (by omega)
  exact ⟨⟨Decays.refl, fun l hl => hs.next_nodeOrNull hl, hnil, fun _ => hnil, fun _ => .inl rfl,
    .inr (List.mem_map_of_mem hmem)⟩, hs.ptr_ne_zero hmem⟩

/-- What comes after a node has been dealt with frees no mapping node and redirects no
link. -/
lemma proceed_mdb (s : Flush) (dual nmap : Word) :
    (s.proceed w t dual nmap).mdb.free .mnode = s.mdb.free .mnode ∧
      ∀ l, (s.proceed w t dual nmap).mdb.Tagged l ↔ s.mdb.Tagged l := by
  unfold Flush.proceed
  split_ifs
  · unfold Flush.enter
    simp only [if_neg fun h : (s.mode &&& mdbFlushBit) &&& (s.mode &&& mdbAllSpaces) ≠ 0 =>
      h (mode_bits s.mode)]
    split <;> exact ⟨rfl, fun l => Iff.rfl⟩
  · exact ⟨rfl, fun l => Iff.rfl⟩
  · simp only [Flush.climb]
    split
    · exact ⟨by simp [Mdb.freeBuffer], fun l => Mdb.tagged_freeBuffer ..⟩
    · exact ⟨rfl, fun l => Iff.rfl⟩
  · exact ⟨rfl, fun l => Iff.rfl⟩

/-- In flush mode the visited node is freed, and the link to it no longer leads to a dual
node. -/
lemma At.visit_frees (ha : At pool s db r pre e post) (hall : s.allSpaces) (hfl : s.flushing)
    (hn : ¬ (t < s.fPgsize ∧ post ≠ [])) :
    ∃ s', Reaches w t d (.visit s) (.scan s') ∧ e.ptr ∈ s'.mdb.free .mnode ∧
      ¬ s'.mdb.Tagged (lastLink (.root r) pre) := by
  have hv := ha.visit_eq (w := w) (t := t) fun h => hn h.2
  refine ⟨_, .single (flushStep_visit hv), ?_⟩
  obtain ⟨h1, h2⟩ := proceed_mdb (w := w) (t := t)
    { s.locate.treat (headPtr post) with fMap := 0 } (s.mdb.next (.node e.ptr)).1 (headPtr post)
  rw [h1, h2, ha.treat_remove hall hfl]
  refine ⟨by simp [Mdb.freeBuffer], fun ht => ?_⟩
  refine Links.unlinked_not_tagged (fun x hx => ?_) _ ((Mdb.tagged_freeBuffer ..).mp ht)
  exact ha.links.ptr_aligned (Links.mem_ents ha.mem (by rw [ha.chain]; simp [hx]))

/-- A chain of the smallest pages is removed to its end, and its array left. -/
lemma At.climb_remove (ha : At pool s db r pre e post) (hall : s.allSpaces) (hfl : s.flushing)
    (hk : ¬ s.mdb.Tagged (lastLink (.root r) pre))
    (htag : ∀ x ∈ e :: post, ¬ s.mdb.Tagged (.node x.ptr)) (hd : ∀ x ∈ post, d.toNat < x.depth)
    (hlt : s.fPgsize < t) (hroot : s.root ≠ 0) :
    ∃ s', Reaches w t d (.visit s) (.scan s'.climb) ∧ s.Same s' := by
  rcases List.eq_nil_or_concat' post with rfl | ⟨blk, g, rfl⟩
  · obtain ⟨s₁, hr₁, -, -, -, hs₁, -⟩ :=
      ha.last_remove (w := w) (t := t) (d := d) hall hfl hk (htag e (by simp))
    rw [if_pos ⟨hlt, hroot⟩] at hr₁
    exact ⟨s₁, hr₁, hs₁⟩
  · obtain ⟨s₁, hr₁, ha₁, -, hs₁, ht₁⟩ := ha.walk_remove (w := w) (t := t) hall hfl
      (by omega) hk (fun x hx => htag x (by simp_all; tauto)) hd
    obtain ⟨s₂, hr₂, -, -, -, hs₂, -⟩ := ha₁.last_remove (w := w) (t := t) (d := d)
      (hs₁.allSpaces hall) (hs₁.flushing.mpr hfl) (fun h => hk (ht₁ _ h))
      (fun h => htag g (by simp) (ht₁ _ h))
    rw [if_pos ⟨by rw [hs₁.fPgsize]; exact hlt, by rw [hs₁.root]; exact hroot⟩] at hr₂
    exact ⟨s₂, hr₁.trans hr₂, hs₁.trans hs₂⟩

/-- The array below a node that stays is freed, or what lies before it. -/
lemma At.array_freed (ha : At pool s db r pre e post) (hb : a ∈ db.arrs)
    (hl : a.link = .node e.ptr) (hall : ¬ s.allSpaces) (hfl : s.flushing) (hsz : s.fPgsize = 1)
    (hne : ∃ r' ∈ a.slots, db.chain r' ≠ [])
    (hd : ∀ r' ∈ a.slots, ∀ x ∈ db.chain r', d.toNat < x.depth) :
    ∃ s' i, i < 1024 ∧ Reaches w 1 d (.visit s) (.scan s') ∧
      slot a.base i - 4 * BitVec.ofNat 32 1023 ∈ s'.mdb.free .roots := by
  obtain ⟨s₁, hr₁, hm₁, h0, hsz₁, hroot₁, hrc₁, hmode, -⟩ :=
    ha.enter_keep (w := w) (t := 1) (d := d) hb hl (fun h => hall h.1)
      (fun h => hall h.1) (by omega)
  rw [hsz] at hsz₁ hrc₁
  have hlinks₁ : Links pool s₁.mdb db := by rw [hm₁]; exact ha.links
  rcases exists_first_slot db a.base with hempty | ⟨i, hi, hbefore, x, xs, hchain⟩
  · obtain ⟨r', hr', hc'⟩ := hne
    obtain ⟨j, hj, rfl⟩ := List.mem_map.mp hr'
    exact absurd (hempty j (List.mem_range.mp hj)) hc'
  · have hslot : slot a.base i ∈ a.slots := slot_mem hi
    have hmem := Links.mem_slots (List.mem_cons_of_mem _ hb) hslot
    have hscan := scan_first (w := w) (t := 1) (d := d) hlinks₁ hb (k := i) hroot₁
      (by rw [hrc₁]; simpa [tableSize, pgshift] using hi) (by omega)
      (fun j _ hj => hbefore j (by omega)) (by simpa using hchain) h0
    rw [Nat.zero_add] at hscan
    have ha₂ : At pool { s₁ with
        root := slot a.base i, rcnt := s₁.rcnt - i - 1, fMap := x.ptr, fPg := x.pg, pmap := 0,
        proot := slot a.base i } db (slot a.base i) [] x xs :=
      ⟨hlinks₁, hmem, by simpa using hchain, rfl, rfl⟩
    have hs := Flush.same_spread (t := 1) (s := { s₁ with
        root := slot a.base i, rcnt := s₁.rcnt - i - 1, fMap := x.ptr, fPg := x.pg, pmap := 0,
        proot := slot a.base i })
    have hun : ∀ l ∈ db.chainLinks (slot a.base i), ¬ s₁.mdb.Tagged l :=
      hlinks₁.small_untagged hb hslot
    obtain ⟨s₃, hr₃, hs₃⟩ := ha₂.spread.climb_remove (w := w) (t := 1) (d := d)
      (Flush.spread_allSpaces (by simp only [hsz₁]; omega))
      (hs.flushing.mpr (by simpa only [Flush.flushing, hmode] using hfl))
      (by rw [Flush.spread_mdb]; exact hun _ List.mem_cons_self)
      (fun y hy => by
        rw [Flush.spread_mdb]
        exact hun _ (Db.mem_chainLinks (hchain ▸ hy)))
      (fun y hy => hd _ hslot y (by rw [hchain]; simp [hy]))
      (by rw [hs.fPgsize]; simp only [hsz₁]; omega)
      (by rw [hs.root]; exact hlinks₁.slot_ne_zero hmem)
    refine ⟨s₃.climb, i, hi, ((hr₁.trans hscan).trans
      (ha₂.scan_visit (hd _ hslot x (by rw [hchain]; simp)))).trans hr₃, ?_⟩
    have hst := hs.trans hs₃
    have hfl₃ : s₃.flushing := hst.flushing.mpr (by simpa only [Flush.flushing, hmode] using hfl)
    have hroot₃ : s₃.root = slot a.base i := hst.root
    have hsz₃ : s₃.fPgsize = 0 := hst.fPgsize.trans hsz₁
    simp only [Flush.climb, if_pos hfl₃, hroot₃, hsz₃, Mdb.freeBuffer, Function.update_self]
    exact List.mem_cons_self

/-- What is freed there is the array, or no buffer at all. -/
lemma freed_array {b : Word} (hb : b ∈ pool.bufs .roots) {i : Nat} (hi : i < 1024) :
    slot b i - 4 * BitVec.ofNat 32 1023 = b ∨
      slot b i - 4 * BitVec.ofNat 32 1023 ∉ pool.bufs .roots := by
  have hal := pool.aligned _ b hb
  by_cases h : i = 1023
  · left
    rw [h, slot]
    exact BitVec.add_sub_cancel ..
  · right
    intro hmem
    have h1 := toNat_mod_of_aligned (pool.aligned _ _ hmem)
    have h2 := slot_toNat hal hi
    have h3 := toNat_mod_of_aligned hal
    have h4 : (4 * BitVec.ofNat 32 1023 : Word).toNat = 4092 := by decide
    rw [BitVec.toNat_sub, h2, h4] at h1
    omega

/-- A flush that frees the mapping node of a dual node, or cuts the link to it, does not
keep the database well formed. -/
lemma not_keeps_of_cut {m : Place db} (hs : Links pool k.mdb db) {s' : Flush}
    (hr : Reaches w t (k.mdb.mnode m.e.ptr).getDepth
      (.visit (flushInit k m.e.ptr m.e.pg (db.pgsize m.r) mode)) (.scan s'))
    (ha : a ∈ db.arrs)
    (hcut : ¬ s'.mdb.Tagged a.link ∨ ∃ p ∈ s'.mdb.free .mnode, a.link = .node p) :
    ¬ FlushKeeps pool k m w t mode := by
  rintro ⟨fuel, res, k', hfuel, db', hw'⟩
  obtain ⟨s'', rfl, hdone⟩ := reaches_of_mdbFlush hfuel
  have hinit := tame_flushInit hs m.mem m.chain (db.pgsize m.r) mode
  obtain ⟨ht₁, hd₁⟩ := hinit.reaches hs hr
  obtain ⟨-, hd₂⟩ := ht₁.reaches hs (hr.done_of hdone)
  have hd : Decays pool db k.mdb s''.mdb := hd₁.trans hd₂
  refine hd.not_links_of_cut hs ha ?_ db' hw'.toLinks
  rcases hcut with hun | ⟨p, hp, heq⟩
  · refine .inl fun ht => hun ?_
    exact (hd₂.tagged _ (hs.live_link ha) ht).1
  · exact .inr ⟨p, hd₂.free _ hp, heq⟩

/-- Nor does one that frees an array whose dual node stays. -/
lemma not_keeps_of_array {m : Place db} (hs : Links pool k.mdb db) {s' : Flush}
    (hr : Reaches w t (k.mdb.mnode m.e.ptr).getDepth
      (.visit (flushInit k m.e.ptr m.e.pg (db.pgsize m.r) mode)) (.scan s'))
    (ha : a ∈ db.arrs) {x : Word} (hx : x ∈ s'.mdb.free .roots)
    (hxa : x = a.base ∨ x ∉ pool.bufs .roots) : ¬ FlushKeeps pool k m w t mode := by
  rintro ⟨fuel, res, k', hfuel, db', hw'⟩
  obtain ⟨s'', rfl, hdone⟩ := reaches_of_mdbFlush hfuel
  have hinit := tame_flushInit hs m.mem m.chain (db.pgsize m.r) mode
  obtain ⟨ht₁, hd₁⟩ := hinit.reaches hs hr
  obtain ⟨-, hd₂⟩ := ht₁.reaches hs (hr.done_of hdone)
  exact (hd₁.trans hd₂).not_links_of_array hs ha (hd₂.free _ hx) hxa db' hw'.toLinks

/-- A flush that starts by removing the node, behind a link or above an array it should
not have. -/
lemma not_keeps_of_first {m : Place db} (hs : Links pool k.mdb db) (hfl : modeFlush mode)
    (hall : modeAll mode) (hn : ¬ (t < db.pgsize m.r ∧ m.post ≠ []))
    (htag : k.mdb.Tagged m.link ∨ k.mdb.Tagged (.node m.e.ptr)) :
    ¬ FlushKeeps pool k m w t mode := by
  have ha := at_flushInit hs m.mem m.chain (db.pgsize m.r) mode
  obtain ⟨s', hr', hfree, hun⟩ := ha.visit_frees (w := w) (t := t)
    (d := (k.mdb.mnode m.e.ptr).getDepth) hall hfl hn
  rcases htag with htag | htag
  · have hmem : m.link ∈ db.chainLinks m.r := by
      rw [Links.chainLinks_split m.chain]
      exact List.mem_append_left _ lastLink_mem_links
    obtain ⟨a, hb, hl⟩ := hs.owner m.r m.mem _ hmem htag
    exact not_keeps_of_cut hs hr' hb (.inl (by rw [hl]; exact hun))
  · obtain ⟨a, hb, hl⟩ := hs.owner m.r m.mem _ (Db.mem_chainLinks (by simp [m.chain])) htag
    exact not_keeps_of_cut hs hr' hb (.inr ⟨_, hfree, hl⟩)

/-- A flush that comes to remove a node with an array below it, in the block behind the
node `x` it stands at. -/
lemma not_keeps_of_block {m : Place db} {x : Ent} {u v : List Ent} {db₁ : Db} {pre : List Ent}
    (hs : Links pool k.mdb db)
    (hr : Reaches w t (k.mdb.mnode m.e.ptr).getDepth
      (.visit (flushInit k m.e.ptr m.e.pg (db.pgsize m.r) mode)) (.visit s))
    (ha : At pool s db₁ r pre x (u ++ g :: v)) (hall : s.allSpaces) (hfl : s.flushing)
    (hle : s.fPgsize ≤ t) (hk : ¬ s.mdb.Tagged (lastLink (.root r) pre))
    (htag : ∀ y ∈ x :: u, ¬ s.mdb.Tagged (.node y.ptr))
    (hd : ∀ y ∈ u ++ [g], (k.mdb.mnode m.e.ptr).getDepth.toNat < y.depth)
    (hb : a ∈ db.arrs) (hl : a.link = .node g.ptr) : ¬ FlushKeeps pool k m w t mode := by
  obtain ⟨s₁, hr₁, ha₁, -, hs₁, -⟩ := ha.walk_remove (w := w) hall hfl hle hk htag hd
  obtain ⟨s₂, hr₂, hfree, -⟩ := ha₁.visit_frees (w := w) (t := t)
    (d := (k.mdb.mnode m.e.ptr).getDepth) (hs₁.allSpaces hall) (hs₁.flushing.mpr hfl)
    (fun h => by rw [hs₁.fPgsize] at h; omega)
  exact not_keeps_of_cut hs ((hr.trans hr₁).trans hr₂) hb (.inr ⟨_, hfree, hl⟩)

/-- A flush that keeps the database well formed is one that does no harm. -/
lemma FlushKeeps.safe {m : Place db} (hw : WellFormed pool k.mdb db)
    (hkeeps : FlushKeeps pool k m w t mode) : FlushSafe k.mdb m t mode := by
  intro hfl htop
  have hs := hw.toLinks
  have hsz := Db.pgsize_top htop
  obtain ⟨blk, post, hp, hblk, -, hcone⟩ := m.exists_block hs
  have hd := startdepth_eq hs m.mem m.chain
  have ha := at_flushInit hs m.mem m.chain (db.pgsize m.r) mode
  have howner : ∀ x ∈ m.e :: blk, k.mdb.Tagged (.node x.ptr) →
      ∃ a ∈ db.arrs, a.link = .node x.ptr :=
    fun x hx htag => hs.owner m.r m.mem _ (Db.mem_chainLinks (by
      rw [m.chain, hp]
      rcases List.mem_cons.mp hx with rfl | hx
      · simp
      · simp [hx])) htag
  by_cases ht1 : t = 1
  · rw [if_pos ht1]
    by_cases hall : modeAll mode
    · refine .inr ⟨fun _ hlink => ?_, fun x hx htag => ?_⟩
      · exact not_keeps_of_first hs hfl hall (fun h => by omega) (.inl hlink) hkeeps
      · by_cases hlink : k.mdb.Tagged m.link
        · exact not_keeps_of_first hs hfl hall (fun h => by omega) (.inl hlink) hkeeps
        · rcases exists_first (fun y : Ent => k.mdb.Tagged (.node y.ptr)) (m.e :: blk) with
            hnone | ⟨u, g, v, hsplit, hu, hg⟩
          · exact hnone x ((hcone x).mp hx) htag
          · obtain ⟨a, hb, hl⟩ := howner g (by rw [hsplit]; simp) hg
            cases u with
            | nil =>
                obtain ⟨rfl, -⟩ : m.e = g ∧ blk = v := by simpa using hsplit
                exact not_keeps_of_first hs hfl hall (fun h => by omega) (.inr hg) hkeeps
            | cons e' u =>
                obtain ⟨rfl, rfl⟩ : m.e = e' ∧ blk = u ++ g :: v := by simpa using hsplit
                have ha' : At pool (flushInit k m.e.ptr m.e.pg (db.pgsize m.r) mode) db m.r m.pre
                    m.e (u ++ g :: (v ++ post)) := by rw [hp] at ha; simpa using ha
                refine not_keeps_of_block hs .refl ha' hall hfl ?_ hlink hu (fun y hy => ?_) hb hl
                  hkeeps
                · exact hsz.le.trans ht1.ge
                · rw [hd]
                  refine hblk y ?_
                  rcases List.mem_append.mp hy with hy | hy
                  · simp [hy]
                  · rw [List.mem_singleton.mp hy]; simp
    · by_cases htag : k.mdb.Tagged (.node m.e.ptr)
      · -- the array below the node has to be empty
        obtain ⟨a, hb, hl⟩ := howner m.e (by simp) htag
        refine .inl ⟨hall, a, hb, hl, fun r hr => ?_⟩
        by_contra hne
        subst ht1
        obtain ⟨s', i, hi, hr', hfree⟩ := ha.array_freed (w := w)
          (d := (k.mdb.mnode m.e.ptr).getDepth) hb hl hall hfl hsz ⟨r, hr, hne⟩
          (fun r' hr' x hx => by
            rw [hd]
            have hlt := (hw.ordered a (List.mem_cons_of_mem _ hb) r' hr').lt_of_mem hx
            obtain ⟨r'', hr'', hcase⟩ := hs.link a hb
            rcases hcase with ⟨heq, -⟩ | ⟨g, hg, heq, hdep⟩
            · rw [hl] at heq; simp at heq
            · have hgg : g = m.e := hs.ptr_inj (Links.mem_ents (Links.mem_top_slots hr'') hg)
                (Links.mem_ents m.mem (by simp [m.chain])) (Link.node.inj (heq.symm.trans hl))
              rw [hdep, hgg] at hlt
              exact hlt)
        have hbase := hs.base_mem (List.mem_cons_of_mem _ hb)
        exact not_keeps_of_array hs hr' hb hfree (freed_array hbase hi) hkeeps
      · refine .inr ⟨fun h => absurd h hall, fun x hx hxt => ?_⟩
        rcases exists_first (fun y : Ent => k.mdb.Tagged (.node y.ptr)) blk with
          hnone | ⟨u, g, v, hsplit, hu, hg⟩
        · rcases List.mem_cons.mp ((hcone x).mp hx) with rfl | hx
          · exact htag hxt
          · exact hnone x hx hxt
        · obtain ⟨a, hb, hl⟩ := howner g (by rw [hsplit]; simp) hg
          have hdep : ∀ y ∈ u ++ [g], (k.mdb.mnode m.e.ptr).getDepth.toNat < y.depth := by
            intro y hy
            rw [hd]
            refine hblk y ?_
            rcases List.mem_append.mp hy with hy | hy
            · simp [hsplit, hy]
            · rw [List.mem_singleton.mp hy, hsplit]; simp
          have hkeep : ¬ ((flushInit k m.e.ptr m.e.pg (db.pgsize m.r) mode).allSpaces ∧
              (flushInit k m.e.ptr m.e.pg (db.pgsize m.r) mode).flushing) := fun h => hall h.1
          have hle : (flushInit k m.e.ptr m.e.pg (db.pgsize m.r) mode).fPgsize ≤ t :=
            hsz.le.trans ht1.ge
          cases u with
          | nil =>
              have ha' : At pool (flushInit k m.e.ptr m.e.pg (db.pgsize m.r) mode) db m.r m.pre
                  m.e (g :: (v ++ post)) := by rw [hp, hsplit] at ha; simpa using ha
              obtain ⟨s₁, hr₁, ha₁, -, -, hs₁, -⟩ := ha'.step_keep (w := w) (t := t)
                (d := (k.mdb.mnode m.e.ptr).getDepth) hkeep (fun _ => hle) htag
              have hs₂ := hs₁.trans (Flush.same_spread (t := t))
              obtain ⟨s₃, hr₃, hfree, -⟩ := ha₁.spread.visit_frees (w := w) (t := t)
                (d := (k.mdb.mnode m.e.ptr).getDepth)
                (Flush.spread_allSpaces (by rw [hs₁.fPgsize]; exact hle)) (hs₂.flushing.mpr hfl)
                (fun h => by rw [hs₂.fPgsize] at h; omega)
              exact not_keeps_of_cut hs ((hr₁.trans (ha₁.scan_visit (hdep g (by simp)))).trans hr₃)
                hb (.inr ⟨_, hfree, hl⟩) hkeeps
          | cons f u =>
              have ha' : At pool (flushInit k m.e.ptr m.e.pg (db.pgsize m.r) mode) db m.r m.pre
                  m.e (f :: (u ++ g :: (v ++ post))) := by rw [hp, hsplit] at ha; simpa using ha
              obtain ⟨s₁, hr₁, ha₁, hm₁, -, hs₁, -⟩ := ha'.step_keep (w := w) (t := t)
                (d := (k.mdb.mnode m.e.ptr).getDepth) hkeep (fun _ => hle) htag
              have hs₂ := hs₁.trans (Flush.same_spread (t := t))
              refine not_keeps_of_block hs (hr₁.trans (ha₁.scan_visit (hdep f (by simp))))
                ha₁.spread (Flush.spread_allSpaces (by rw [hs₁.fPgsize]; exact hle))
                (hs₂.flushing.mpr hfl) (by rw [hs₂.fPgsize]; exact hle) ?_ ?_
                (fun y hy => hdep y (by simp_all)) hb hl hkeeps
              · rw [lastLink_concat, Flush.spread_mdb, hm₁]
                exact htag
              · intro y hy
                rw [Flush.spread_mdb, hm₁]
                exact hu y hy
  · rw [if_neg ht1]
    intro hall hpost
    refine ⟨fun htag => ?_, fun htag => ?_⟩
    · exact not_keeps_of_first hs hfl hall (fun h => h.2 hpost) (.inl htag) hkeeps
    · exact not_keeps_of_first hs hfl hall (fun h => h.2 hpost) (.inr htag) hkeeps

/-- **`mdb_flush` keeps the database well formed exactly where `FlushSafe` says so.** -/
theorem flushKeeps_iff (hw : WellFormed pool k.mdb db) (m : Place db) (ht : t ≤ 1) :
    FlushKeeps pool k m w t mode ↔ FlushSafe k.mdb m t mode :=
  ⟨fun hkeeps => hkeeps.safe hw, fun hsafe => hsafe.keeps hw ht⟩

/-! ### A large page with a small one below it -/

/-- Two mapping nodes, two dual nodes and two arrays. -/
def twoPool : Pool where
  bufs := fun
    | .mnode => [0x1000, 0x1010]
    | .dual => [0x2000, 0x2008]
    | .roots => [0x4000, 0x5000]
  sigma0 := 0x100
  nodup := by intro b; cases b <;> simp
  ne_zero := by intro b; cases b <;> simp
  aligned := by intro b; cases b <;> simp [Buf.mask]
  sigma0_ne_zero := by simp
  sigma0_aligned := by simp
  sigma0_static := by simp

/-- The memory before `mdb_init`. -/
def twoMem : Mdb where
  mnode := fun _ => ⟨0, 0, 0⟩
  dual := fun _ => ⟨0, 0⟩
  rnode := fun _ => 0
  free := twoPool.bufs
  sigma0Mapnode := twoPool.sigma0

/-- Sigma0 maps a large page, and a small part of it is mapped on. -/
def twoRun : Option Mdb := do
  let h ← mdbInit twoMem
  let (p, h) ← mdbMap h twoPool.sigma0 0 2 0x400000 0x8000 1 0x6000
  let (_, h) ← mdbMap h p 0x8000 1 0x400000 0x9000 0 0x7000
  return h

/-- Of two buffers, one is in use. -/
lemma free_of_perm {x y : Word} {l : List Word} (hl : (x :: l).Perm [x, y]) : l = [y] :=
  List.perm_singleton.mp (List.perm_cons x |>.mp hl)

/-- What `twoRun` leaves free, read off the database. -/
lemma free_twoPool {h : Mdb} {c : Buf} {x y : Word} {l : List Word}
    (hc : twoPool.bufs c = [x, y]) (hl : (l ++ h.free c).Perm (twoPool.bufs c))
    (hx : l.Perm [x]) : h.free c = [y] := by
  rw [hc, List.perm_singleton.mp hx] at hl
  exact free_of_perm hl

/-- The large page of the run has an array below it. -/
lemma twoRun_spec : ∃ h db, ∃ m : Place db, twoRun = some h ∧ WellFormed twoPool h db ∧
    m.r ∈ db.top.slots ∧ h.Tagged (.node m.e.ptr) := by
  have hf : Fresh twoPool twoMem := ⟨rfl, fun _ => rfl⟩
  obtain ⟨h₀, hinit, hw₀⟩ := mdbInit_wellFormed (b := 0x4000) (d := 0x2000) hf rfl rfl
  -- sigma0 maps a large page
  obtain ⟨x, y, hm₀⟩ : ∃ x y, h₀.free .mnode = [x, y] := by
    have hp := hw₀.mnodes
    rw [Db.initial_ents] at hp
    obtain ⟨x, y, hxy⟩ := List.length_eq_two.mp hp.length_eq
    exact ⟨x, y, hxy⟩
  obtain ⟨h₁, hmap₁, hw₁⟩ := mdbMap_sigma0 (w := 0x400000) 0 0x6000 hw₀
    (show (0x8000 : Word) &&& 3 = 0 by simp) (by simp) (by rw [hm₀]; rfl)
  generalize hdb₁ : (Db.initial twoPool 0x2000 0x4000).setChain _ _ = db₁ at hw₁
  have htop : slot 0x4000 (tableIndex 0x400000 1) ∈ db₁.top.slots := by
    rw [← hdb₁]
    exact slot_mem (tableIndex_lt _ le_rfl)
  have hc₁ : db₁.chain (slot 0x4000 (tableIndex 0x400000 1)) =
      [] ++ ⟨x, 0x8000, 0x6000 &&& spaceMask, 1⟩ :: [] := by
    rw [← hdb₁]
    exact Db.setChain_chain_self ..
  have hd₁ : h₁.free .dual = [0x2008] :=
    free_twoPool rfl hw₁.duals (by rw [← hdb₁]; exact List.Perm.refl _)
  have hb₁ : h₁.free .roots = [0x5000] :=
    free_twoPool rfl hw₁.roots (by rw [← hdb₁]; exact List.Perm.refl _)
  obtain ⟨z, hm₁⟩ : ∃ z, h₁.free .mnode = [z] := by
    have htop₀ : slot 0x4000 (tableIndex 0x400000 1) ∈ (Db.initial twoPool 0x2000 0x4000).slots :=
      Links.mem_top_slots (slot_mem (tableIndex_lt _ le_rfl))
    obtain ⟨l, hl, hl'⟩ := hw₀.ents_setChain_perm htop₀
      [⟨x, 0x8000, 0x6000 &&& spaceMask, 1⟩]
    rw [Db.initial_ents] at hl
    have hlen := hw₁.mnodes.length_eq
    have hll : l = [] := (List.append_eq_nil_iff.mp hl.nil_eq.symm).2
    have hents : db₁.ents.Perm ([⟨x, 0x8000, 0x6000 &&& spaceMask, 1⟩] ++ l) := by
      rw [← hdb₁]
      exact hl'
    rw [List.length_append, List.length_map, hents.length_eq, hll] at hlen
    have htwo : (twoPool.bufs .mnode).length = 2 := rfl
    rw [htwo] at hlen
    exact List.length_eq_one_iff.mp (by simpa [Nat.add_comm 1] using hlen)
  -- a small part of it is mapped on
  obtain ⟨h₂, a, db₂, hmap₂, hbelow, -, hw₂⟩ := mdbMap_small (w := 0x400000) 0x8000 0x7000 hw₁
    htop hc₁ (by simp) (show (0x9000 : Word) &&& 3 = 0 by simp) (by simp) (by rw [hm₁]; rfl)
    (by rw [hb₁]; rfl) (by rw [hd₁]; rfl)
  have hrun : twoRun = some h₂ := by
    simp only [twoRun, hinit, Option.bind_eq_bind, Option.bind_some, hmap₁, hmap₂, pure]
  have hi := tableIndex_lt 0x400000 (Nat.zero_le 1)
  have hslots := Links.mem_top_slots htop
  cases hbelow with
  | old ha =>
      have hnil : db₁.arrs = [] := by rw [← hdb₁]; rfl
      rw [hnil] at ha
      exact absurd ha List.not_mem_nil
  | new hl _ hnew =>
      have hne : slot 0x4000 (tableIndex 0x400000 1) ≠ slot a.base (tableIndex 0x400000 0) :=
        fun heq => hnew _ (heq ▸ slot_mem hi) hslots
      generalize _ :: (db₁.addArr a).chain _ = c at hw₂
      have hchain := (Db.setChain_chain_of_ne (c := c) hne).trans
        ((Db.addArr_chain fun hr => hnew _ hr hslots).trans hc₁)
      have hmem := Db.mem_addArr_slots (a := a).mpr (.inr hslots)
      refine ⟨h₂, (db₁.addArr a).setChain _ c, ⟨_, _, _, _, hmem, hchain⟩, hrun, hw₂, htop, ?_⟩
      have ht := hw₂.tagged_of_arr (List.mem_cons_of_mem _ List.mem_cons_self)
      rwa [hl] at ht

/-- Flushing the large page with the space that holds it loses the array below. -/
theorem flush_loses_array : ∃ h db, ∃ m : Place db, twoRun = some h ∧ WellFormed twoPool h db ∧
    ¬ FlushKeeps twoPool ⟨h, fun _ => 0⟩ m 0 1 (mdbAllSpaces ||| mdbFlushBit) := by
  obtain ⟨h, db, m, hrun, hw, htop, ht⟩ := twoRun_spec
  refine ⟨h, db, m, hrun, hw, fun hkeeps => ?_⟩
  have hsafe := hkeeps.safe hw (by simp [modeFlush, mdbAllSpaces, mdbFlushBit]) htop
  rcases hsafe with ⟨hall, -⟩ | ⟨-, hcone⟩
  · exact hall (by simp [modeAll, mdbAllSpaces, mdbFlushBit])
  · exact hcone m.e (.inl rfl) ht

theorem flushKeeps_iff_twoRun : ∃ h db, ∃ m : Place db, twoRun = some h ∧ WellFormed twoPool h db ∧
    (FlushKeeps twoPool ⟨h, fun _ => 0⟩ m 0 1 mdbFlushBit ↔ FlushSafe h m 1 mdbFlushBit) := by
  obtain ⟨h, db, m, hrun, hw, -⟩ := twoRun_spec
  exact ⟨h, db, m, hrun, hw, flushKeeps_iff (k := ⟨h, fun _ => 0⟩) hw m le_rfl⟩

end Hazelnut
