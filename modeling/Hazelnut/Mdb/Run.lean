import Hazelnut.Mdb.Walk

/-!
Whole runs of `mdb_flush` along one chain.

* `At.walk_remove`, `At.walk_keep`: from a node over a block of nodes without dual
  nodes to the last one of the block.
* `At.remove_block`, `At.keep_block`: the same to the end of the flush.
-/

namespace Hazelnut

variable {pool : Pool} {db : Db} {r : Word} {e f g : Ent} {pre post blk : List Ent} {s : Flush}
  {w d : Word} {t : Nat}

/-- The page tables after the entries `pgs` have been cleared. -/
def Ptab.clearAll (m : Ptab) (pgs : List Word) : Ptab := pgs.foldl Ptab.clear m

/-- The page tables after the entries `pgs` have been made read-only. -/
def Ptab.readonlyAll (m : Ptab) (pgs : List Word) : Ptab := pgs.foldl Ptab.setReadonly m

@[simp] lemma Db.setChain_setChain (c c' : List Ent) :
    (db.setChain r c).setChain r c' = db.setChain r c' := by
  simp [Db.setChain]

namespace At

/-- From a node over a block of derived nodes to the last one, which is about to be
visited when all others are gone. -/
lemma walk_remove (ha : At pool s db r pre e (blk ++ g :: post)) (hall : s.allSpaces)
    (hfl : s.flushing) (hle : s.fPgsize ≤ t) (hk : ¬ s.mdb.Tagged (lastLink (.root r) pre))
    (htag : ∀ x ∈ e :: blk, ¬ s.mdb.Tagged (.node x.ptr))
    (hd : ∀ x ∈ blk ++ [g], d.toNat < x.depth) :
    ∃ s', Reaches w t d (.visit s) (.visit s') ∧
      At pool s' (db.setChain r (pre ++ g :: post)) r pre g post ∧
      s'.ptab = s.ptab.clearAll ((e :: blk).map Ent.pg) ∧ s.Same s' ∧
      ∀ k, s'.mdb.Tagged k → s.mdb.Tagged k := by
  induction blk generalizing e s db with
  | nil =>
      obtain ⟨s₁, hr₁, ha₁, hp₁, hs₁, ht₁⟩ :=
        ha.step_remove (w := w) (d := d) hall hfl hle hk (htag e (by simp))
      refine ⟨_, hr₁.trans (ha₁.scan_visit (hd g (by simp))), ha₁.spread, ?_,
        hs₁.trans Flush.same_spread, fun k => by simpa using ht₁ k⟩
      rw [Flush.spread_ptab, hp₁]
      rfl
  | cons f blk ih =>
      obtain ⟨s₁, hr₁, ha₁, hp₁, hs₁, ht₁⟩ :=
        ha.step_remove (w := w) (d := d) hall hfl hle hk (htag e (by simp))
      have hs₂ := hs₁.trans (Flush.same_spread (t := t))
      obtain ⟨s₃, hr₃, ha₃, hp₃, hs₃, ht₃⟩ := ih ha₁.spread (hs₂.allSpaces hall)
        (hs₂.flushing.mpr hfl) (by rw [hs₂.fPgsize]; exact hle)
        (fun h => hk (ht₁ _ (by simpa using h)))
        (fun x hx h => htag x (by simp_all) (ht₁ _ (by simpa using h)))
        (fun x hx => hd x (by simp_all))
      refine ⟨s₃, (hr₁.trans (ha₁.scan_visit (hd f (by simp)))).trans hr₃, ?_, ?_, hs₂.trans hs₃,
        fun k hk => ht₁ k (by simpa using ht₃ k hk)⟩
      · simpa using ha₃
      · rw [hp₃, Flush.spread_ptab, hp₁]
        simp [Ptab.clearAll]

/-- The same where nodes are kept: they are made read-only in remap mode, and
passed over as long as the pages are too large. -/
lemma walk_keep (ha : At pool s db r pre e (blk ++ g :: post))
    (hkeep : ¬ (s.allSpaces ∧ s.flushing)) (hle : s.allSpaces ↔ s.fPgsize ≤ t)
    (htag : ∀ x ∈ e :: blk, ¬ s.mdb.Tagged (.node x.ptr))
    (hd : ∀ x ∈ blk ++ [g], d.toNat < x.depth) :
    ∃ s', Reaches w t d (.visit s) (.visit s') ∧ At pool s' db r (pre ++ e :: blk) g post ∧
      s'.mdb = s.mdb ∧ s'.ptab = (if s.allSpaces then
        s.ptab.readonlyAll ((e :: blk).map Ent.pg) else s.ptab) ∧
      s.Same s' ∧ (s'.allSpaces ↔ s.allSpaces) := by
  -- the mode is not changed on the way
  have hspread : ∀ s' : Flush, s.Same s' → (s'.allSpaces ↔ s.allSpaces) →
      ((s'.spread t).allSpaces ↔ s.allSpaces) := by
    intro s' hs' hall
    refine ⟨fun h => ?_, fun h => Flush.same_spread.allSpaces (hall.mpr h)⟩
    by_contra hn
    rw [Flush.spread, if_neg (by rw [hs'.fPgsize]; exact fun hf => hn (hle.mpr hf))] at h
    exact hn (hall.mp h)
  induction blk generalizing e s pre with
  | nil =>
      obtain ⟨s₁, hr₁, ha₁, hm₁, hp₁, hs₁, hall₁⟩ :=
        ha.step_keep (w := w) (d := d) hkeep hle.mp (htag e (by simp))
      refine ⟨_, hr₁.trans (ha₁.scan_visit (hd g (by simp))), ha₁.spread, by simpa using hm₁, ?_,
        hs₁.trans Flush.same_spread, hspread s₁ hs₁ hall₁⟩
      rw [Flush.spread_ptab, hp₁]
      rfl
  | cons f blk ih =>
      obtain ⟨s₁, hr₁, ha₁, hm₁, hp₁, hs₁, hall₁⟩ :=
        ha.step_keep (w := w) (d := d) hkeep hle.mp (htag e (by simp))
      have hs₂ := hs₁.trans (Flush.same_spread (t := t))
      have hall₂ := hspread s₁ hs₁ hall₁
      have hle₂ : (s₁.spread t).allSpaces ↔ (s₁.spread t).fPgsize ≤ t := by
        rw [hall₂, hs₂.fPgsize]; exact hle
      obtain ⟨s₃, hr₃, ha₃, hm₃, hp₃, hs₃, hall₃⟩ := ih ha₁.spread
        (fun h => hkeep ⟨hall₂.mp h.1, hs₂.flushing.mp h.2⟩) hle₂
        (fun x hx => by rw [Flush.spread_mdb, hm₁]; exact htag x (by simp_all))
        (fun x hx => hd x (by simp_all))
        (fun s' hs' hall' => by
          rw [hall₂]
          exact hspread s' (hs₂.trans hs') (hall'.trans hall₂))
      refine ⟨s₃, (hr₁.trans (ha₁.scan_visit (hd f (by simp)))).trans hr₃, by simpa using ha₃, ?_,
        ?_, hs₂.trans hs₃, hall₃.trans hall₂⟩
      · rw [hm₃, Flush.spread_mdb, hm₁]
      · rw [hp₃, Flush.spread_ptab, hp₁]
        by_cases hall : s.allSpaces
        · rw [if_pos (hall₂.mpr hall), if_pos hall, if_pos hall]
          rfl
        · rw [if_neg (fun h => hall (hall₂.mp h)), if_neg hall, if_neg hall]

/-- The last node to be removed. -/
lemma remove_one (ha : At pool s db r pre e post) (hall : s.allSpaces) (hfl : s.flushing)
    (hle : s.fPgsize ≤ t) (hk : ¬ s.mdb.Tagged (lastLink (.root r) pre))
    (he : ¬ s.mdb.Tagged (.node e.ptr)) (hpost : ∀ x ∈ post.head?, x.depth ≤ d.toNat)
    (hcl : ¬ (s.fPgsize < t ∧ s.root ≠ 0)) (hrc : s.rcnt = 0) :
    ∃ s', Reaches w t d (.visit s) (.done 0 s') ∧
      Links pool s'.mdb (db.setChain r (pre ++ post)) ∧ s'.ptab = s.ptab.clear e.pg := by
  cases post with
  | nil =>
      obtain ⟨s₁, hr₁, h0, hl₁, hp₁, hs₁, -⟩ :=
        ha.last_remove (w := w) (t := t) (d := d) hall hfl hk he
      rw [if_neg hcl] at hr₁
      refine ⟨s₁.spread t, hr₁.trans (.single (flushStep_scan_done ?_ ?_)), ?_, ?_⟩
      · intro _
        rw [hs₁.rcnt, hrc]
      · exact fun hne => absurd h0 hne
      · simpa using hl₁
      · simpa using hp₁
  | cons f post =>
      obtain ⟨s₁, hr₁, ha₁, hp₁, -, -⟩ :=
        ha.step_remove (w := w) (d := d) hall hfl hle hk he
      exact ⟨s₁.spread t, hr₁.trans (ha₁.scan_done (hpost f (by simp))),
        by simpa using ha₁.links, by simpa using hp₁⟩

/-- **A block is removed.**  From a node without dual nodes below, the flush removes
the node with all nodes derived from it. -/
theorem remove_block (ha : At pool s db r pre e (blk ++ post)) (hall : s.allSpaces)
    (hfl : s.flushing) (hle : s.fPgsize ≤ t) (hk : ¬ s.mdb.Tagged (lastLink (.root r) pre))
    (htag : ∀ x ∈ e :: blk, ¬ s.mdb.Tagged (.node x.ptr)) (hd : ∀ x ∈ blk, d.toNat < x.depth)
    (hpost : ∀ x ∈ post.head?, x.depth ≤ d.toNat) (hcl : ¬ (s.fPgsize < t ∧ s.root ≠ 0))
    (hrc : s.rcnt = 0) :
    ∃ s', Reaches w t d (.visit s) (.done 0 s') ∧
      Links pool s'.mdb (db.setChain r (pre ++ post)) ∧
      s'.ptab = s.ptab.clearAll ((e :: blk).map Ent.pg) := by
  rcases List.eq_nil_or_concat' blk with rfl | ⟨blk, g, rfl⟩
  · simpa [Ptab.clearAll] using
      ha.remove_one (w := w) hall hfl hle hk (htag e (by simp)) (by simpa using hpost) hcl
        hrc
  · rw [List.append_assoc, List.singleton_append] at ha
    obtain ⟨s₁, hr₁, ha₁, hp₁, hs₁, ht₁⟩ := ha.walk_remove (w := w) hall hfl hle hk
      (fun x hx => htag x (by simp_all; tauto)) hd
    obtain ⟨s₂, hr₂, hl₂, hp₂⟩ := ha₁.remove_one (w := w) (t := t) (d := d)
      (hs₁.allSpaces hall) (hs₁.flushing.mpr hfl) (by rw [hs₁.fPgsize]; exact hle)
      (fun h => hk (ht₁ _ h)) (fun h => htag g (by simp) (ht₁ _ h)) hpost
      (by rw [hs₁.fPgsize, hs₁.root]; exact hcl) (by rw [hs₁.rcnt]; exact hrc)
    refine ⟨s₂, hr₁.trans hr₂, by simpa using hl₂, ?_⟩
    rw [hp₂, hp₁]
    simp [Ptab.clearAll]

/-- The last node to be kept. -/
lemma keep_one (ha : At pool s db r pre e post) (hkeep : ¬ (s.allSpaces ∧ s.flushing))
    (hle : s.allSpaces → s.fPgsize ≤ t) (he : ¬ s.mdb.Tagged (.node e.ptr))
    (hpost : ∀ x ∈ post.head?, x.depth ≤ d.toNat) (hcl : ¬ (s.fPgsize < t ∧ s.root ≠ 0))
    (hrc : s.rcnt = 0) :
    ∃ s', Reaches w t d (.visit s) (.done 0 s') ∧ s'.mdb = s.mdb ∧
      s'.ptab = (if s.allSpaces then s.ptab.setReadonly e.pg else s.ptab) := by
  cases post with
  | nil =>
      obtain ⟨s₁, hr₁, h0, hm₁, hp₁, hs₁⟩ :=
        ha.last_keep (w := w) (t := t) (d := d) hkeep he
      rw [if_neg hcl] at hr₁
      refine ⟨s₁.spread t, hr₁.trans (.single (flushStep_scan_done ?_ ?_)), ?_, ?_⟩
      · intro _
        rw [hs₁.rcnt, hrc]
      · exact fun hne => absurd h0 hne
      · simpa using hm₁
      · simpa using hp₁
  | cons f post =>
      obtain ⟨s₁, hr₁, ha₁, hm₁, hp₁, -, -⟩ :=
        ha.step_keep (w := w) (d := d) hkeep hle he
      exact ⟨s₁.spread t, hr₁.trans (ha₁.scan_done (hpost f (by simp))),
        by simpa using hm₁, by simpa using hp₁⟩

/-- **A block is kept.**  The nodes of the block are made read-only in remap mode, and
nothing happens to them if the page to be flushed is smaller. -/
theorem keep_block (ha : At pool s db r pre e (blk ++ post))
    (hkeep : ¬ (s.allSpaces ∧ s.flushing)) (hle : s.allSpaces ↔ s.fPgsize ≤ t)
    (htag : ∀ x ∈ e :: blk, ¬ s.mdb.Tagged (.node x.ptr)) (hd : ∀ x ∈ blk, d.toNat < x.depth)
    (hpost : ∀ x ∈ post.head?, x.depth ≤ d.toNat) (hcl : ¬ (s.fPgsize < t ∧ s.root ≠ 0))
    (hrc : s.rcnt = 0) :
    ∃ s', Reaches w t d (.visit s) (.done 0 s') ∧ s'.mdb = s.mdb ∧
      s'.ptab = (if s.allSpaces then s.ptab.readonlyAll ((e :: blk).map Ent.pg) else s.ptab) := by
  rcases List.eq_nil_or_concat' blk with rfl | ⟨blk, g, rfl⟩
  · simpa [Ptab.readonlyAll] using
      ha.keep_one (w := w) hkeep hle.mp (htag e (by simp)) (by simpa using hpost) hcl hrc
  · rw [List.append_assoc, List.singleton_append] at ha
    obtain ⟨s₁, hr₁, ha₁, hm₁, hp₁, hs₁, hall₁⟩ := ha.walk_keep (w := w) hkeep hle
      (fun x hx => htag x (by simp_all; tauto)) hd
    obtain ⟨s₂, hr₂, hm₂, hp₂⟩ := ha₁.keep_one (w := w) (t := t) (d := d)
      (fun h => hkeep ⟨hall₁.mp h.1, hs₁.flushing.mp h.2⟩)
      (fun h => by rw [hs₁.fPgsize]; exact hle.mp (hall₁.mp h))
      (by rw [hm₁]; exact htag g (by simp)) hpost
      (by rw [hs₁.fPgsize, hs₁.root]; exact hcl) (by rw [hs₁.rcnt]; exact hrc)
    refine ⟨s₂, hr₁.trans hr₂, hm₂.trans hm₁, ?_⟩
    rw [hp₂, hp₁]
    by_cases hall : s.allSpaces
    · rw [if_pos (hall₁.mpr hall), if_pos hall, if_pos hall]
      simp [Ptab.readonlyAll]
    · rw [if_neg (fun h => hall (hall₁.mp h)), if_neg hall, if_neg hall]

end At

/-! ### Arrays of smaller pages -/

namespace Links

variable {h : Mdb} {a : Arr}

lemma top_not_mem (hs : Links pool h db) : db.top ∉ db.arrs := by
  intro hm
  have hn := (List.nodup_append.mp (hs.duals.nodup_iff.mpr (pool.nodup _))).1
  exact (List.nodup_cons.mp hn).1 (List.mem_map_of_mem hm)

/-- Nothing in an array of the smallest pages leads to a dual node. -/
lemma small_untagged (hs : Links pool h db) (ha : a ∈ db.arrs) (hr : r ∈ a.slots) :
    ∀ k ∈ db.chainLinks r, ¬ h.Tagged k := by
  intro k hk ht
  have ha' : a ∈ db.arrays := List.mem_cons_of_mem _ ha
  have hrs := mem_slots ha' hr
  obtain ⟨b, hb, rfl⟩ := hs.owner r hrs k hk ht
  obtain ⟨r', hr', hd⟩ := hs.link b hb
  -- the chain it leads from is one of the larger pages
  have hrr : r = r' := by
    rcases hd with ⟨heq, -⟩ | ⟨e, he, heq, -⟩
    · by_contra hne
      exact hs.chainLinks_disjoint hrs (mem_top_slots hr') hne hk
        (by rw [heq]; exact List.mem_cons_self)
    · by_contra hne
      refine hs.chainLinks_disjoint hrs (mem_top_slots hr') hne hk ?_
      rw [heq]
      exact List.mem_cons_of_mem _ (List.mem_map.mpr ⟨e, he, rfl⟩)
  rw [hrr] at hr
  have := hs.arr_unique ha' List.mem_cons_self hr hr'
  exact hs.top_not_mem (this ▸ ha)

lemma next_root (hs : Links pool h db) (hr : r ∈ db.slots) :
    (h.next (.root r)).2 = headPtr (db.chain r) :=
  hs.next_lastLink hr (List.nil_append (db.chain r)).symm

end Links

section scan

variable {a : Arr}

/-- An empty slot is passed over. -/
lemma scan_empty_slot (hs : Links pool s.mdb db) (ha : a ∈ db.arrs) (hr : s.root + 4 ∈ a.slots)
    (hc : db.chain (s.root + 4) = []) (h0 : s.fMap = 0) (hrc : 0 < s.rcnt) :
    Reaches w t d (.scan s)
      (.scan { s with root := s.root + 4, rcnt := s.rcnt - 1, fMap := 0 }) := by
  have hrs := Links.mem_slots (List.mem_cons_of_mem _ ha) hr
  have h2 := hs.next_root hrs
  have h1 := Mdb.next_fst_of_not_tagged (hs.small_untagged ha hr _ List.mem_cons_self)
  rw [hc] at h2
  simp only [Mdb.next] at h1 h2
  refine .single ?_
  rw [flushStep, if_pos ⟨h0, hrc⟩, flushScan]
  simp only [h1, h2, headPtr, ne_eq, not_true_eq_false, if_false]

/-- The first node of a slot is found. -/
lemma scan_full_slot (hs : Links pool s.mdb db) (ha : a ∈ db.arrs) (hr : s.root + 4 ∈ a.slots)
    (hc : db.chain (s.root + 4) = e :: post) (h0 : s.fMap = 0) (hrc : 0 < s.rcnt) :
    Reaches w t d (.scan s) (.scan { s with
      root := s.root + 4, rcnt := s.rcnt - 1, fMap := e.ptr, fPg := e.pg, pmap := 0,
      proot := s.root + 4 }) := by
  have hrs := Links.mem_slots (List.mem_cons_of_mem _ ha) hr
  have h2 := hs.next_root hrs
  have h1 := Mdb.next_fst_of_not_tagged (hs.small_untagged ha hr _ List.mem_cons_self)
  have hmem : e ∈ db.ents := Links.mem_ents hrs (hc ▸ List.mem_cons_self)
  have hent := hs.entAt hrs (hc.trans (List.nil_append _).symm)
  have hne : e.ptr ≠ 0 := hs.ptr_ne_zero hmem
  have hpg := getPgent_eq hent.back (hs.pg e hmem) (.inr ⟨_, rfl⟩)
  rw [hc] at h2
  simp only [Mdb.next, headPtr] at h1 h2
  simp only [lastLink, Link.pmap, Link.proot, ne_eq, not_true_eq_false, if_false] at hpg
  refine .single ?_
  rw [flushStep, if_pos ⟨h0, hrc⟩, flushScan]
  simp only [h1, h2, ne_eq, not_true_eq_false, if_false, hne, not_false_eq_true, if_true, hpg]

lemma slot_mem {i : Nat} (hi : i < 1024) : slot a.base i ∈ a.slots :=
  List.mem_map.mpr ⟨i, List.mem_range.mpr hi, rfl⟩

/-- Nothing is found in empty slots, and the flush is over. -/
lemma scan_empty (hs : Links pool s.mdb db) (ha : a ∈ db.arrs) {i n : Nat}
    (hroot : s.root + 4 = slot a.base i) (hn : s.rcnt = n) (hi : i + n ≤ 1024)
    (hc : ∀ j, i ≤ j → j < i + n → db.chain (slot a.base j) = []) (h0 : s.fMap = 0) :
    ∃ s', Reaches w t d (.scan s) (.done 0 s') ∧ s'.mdb = s.mdb ∧ s'.ptab = s.ptab := by
  induction n generalizing s i with
  | zero =>
      exact ⟨s.spread t, .single (flushStep_scan_done (fun _ => hn) fun hne => absurd h0 hne),
        by simp, by simp⟩
  | succ n ih =>
      have hstep := scan_empty_slot (w := w) (t := t) (d := d) hs ha
        (by rw [hroot]; exact slot_mem (by omega)) (by rw [hroot]; exact hc i le_rfl (by omega))
        h0 (by omega)
      obtain ⟨s', hr', hm', hp'⟩ := ih
        (s := { s with root := s.root + 4, rcnt := s.rcnt - 1, fMap := 0 }) hs (i := i + 1)
        (by rw [hroot, slot_succ]) (by simp [hn]) (by omega)
        (fun j hj hj' => hc j (by omega) (by omega)) rfl
      exact ⟨s', hstep.trans hr', hm', hp'⟩

/-- The walk over an array stops at the first slot that is not empty. -/
lemma scan_first (hs : Links pool s.mdb db) (ha : a ∈ db.arrs) {i k : Nat}
    (hroot : s.root + 4 = slot a.base i) (hn : k < s.rcnt) (hi : i + k < 1024)
    (hc : ∀ j, i ≤ j → j < i + k → db.chain (slot a.base j) = [])
    (hk : db.chain (slot a.base (i + k)) = e :: post) (h0 : s.fMap = 0) :
    Reaches w t d (.scan s) (.scan { s with
      root := slot a.base (i + k), rcnt := s.rcnt - k - 1, fMap := e.ptr, fPg := e.pg, pmap := 0,
      proot := slot a.base (i + k) }) := by
  induction k generalizing s i with
  | zero =>
      have hstep := scan_full_slot (w := w) (t := t) (d := d) hs ha
        (by rw [hroot]; exact slot_mem hi) (by rw [hroot]; exact hk) h0 (by omega)
      rw [hroot] at hstep
      exact hstep
  | succ k ih =>
      have hstep := scan_empty_slot (w := w) (t := t) (d := d) hs ha
        (by rw [hroot]; exact slot_mem (by omega)) (by rw [hroot]; exact hc i le_rfl (by omega))
        h0 (by omega)
      have hrec := ih (s := { s with root := s.root + 4, rcnt := s.rcnt - 1, fMap := 0 }) hs
        (i := i + 1) (by rw [hroot, slot_succ]) (by simp; omega) (by omega)
        (fun j hj hj' => hc j (by omega) (by omega)) (by rw [← hk]; congr 2; omega) rfl
      have hik : i + 1 + k = i + (k + 1) := by omega
      have hrk : s.rcnt - 1 - k - 1 = s.rcnt - (k + 1) - 1 := by omega
      simp only [hik, hrk] at hrec
      exact hstep.trans hrec

end scan

/-- A release of a dual node that never happens: the two bits of the mode are
different ones. -/
lemma mode_bits (m : Word) : (m &&& mdbFlushBit) &&& (m &&& mdbAllSpaces) = 0 := by
  have h : (m &&& mdbFlushBit) &&& (m &&& mdbAllSpaces)
      = m &&& (mdbFlushBit &&& mdbAllSpaces) := by
    rw [BitVec.and_comm m mdbAllSpaces, BitVec.and_assoc, ← BitVec.and_assoc mdbFlushBit,
      BitVec.and_comm (mdbFlushBit &&& mdbAllSpaces), ← BitVec.and_assoc, BitVec.and_self]
  rw [h]
  have h0 : mdbFlushBit &&& mdbAllSpaces = 0 := by decide
  rw [h0]
  exact BitVec.and_zero

namespace At

variable {a : Arr}

/-- A node with a dual node: the walk over the array below it begins. -/
lemma visit_enter (ha : At pool s db r pre e post) (hb : a ∈ db.arrs)
    (hl : a.link = .node e.ptr) (hn : ¬ (s.allSpaces ∧ t < s.fPgsize ∧ post ≠ [])) :
    flushVisit w t s = some ({ s.locate.treat (headPtr post) with fMap := 0 }.enter w t
      a.dual (headPtr post)) := by
  have hb' : a ∈ db.arrays := List.mem_cons_of_mem _ hb
  have hdual : (s.mdb.next (.node e.ptr)).1 = a.dual := hl ▸ ha.links.dual a hb'
  rw [ha.visit_eq hn, hdual, Flush.proceed, if_pos (ha.links.dual_ne_zero hb')]

/-- A node with a dual node is kept, and the array below it walked over. -/
lemma enter_keep (ha : At pool s db r pre e post) (hb : a ∈ db.arrs)
    (hl : a.link = .node e.ptr) (hn : ¬ (s.allSpaces ∧ t < s.fPgsize ∧ post ≠ []))
    (hkeep : ¬ (s.allSpaces ∧ s.flushing)) (hf : s.fPgsize - 1 < t) :
    ∃ s', Reaches w t d (.visit s) (.scan s') ∧ s'.mdb = s.mdb ∧ s'.fMap = 0 ∧
      s'.fPgsize = s.fPgsize - 1 ∧ s'.root + 4 = slot a.base 0 ∧
      s'.rcnt = tableSize (s.fPgsize - 1) ∧ s'.mode = s.mode ∧
      s'.rNmap (s.fPgsize - 1) = headPtr post ∧ s'.rRoot (s.fPgsize - 1) = s.root ∧
      s'.rRcnt (s.fPgsize - 1) = s.rcnt ∧ s'.rPrev (s.fPgsize - 1) = e.ptr ||| 1 ∧
      s'.ptab = (if s.allSpaces then s.ptab.setReadonly e.pg else s.ptab) := by
  have hv := ha.visit_enter (w := w) hb hl hn
  rw [ha.treat_keep hkeep] at hv
  have hmem : e ∈ db.ents := Links.mem_ents ha.mem (by simp [ha.chain])
  refine ⟨_, .single (flushStep_visit hv), ?_⟩
  rw [Flush.enter, if_pos hf]
  refine ⟨?_, rfl, rfl, ?_, rfl, rfl, Function.update_self .., Function.update_self ..,
    Function.update_self .., ?_, rfl⟩
  · exact if_neg fun h => h (mode_bits _)
  · have hbase := ha.links.base a (List.mem_cons_of_mem _ hb)
    simp only [hbase, slot]
    simp
  · exact (Function.update_self ..).trans (if_pos (ha.links.ptr_ne_zero hmem))

/-- The same where the page to be flushed is smaller: one slot is looked at. -/
lemma enter_slot (ha : At pool s db r pre e post) (hb : a ∈ db.arrs)
    (hl : a.link = .node e.ptr) (hn : ¬ (s.allSpaces ∧ t < s.fPgsize ∧ post ≠ []))
    (hkeep : ¬ (s.allSpaces ∧ s.flushing)) (hf : ¬ s.fPgsize - 1 < t) :
    ∃ s', Reaches w t d (.visit s) (.scan s') ∧ s'.mdb = s.mdb ∧ s'.fMap = 0 ∧
      s'.fPgsize = s.fPgsize - 1 ∧
      s'.root + 4 = slot a.base (tableIndex w (s.fPgsize - 1)) ∧ s'.rcnt = 1 ∧
      s'.mode = s.mode ∧
      s'.ptab = (if s.allSpaces then s.ptab.setReadonly e.pg else s.ptab) := by
  have hv := ha.visit_enter (w := w) hb hl hn
  rw [ha.treat_keep hkeep] at hv
  refine ⟨_, .single (flushStep_visit hv), ?_⟩
  rw [Flush.enter, if_neg hf]
  refine ⟨rfl, rfl, rfl, ?_, rfl, rfl, rfl⟩
  have hbase := ha.links.base a (List.mem_cons_of_mem _ hb)
  simp only [hbase, mdbIndexRoot]
  exact BitVec.sub_add_cancel ..

end At

end Hazelnut
