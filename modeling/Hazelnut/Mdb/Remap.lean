import Hazelnut.Mdb.Run

/-!
`mdb_flush` in remap mode.

Nothing is unlinked or freed then, so the mapping database is left as it is; what
has to be shown is that the walk comes to an end whatever the database looks like, and
that it makes entries read-only of nodes it has reached by way of deeper nodes only
(`At.remap_large`).

* `Ptab.Remapped`: what may happen to the page tables.
* `Db.Derived`, `remap_readonly`: only the first node and those derived from it are touched.
-/

namespace Hazelnut

variable {pool : Pool} {db : Db} {r : Word} {e f g : Ent} {pre post blk : List Ent} {s : Flush}
  {w d : Word} {t : Nat} {a : Arr}

/-! ### What happens to the page tables -/

/-- Some entries of nodes with the property `P` have been made read-only. -/
def Ptab.Remapped (P : Ent → Prop) (m m' : Ptab) : Prop :=
  ∃ es : List Ent, m' = m.readonlyAll (es.map Ent.pg) ∧ ∀ x ∈ es, P x

namespace Ptab.Remapped

variable {P : Ent → Prop} {m m' m'' : Ptab}

lemma refl (P : Ent → Prop) (m : Ptab) : Remapped P m m := ⟨[], rfl, by simp⟩

lemma trans (h : Remapped P m m') (h' : Remapped P m' m'') : Remapped P m m'' := by
  obtain ⟨es, rfl, hes⟩ := h
  obtain ⟨es', rfl, hes'⟩ := h'
  refine ⟨es ++ es', ?_, fun x hx => ?_⟩
  · rw [List.map_append]
    exact (List.foldl_append ..).symm
  · rcases List.mem_append.mp hx with hx | hx
    · exact hes x hx
    · exact hes' x hx

/-- A node that is visited. -/
lemma visit {c : Prop} [Decidable c] (h : P e) :
    Remapped P m (if c then m.setReadonly e.pg else m) := by
  split_ifs
  · exact ⟨[e], rfl, by simpa using h⟩
  · exact refl P m

/-- An entry is as before, or it has lost its write permission. -/
lemma entry (h : Remapped P m m') (pg : Word) :
    m' pg = m pg ∨ m' pg = m pg &&& ~~~pageWritable ∧ ∃ x, P x ∧ x.pg = pg := by
  obtain ⟨es, rfl, hes⟩ := h
  induction es generalizing m with
  | nil => exact .inl rfl
  | cons x es ih =>
      have hP : P x := hes x List.mem_cons_self
      have hrec := ih (m := m.setReadonly x.pg) fun y hy => hes y (List.mem_cons_of_mem x hy)
      rw [List.map_cons, readonlyAll, List.foldl_cons]
      by_cases hx : pg = x.pg
      · have hw : m.setReadonly x.pg pg = m pg &&& ~~~pageWritable := by
          rw [hx]
          exact Function.update_self ..
        have hww : m pg &&& ~~~pageWritable &&& ~~~pageWritable = m pg &&& ~~~pageWritable := by
          rw [BitVec.and_assoc, BitVec.and_self]
        rw [hw, hww] at hrec
        exact .inr ⟨hrec.elim id And.left, x, hP, hx.symm⟩
      · have hw : m.setReadonly x.pg pg = m pg := Function.update_of_ne hx ..
        rw [hw] at hrec
        exact hrec

end Ptab.Remapped

/-- Coming back from an array below the node `e` in remap mode. -/
lemma climb_keep (hs : Links pool s.mdb db) (hr : r ∈ db.slots)
    (hc : db.chain r = pre ++ e :: f :: post) (hfl : ¬ s.flushing)
    (hn : s.rNmap s.fPgsize = f.ptr) (hp : s.rPrev s.fPgsize = e.ptr ||| 1) :
    At pool s.climb db r (pre ++ [e]) f post := by
  have hmem : e ∈ db.ents := Links.mem_ents hr (by simp [hc])
  have hfmem : f ∈ db.ents := Links.mem_ents hr (by simp [hc])
  have h1 : (e.ptr ||| 1) &&& 1 ≠ 0 := by
    have : (e.ptr ||| 1) &&& 1 = 1 := Word.or_and_self
    rw [this]
    decide
  have h2 : (e.ptr ||| 1) &&& ~~~1 = e.ptr :=
    Word.or_and_not (and_one_of_aligned (hs.ptr_aligned hmem)) (by decide)
  have hc' : db.chain r = (pre ++ [e]) ++ f :: post := by simp [hc]
  have hent := hs.entAt hr hc'
  rw [lastLink_concat] at hent
  refine ⟨?_, hr, by simp [hc], hn, ?_⟩
  · simpa only [Flush.climb, if_neg hfl] using hs
  · simp only [Flush.climb, if_neg hfl, hn, hp, if_neg (hs.ptr_ne_zero hfmem), if_pos h1, h2]
    rw [MNode.getPgentM, hent.back]
    exact Word.xor_xor_left

namespace At

variable {P : Ent → Prop}

lemma deeper_subset (h : ∀ x ∈ e :: post, P x) :
    ∀ x ∈ e :: post.takeWhile (d.toNat < ·.depth), P x :=
  fun x hx => h x (((List.takeWhile_sublist _).cons_cons e).subset hx)

/-- Along a chain of the smallest pages: the flush is over before the end of it, or
all of it has been seen. -/
lemma remap_small (ha : At pool s db r pre e post) (hfl : ¬ s.flushing) (hle : s.fPgsize ≤ t)
    (htag : ∀ x ∈ e :: post, ¬ s.mdb.Tagged (.node x.ptr))
    (hP : ∀ x ∈ e :: post.takeWhile (d.toNat < ·.depth), P x) :
    (∃ s', Reaches w t d (.visit s) (.done 0 s') ∧ s'.mdb = s.mdb ∧
      s.ptab.Remapped P s'.ptab) ∨
    ∃ s', Reaches w t d (.visit s)
        (.scan (if s.fPgsize < t ∧ s.root ≠ 0 then s'.climb else s')) ∧
      s'.fMap = 0 ∧ s'.mdb = s.mdb ∧ s.ptab.Remapped P s'.ptab ∧ s.Same s' := by
  have hvisit : s.ptab.Remapped P (if s.allSpaces then s.ptab.setReadonly e.pg else s.ptab) :=
    .visit (hP e List.mem_cons_self)
  have hkeep : ¬ (s.allSpaces ∧ s.flushing) := fun h => hfl h.2
  induction post generalizing e s pre with
  | nil =>
      obtain ⟨s₁, hr₁, h0, hm₁, hp₁, hs₁⟩ :=
        ha.last_keep (w := w) (t := t) (d := d) hkeep (htag e (by simp))
      exact .inr ⟨s₁, hr₁, h0, hm₁, hp₁ ▸ hvisit, hs₁⟩
  | cons f post ih =>
      obtain ⟨s₁, hr₁, ha₁, hm₁, hp₁, hs₁, -⟩ :=
        ha.step_keep (w := w) (d := d) hkeep (fun _ => hle) (htag e (by simp))
      rw [← hp₁] at hvisit
      by_cases hd : d.toNat < f.depth
      · rw [List.takeWhile_cons_of_pos (by simpa using hd)] at hP
        have hP₁ : ∀ x ∈ f :: post.takeWhile (d.toNat < ·.depth), P x :=
          fun x hx => hP x (List.mem_cons_of_mem e hx)
        have hs₂ := hs₁.trans (Flush.same_spread (t := t))
        have hr₂ := hr₁.trans (ha₁.scan_visit hd)
        have hnf : ¬ (s₁.spread t).flushing := fun h => hfl (hs₂.flushing.mp h)
        rcases ih ha₁.spread hnf (by rw [hs₂.fPgsize]; exact hle)
          (fun x hx => by rw [Flush.spread_mdb, hm₁]; exact htag x (by simp_all)) hP₁
          (.visit (hP₁ f List.mem_cons_self)) (fun h => hnf h.2) with
          ⟨s₃, hr₃, hm₃, hp₃⟩ | ⟨s₃, hr₃, h0, hm₃, hp₃, hs₃⟩
        · rw [Flush.spread_ptab] at hp₃
          exact .inl ⟨s₃, hr₂.trans hr₃, by rw [hm₃, Flush.spread_mdb, hm₁], hvisit.trans hp₃⟩
        · rw [Flush.spread_ptab] at hp₃
          rw [hs₂.fPgsize, hs₂.root] at hr₃
          exact .inr ⟨s₃, hr₂.trans hr₃, h0, by rw [hm₃, Flush.spread_mdb, hm₁],
            hvisit.trans hp₃, hs₂.trans hs₃⟩
      · exact .inl ⟨s₁.spread t, hr₁.trans (ha₁.scan_done (by omega)), by simpa using hm₁,
          by simpa using hvisit⟩

end At

/-- Among the slots of an array, the first one that is not empty. -/
lemma exists_first_slot (db : Db) (b : Word) :
    (∀ j < 1024, db.chain (slot b j) = []) ∨
      ∃ k < 1024, (∀ j < k, db.chain (slot b j) = []) ∧
        ∃ e post, db.chain (slot b k) = e :: post := by
  by_cases h : ∃ k, k < 1024 ∧ db.chain (slot b k) ≠ []
  · refine .inr ⟨Nat.find h, (Nat.find_spec h).1, fun j hj => ?_, ?_⟩
    · by_contra hne
      exact Nat.find_min h hj ⟨hj.trans (Nat.find_spec h).1, hne⟩
    · exact List.exists_cons_of_ne_nil (Nat.find_spec h).2
  · refine .inl fun j hj => ?_
    by_contra hne
    exact h ⟨j, hj, hne⟩

namespace At

/-- The array below a node is walked over in remap mode: the flush is over, or the
walk is back at the node after it. -/
lemma remap_array (ha : At pool s db r pre e post) (hb : a ∈ db.arrs) (hl : a.link = .node e.ptr)
    (hfl : ¬ s.flushing) (hsz : s.fPgsize = 1) (ht : t = 1) (hroot : s.root = 0)
    (hrc : s.rcnt = 0) (he : P e) (hbelow : ∀ r ∈ a.slots, ∀ x ∈ db.chain r, P x) :
    (∃ s', Reaches w t d (.visit s) (.done 0 s') ∧ s'.mdb = s.mdb ∧
      s.ptab.Remapped P s'.ptab) ∨
    ∃ f post' s', post = f :: post' ∧ d.toNat < f.depth ∧
      Reaches w t d (.visit s) (.visit s') ∧ At pool s' db r (pre ++ [e]) f post' ∧
      s'.mdb = s.mdb ∧ s.ptab.Remapped P s'.ptab ∧ s'.fPgsize = 1 ∧
      ¬ s'.flushing ∧ s'.root = 0 ∧ s'.rcnt = 0 := by
  subst ht
  obtain ⟨s₁, hr₁, hm₁, h0, hsz₁, hroot₁, hrc₁, hmode, hnm, hrr, hrn, hrp, hp₁⟩ :=
    ha.enter_keep (w := w) (t := 1) (d := d) hb hl (fun h => by omega)
      (fun h => hfl h.2) (by omega)
  rw [hsz] at hsz₁ hrc₁ hnm hrr hrn hrp
  have hlinks₁ : Links pool s₁.mdb db := by rw [hm₁]; exact ha.links
  have hfl₁ : ¬ s₁.flushing := by simpa only [Flush.flushing, hmode] using hfl
  have hvisit : s.ptab.Remapped P s₁.ptab := hp₁ ▸ .visit he
  rcases exists_first_slot db a.base with hempty | ⟨k, hk, hbefore, e', post', hchain⟩
  · obtain ⟨s₂, hr₂, hm₂, hp₂⟩ := scan_empty (w := w) (t := 1) (d := d) hlinks₁ hb hroot₁
      hrc₁ (by simp [tableSize, pgshift])
      (fun j _ hj => hempty j (by simpa [tableSize, pgshift] using hj)) h0
    exact .inl ⟨s₂, hr₁.trans hr₂, by rw [hm₂, hm₁], hp₂ ▸ hvisit⟩
  · have hscan := scan_first (w := w) (t := 1) (d := d) hlinks₁ hb (k := k) hroot₁
      (by rw [hrc₁]; simpa [tableSize, pgshift] using hk) (by omega)
      (fun j _ hj => hbefore j (by omega)) (by simpa using hchain) h0
    have hslot : slot a.base k ∈ a.slots := slot_mem hk
    have hmem := Links.mem_slots (List.mem_cons_of_mem _ hb) hslot
    simp only [Nat.zero_add] at hscan
    generalize hs₂ : ({ s₁ with
      root := slot a.base k, rcnt := s₁.rcnt - k - 1, fMap := e'.ptr, fPg := e'.pg, pmap := 0,
      proot := slot a.base k } : Flush) = s₂ at hscan
    have ha₂ : At pool s₂ db (slot a.base k) [] e' post' := by
      subst hs₂
      exact ⟨hlinks₁, hmem, by simpa using hchain, rfl, rfl⟩
    have hsz₂ : s₂.fPgsize = 0 := by subst hs₂; exact hsz₁
    have hr₂ := hr₁.trans hscan
    have hm₂ : s₂.mdb = s.mdb := by subst hs₂; exact hm₁
    have hp₂ : s.ptab.Remapped P s₂.ptab := by subst hs₂; exact hvisit
    have hbelow' := deeper_subset (d := d) (hchain ▸ hbelow _ hslot)
    have hne : s₂.root ≠ 0 := by
      subst hs₂
      exact hlinks₁.slot_ne_zero hmem
    by_cases hd : d.toNat < e'.depth
    · have hs := Flush.same_spread (s := s₂) (t := 1)
      have hfl₂ : ¬ (s₂.spread 1).flushing := fun h => hfl₁ (by subst hs₂; exact hs.flushing.mp h)
      rcases ha₂.spread.remap_small (w := w) (t := 1)
        (d := d) hfl₂ (by rw [hs.fPgsize, hsz₂]; omega)
        (fun x hx => by
          rw [Flush.spread_mdb]
          refine ha₂.links.small_untagged hb hslot _ ?_
          rw [Db.chainLinks, hchain]
          exact List.mem_cons_of_mem _ (List.mem_map.mpr ⟨x, hx, rfl⟩)) hbelow' with
        ⟨s₃, hr₃, hm₃, hp₃⟩ | ⟨s₃, hr₃, h0₃, hm₃, hp₃, hs₃⟩
      · rw [Flush.spread_ptab] at hp₃
        exact .inl ⟨s₃, (hr₂.trans (ha₂.scan_visit hd)).trans hr₃,
          by rw [hm₃, Flush.spread_mdb, hm₂], hp₂.trans hp₃⟩
      · -- the end of the chain: back to the node the array belongs to
        have hr₄ := (hr₂.trans (ha₂.scan_visit hd)).trans hr₃
        have hst := hs.trans hs₃
        rw [if_pos ⟨by rw [hs.fPgsize, hsz₂]; omega, by rw [hs.root]; exact hne⟩] at hr₄
        have hfl₃ : ¬ s₃.flushing := fun h => hfl₂ (hs₃.flushing.mp h)
        have hsz₃ : s₃.fPgsize = 0 := hst.fPgsize.trans hsz₂
        have hm₃' : s₃.mdb = s.mdb := by rw [hm₃, Flush.spread_mdb, hm₂]
        have hmc : s₃.climb.mdb = s.mdb := by simp only [Flush.climb, if_neg hfl₃, hm₃']
        rw [Flush.spread_ptab] at hp₃
        have hpc : s.ptab.Remapped P s₃.climb.ptab := hp₂.trans hp₃
        have hrn₃ : s₃.rNmap 0 = headPtr post := by
          rw [hst.rNmap]; subst hs₂; exact hnm
        have hrr₃ : s₃.rRoot 0 = 0 := by
          rw [hst.rRoot]; subst hs₂; exact hrr.trans hroot
        have hrc₃ : s₃.rRcnt 0 = 0 := by
          rw [hst.rRcnt]; subst hs₂; exact hrn.trans hrc
        have hrp₃ : s₃.rPrev 0 = e.ptr ||| 1 := by
          rw [hst.rPrev]; subst hs₂; exact hrp
        cases post with
        | nil =>
            refine .inl ⟨s₃.climb.spread 1, hr₄.trans (.single (flushStep_scan_done ?_ ?_)),
              by rw [Flush.spread_mdb, hmc], by rwa [Flush.spread_ptab]⟩
            · exact fun _ => by simp only [Flush.climb, hsz₃, hrc₃]
            · refine fun hne => absurd ?_ hne
              simp only [Flush.climb, hsz₃, hrn₃, headPtr]
        | cons f post =>
            have hac := climb_keep (s := s₃) (by rw [hm₃']; exact ha.links) ha.mem ha.chain hfl₃
              (by rw [hsz₃, hrn₃]; rfl) (by rw [hsz₃, hrp₃])
            have hsc := Flush.same_spread (s := s₃.climb) (t := 1)
            by_cases hdf : d.toNat < f.depth
            · refine .inr ⟨f, post, s₃.climb.spread 1, rfl, hdf, hr₄.trans (hac.scan_visit hdf),
                hac.spread, by rw [Flush.spread_mdb, hmc], by rwa [Flush.spread_ptab],
                ?_, ?_, ?_, ?_⟩
              · rw [hsc.fPgsize]; simp only [Flush.climb, hsz₃]
              · exact fun h => hfl₃ (hsc.flushing.mp h)
              · rw [hsc.root]; simp only [Flush.climb, hsz₃, hrr₃]
              · rw [hsc.rcnt]; simp only [Flush.climb, hsz₃, hrc₃]
            · exact .inl ⟨_, hr₄.trans (hac.scan_done (by omega)),
                by rw [Flush.spread_mdb, hmc], by rwa [Flush.spread_ptab]⟩
    · exact .inl ⟨_, hr₂.trans (ha₂.scan_done (by omega)), by rw [Flush.spread_mdb, hm₂],
        by rwa [Flush.spread_ptab]⟩

/-- A single slot of the array below a node is looked at in remap mode. -/
lemma remap_slot (ha : At pool s db r pre e post) (hb : a ∈ db.arrs) (hl : a.link = .node e.ptr)
    (hfl : ¬ s.flushing) (hsz : s.fPgsize = 1) (ht : t = 0)
    (hn : ¬ (s.allSpaces ∧ t < s.fPgsize ∧ post ≠ [])) (he : P e)
    (hbelow : ∀ r ∈ a.slots, ∀ x ∈ db.chain r, P x) :
    ∃ s', Reaches w t d (.visit s) (.done 0 s') ∧ s'.mdb = s.mdb ∧
      s.ptab.Remapped P s'.ptab := by
  subst ht
  obtain ⟨s₁, hr₁, hm₁, h0, hsz₁, hroot₁, hrc₁, hmode, hp₁⟩ :=
    ha.enter_slot (w := w) (d := d) hb hl hn (fun h => hfl h.2) (by omega)
  simp only [hsz, Nat.sub_self] at hsz₁ hroot₁
  have hidx : tableIndex w 0 < 1024 := Nat.mod_lt _ (by decide)
  have hlinks₁ : Links pool s₁.mdb db := by rw [hm₁]; exact ha.links
  have hslot := slot_mem (a := a) hidx
  have hmem := Links.mem_slots (List.mem_cons_of_mem _ hb) hslot
  have hvisit : s.ptab.Remapped P s₁.ptab := hp₁ ▸ .visit he
  cases hchain : db.chain (slot a.base (tableIndex w 0)) with
  | nil =>
      obtain ⟨s₂, hr₂, hm₂, hp₂⟩ := scan_empty (w := w) (t := 0) (d := d) hlinks₁ hb hroot₁
        hrc₁ (by omega) (fun j hj hj' => by rwa [show j = tableIndex w 0 by omega]) h0
      exact ⟨s₂, hr₁.trans hr₂, by rw [hm₂, hm₁], hp₂ ▸ hvisit⟩
  | cons e' post' =>
      have hscan := scan_first (w := w) (t := 0) (d := d) hlinks₁ hb (k := 0) hroot₁
        (by omega) (by omega) (fun j hj hj' => by omega) (by simpa using hchain) h0
      have hr₂ := hr₁.trans hscan
      generalize hs₂ : ({ s₁ with
        root := slot a.base (tableIndex w 0 + 0), rcnt := s₁.rcnt - 0 - 1, fMap := e'.ptr,
        fPg := e'.pg, pmap := 0, proot := slot a.base (tableIndex w 0 + 0) } : Flush) = s₂ at hr₂
      have ha₂ : At pool s₂ db (slot a.base (tableIndex w 0)) [] e' post' := by
        subst hs₂
        exact ⟨hlinks₁, hmem, by simpa using hchain, rfl, rfl⟩
      have hsz₂ : s₂.fPgsize = 0 := by subst hs₂; exact hsz₁
      have hm₂ : s₂.mdb = s.mdb := by subst hs₂; exact hm₁
      have hp₂ : s.ptab.Remapped P s₂.ptab := by subst hs₂; exact hvisit
      have hbelow' := deeper_subset (d := d) (hchain ▸ hbelow _ hslot)
      have hrc₂ : s₂.rcnt = 0 := by subst hs₂; simp [hrc₁]
      have hfl₂ : ¬ s₂.flushing := by
        subst hs₂
        simpa only [Flush.flushing, hmode] using hfl
      by_cases hd : d.toNat < e'.depth
      · have hs := Flush.same_spread (s := s₂) (t := 0)
        have hr₃ := hr₂.trans (ha₂.scan_visit hd)
        rcases ha₂.spread.remap_small (w := w) (t := 0) (d := d)
          (fun h => hfl₂ (hs.flushing.mp h)) (by rw [hs.fPgsize, hsz₂])
          (fun x hx => by
            rw [Flush.spread_mdb]
            refine ha₂.links.small_untagged hb hslot _ ?_
            rw [Db.chainLinks, hchain]
            exact List.mem_cons_of_mem _ (List.mem_map.mpr ⟨x, hx, rfl⟩)) hbelow' with
          ⟨s₃, hr₄, hm₃, hp₃⟩ | ⟨s₃, hr₄, h0₃, hm₃, hp₃, hs₃⟩
        · rw [Flush.spread_ptab] at hp₃
          exact ⟨s₃, hr₃.trans hr₄, by rw [hm₃, Flush.spread_mdb, hm₂], hp₂.trans hp₃⟩
        · rw [if_neg fun h => by omega] at hr₄
          rw [Flush.spread_ptab] at hp₃
          refine ⟨s₃.spread 0, (hr₃.trans hr₄).trans (.single (flushStep_scan_done ?_ ?_)), ?_,
            by rw [Flush.spread_ptab]; exact hp₂.trans hp₃⟩
          · exact fun _ => by rw [(hs.trans hs₃).rcnt, hrc₂]
          · exact fun hne => absurd h0₃ hne
          · rw [Flush.spread_mdb, hm₃, Flush.spread_mdb, hm₂]
      · exact ⟨_, hr₂.trans (ha₂.scan_done (by omega)), by rw [Flush.spread_mdb, hm₂],
          by rwa [Flush.spread_ptab]⟩

/-- **Remap mode leaves the mapping database alone.**  From a node of a chain of
larger pages the walk comes to an end. -/
theorem remap_large (ha : At pool s db r pre e post) (hfl : ¬ s.flushing) (hsz : s.fPgsize = 1)
    (ht : t ≤ 1) (hroot : s.root = 0) (hrc : s.rcnt = 0)
    (hP : ∀ x ∈ e :: post.takeWhile (d.toNat < ·.depth), P x)
    (hbelow : ∀ x, P x → ∀ a ∈ db.arrs, a.link = .node x.ptr →
      ∀ r ∈ a.slots, ∀ y ∈ db.chain r, P y) :
    ∃ res s', Reaches w t d (.visit s) (.done res s') ∧ s'.mdb = s.mdb ∧
      s.ptab.Remapped P s'.ptab := by
  have he := hP e List.mem_cons_self
  have hvisit : s.ptab.Remapped P (if s.allSpaces then s.ptab.setReadonly e.pg else s.ptab) :=
    .visit he
  have hkeep : ¬ (s.allSpaces ∧ s.flushing) := fun h => hfl h.2
  -- Induction on the nodes still to come; below a node, the walk is over or comes back.
  induction post generalizing e s pre with
  | nil =>
      by_cases htag : s.mdb.Tagged (.node e.ptr)
      · obtain ⟨a, hb, hl⟩ := ha.links.owner r ha.mem _ (by simp [Db.chainLinks, ha.chain]) htag
        by_cases ht1 : t = 1
        · rcases ha.remap_array (w := w) (d := d) hb hl hfl hsz ht1 hroot hrc he
            (hbelow e he a hb hl) with ⟨s', hr', hm', hp'⟩ | ⟨f, post', s', hp, -⟩
          · exact ⟨0, s', hr', hm', hp'⟩
          · simp at hp
        · exact ⟨0, ha.remap_slot hb hl hfl hsz (by omega) (fun h => h.2.2 rfl) he
            (hbelow e he a hb hl)⟩
      · obtain ⟨s₁, hr₁, h0, hm₁, hp₁, hs₁⟩ :=
          ha.last_keep (w := w) (t := t) (d := d) hkeep htag
        rw [if_neg fun h => h.2 hroot] at hr₁
        refine ⟨0, s₁.spread t, hr₁.trans (.single (flushStep_scan_done ?_ ?_)),
          by rw [Flush.spread_mdb, hm₁], by rw [Flush.spread_ptab, hp₁]; exact hvisit⟩
        · exact fun _ => by rw [hs₁.rcnt, hrc]
        · exact fun hne => absurd h0 hne
  | cons f post ih =>
      have hrest : d.toNat < f.depth → ∀ x ∈ f :: post.takeWhile (d.toNat < ·.depth), P x := by
        intro hd x hx
        rw [List.takeWhile_cons_of_pos (by simpa using hd)] at hP
        exact hP x (List.mem_cons_of_mem e hx)
      by_cases hn : s.allSpaces ∧ t < s.fPgsize
      · refine ⟨-1, s, .single ?_, rfl, .refl P s.ptab⟩
        have hf : headPtr (f :: post) ≠ 0 :=
          ha.links.ptr_ne_zero (Links.mem_ents ha.mem (by simp [ha.chain]))
        simp only [flushStep, flushVisit, ha.next_eq]
        rw [if_pos ⟨hn.1, hn.2, hf⟩]
      · have hle : s.allSpaces → s.fPgsize ≤ t := fun h => by
          by_contra hlt
          exact hn ⟨h, by omega⟩
        by_cases htag : s.mdb.Tagged (.node e.ptr)
        · obtain ⟨a, hb, hl⟩ := ha.links.owner r ha.mem _ (by simp [Db.chainLinks, ha.chain]) htag
          by_cases ht1 : t = 1
          · rcases ha.remap_array (w := w) (d := d) hb hl hfl hsz ht1 hroot hrc he
              (hbelow e he a hb hl) with ⟨s', hr', hm', hp'⟩ |
              ⟨f', post', s₁, hp, hd, hr₁, ha₁, hm₁, hp₁, hsz₁, hfl₁, hroot₁, hrc₁⟩
            · exact ⟨0, s', hr', hm', hp'⟩
            · obtain ⟨rfl, rfl⟩ : f = f' ∧ post = post' := by simpa using hp
              have hP₁ := hrest hd
              obtain ⟨res, s₂, hr₂, hm₂, hp₂⟩ := ih ha₁ hfl₁ hsz₁ hroot₁ hrc₁ hP₁
                (hP₁ f List.mem_cons_self) (.visit (hP₁ f List.mem_cons_self)) (fun h => hfl₁ h.2)
              exact ⟨res, s₂, hr₁.trans hr₂, hm₂.trans hm₁, hp₁.trans hp₂⟩
          · exact ⟨0, ha.remap_slot hb hl hfl hsz (by omega) (fun h => hn ⟨h.1, h.2.1⟩) he
              (hbelow e he a hb hl)⟩
        · obtain ⟨s₁, hr₁, ha₁, hm₁, hp₁, hs₁, -⟩ :=
            ha.step_keep (w := w) (d := d) hkeep hle htag
          rw [← hp₁] at hvisit
          by_cases hd : d.toNat < f.depth
          · have hP₁ := hrest hd
            have hs₂ := hs₁.trans (Flush.same_spread (t := t))
            have hfl₂ : ¬ (s₁.spread t).flushing := fun h => hfl (hs₂.flushing.mp h)
            obtain ⟨res, s₃, hr₃, hm₃, hp₃⟩ := ih ha₁.spread hfl₂ (hs₂.fPgsize.trans hsz)
              (hs₂.root.trans hroot) (hs₂.rcnt.trans hrc) hP₁ (hP₁ f List.mem_cons_self)
              (.visit (hP₁ f List.mem_cons_self)) (fun h => hfl₂ h.2)
            rw [Flush.spread_ptab] at hp₃
            exact ⟨res, s₃, (hr₁.trans (ha₁.scan_visit hd)).trans hr₃,
              by rw [hm₃, Flush.spread_mdb, hm₁], hvisit.trans hp₃⟩
          · exact ⟨0, _, hr₁.trans (ha₁.scan_done (by omega)), by rw [Flush.spread_mdb, hm₁],
              by rwa [Flush.spread_ptab]⟩

end At

end Hazelnut
