import Hazelnut.Mdb.Safe

/-!
What a flush can no longer repair.

* `Decays`: in the course of a flush links to dual nodes only disappear, dual nodes
  are neither changed nor freed, and free buffers stay free.
* `Tame`: an invariant of all runs of `mdb_flush`, whatever the database looks like,
  under which every step decays the memory (`Tame.step`).
* `Decays.not_links_of_cut`, `Decays.not_links_of_array`: a dual node that has lost its
  link, or whose array has been freed, makes the database malformed for good.
-/

namespace Hazelnut

variable {pool : Pool} {db : Db} {h h' h'' : Mdb} {a : Arr} {l : Link} {w d : Word} {t : Nat}

/-- What happens to the memory in the course of a flush. -/
structure Decays (pool : Pool) (db : Db) (h h' : Mdb) : Prop where
  tagged : ∀ l, Live pool db l → h'.Tagged l → h.Tagged l ∧ (h'.next l).1 = (h.next l).1
  dual : h'.dual = h.dual
  duals : h'.free .dual = h.free .dual
  free : ∀ b, h.free b ⊆ h'.free b

namespace Decays

lemma refl : Decays pool db h h := ⟨fun _ _ ht => ⟨ht, rfl⟩, rfl, rfl, fun _ => fun _ hx => hx⟩

lemma trans (h₁ : Decays pool db h h') (h₂ : Decays pool db h' h'') : Decays pool db h h'' where
  tagged := fun l hl ht => by
    obtain ⟨ht', hn'⟩ := h₂.tagged l hl ht
    obtain ⟨ht'', hn''⟩ := h₁.tagged l hl ht'
    exact ⟨ht'', hn'.trans hn''⟩
  dual := h₂.dual.trans h₁.dual
  duals := h₂.duals.trans h₁.duals
  free := fun b => List.Subset.trans (h₁.free b) (h₂.free b)

/-- A dual node that was in use is found in every database the memory still holds. -/
lemma exists_arr (hd : Decays pool db h h') (hs : Links pool h db) {db' : Db}
    (hs' : Links pool h' db') (ha : a ∈ db.arrs) :
    ∃ a' ∈ db'.arrays, a'.dual = a.dual ∧ a'.base = a.base := by
  have ha' : a ∈ db.arrays := List.mem_cons_of_mem _ ha
  have hnf : a.dual ∉ h'.free .dual := by
    rw [hd.duals]
    intro hf
    exact (List.nodup_append.mp (hs.duals.nodup_iff.mpr (pool.nodup _))).2.2 _
      (List.mem_map_of_mem ha') _ hf rfl
  have hmem := hs'.duals.symm.subset (hs.dual_mem ha')
  rcases List.mem_append.mp hmem with hm | hm
  · obtain ⟨a', hb, heq⟩ := List.mem_map.mp hm
    refine ⟨a', hb, heq, ?_⟩
    rw [← hs'.base a' hb, heq, hd.dual, hs.base a ha']
  · exact absurd hm hnf

/-- A root array in use that has been freed, or a free buffer that is none. -/
lemma not_links_of_array (hd : Decays pool db h h') (hs : Links pool h db) (ha : a ∈ db.arrs)
    {x : Word} (hx : x ∈ h'.free .roots) (hxa : x = a.base ∨ x ∉ pool.bufs .roots) (db' : Db) :
    ¬ Links pool h' db' := by
  intro hs'
  rcases hxa with rfl | hnp
  · obtain ⟨a', hb, -, heq⟩ := hd.exists_arr hs hs' ha
    exact (List.nodup_append.mp (hs'.roots.nodup_iff.mpr (pool.nodup _))).2.2 _
      (List.mem_map_of_mem hb) _ hx heq
  · exact hnp (hs'.roots.subset (List.mem_append_right _ hx))

/-- The array of the larger pages stays where it is. -/
lemma top_eq (hd : Decays pool db h h') (hs : Links pool h db) {db' : Db}
    (hs' : Links pool h' db') : db'.top.dual = db.top.dual ∧ db'.top.base = db.top.base := by
  have ht : h'.Tagged (.node pool.sigma0) :=
    hs'.top_link ▸ hs'.tagged_of_arr List.mem_cons_self
  have hdual : db'.top.dual = db.top.dual := by
    rw [← hs'.dual _ List.mem_cons_self, ← hs.dual _ List.mem_cons_self, hs'.top_link, hs.top_link]
    exact (hd.tagged _ (.inl rfl) ht).2
  refine ⟨hdual, ?_⟩
  rw [← hs'.base _ List.mem_cons_self, ← hs.base _ List.mem_cons_self, hdual, hd.dual]

/-- A link of a database the memory still holds was a link before. -/
lemma live_of_live (hd : Decays pool db h h') (hs : Links pool h db) {db' : Db}
    (hs' : Links pool h' db') (ha : a ∈ db'.arrs) : Live pool db a.link := by
  obtain ⟨r, hr, hcase⟩ := hs'.link a ha
  rcases hcase with ⟨heq, -⟩ | ⟨e, he, heq, -⟩
  · have hslots : db'.top.slots = db.top.slots := by
      rw [Arr.slots, Arr.slots, (hd.top_eq hs hs').2]
    rw [hslots] at hr
    exact .inr ⟨r, Links.mem_top_slots hr, by rw [heq]; exact List.mem_cons_self⟩
  · have hmem : e ∈ db'.ents := Links.mem_ents (Links.mem_top_slots hr) he
    rcases List.mem_append.mp (hs.mnodes.symm.subset (hs'.ptr_mem hmem)) with hm | hm
    · obtain ⟨e', he', hptr⟩ := List.mem_map.mp hm
      obtain ⟨r', hr', he'⟩ := List.mem_flatMap.mp he'
      exact .inr ⟨r', hr', by rw [heq, ← hptr]; exact Db.mem_chainLinks he'⟩
    · exact absurd (hd.free _ hm) (hs'.ptr_not_free hmem)

/-- **A leak.**  A dual node whose link has gone, or whose mapping node has been
freed, is lost. -/
lemma not_links_of_cut (hd : Decays pool db h h') (hs : Links pool h db) (ha : a ∈ db.arrs)
    (hcut : ¬ h'.Tagged a.link ∨ ∃ p ∈ h'.free .mnode, a.link = .node p) (db' : Db) :
    ¬ Links pool h' db' := by
  intro hs'
  obtain ⟨a', hb, hdual, -⟩ := hd.exists_arr hs hs' ha
  have hb' : a' ∈ db'.arrs := by
    rcases List.mem_cons.mp hb with rfl | hb
    · refine absurd (hs.dual_inj List.mem_cons_self (List.mem_cons_of_mem _ ha) ?_) ?_
      · rw [← (hd.top_eq hs hs').1, hdual]
      · exact fun heq => hs.top_not_mem (heq ▸ ha)
    · exact hb
  have ht' := hs'.tagged_of_arr hb
  have hlive := hd.live_of_live hs hs' hb'
  obtain ⟨ht, hn⟩ := hd.tagged _ hlive ht'
  -- the link that leads to the dual node now is the one that led to it before
  have hlink : a'.link = a.link := by
    rcases hlive with heq | ⟨r, hr, hl⟩
    · rw [heq] at hn
      have h1 : (h.next (.node pool.sigma0)).1 = db.top.dual :=
        hs.top_link ▸ hs.dual _ List.mem_cons_self
      have h2 : (h'.next (.node pool.sigma0)).1 = a'.dual := heq ▸ hs'.dual a' hb
      have h3 : db.top.dual = a.dual := by rw [← hdual, ← h2, hn, h1]
      exact absurd (hs.dual_inj List.mem_cons_self (List.mem_cons_of_mem _ ha) h3)
        (fun heq => hs.top_not_mem (heq ▸ ha))
    · obtain ⟨a'', hb'', heq⟩ := hs.owner r hr _ hl ht
      have h1 : a''.dual = a.dual := by
        rw [← hs.dual a'' (List.mem_cons_of_mem _ hb''), heq, ← hn, hs'.dual a' hb, hdual]
      rw [← heq, hs.dual_inj (List.mem_cons_of_mem _ hb'') (List.mem_cons_of_mem _ ha) h1]
  rcases hcut with hun | ⟨p, hp, heq⟩
  · exact hun (hlink ▸ ht')
  · obtain ⟨r, hr, hcase⟩ := hs'.link a' hb'
    rcases hcase with ⟨heq', -⟩ | ⟨e, he, heq', -⟩
    · rw [hlink, heq] at heq'
      simp at heq'
    · have hpe : e.ptr = p := by
        rw [hlink, heq] at heq'
        exact (Link.node.inj heq').symm
      exact hs'.ptr_not_free (Links.mem_ents (Links.mem_top_slots hr) he) (hpe ▸ hp)

end Decays

/-! ### An invariant of all runs -/

/-- The address of a mapping node of the database, or null. -/
def NodeOrNull (db : Db) (p : Word) : Prop := p = 0 ∨ p ∈ db.ents.map Ent.ptr

/-- `n` root nodes of an array of smaller pages come after `root`. -/
def InArray (db : Db) (root : Word) (n : Nat) : Prop :=
  0 < n → ∃ a ∈ db.arrs, ∃ i, root + 4 = slot a.base i ∧ i + n ≤ 1024

/-- The variables of `mdb_flush` lead to nodes of the database `db` it was started
with. -/
structure Tame (pool : Pool) (db : Db) (h₀ : Mdb) (s : Flush) : Prop where
  decays : Decays pool db h₀ s.mdb
  next : ∀ l, Live pool db l → NodeOrNull db (s.mdb.next l).2
  root : InArray db s.root s.rcnt
  saved : ∀ f, InArray db (s.rRoot f) (s.rRcnt f)
  rNmap : ∀ f, NodeOrNull db (s.rNmap f)
  fMap : NodeOrNull db s.fMap

/-- The same of a position in the code: a node is visited, or the walk over an array
goes on. -/
def TameAt (pool : Pool) (db : Db) (h₀ : Mdb) : FlushAt → Prop
  | .visit s => Tame pool db h₀ s ∧ s.fMap ≠ 0
  | .scan s => Tame pool db h₀ s
  | .done _ s => Tame pool db h₀ s

/-- The memory at a position. -/
def FlushAt.mdb : FlushAt → Mdb
  | .visit s => s.mdb
  | .scan s => s.mdb
  | .done _ s => s.mdb

lemma tableSize_le (f : Nat) : tableSize f ≤ 1024 := by
  rcases f with _ | _ | f
  · decide
  · decide
  · simp [tableSize, pgshift]

lemma NodeOrNull.aligned {h₀ : Mdb} (hs : Links pool h₀ db) {p : Word} (hp : NodeOrNull db p) :
    p &&& 3 = 0 := by
  rcases hp with rfl | hp
  · rfl
  · obtain ⟨e, he, rfl⟩ := List.mem_map.mp hp
    exact hs.ptr_aligned he

lemma NodeOrNull.live {p : Word} (hp : NodeOrNull db p) (h0 : p ≠ 0) :
    ∃ r ∈ db.slots, .node p ∈ db.chainLinks r := by
  rcases hp with rfl | hp
  · exact absurd rfl h0
  · obtain ⟨e, he, rfl⟩ := List.mem_map.mp hp
    obtain ⟨r, hr, he⟩ := List.mem_flatMap.mp he
    exact ⟨r, hr, Db.mem_chainLinks he⟩

section Tame

variable {h₀ : Mdb} {s : Flush}

/-- Redirecting a link to a mapping node, and the back link of that node. -/
lemma decays_setNext (hs : Links pool h₀ db) {p : Word} (hp : NodeOrNull db p) (k : Link) :
    Decays pool db h (h.setNext p k) := by
  refine ⟨fun l _ ht => ?_, by simp, by simp, fun b => by simp⟩
  by_cases hlk : l = k
  · subst hlk
    exact absurd ht (Mdb.not_tagged_setNext (hp.aligned hs) l)
  · exact ⟨(Mdb.tagged_setNext_of_ne hlk).mp ht, by rw [Mdb.next_setNext_of_ne hlk]⟩

lemma decays_setBack (p pg : Word) (k : Link) : Decays pool db h (h.setBack p pg k) :=
  ⟨fun l _ ht => ⟨(Mdb.tagged_setBack pg k).mp ht, by simp⟩, by simp, by simp, fun b => by simp⟩

lemma decays_freeBuffer {b : Buf} (hb : b ≠ .dual) (p : Word) :
    Decays pool db h (h.freeBuffer b p) := by
  refine ⟨fun l _ ht => ⟨(Mdb.tagged_freeBuffer b p).mp ht, by simp⟩, rfl, ?_, fun c => ?_⟩
  · simp [Mdb.freeBuffer, Function.update_of_ne (Ne.symm hb)]
  · by_cases hc : c = b
    · subst hc
      simp [Mdb.freeBuffer]
    · simp [Mdb.freeBuffer, Function.update_of_ne hc]

/-- The memory after the visited node has been removed, for whatever `pmap` and
`proot`. -/
lemma remove_mdb_eq (s : Flush) (nmap : Word) : ∃ (k : Link) (pg : Word),
    (s.remove nmap).mdb = (if nmap ≠ 0 then (s.mdb.setNext nmap k).setBack nmap pg k
      else s.mdb.setNext nmap k).freeBuffer .mnode s.fMap := by
  by_cases hp : s.pmap ≠ 0
  · refine ⟨.node s.pmap,
      ((s.mdb.setNext nmap (.node s.pmap)).mnode nmap).getPgentM s.fMap, ?_⟩
    simp only [Flush.remove, if_pos hp]
    rfl
  · refine ⟨.root s.proot,
      ((s.mdb.setNext nmap (.root s.proot)).mnode nmap).getPgentM s.fMap, ?_⟩
    simp only [Flush.remove, if_neg hp]
    rfl

lemma remove_decays (hs : Links pool h₀ db) {nmap : Word} (hn : NodeOrNull db nmap)
    (hnext : ∀ l, Live pool db l → NodeOrNull db (s.mdb.next l).2) :
    Decays pool db s.mdb (s.remove nmap).mdb ∧
      ∀ l, Live pool db l → NodeOrNull db ((s.remove nmap).mdb.next l).2 := by
  obtain ⟨k, pg, hm⟩ := remove_mdb_eq s nmap
  have hset : ∀ l, Live pool db l → NodeOrNull db ((s.mdb.setNext nmap k).next l).2 := by
    intro l hl
    by_cases hlk : l = k
    · subst hlk
      rw [Mdb.next_setNext (hn.aligned hs)]
      exact hn
    · rw [Mdb.next_setNext_of_ne hlk]
      exact hnext l hl
  rw [hm]
  split
  · refine ⟨((decays_setNext hs hn k).trans (decays_setBack ..)).trans
      (decays_freeBuffer (by decide) _), fun l hl => ?_⟩
    simpa using hset l hl
  · refine ⟨(decays_setNext hs hn k).trans (decays_freeBuffer (by decide) _), fun l hl => ?_⟩
    simpa using hset l hl

lemma treat_decays (hs : Links pool h₀ db) {nmap : Word} (hn : NodeOrNull db nmap)
    (hnext : ∀ l, Live pool db l → NodeOrNull db (s.mdb.next l).2) :
    Decays pool db s.mdb (s.locate.treat nmap).mdb ∧
      ∀ l, Live pool db l → NodeOrNull db ((s.locate.treat nmap).mdb.next l).2 := by
  unfold Flush.treat
  split
  · split
    · exact remove_decays (s := s.locate) hs hn hnext
    · exact ⟨Decays.refl, hnext⟩
  · exact ⟨Decays.refl, hnext⟩

/-- What `treat` leaves alone. -/
lemma treat_same (s : Flush) (nmap : Word) :
    (s.locate.treat nmap).root = s.root ∧ (s.locate.treat nmap).rcnt = s.rcnt ∧
      (s.locate.treat nmap).rRoot = s.rRoot ∧ (s.locate.treat nmap).rRcnt = s.rRcnt ∧
      (s.locate.treat nmap).rNmap = s.rNmap := by
  unfold Flush.treat
  split
  · split <;> exact ⟨rfl, rfl, rfl, rfl, rfl⟩
  · exact ⟨rfl, rfl, rfl, rfl, rfl⟩

/-- A node with a dual node has an array of smaller pages below it. -/
lemma Tame.exists_arr (ht : Tame pool db h₀ s) (hs : Links pool h₀ db)
    (h0 : s.fMap ≠ 0) (hdual : (mnodeNext s.mdb s.fMap).1 ≠ 0) :
    ∃ a ∈ db.arrs, (mnodeNext s.mdb s.fMap).1 = a.dual := by
  obtain ⟨r, hr, hl⟩ := ht.fMap.live h0
  have htag : s.mdb.Tagged (.node s.fMap) := by
    by_contra hn
    exact hdual (Mdb.next_fst_of_not_tagged hn)
  obtain ⟨htag₀, hn₀⟩ := ht.decays.tagged _ (.inr ⟨r, hr, hl⟩) htag
  obtain ⟨a, ha, heq⟩ := hs.owner r hr _ hl htag₀
  refine ⟨a, ha, ?_⟩
  rw [← hs.dual a (List.mem_cons_of_mem _ ha), heq]
  exact hn₀

/-- The array below a node is entered. -/
lemma Tame.enter (ht : Tame pool db h₀ s) (hs : Links pool h₀ db) (ha : a ∈ db.arrs)
    {nmap : Word} (hn : NodeOrNull db nmap) :
    Tame pool db h₀ (s.enter w t a.dual nmap) ∧
      Decays pool db s.mdb (s.enter w t a.dual nmap).mdb := by
  have hbase : (s.mdb.dual a.dual).root = a.base := by
    rw [ht.decays.dual]
    exact hs.base a (List.mem_cons_of_mem _ ha)
  have hsub : ∀ b : Word, b - 4 + 4 = b := fun b => BitVec.sub_add_cancel ..
  unfold Flush.enter
  simp only [hbase, if_neg fun h : (s.mode &&& mdbFlushBit) &&& (s.mode &&& mdbAllSpaces) ≠ 0 =>
    h (mode_bits s.mode)]
  split
  · refine ⟨⟨ht.decays, ht.next, fun _ => ⟨a, ha, 0, ?_, ?_⟩, fun f => ?_, fun f => ?_, .inl rfl⟩,
      Decays.refl⟩
    · simp [slot]
    · simpa using tableSize_le _
    · by_cases hf : f = s.fPgsize - 1
      · simp only [hf, Function.update_self]; exact ht.root
      · simp only [Function.update_of_ne hf]; exact ht.saved f
    · by_cases hf : f = s.fPgsize - 1
      · simp only [hf, Function.update_self]; exact hn
      · simp only [Function.update_of_ne hf]; exact ht.rNmap f
  · refine ⟨⟨ht.decays, ht.next, fun _ => ⟨a, ha, tableIndex w (s.fPgsize - 1), hsub _, ?_⟩,
      ht.saved, ht.rNmap, .inl rfl⟩, Decays.refl⟩
    have hlt : tableIndex w (s.fPgsize - 1) < tableSize (s.fPgsize - 1) :=
      Nat.mod_lt _ (Nat.two_pow_pos _)
    have := tableSize_le (s.fPgsize - 1)
    simp only
    omega

/-- The end of a chain is left. -/
lemma Tame.climb (ht : Tame pool db h₀ s) :
    Tame pool db h₀ s.climb ∧ Decays pool db s.mdb s.climb.mdb := by
  have hd : Decays pool db s.mdb s.climb.mdb := by
    simp only [Flush.climb]
    split
    · exact decays_freeBuffer (by decide) _
    · exact Decays.refl
  refine ⟨⟨ht.decays.trans hd, fun l hl => ?_, ht.saved _, ht.saved, ht.rNmap, ht.rNmap _⟩, hd⟩
  have hl := ht.next l hl
  simp only [Flush.climb]
  split
  · simpa using hl
  · exact hl

lemma Tame.visit (ht : Tame pool db h₀ s) (hs : Links pool h₀ db) (h0 : s.fMap ≠ 0) {s' : Flush}
    (hv : flushVisit w t s = some s') :
    Tame pool db h₀ s' ∧ Decays pool db s.mdb s'.mdb := by
  rw [flushVisit] at hv
  split at hv
  · simp at hv
  · obtain ⟨r, hr, hl⟩ := ht.fMap.live h0
    have hn : NodeOrNull db (mnodeNext s.mdb s.fMap).2 := ht.next (.node s.fMap) (.inr ⟨r, hr, hl⟩)
    obtain ⟨hd, hnext⟩ := treat_decays (s := s) hs hn ht.next
    obtain ⟨h1, h2, h3, h4, h5⟩ := treat_same s (mnodeNext s.mdb s.fMap).2
    have harr := ht.exists_arr hs h0
    have ht₁ : Tame pool db h₀ { s.locate.treat (mnodeNext s.mdb s.fMap).2 with fMap := 0 } :=
      ⟨ht.decays.trans hd, hnext, by simpa only [h1, h2] using ht.root,
        by simpa only [h3, h4] using ht.saved, by simpa only [h5] using ht.rNmap, .inl rfl⟩
    have hd₁ : Decays pool db s.mdb
        { s.locate.treat (mnodeNext s.mdb s.fMap).2 with fMap := 0 }.mdb := hd
    generalize mnodeNext s.mdb s.fMap = dn at hv hn harr ht₁ hd₁
    generalize ({ s.locate.treat dn.2 with fMap := 0 } : Flush) = s₁ at hv ht₁ hd₁
    obtain rfl := Option.some.inj hv
    unfold Flush.proceed
    split_ifs with hdual hnmap hcl
    · obtain ⟨a, ha, heq⟩ := harr hdual
      rw [heq]
      exact ⟨(ht₁.enter hs ha hn).1, hd₁.trans (ht₁.enter hs ha hn).2⟩
    · exact ⟨⟨ht₁.decays, ht₁.next, ht₁.root, ht₁.saved, ht₁.rNmap, hn⟩, hd₁⟩
    · exact ⟨ht₁.climb.1, hd₁.trans ht₁.climb.2⟩
    · exact ⟨ht₁, hd₁⟩

/-- One round of the walk over an array of smaller pages. -/
lemma Tame.scan (ht : Tame pool db h₀ s) (hs : Links pool h₀ db) (hrc : 0 < s.rcnt) :
    Tame pool db h₀ (flushScan s) ∧ (flushScan s).mdb = s.mdb := by
  obtain ⟨a, ha, i, hroot, hi⟩ := ht.root hrc
  have hslot : slot a.base i ∈ a.slots := slot_mem (by omega)
  have hmem := Links.mem_slots (List.mem_cons_of_mem _ ha) hslot
  have hlive : Live pool db (.root (slot a.base i)) := .inr ⟨_, hmem, List.mem_cons_self⟩
  have hun : ¬ s.mdb.Tagged (.root (slot a.base i)) := fun htag =>
    hs.small_untagged ha hslot _ List.mem_cons_self (ht.decays.tagged _ hlive htag).1
  have h1 : (rnodeNext s.mdb (slot a.base i)).1 = 0 := Mdb.next_fst_of_not_tagged hun
  have h2 : NodeOrNull db (rnodeNext s.mdb (slot a.base i)).2 := ht.next _ hlive
  have hin : InArray db (slot a.base i) (s.rcnt - 1) := fun hpos =>
    ⟨a, ha, i + 1, slot_succ .., by omega⟩
  simp only [flushScan, hroot, h1, ne_eq, not_true_eq_false, if_false]
  split
  · exact ⟨⟨ht.decays, ht.next, hin, ht.saved, ht.rNmap, h2⟩, rfl⟩
  · exact ⟨⟨ht.decays, ht.next, hin, ht.saved, ht.rNmap, .inl rfl⟩, rfl⟩

lemma Tame.spread (ht : Tame pool db h₀ s) : Tame pool db h₀ (s.spread t) := by
  unfold Flush.spread
  split
  · exact ⟨ht.decays, ht.next, ht.root, ht.saved, ht.rNmap, ht.fMap⟩
  · exact ht

/-- **Every step decays the memory.** -/
lemma TameAt.step (hs : Links pool h₀ db) {x : FlushAt} (hx : TameAt pool db h₀ x) :
    TameAt pool db h₀ (flushStep w t d x) ∧
      Decays pool db x.mdb (flushStep w t d x).mdb := by
  cases x with
  | visit s =>
      obtain ⟨ht, h0⟩ := hx
      cases hv : flushVisit w t s with
      | none => simpa [flushStep, hv, TameAt, FlushAt.mdb] using ⟨ht, Decays.refl⟩
      | some s' => simpa [flushStep, hv, TameAt, FlushAt.mdb] using ht.visit hs h0 hv
  | scan s =>
      have ht : Tame pool db h₀ s := hx
      simp only [flushStep]
      split_ifs with h1 h2
      · obtain ⟨ht', hm⟩ := ht.scan hs h1.2
        exact ⟨ht', by simpa only [FlushAt.mdb, hm] using Decays.refl⟩
      · exact ⟨⟨ht.spread, by simpa using h2.1⟩, by simpa [FlushAt.mdb] using Decays.refl⟩
      · exact ⟨ht.spread, by simpa [FlushAt.mdb] using Decays.refl⟩
  | done r s => exact ⟨hx, Decays.refl⟩

lemma TameAt.reaches (hs : Links pool h₀ db) {x y : FlushAt} (hx : TameAt pool db h₀ x)
    (hr : Reaches w t d x y) : TameAt pool db h₀ y ∧ Decays pool db x.mdb y.mdb := by
  obtain ⟨n, rfl⟩ := hr
  induction n with
  | zero => exact ⟨hx, Decays.refl⟩
  | succ n ih =>
      rw [Function.iterate_succ_apply']
      obtain ⟨h1, h2⟩ := ih
      obtain ⟨h3, h4⟩ := h1.step (w := w) (t := t) (d := d) hs
      exact ⟨h3, h2.trans h4⟩

end Tame

/-- Runs that return are runs through everything that is reached on the way. -/
lemma Reaches.done_of {x y : FlushAt} {r : Int} {s : Flush} (h₁ : Reaches w t d x y)
    (h₂ : Reaches w t d x (.done r s)) : Reaches w t d y (.done r s) := by
  obtain ⟨m, rfl⟩ := h₁
  obtain ⟨n, hn⟩ := h₂
  have hdone : ∀ j, (flushStep w t d)^[j] (.done r s) = .done r s := fun j => by
    induction j with
    | zero => rfl
    | succ j ih => rw [Function.iterate_succ_apply', ih, flushStep]
  rcases Nat.le_total m n with hle | hle
  · refine ⟨n - m, ?_⟩
    rw [← Function.iterate_add_apply, Nat.sub_add_cancel hle, hn]
  · refine ⟨0, ?_⟩
    have : (flushStep w t d)^[m] x = (flushStep w t d)^[m - n] (.done r s) := by
      rw [← hn, ← Function.iterate_add_apply, Nat.sub_add_cancel hle]
    rw [this, hdone]
    rfl

end Hazelnut
