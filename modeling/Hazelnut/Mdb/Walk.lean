import Mathlib.Order.Iterate
import Hazelnut.Mdb.Links

/-!
The steps of `mdb_flush` on a database.

* `At`, `Behind`: what the variables of `mdb_flush` mean before a visit and after
  the visited node has been dealt with.
* `At.treat_remove`, `At.treat_keep`: the visited node is removed or kept.
* `Reaches`: any number of steps; `At.next`, `At.last`, `At.enter` and
  `scan_first`, `scan_empty` say where a visit and a walk over an array lead.
-/

namespace Hazelnut

/-! ### Decoding back links -/

namespace Link

/-- The variable `pmap` for a node behind the link. -/
def pmap : Link → Word
  | .root _ => 0
  | .node p => p

/-- The variable `proot` for a node behind the link. -/
def proot : Link → Word
  | .root r => r
  | .node _ => 0

end Link

lemma and_one_of_aligned {p : Word} (hp : p &&& 3 = 0) : p &&& 1 = 0 := by
  have h : (p &&& 3) &&& 1 = 0 := by rw [hp]; rfl
  rwa [BitVec.and_assoc] at h

section decode

variable {n : MNode} {l : Link} {pg : Word}

lemma isPrevRoot_iff (hn : n.w1 = l.back pg) (hl : l.addr &&& 3 = 0) (hpg : pg &&& 3 = 0) :
    n.isPrevRoot ↔ ∃ r, l = .root r := by
  rw [MNode.isPrevRoot, hn]
  cases l with
  | root r =>
      have h : ((r ^^^ pg) ||| 1) &&& 1 = 1 := Word.or_and_self
      simp only [Link.back, h]
      simp
  | node p =>
      have h : (p ^^^ pg) &&& 1 = 0 :=
        Word.xor_and (and_one_of_aligned hl) (and_one_of_aligned hpg)
      simp only [Link.back, h]
      simp

lemma getPrev_eq (hn : n.w1 = l.back pg) (hl : l.addr &&& 3 = 0) : n.getPrev pg = l.addr := by
  rw [MNode.getPrev, hn]
  cases l with
  | root r => exact Word.xor_or_and_not (and_one_of_aligned hl)
  | node p =>
      rw [Link.back, Word.xor_xor_right]
      exact Word.and_not_eq (and_one_of_aligned hl)

/-- The page table entry is recovered from the link. -/
lemma getPgent_eq (hn : n.w1 = l.back pg) (hpg : pg &&& 3 = 0)
    (hl : l.pmap ≠ 0 ∨ ∃ r, l = .root r) :
    (if l.pmap ≠ 0 then n.getPgentM l.pmap else n.getPgentR l.proot) = pg := by
  cases l with
  | root r =>
      simp only [Link.pmap, Link.proot, ne_eq, not_true_eq_false, if_false, MNode.getPgentR, hn,
        Link.back]
      rw [BitVec.xor_comm r pg]
      exact Word.xor_or_and_not (and_one_of_aligned hpg)
  | node p =>
      have hp : p ≠ 0 := by simpa [Link.pmap] using hl
      simp only [Link.pmap, ne_eq, hp, not_false_eq_true, if_true, MNode.getPgentM, hn, Link.back]
      exact Word.xor_xor_left

end decode

namespace Links

variable {pool : Pool} {h : Mdb} {db : Db} {r : Word} {e : Ent} {pre post : List Ent}

lemma link_aligned (hs : Links pool h db) (hr : r ∈ db.slots) (hp : ∀ f ∈ pre, f ∈ db.chain r) :
    (lastLink (.root r) pre).addr &&& 3 = 0 := by
  rcases lastLink_mem (l := .root r) (u := pre) with heq | ⟨f, hf, heq⟩
  · rw [heq]; exact hs.slot_aligned hr
  · rw [heq]; exact hs.ptr_aligned (mem_ents hr (hp f hf))

lemma link_pmap (hs : Links pool h db) (hr : r ∈ db.slots) (hp : ∀ f ∈ pre, f ∈ db.chain r) :
    (lastLink (.root r) pre).pmap ≠ 0 ∨ ∃ r', lastLink (.root r) pre = .root r' := by
  rcases lastLink_mem (l := .root r) (u := pre) with heq | ⟨f, hf, heq⟩
  · exact .inr ⟨r, heq⟩
  · rw [heq]; exact .inl (hs.ptr_ne_zero (mem_ents hr (hp f hf)))

/-- What follows a stretch of a chain. -/
lemma next_lastLink (hs : Links pool h db) (hr : r ∈ db.slots) (hc : db.chain r = pre ++ post) :
    (h.next (lastLink (.root r) pre)).2 = headPtr post := by
  have hpath := hs.path r hr
  have hend := hs.path_end r hr
  rw [hc, path_append] at hpath
  rw [hc, lastLink_append] at hend
  cases post with
  | nil => exact hend
  | cons f post => exact hpath.2.1.next

lemma next_node (hs : Links pool h db) (hr : r ∈ db.slots) (hc : db.chain r = pre ++ e :: post) :
    (h.next (.node e.ptr)).2 = headPtr post := by
  have hc' : db.chain r = (pre ++ [e]) ++ post := by simpa using hc
  simpa using hs.next_lastLink hr hc'

lemma headPtr_ne_zero (hs : Links pool h db) (hr : r ∈ db.slots)
    (hc : db.chain r = pre ++ post) : headPtr post = 0 ↔ post = [] := by
  cases post with
  | nil => simp [headPtr]
  | cons f post =>
      have := hs.ptr_ne_zero (mem_ents (e := f) hr (by simp [hc]))
      simpa [headPtr] using this

lemma entAt (hs : Links pool h db) (hr : r ∈ db.slots) (hc : db.chain r = pre ++ e :: post) :
    EntAt h (lastLink (.root r) pre) e := by
  have hpath := hs.path r hr
  rw [hc, path_append] at hpath
  exact hpath.2.1

end Links

/-! ### Before and after a visit -/

variable {pool : Pool} {db : Db} {r : Word} {e f : Ent} {pre post : List Ent} {s : Flush}
  {w : Word} {t : Nat}

/-- `mdb_flush` is about to visit the node `e` of the chain at `r`. -/
structure At (pool : Pool) (s : Flush) (db : Db) (r : Word) (pre : List Ent) (e : Ent)
    (post : List Ent) : Prop where
  links : Links pool s.mdb db
  mem : r ∈ db.slots
  chain : db.chain r = pre ++ e :: post
  fMap : s.fMap = e.ptr
  fPg : s.fPg = e.pg

/-- `mdb_flush` has dealt with the node before `post`. -/
structure Behind (pool : Pool) (s : Flush) (db : Db) (r : Word) (pre post : List Ent) : Prop where
  links : Links pool s.mdb db
  mem : r ∈ db.slots
  chain : db.chain r = pre ++ post
  pmap : s.pmap = (lastLink (.root r) pre).pmap
  proot : s.proot = (lastLink (.root r) pre).proot

namespace At

lemma next_eq (ha : At pool s db r pre e post) :
    mnodeNext s.mdb s.fMap = ((s.mdb.next (.node e.ptr)).1, headPtr post) := by
  rw [ha.fMap, ← ha.links.next_node ha.mem ha.chain]
  rfl

lemma mem_pre (ha : At pool s db r pre e post) : ∀ g ∈ pre, g ∈ db.chain r := by
  intro g hg
  rw [ha.chain]
  simp [hg]

lemma locate_eq (ha : At pool s db r pre e post) :
    s.locate = { s with
      pmap := (lastLink (.root r) pre).pmap
      proot := (lastLink (.root r) pre).proot } := by
  have hent := ha.links.entAt ha.mem ha.chain
  have hal := ha.links.link_aligned ha.mem ha.mem_pre
  have hpg : e.pg &&& 3 = 0 :=
    ha.links.pg e (Links.mem_ents ha.mem (by simp [ha.chain]))
  have hroot := isPrevRoot_iff hent.back hal hpg
  have hprev := getPrev_eq hent.back hal
  rw [Flush.locate, ha.fMap, ha.fPg, hprev]
  cases hl : lastLink (.root r) pre with
  | root r' =>
      have : (s.mdb.mnode e.ptr).isPrevRoot := hroot.mpr ⟨r', hl⟩
      simp [this, Link.pmap, Link.proot, Link.addr]
  | node p =>
      have : ¬ (s.mdb.mnode e.ptr).isPrevRoot := by
        rw [hroot, hl]
        simp
      simp [this, Link.pmap, Link.proot, Link.addr]

/-- The memory after the visited node has been removed. -/
lemma remove_mdb (ha : At pool s db r pre e post) {u : Flush} (hmdb : u.mdb = s.mdb)
    (hmap : u.fMap = s.fMap) (hp : u.pmap = (lastLink (.root r) pre).pmap)
    (hq : u.proot = (lastLink (.root r) pre).proot) :
    (u.remove (headPtr post)).mdb =
      (Links.unlinked s.mdb (lastLink (.root r) pre) post).freeBuffer .mnode e.ptr := by
  have hmem : ∀ f ∈ post, f ∈ db.ents := fun f hf =>
    Links.mem_ents ha.mem (by simp [ha.chain, hf])
  have hpm := ha.links.link_pmap ha.mem ha.mem_pre
  -- the entry of the next node, decoded from its link back to the visited one
  have hpg : ∀ f g, post = f :: g → ∀ q l,
      (((s.mdb.setNext q l).mnode f.ptr).getPgentM e.ptr) = f.pg := by
    rintro f g rfl q l
    have hc : db.chain r = (pre ++ [e]) ++ f :: g := by simp [ha.chain]
    have hent := ha.links.entAt ha.mem hc
    rw [lastLink_concat] at hent
    rw [MNode.getPgentM, Mdb.setNext_w1, hent.back]
    exact Word.xor_xor_left
  simp only [Flush.remove, hmdb, hmap, hp, hq, ha.fMap]
  congr 1
  generalize lastLink (.root r) pre = L at hpm hpg ⊢
  cases L with
  | root r' =>
      rw [if_neg (by simp [Link.pmap])]
      cases post with
      | nil => exact if_neg (by simp [headPtr])
      | cons f g =>
          have hf : headPtr (f :: g) ≠ 0 := ha.links.ptr_ne_zero (hmem f (by simp))
          rw [if_pos hf]
          exact congrArg _ (congrArg _ (hpg f g rfl f.ptr (.root r')))
  | node p =>
      have hp0 : (Link.node p).pmap ≠ 0 := by simpa using hpm
      rw [if_pos hp0]
      cases post with
      | nil => exact if_neg (by simp [headPtr])
      | cons f g =>
          have hf : headPtr (f :: g) ≠ 0 := ha.links.ptr_ne_zero (hmem f (by simp))
          rw [if_pos hf]
          exact congrArg _ (congrArg _ (hpg f g rfl f.ptr (.node p)))

/-- In flush mode the visited node is removed and its entry cleared. -/
lemma treat_remove (ha : At pool s db r pre e post) (hall : s.allSpaces) (hfl : s.flushing) :
    s.locate.treat (headPtr post) = { s with
      mdb := (Links.unlinked s.mdb (lastLink (.root r) pre) post).freeBuffer .mnode e.ptr
      ptab := s.ptab.clear e.pg
      pmap := (lastLink (.root r) pre).pmap
      proot := (lastLink (.root r) pre).proot } := by
  rw [ha.locate_eq]
  have hm := ha.remove_mdb (u := { s with
      pmap := (lastLink (.root r) pre).pmap
      proot := (lastLink (.root r) pre).proot }) rfl rfl rfl rfl
  rw [Flush.treat, if_pos (by exact hall), if_pos (by exact hfl)]
  rw [← hm, ← ha.fPg]
  rfl

/-- Otherwise it is kept; in remap mode its entry is made read-only. -/
lemma treat_keep (ha : At pool s db r pre e post) (hk : ¬ (s.allSpaces ∧ s.flushing)) :
    s.locate.treat (headPtr post) = { s with
      ptab := if s.allSpaces then s.ptab.setReadonly e.pg else s.ptab
      pmap := e.ptr
      proot := 0 } := by
  rw [ha.locate_eq, Flush.treat]
  by_cases hall : s.allSpaces
  · have hfl : ¬ s.flushing := fun hfl => hk ⟨hall, hfl⟩
    rw [if_pos (by exact hall), if_neg (by exact hfl), if_pos hall, ← ha.fPg, ← ha.fMap]
  · rw [if_neg (by exact hall), if_neg hall, ← ha.fMap]

end At

/-! ### Runs -/

/-- `y` is reached from `x` in some number of steps. -/
def Reaches (w : Word) (t : Nat) (d : Word) (x y : FlushAt) : Prop :=
  ∃ n, (flushStep w t d)^[n] x = y

section Reaches

variable {d : Word} {x y z : FlushAt}

lemma Reaches.refl : Reaches w t d x x := ⟨0, rfl⟩

lemma Reaches.trans (h₁ : Reaches w t d x y) (h₂ : Reaches w t d y z) :
    Reaches w t d x z := by
  obtain ⟨m, rfl⟩ := h₁
  obtain ⟨n, rfl⟩ := h₂
  exact ⟨n + m, Function.iterate_add_apply ..⟩

lemma Reaches.single (h : flushStep w t d x = y) : Reaches w t d x y := ⟨1, h⟩

lemma Reaches.head (h : flushStep w t d x = y) (h₂ : Reaches w t d y z) :
    Reaches w t d x z := (Reaches.single h).trans h₂

end Reaches

/-- The variables that a visit of a node without a dual node leaves alone. -/
structure Flush.Same (s s' : Flush) : Prop where
  fPgsize : s'.fPgsize = s.fPgsize
  allSpaces : s.allSpaces → s'.allSpaces
  flushing : s'.flushing ↔ s.flushing
  root : s'.root = s.root
  rcnt : s'.rcnt = s.rcnt
  rNmap : s'.rNmap = s.rNmap
  rRoot : s'.rRoot = s.rRoot
  rRcnt : s'.rRcnt = s.rRcnt
  rPrev : s'.rPrev = s.rPrev

namespace Flush

lemma Same.refl : s.Same s := ⟨rfl, id, Iff.rfl, rfl, rfl, rfl, rfl, rfl, rfl⟩

lemma Same.trans {s' s'' : Flush} (h₁ : s.Same s') (h₂ : s'.Same s'') : s.Same s'' where
  fPgsize := h₂.fPgsize.trans h₁.fPgsize
  allSpaces := fun h => h₂.allSpaces (h₁.allSpaces h)
  flushing := h₂.flushing.trans h₁.flushing
  root := h₂.root.trans h₁.root
  rcnt := h₂.rcnt.trans h₁.rcnt
  rNmap := h₂.rNmap.trans h₁.rNmap
  rRoot := h₂.rRoot.trans h₁.rRoot
  rRcnt := h₂.rRcnt.trans h₁.rRcnt
  rPrev := h₂.rPrev.trans h₁.rPrev

lemma spread_allSpaces (h : s.fPgsize ≤ t) : (s.spread t).allSpaces := by
  rw [spread, if_pos h]
  have h1 : (s.mode ||| mdbAllSpaces) &&& mdbAllSpaces = mdbAllSpaces := Word.or_and_self
  simp only [allSpaces, h1]
  decide

lemma same_spread : s.Same (s.spread t) := by
  by_cases h : s.fPgsize ≤ t
  · have hall := spread_allSpaces (s := s) h
    rw [spread, if_pos h] at hall ⊢
    refine ⟨rfl, fun _ => hall, ?_, rfl, rfl, rfl, rfl, rfl, rfl⟩
    have h1 : (s.mode ||| mdbAllSpaces) &&& mdbFlushBit = s.mode &&& mdbFlushBit := by
      rw [BitVec.and_or_distrib_right]
      exact BitVec.or_zero
    simp only [flushing, h1]
  · rw [spread, if_neg h]
    exact Same.refl

@[simp] lemma spread_mdb : (s.spread t).mdb = s.mdb := by unfold spread; split <;> rfl

@[simp] lemma spread_ptab : (s.spread t).ptab = s.ptab := by unfold spread; split <;> rfl

@[simp] lemma spread_fMap : (s.spread t).fMap = s.fMap := by unfold spread; split <;> rfl

@[simp] lemma spread_fPg : (s.spread t).fPg = s.fPg := by unfold spread; split <;> rfl

end Flush

lemma At.spread (ha : At pool s db r pre e post) : At pool (s.spread t) db r pre e post :=
  ⟨by simpa using ha.links, ha.mem, ha.chain, by simpa using ha.fMap, by simpa using ha.fPg⟩

lemma flushStep_visit {d : Word} {s' : Flush} (h : flushVisit w t s = some s') :
    flushStep w t d (.visit s) = .scan s' := by
  simp [flushStep, h]

/-- A node has been found that is derived from the first one. -/
lemma flushStep_scan_visit {d : Word} (h0 : s.fMap ≠ 0)
    (hd : d < (s.mdb.mnode s.fMap).getDepth) :
    flushStep w t d (.scan s) = .visit (s.spread t) := by
  rw [flushStep, if_neg fun h => h0 h.1, if_pos ⟨h0, hd⟩]

/-- There is nothing left to visit. -/
lemma flushStep_scan_done {d : Word} (h : s.fMap = 0 → s.rcnt = 0)
    (hd : s.fMap ≠ 0 → ¬ d < (s.mdb.mnode s.fMap).getDepth) :
    flushStep w t d (.scan s) = .done 0 (s.spread t) := by
  rw [flushStep, if_neg fun h' => by have := h h'.1; omega, if_neg fun h' => hd h'.1 h'.2]

/-- After a node has been dealt with, the next one of the chain is visited. -/
lemma Behind.advance (hb : Behind pool s db r pre (f :: post)) :
    At pool (s.advance f.ptr) db r pre f post := by
  have hmem : ∀ g ∈ pre, g ∈ db.chain r := fun g hg => by rw [hb.chain]; simp [hg]
  have hent := hb.links.entAt hb.mem hb.chain
  have hpg : f.pg &&& 3 = 0 := hb.links.pg f (Links.mem_ents hb.mem (by simp [hb.chain]))
  refine ⟨hb.links, hb.mem, hb.chain, rfl, ?_⟩
  have hdec := getPgent_eq hent.back hpg (hb.links.link_pmap hb.mem hmem)
  rw [← hb.pmap, ← hb.proot] at hdec
  exact hdec

namespace At

variable {d : Word}

/-- In flush mode, a node with neither a dual node nor one before it is removed. -/
lemma behind_remove (ha : At pool s db r pre e post) (hall : s.allSpaces) (hfl : s.flushing)
    (hk : ¬ s.mdb.Tagged (lastLink (.root r) pre)) (he : ¬ s.mdb.Tagged (.node e.ptr)) :
    Behind pool { s.locate.treat (headPtr post) with fMap := 0 } (db.setChain r (pre ++ post))
      r pre post := by
  rw [ha.treat_remove hall hfl]
  exact ⟨ha.links.remove ha.mem ha.chain hk he, ha.mem, Function.update_self .., rfl, rfl⟩

lemma behind_keep (ha : At pool s db r pre e post) (hk : ¬ (s.allSpaces ∧ s.flushing)) :
    Behind pool { s.locate.treat (headPtr post) with fMap := 0 } db r (pre ++ [e]) post := by
  rw [ha.treat_keep hk]
  refine ⟨ha.links, ha.mem, by simpa using ha.chain, ?_, ?_⟩
  · simp [Link.pmap]
  · simp [Link.proot]

/-- A visit that does not fail. -/
lemma visit_eq (ha : At pool s db r pre e post) (hn : ¬ (s.allSpaces ∧ t < s.fPgsize ∧ post ≠ [])) :
    flushVisit w t s = some ({ s.locate.treat (headPtr post) with fMap := 0 }.proceed w t
      (s.mdb.next (.node e.ptr)).1 (headPtr post)) := by
  rw [flushVisit, ha.next_eq]
  refine if_neg fun h => hn ⟨h.1, h.2.1, fun hp => h.2.2 ?_⟩
  rw [hp]
  rfl

lemma proceed_next (ha : At pool s db r pre e (f :: post)) (he : ¬ s.mdb.Tagged (.node e.ptr))
    (s' : Flush) :
    s'.proceed w t (s.mdb.next (.node e.ptr)).1 (headPtr (f :: post)) = s'.advance f.ptr := by
  have hf : f.ptr ≠ 0 := ha.links.ptr_ne_zero (Links.mem_ents ha.mem (by simp [ha.chain]))
  rw [Flush.proceed, Mdb.next_fst_of_not_tagged he, if_neg (by simp), headPtr, if_pos hf]

lemma proceed_last (he : ¬ s.mdb.Tagged (.node e.ptr)) (s' : Flush) :
    s'.proceed w t (s.mdb.next (.node e.ptr)).1 (headPtr []) =
      if s'.fPgsize < t ∧ s'.root ≠ 0 then s'.climb else s' := by
  rw [Flush.proceed, Mdb.next_fst_of_not_tagged he, if_neg (by simp), headPtr, if_neg (by simp)]

/-- The depth that is compared with the depth the flush started at. -/
lemma depth_lt_iff (ha : At pool s db r pre e post) :
    d < (s.mdb.mnode s.fMap).getDepth ↔ d.toNat < e.depth := by
  rw [ha.fMap, BitVec.lt_def, (ha.links.entAt ha.mem ha.chain).depth]

lemma fMap_ne_zero (ha : At pool s db r pre e post) : s.fMap ≠ 0 := by
  rw [ha.fMap]
  exact ha.links.ptr_ne_zero (Links.mem_ents ha.mem (by simp [ha.chain]))

/-- A derived node is visited next. -/
lemma scan_visit (ha : At pool s db r pre e post) (hd : d.toNat < e.depth) :
    Reaches w t d (.scan s) (.visit (s.spread t)) :=
  .single (flushStep_scan_visit ha.fMap_ne_zero (ha.depth_lt_iff.mpr hd))

/-- A node that is not derived ends the flush. -/
lemma scan_done (ha : At pool s db r pre e post) (hd : e.depth ≤ d.toNat) :
    Reaches w t d (.scan s) (.done 0 (s.spread t)) :=
  .single (flushStep_scan_done (fun h0 => absurd h0 ha.fMap_ne_zero) fun _ hlt => by
    have := ha.depth_lt_iff.mp hlt
    omega)

/-- A node is removed and the next one found. -/
lemma step_remove (ha : At pool s db r pre e (f :: post)) (hall : s.allSpaces) (hfl : s.flushing)
    (hle : s.fPgsize ≤ t) (hk : ¬ s.mdb.Tagged (lastLink (.root r) pre))
    (he : ¬ s.mdb.Tagged (.node e.ptr)) :
    ∃ s', Reaches w t d (.visit s) (.scan s') ∧
      At pool s' (db.setChain r (pre ++ f :: post)) r pre f post ∧
      s'.ptab = s.ptab.clear e.pg ∧ s.Same s' ∧ ∀ k, s'.mdb.Tagged k → s.mdb.Tagged k := by
  have hv := ha.visit_eq (w := w) (t := t) fun h => by omega
  rw [ha.proceed_next he] at hv
  refine ⟨_, .single (flushStep_visit hv), (ha.behind_remove hall hfl hk he).advance, ?_⟩
  rw [ha.treat_remove hall hfl]
  refine ⟨rfl, ⟨rfl, id, Iff.rfl, rfl, rfl, rfl, rfl, rfl, rfl⟩, fun k ht => ?_⟩
  have ht' := (Mdb.tagged_freeBuffer ..).mp ht
  by_cases hkk : k = lastLink (.root r) pre
  · subst hkk
    refine absurd ht' (Links.unlinked_not_tagged (fun g hg => ?_) _)
    exact ha.links.ptr_aligned
      (Links.mem_ents ha.mem (ha.chain ▸ List.mem_append_right _ (List.mem_cons_of_mem _ hg)))
  · exact (Links.unlinked_tagged_of_ne hkk).mp ht'

/-- A node is kept and the next one found. -/
lemma step_keep (ha : At pool s db r pre e (f :: post)) (hkeep : ¬ (s.allSpaces ∧ s.flushing))
    (hle : s.allSpaces → s.fPgsize ≤ t) (he : ¬ s.mdb.Tagged (.node e.ptr)) :
    ∃ s', Reaches w t d (.visit s) (.scan s') ∧ At pool s' db r (pre ++ [e]) f post ∧
      s'.mdb = s.mdb ∧ s'.ptab = (if s.allSpaces then s.ptab.setReadonly e.pg else s.ptab) ∧
      s.Same s' ∧ (s'.allSpaces ↔ s.allSpaces) := by
  have hv := ha.visit_eq (w := w) (t := t) fun h => by have := hle h.1; omega
  rw [ha.proceed_next he] at hv
  refine ⟨_, .single (flushStep_visit hv), (ha.behind_keep hkeep).advance, ?_⟩
  rw [ha.treat_keep hkeep]
  exact ⟨rfl, rfl, ⟨rfl, id, Iff.rfl, rfl, rfl, rfl, rfl, rfl, rfl⟩, Iff.rfl⟩

/-- The last node of a chain is removed. -/
lemma last_remove (ha : At pool s db r pre e []) (hall : s.allSpaces) (hfl : s.flushing)
    (hk : ¬ s.mdb.Tagged (lastLink (.root r) pre)) (he : ¬ s.mdb.Tagged (.node e.ptr)) :
    ∃ s', Reaches w t d (.visit s)
        (.scan (if s.fPgsize < t ∧ s.root ≠ 0 then s'.climb else s')) ∧
      s'.fMap = 0 ∧ Links pool s'.mdb (db.setChain r pre) ∧ s'.ptab = s.ptab.clear e.pg ∧
      s.Same s' ∧ s'.mdb = (Links.unlinked s.mdb (lastLink (.root r) pre) []).freeBuffer
        .mnode e.ptr := by
  have hv := ha.visit_eq (w := w) (t := t) fun h => h.2.2 rfl
  rw [proceed_last he] at hv
  have hb := ha.behind_remove hall hfl hk he
  have ht := ha.treat_remove hall hfl
  refine ⟨{ s.locate.treat (headPtr []) with fMap := 0 }, ?_, rfl, by simpa using hb.links, ?_⟩
  · refine .single (flushStep_visit ?_)
    rw [hv, ht]
  · rw [ht]
    exact ⟨rfl, ⟨rfl, id, Iff.rfl, rfl, rfl, rfl, rfl, rfl, rfl⟩, rfl⟩

/-- The last node of a chain is kept. -/
lemma last_keep (ha : At pool s db r pre e []) (hkeep : ¬ (s.allSpaces ∧ s.flushing))
    (he : ¬ s.mdb.Tagged (.node e.ptr)) :
    ∃ s', Reaches w t d (.visit s)
        (.scan (if s.fPgsize < t ∧ s.root ≠ 0 then s'.climb else s')) ∧
      s'.fMap = 0 ∧ s'.mdb = s.mdb ∧
      s'.ptab = (if s.allSpaces then s.ptab.setReadonly e.pg else s.ptab) ∧ s.Same s' := by
  have hv := ha.visit_eq (w := w) (t := t) fun h => h.2.2 rfl
  rw [proceed_last he] at hv
  have ht := ha.treat_keep hkeep
  refine ⟨{ s.locate.treat (headPtr []) with fMap := 0 }, ?_, rfl, ?_⟩
  · refine .single (flushStep_visit ?_)
    rw [hv, ht]
  · rw [ht]
    exact ⟨rfl, rfl, ⟨rfl, id, Iff.rfl, rfl, rfl, rfl, rfl, rfl, rfl⟩⟩

end At

end Hazelnut
