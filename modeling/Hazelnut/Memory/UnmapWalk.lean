import Mathlib.Tactic.IntervalCases
import Mathlib.Tactic.NormNum
import Hazelnut.Memory.Unmap

/-!
`fpage_unmap` walks the flexpage.

* `handLeaves`: the purpose.  Each valid entry of the flexpage below the user limit is handed to
  `mdb_flush` when its turn comes, with the part of the flexpage it covers.
* `Walk.table_loop`, `Walk.directory_loop`: the loop on a page table, and on a page directory.
* `handLeaves_exact`: which entries these are, for a flush that leaves the page tables alone.
* `unmap_exact`: the walk does what it is for, unless the flexpage is several small pages of a
  larger one that is not flushed in the space itself; `unmap_overruns` is such a call.
-/

namespace Hazelnut

/-! ### The purpose -/

section Purpose

variable (flush : Flusher) (mapmask : Word)

/-- The valid ones of `n` entries of a page table, the first of which maps `vaddr`. -/
def handTable (pgsize : Nat) : Nat → Word → Word → Unmapped → Unmapped
  | 0, _, _, u => u
  | n + 1, pg, vaddr, u =>
      handTable pgsize n (pgentNext pg 1) (vaddr + pageSize 0)
        (if u.ptab.isValid pg then u.hand flush mapmask pg 0 vaddr pgsize else u)

/-- One entry of a page directory, all of which is in the flexpage. -/
def handEntry (pg vaddr : Word) (u : Unmapped) : Unmapped :=
  if ¬u.ptab.isValid pg then u
  else if u.ptab.isSubtree pg 1 then
    let u1 := handTable flush mapmask 1 (tableSize 0) (u.ptab.subtree pg) vaddr u
    if ownFlush mapmask then u1.removeSubtree pg else u1
  else u.hand flush mapmask pg 1 vaddr 1

/-- `n` entries of a page directory, up to the user limit. -/
def handDirectory : Nat → Word → Word → Unmapped → Unmapped
  | 0, _, _, u => u
  | n + 1, pg, vaddr, u =>
      if userLimit ≤ vaddr then u
      else handDirectory n (pgentNext pg 1) (vaddr + pageSize 1)
        (handEntry flush mapmask pg vaddr u)

/-- The page is larger than the flexpage: `n` small pages of it. -/
def handPieces (pg : Word) : Nat → Word → Unmapped → Unmapped
  | 0, _, u => u
  | n + 1, vaddr, u => handPieces pg n (vaddr + pageSize 0) (u.hand flush mapmask pg 1 vaddr 0)

/-- `n` small pages below one entry of a page directory.  To flush part of a larger page in the
space itself is refused. -/
def handPart (pg vaddr : Word) (n : Nat) (u : Unmapped) : Unmapped :=
  if userLimit ≤ vaddr then u
  else if ¬u.ptab.isValid pg then u
  else if u.ptab.isSubtree pg 1 then
    handTable flush mapmask 0 n (pgentNext (u.ptab.subtree pg) (tableIndex vaddr 0)) vaddr u
  else if mapmask &&& mdbAllSpaces ≠ 0 then u
  else handPieces flush mapmask pg n vaddr u

/-- **What unmapping is for**: the valid entries of the flexpage are handed to `mdb_flush` one after
the other. -/
def handLeaves (pgdir fp : Word) (k : Maps) : Unmapped :=
  let num := fpageSize fp
  let vaddr := fpageAddress fp num
  let pg := pgentNext pgdir (tableIndex vaddr 1)
  let u : Unmapped := { toMaps := k, calls := [], freed := [] }
  if num < pgshift 1 then handPart flush mapmask pg vaddr (2 ^ (num - pgshift 0)) u
  else handDirectory flush mapmask (2 ^ (num - pgshift 1)) pg vaddr u

end Purpose

/-! ### Rounds of the loop -/

variable {flush : Flusher} {pgsize : Nat} {mapmask : Word} {s s' : Walk} {u r : Unmapped}

/-- The loop ends with `r`. -/
def Walk.Runs (flush : Flusher) (pgsize : Nat) (mapmask : Word) (s : Walk) (r : Unmapped) : Prop :=
  ∃ fuel, s.loop flush pgsize mapmask fuel = some r

namespace Walk

lemma Runs.done (h : s.num = 0) : Runs flush pgsize mapmask s s.toUnmapped := ⟨1, if_pos h⟩

lemma Runs.leave (hb : s.body flush pgsize mapmask = none) :
    Runs flush pgsize mapmask s s.toUnmapped := by
  refine ⟨1, ?_⟩
  rw [loop, hb]
  simp

lemma Runs.step (h : s.num ≠ 0) (hb : s.body flush pgsize mapmask = some s')
    (hr : Runs flush pgsize mapmask s' r) : Runs flush pgsize mapmask s r := by
  obtain ⟨fuel, hr⟩ := hr
  refine ⟨fuel + 1, ?_⟩
  rw [loop, if_neg h, hb]
  exact hr

/-! ### Page tables -/

/-- What becomes of the state at an entry of a page table. -/
def offer (flush : Flusher) (mapmask : Word) (pgsize : Nat) (pg vaddr : Word)
    (u : Unmapped) : Unmapped :=
  if u.ptab.isValid pg then u.hand flush mapmask pg 0 vaddr pgsize else u

/-- A round at an entry of a page table. -/
lemma body_table (hv : ¬userLimit ≤ s.vaddr) (hs : s.size = 0) :
    s.body flush pgsize mapmask =
      some ({ s with toUnmapped := offer flush mapmask pgsize s.pg s.vaddr s.toUnmapped }.nextEntry
        pgsize mapmask) := by
  rw [body, if_neg hv, if_neg (by omega), atEntry, offer]
  by_cases h : s.ptab.isValid s.pg
  · rw [if_neg (not_not.mpr h), if_pos h, if_neg (by simp [Ptab.isSubtree, hs]), hs]
  · rw [if_pos h, if_neg h]

lemma nextEntry_stay (h : ¬(s.num - 1 = 0 ∧ s.size < pgsize)) : s.nextEntry pgsize mapmask =
    { s with pg := pgentNext s.pg 1, vaddr := s.vaddr + pageSize s.size, num := s.num - 1 } :=
    if_neg h

lemma nextEntry_climb (h : s.num - 1 = 0 ∧ s.size < pgsize) : s.nextEntry pgsize mapmask =
    ({ s with pg := pgentNext s.pg 1, vaddr := s.vaddr + pageSize s.size, num := s.num - 1 }).climb
      mapmask := if_pos h

lemma below_next {v : Word} {n : Nat} (h : v.toNat + (n + 1) * 0x1000 ≤ userLimit.toNat) :
    ¬userLimit ≤ v ∧ (v + pageSize 0).toNat + n * 0x1000 ≤ userLimit.toNat := by
  have h1 : (pageSize 0).toNat = 0x1000 := rfl
  have h2 : userLimit.toNat = 0xe0000000 := rfl
  rw [BitVec.le_def, BitVec.toNat_add, h1, Nat.mod_eq_of_lt (by omega)]
  omega

/-- **The loop on a page table**, if the flexpage ends in it. -/
lemma table_loop_small (n : Nat) (u : Unmapped) (pg v : Word) (rPg : Nat → Word) (rNum : Nat → Nat)
    (hv : v.toNat + n * 0x1000 ≤ userLimit.toNat) :
    Runs flush 0 mapmask ⟨u, v, n, 0, pg, rPg, rNum⟩ (handTable flush mapmask 0 n pg v u) := by
  induction n generalizing u pg v with
  | zero => exact .done rfl
  | succ n ih =>
      obtain ⟨h1, h2⟩ := below_next hv
      refine .step (by simp) (body_table h1 rfl) ?_
      rw [nextEntry_stay (by simp)]
      exact ih _ _ _ h2

/-- **The loop on a page table**, all of which is in the flexpage: it climbs to the next entry of
the page directory. -/
lemma table_loop (n : Nat) (u : Unmapped) (pg v : Word) (rPg : Nat → Word) (rNum : Nat → Nat)
    (hv : v.toNat + (n + 1) * 0x1000 ≤ userLimit.toNat)
    (hr : Runs flush 1 mapmask
      ⟨if ownFlush mapmask then (handTable flush mapmask 1 (n + 1) pg v u).removeSubtree (rPg 0)
        else handTable flush mapmask 1 (n + 1) pg v u,
        v + BitVec.ofNat 32 ((n + 1) * 0x1000), rNum 0, 1, pgentNext (rPg 0) 1, rPg, rNum⟩ r) :
    Runs flush 1 mapmask ⟨u, v, n + 1, 0, pg, rPg, rNum⟩ r := by
  induction n generalizing u pg v with
  | zero =>
      obtain ⟨h1, -⟩ := below_next hv
      refine .step (by simp) (body_table h1 rfl) ?_
      rw [nextEntry_climb (by simp), climb]
      by_cases ho : ownFlush mapmask
      · simp only [if_pos ho] at hr ⊢
        exact hr
      · simp only [if_neg ho] at hr ⊢
        exact hr
  | succ n ih =>
      obtain ⟨h1, h2⟩ := below_next hv
      refine .step (by simp) (body_table h1 rfl) ?_
      rw [nextEntry_stay (by simp)]
      refine ih _ _ _ h2 ?_
      rw [BitVec.add_assoc, show pageSize 0 + BitVec.ofNat 32 ((n + 1) * 0x1000) =
        BitVec.ofNat 32 ((n + 1 + 1) * 0x1000) by
        rw [Nat.succ_mul (n + 1), BitVec.ofNat_add, BitVec.add_comm]; rfl]
      exact hr

/-! ### Page directories -/

/-- A page table maps memory on one side of the user limit. -/
lemma below_table {v : Word} (ha : v.toNat % 0x400000 = 0) (hv : ¬userLimit ≤ v) :
    v.toNat + 0x400 * 0x1000 ≤ userLimit.toNat := by
  have h2 : userLimit.toNat = 0xe0000000 := rfl
  rw [BitVec.le_def] at hv
  omega

lemma next_aligned {v : Word} (ha : v.toNat % 0x400000 = 0) (hv : ¬userLimit ≤ v) :
    (v + pageSize 1).toNat % 0x400000 = 0 := by
  have h1 : (pageSize 1).toNat = 0x400000 := rfl
  have h2 := below_table ha hv
  have h3 : userLimit.toNat = 0xe0000000 := rfl
  have h4 : (v.toNat + 0x400000) % 2 ^ 32 = v.toNat + 0x400000 := Nat.mod_eq_of_lt (by omega)
  rw [BitVec.toNat_add, h1, h4]
  omega

/-- **The loop on a page directory**, if the flexpage consists of entries of it. -/
lemma directory_loop (n : Nat) (u : Unmapped) (pg v : Word) (rPg : Nat → Word) (rNum : Nat → Nat)
    (ha : v.toNat % 0x400000 = 0) :
    Runs flush 1 mapmask ⟨u, v, n, 1, pg, rPg, rNum⟩ (handDirectory flush mapmask n pg v u) := by
  induction n generalizing u pg v rPg rNum with
  | zero => exact .done rfl
  | succ n ih =>
      rw [handDirectory]
      by_cases hv : userLimit ≤ v
      · rw [if_pos hv]
        exact .leave (if_pos hv)
      · rw [if_neg hv]
        have hbody : body flush 1 mapmask ⟨u, v, n + 1, 1, pg, rPg, rNum⟩ =
            some (atEntry flush 1 mapmask ⟨u, v, n + 1, 1, pg, rPg, rNum⟩) := by
          rw [body, if_neg hv, if_neg (by simp)]
        refine .step (by simp) hbody ?_
        rw [handEntry, atEntry]
        by_cases hval : u.ptab.isValid pg
        · rw [if_neg (not_not.mpr hval), if_neg (not_not.mpr hval)]
          by_cases hsub : u.ptab.isSubtree pg 1
          · rw [if_pos hsub, if_pos hsub]
            refine table_loop 0x3ff u _ v _ _ (below_table ha hv) ?_
            have h1 := ih
              (if ownFlush mapmask then
                (handTable flush mapmask 1 (tableSize 0) (u.ptab.subtree pg) v u).removeSubtree pg
                else handTable flush mapmask 1 (tableSize 0) (u.ptab.subtree pg) v u)
              (pgentNext pg 1) (v + pageSize 1) (Function.update rPg 0 pg)
                (Function.update rNum 0 n)
              (next_aligned ha hv)
            rw [show pageSize 1 = BitVec.ofNat 32 ((0x3ff + 1) * 0x1000) from rfl] at h1 ⊢
            simp only [Function.update_self]
            exact h1
          · rw [if_neg hsub, if_neg hsub, nextEntry_stay (by simp)]
            exact ih _ _ _ _ _ (next_aligned ha hv)
        · rw [if_pos hval, if_pos hval, nextEntry_stay (by simp)]
          exact ih _ _ _ _ _ (next_aligned ha hv)

/-- **The loop below one entry of a page directory**: it does what it is for unless it is to hand
over several pieces of a larger page. -/
lemma part_loop (n : Nat) (u : Unmapped) (pg v : Word) (rPg : Nat → Word) (rNum : Nat → Nat)
    (h0 : n ≠ 0)
    (hv : ¬userLimit ≤ v → v.toNat + n * 0x1000 ≤ userLimit.toNat)
    (hone : n = 1 ∨ userLimit ≤ v ∨ ¬u.ptab.isValid pg ∨ u.ptab.isSubtree pg 1 ∨
      mapmask &&& mdbAllSpaces ≠ 0) :
    Runs flush 0 mapmask ⟨u, v, n, 1, pg, rPg, rNum⟩ (handPart flush mapmask pg v n u) := by
  rw [handPart]
  by_cases hlim : userLimit ≤ v
  · rw [if_pos hlim]
    exact .leave (if_pos hlim)
  rw [if_neg hlim]
  by_cases hval : u.ptab.isValid pg
  swap
  · rw [if_pos hval]
    refine .leave ?_
    rw [body, if_neg hlim, if_pos (by simp), if_pos hval]
  rw [if_neg (not_not.mpr hval)]
  by_cases hsub : u.ptab.isSubtree pg 1
  · rw [if_pos hsub]
    refine .step h0 ?_ (table_loop_small n u _ v rPg rNum (hv hlim))
    rw [body, if_neg hlim, if_pos (by simp), if_neg (not_not.mpr hval), if_pos hsub]
    rfl
  rw [if_neg hsub]
  by_cases hall : mapmask &&& mdbAllSpaces ≠ 0
  · rw [if_pos hall]
    refine .leave ?_
    rw [body, if_neg hlim, if_pos (by simp), if_neg (not_not.mpr hval), if_neg hsub, if_pos hall]
  rw [if_neg hall]
  obtain rfl : n = 1 := hone.resolve_right fun h =>
    h.elim hlim fun h => h.elim (fun h => h hval) fun h => h.elim hsub hall
  refine Runs.step h0 (show _ = some (atEntry flush 0 mapmask ⟨u, v, 1, 1, pg, rPg, rNum⟩) from
    ?_) ?_
  · rw [body, if_neg hlim, if_pos (by simp), if_neg (not_not.mpr hval), if_neg hsub, if_neg hall]
  · rw [atEntry, if_neg (not_not.mpr hval), if_neg hsub, nextEntry_stay (by simp)]
    exact .done rfl

end Walk

/-! ### The flexpage -/

lemma fpageAddress_mod (fp : Word) (n : Nat) (hn : n ≤ 32) :
    (fpageAddress fp n).toNat % 2 ^ n = 0 := by
  refine Nat.eq_of_testBit_eq fun i => ?_
  rw [Nat.testBit_mod_two_pow, BitVec.testBit_toNat, fpageAddress, Nat.zero_testBit]
  by_cases hi : i < n
  · simp only [BitVec.getLsbD_and, BitVec.getLsbD_not, BitVec.getLsbD_ushiftRight,
      BitVec.getLsbD_allOnes,
      show i < 32 by omega, show 32 - n + i < 32 by omega, decide_true, Bool.not_true,
      Bool.and_false]
  · simp [hi]

/-- A small flexpage does not cross the user limit. -/
lemma below_flexpage {num : Nat} (h22 : num < 22) {v : Word} (hv : v.toNat % 2 ^ num = 0)
    (hl : ¬userLimit ≤ v) : v.toNat + 2 ^ num ≤ userLimit.toNat := by
  -- both are multiples of the size of the flexpage
  obtain ⟨q, hq⟩ := Nat.dvd_of_mod_eq_zero hv
  have hlim : userLimit.toNat = 2 ^ num * (896 * 2 ^ (22 - num)) := by
    rw [Nat.mul_left_comm, ← pow_add, Nat.add_sub_cancel' h22.le]
    rfl
  rw [BitVec.le_def, hlim, hq, not_le] at hl
  rw [hlim, hq, ← Nat.mul_succ]
  exact Nat.mul_le_mul_left _ (Nat.lt_of_mul_lt_mul_left hl)

/-- The flexpage is several small pages of a larger one, which is not flushed in the space itself.
-/
def PartOfPage (pgdir fp mapmask : Word) (k : Maps) : Prop :=
  let vaddr := fpageAddress fp (fpageSize fp)
  let pg := pgentNext pgdir (tableIndex vaddr 1)
  pgshift 0 < fpageSize fp ∧ fpageSize fp < pgshift 1 ∧ ¬userLimit ≤ vaddr ∧ k.ptab.isValid pg ∧
    ¬k.ptab.isSubtree pg 1 ∧ mapmask &&& mdbAllSpaces = 0

/-- The walk does what it is for, unless the flexpage is part of a larger page. -/
lemma fpageUnmap_handLeaves (pgdir fp : Word) (k : Maps) (h12 : 12 ≤ fpageSize fp)
    (h32 : fpageSize fp ≤ 32) (hp : ¬PartOfPage pgdir fp mapmask k) :
    ∃ fuel, fpageUnmap flush fuel pgdir fp mapmask k =
        some (handLeaves flush mapmask pgdir fp k) := by
  have hmod := fpageAddress_mod fp _ h32
  have h0 : ¬fpageSize fp < pgshift 0 := by simp [pgshift]; omega
  have hl : userLimit.toNat = 0xe0000000 := rfl
  unfold fpageUnmap handLeaves
  dsimp only
  unfold PartOfPage at hp
  dsimp only at hp
  generalize fpageAddress fp (fpageSize fp) = v at hmod hp ⊢
  generalize fpageSize fp = num at h12 h32 h0 hmod hp ⊢
  by_cases hn : num < pgshift 1
  · have hn' : num < 22 := hn
    have hbelow : ¬userLimit ≤ v → v.toNat + 2 ^ (num - pgshift 0) * 0x1000 ≤ userLimit.toNat :=
      fun hv => by
      have hsize : 2 ^ (num - pgshift 0) * 0x1000 = 2 ^ num := by
        rw [show (0x1000 : Nat) = 2 ^ 12 from rfl, ← pow_add, show pgshift 0 = 12 from rfl,
          Nat.sub_add_cancel h12]
      rw [hsize]
      exact below_flexpage hn' hmod hv
    have hone : 2 ^ (num - pgshift 0) = 1 ∨ userLimit ≤ v ∨
        ¬k.ptab.isValid (pgentNext pgdir (tableIndex v 1)) ∨
        k.ptab.isSubtree (pgentNext pgdir (tableIndex v 1)) 1 ∨ mapmask &&& mdbAllSpaces ≠ 0 := by
      rcases h12.eq_or_lt with h | h
      · exact .inl (by rw [← h]; rfl)
      · refine .inr (by_contra fun hno => hp ?_)
        simp only [not_or, not_not] at hno
        exact ⟨h, hn, hno⟩
    obtain ⟨fuel, h⟩ := @Walk.part_loop flush mapmask (2 ^ (num - pgshift 0))
      { toMaps := k, calls := [], freed := [] } (pgentNext pgdir (tableIndex v 1)) v (fun _ => 0)
      (fun _ => 0) (by simp) hbelow hone
    refine ⟨fuel, ?_⟩
    rw [if_neg h0, unmapPgsize, if_pos hn, if_pos hn]
    exact h
  · have halign : v.toNat % 0x400000 = 0 := by
      have h22 : 22 ≤ num := not_lt.mp hn
      exact Nat.mod_eq_zero_of_dvd ((pow_dvd_pow 2 h22).trans (Nat.dvd_of_mod_eq_zero hmod))
    obtain ⟨fuel, h⟩ := @Walk.directory_loop flush mapmask (2 ^ (num - pgshift 1))
      { toMaps := k, calls := [], freed := [] } (pgentNext pgdir (tableIndex v 1)) v (fun _ => 0)
      (fun _ => 0) halign
    refine ⟨fuel, ?_⟩
    rw [if_neg h0, unmapPgsize, if_neg hn, if_neg hn]
    exact h

/-! ### The entries of the flexpage -/

/-- `pg` is the valid entry, of page size `size`, that maps the address `a`. -/
def IsLeaf (m : Ptab) (pgdir a pg : Word) (size : Nat) : Prop :=
  let pde := pgentNext pgdir (tableIndex a 1)
  m.isValid pde ∧ (m.isSubtree pde 1 ∧
    pg = pgentNext (m.subtree pde) (tableIndex a 0) ∧ m.isValid pg ∧
    size = 0 ∨ ¬m.isSubtree pde 1 ∧ pg = pde ∧ size = 1)

/-- The address is in the flexpage. -/
def InFpage (fp a : Word) : Prop :=
  (fpageAddress fp (fpageSize fp)).toNat ≤ a.toNat ∧
    a.toNat < (fpageAddress fp (fpageSize fp)).toNat + 2 ^ fpageSize fp

lemma pgentNext_add (pg : Word) (i j : Nat) :
    pgentNext (pgentNext pg i) j = pgentNext pg (i + j) := by
  rw [pgentNext, pgentNext, pgentNext, BitVec.ofNat_add, BitVec.mul_add, BitVec.add_assoc]

@[simp] lemma pgentNext_zero (pg : Word) : pgentNext pg 0 = pg := by simp [pgentNext]

/-- The call for an entry. -/
def callAt (m : Ptab) (mapmask pg : Word) (size : Nat) (vaddr : Word) (pgsize : Nat) : FlushCall :=
  ⟨m.mapnode pg (vaddr &&& ~~~pageMask size), pg, size, vaddr, pgsize, mapmask⟩

section Static

variable (hkeep : ∀ c k, (flush c k).ptab = k.ptab)

include hkeep

/-- The entries of a page table that are handed over, if the page tables are left alone. -/
lemma handTable_static (pgsize n : Nat) (pg v : Word) (u : Unmapped) :
    (handTable flush mapmask pgsize n pg v u).ptab = u.ptab ∧
      ∀ c, c ∈ (handTable flush mapmask pgsize n pg v u).calls ↔ c ∈ u.calls ∨
        ∃ j < n, u.ptab.isValid (pgentNext pg j) ∧
          c = callAt u.ptab mapmask (pgentNext pg j) 0
          (v + BitVec.ofNat 32 (j * 0x1000)) pgsize := by
  induction n generalizing pg v u with
  | zero => exact ⟨rfl, fun c => by simp [handTable]⟩
  | succ n ih =>
      have hstep : ∀ j, v + pageSize 0 + BitVec.ofNat 32 (j * 0x1000) =
          v + BitVec.ofNat 32 ((j + 1) * 0x1000) := fun j => by
        rw [Nat.succ_mul, Nat.add_comm, BitVec.ofNat_add, BitVec.add_assoc]
        rfl
      rw [handTable]
      generalize hu1 : (if u.ptab.isValid pg then u.hand flush mapmask pg 0 v pgsize else u) = u1
      have h1 : u1.ptab = u.ptab ∧ ∀ c, c ∈ u1.calls ↔ c ∈ u.calls ∨ u.ptab.isValid pg ∧
          c = callAt u.ptab mapmask pg 0 v pgsize := by
        rw [← hu1]
        split
        · rename_i hv
          exact ⟨hkeep _ _, fun c => by simp [Unmapped.hand, callAt, hv]⟩
        · rename_i hv
          exact ⟨rfl, fun c => by simp [hv]⟩
      obtain ⟨h2, h3⟩ := ih (pgentNext pg 1) (v + pageSize 0) u1
      refine ⟨h2.trans h1.1, fun c => ?_⟩
      rw [h3, h1.2, h1.1, Nat.exists_lt_succ_left, or_assoc]
      simp only [hstep, pgentNext_add, Nat.add_comm 1]
      simp

/-- The pieces of a page that are handed over. -/
lemma handPieces_static (pg : Word) (n : Nat) (v : Word) (u : Unmapped) (c : FlushCall) :
    c ∈ (handPieces flush mapmask pg n v u).calls ↔ c ∈ u.calls ∨
      ∃ j < n, c = callAt u.ptab mapmask pg 1 (v + BitVec.ofNat 32 (j * 0x1000)) 0 := by
  induction n generalizing v u with
  | zero => simp [handPieces]
  | succ n ih =>
      have hstep : ∀ j, v + pageSize 0 + BitVec.ofNat 32 (j * 0x1000) =
          v + BitVec.ofNat 32 ((j + 1) * 0x1000) := fun j => by
        rw [Nat.succ_mul, Nat.add_comm, BitVec.ofNat_add, BitVec.add_assoc]
        rfl
      have hp : (u.hand flush mapmask pg 1 v 0).ptab = u.ptab := hkeep _ _
      rw [handPieces, ih, hp, Nat.exists_lt_succ_left]
      simp only [hstep]
      simp [Unmapped.hand, callAt, or_assoc]

/-- A call for an entry of the page directory, or for one below it. -/
def EntryCall (m : Ptab) (mapmask pg v : Word) (c : FlushCall) : Prop :=
  m.isValid pg ∧ (m.isSubtree pg 1 ∧ (∃ j < 0x400, m.isValid (pgentNext (m.subtree pg) j) ∧
      c = callAt m mapmask (pgentNext (m.subtree pg) j) 0 (v + BitVec.ofNat 32 (j * 0x1000)) 1) ∨
    ¬m.isSubtree pg 1 ∧ c = callAt m mapmask pg 1 v 1)

lemma handEntry_static (hno : ¬ownFlush mapmask) (pg v : Word) (u : Unmapped) :
    (handEntry flush mapmask pg v u).ptab = u.ptab ∧
      ∀ c, c ∈ (handEntry flush mapmask pg v u).calls ↔ c ∈ u.calls ∨
      EntryCall u.ptab mapmask pg v c := by
  unfold handEntry EntryCall
  dsimp only
  rw [if_neg hno, show tableSize 0 = 0x400 from rfl]
  by_cases hv : u.ptab.isValid pg
  · rw [if_neg (not_not.mpr hv)]
    split
    · rename_i hs
      obtain ⟨h1, h2⟩ := @handTable_static flush mapmask hkeep 1 0x400 (u.ptab.subtree pg) v u
      exact ⟨h1, fun c => (h2 c).trans (by simp [hv, hs])⟩
    · rename_i hs
      exact ⟨hkeep _ _, fun c => by simp [Unmapped.hand, callAt, hv, hs]⟩
  · rw [if_pos hv]
    exact ⟨rfl, fun c => by simp [hv]⟩

lemma handDirectory_static (hno : ¬ownFlush mapmask) (n : Nat) (pg v : Word) (u : Unmapped)
    (ha : v.toNat % 0x400000 = 0) (c : FlushCall) :
    c ∈ (handDirectory flush mapmask n pg v u).calls ↔ c ∈ u.calls ∨
      ∃ i < n, v.toNat + i * 0x400000 < userLimit.toNat ∧
        EntryCall u.ptab mapmask (pgentNext pg i) (v + BitVec.ofNat 32 (i * 0x400000)) c := by
  induction n generalizing pg v u with
  | zero => simp [handDirectory]
  | succ n ih =>
      rw [handDirectory]
      split
      · rename_i hl
        rw [BitVec.le_def] at hl
        refine ⟨.inl, fun h => h.elim id fun ⟨i, _, hi, _⟩ => ?_⟩
        omega
      · rename_i hl
        obtain ⟨h1, h2⟩ := @handEntry_static flush mapmask hkeep hno pg v u
        have hl' : v.toNat < userLimit.toNat := by
          rw [BitVec.le_def] at hl
          omega
        have hnext : (v + pageSize 1).toNat = v.toNat + 0x400000 := by
          have h3 := Walk.below_table ha hl
          have h4 : userLimit.toNat = 0xe0000000 := rfl
          rw [BitVec.toNat_add, show (pageSize 1).toNat = 0x400000 from rfl]
          exact Nat.mod_eq_of_lt (by omega)
        have hstep : ∀ j, v + pageSize 1 + BitVec.ofNat 32 (j * 0x400000) =
            v + BitVec.ofNat 32 ((j + 1) * 0x400000) := fun j => by
          rw [Nat.succ_mul, Nat.add_comm, BitVec.ofNat_add, BitVec.add_assoc]
          rfl
        rw [ih _ _ _ (Walk.next_aligned ha hl), h2, h1, Nat.exists_lt_succ_left, or_assoc]
        simp only [hstep, hnext, pgentNext_add, Nat.add_comm 1, Nat.add_assoc v.toNat]
        simp only [Nat.succ_mul, Nat.add_comm 0x400000, Nat.zero_mul, Nat.add_zero, hl', true_and,
          pgentNext_zero, BitVec.add_zero]
omit hkeep in
lemma tableIndex_one (a : Word) : tableIndex a 1 = a.toNat / 0x400000 := by
  have := a.isLt
  rw [tableIndex, BitVec.toNat_ushiftRight, Nat.shiftRight_eq_div_pow]
  exact Nat.mod_eq_of_lt (by change a.toNat / 0x400000 < 0x400; omega)

omit hkeep in
lemma tableIndex_zero (a : Word) : tableIndex a 0 = a.toNat / 0x1000 % 0x400 := by
  rw [tableIndex, BitVec.toNat_ushiftRight, Nat.shiftRight_eq_div_pow]
  rfl

omit hkeep in
lemma toNat_add_ofNat {v : Word} {n : Nat} (h : v.toNat + n < 2 ^ 32) :
    (v + BitVec.ofNat 32 n).toNat = v.toNat + n := by
  rw [BitVec.toNat_add, BitVec.toNat_ofNat, Nat.add_mod_mod, Nat.mod_eq_of_lt h]

omit hkeep in
/-- A small flexpage lies below one entry of the page directory. -/
lemma small_index {num v j : Nat} (h12 : 12 ≤ num) (h22 : num < 22) (hv : v % 2 ^ num = 0)
    (hj : j < 2 ^ (num - 12)) :
    (v + j * 0x1000) / 0x400000 = v / 0x400000 ∧
      (v + j * 0x1000) / 0x1000 % 0x400 = v / 0x1000 % 0x400 + j ∧
      v + j * 0x1000 < v + 2 ^ num := by
  interval_cases num <;> norm_num at hv hj ⊢ <;> omega

omit hkeep in
/-- The small pages of a flexpage. -/
lemma small_offset {num v a : Nat} (h12 : 12 ≤ num) (hv : v % 2 ^ num = 0) (hva : v ≤ a)
    (ha : a < v + 2 ^ num) (h0 : a % 0x1000 = 0) : ∃ j < 2 ^ (num - 12), a = v + j * 0x1000 := by
  have hsize : 2 ^ (num - 12) * 0x1000 = 2 ^ num := by
    rw [show (0x1000 : Nat) = 2 ^ 12 from rfl, ← pow_add, Nat.sub_add_cancel h12]
  obtain ⟨q, hq⟩ := Nat.dvd_of_mod_eq_zero hv
  have hv0 : v % 0x1000 = 0 := Nat.mod_eq_zero_of_dvd (hq ▸ (Dvd.intro_left _ hsize).mul_right q)
  exact ⟨(a - v) / 0x1000, by omega, by omega⟩

/-- Small flexpages. -/
lemma handPart_static {num : Nat} (h12 : 12 ≤ num) (h22 : num < 22) {v : Word}
    (hv : v.toNat % 2 ^ num = 0) (pgdir : Word) (u : Unmapped) (hu : u.calls = []) (c : FlushCall) :
    c ∈ (handPart flush mapmask (pgentNext pgdir (tableIndex v 1)) v (2 ^ (num - 12)) u).calls ↔
      ∃ a pg size, IsLeaf u.ptab pgdir a pg size ∧
      (v.toNat ≤ a.toNat ∧ a.toNat < v.toNat + 2 ^ num) ∧
        a < userLimit ∧ ¬(size = 1 ∧ mapmask &&& mdbAllSpaces ≠ 0) ∧ a.toNat % 0x1000 = 0 ∧
        c = callAt u.ptab mapmask pg size a 0 := by
  have hlim : userLimit.toNat = 0xe0000000 := rfl
  -- the small pages of the flexpage, and their entries
  have hpages : ∀ j < 2 ^ (num - 12), v < userLimit → ∀ a, a = v + BitVec.ofNat 32 (j * 0x1000) →
      tableIndex a 1 = tableIndex v 1 ∧ tableIndex a 0 = tableIndex v 0 + j ∧
      (v.toNat ≤ a.toNat ∧ a.toNat < v.toNat + 2 ^ num) ∧ a < userLimit ∧ a.toNat % 0x1000 = 0 := by
    rintro j hj hl a rfl
    obtain ⟨h1, h2, h3⟩ := small_index h12 h22 hv hj
    have hlt := below_flexpage h22 hv (BitVec.not_le.mpr hl)
    have hto := toNat_add_ofNat (v := v) (n := j * 0x1000) (by omega)
    have h0 : v.toNat % 0x1000 = 0 := Nat.mod_eq_zero_of_dvd
      ((pow_dvd_pow 2 h12).trans (Nat.dvd_of_mod_eq_zero hv))
    rw [tableIndex_one, tableIndex_one, tableIndex_zero, tableIndex_zero, hto, BitVec.lt_def, hto]
    exact ⟨h1, h2, ⟨by omega, h3⟩, by omega, by omega⟩
  have hoffset : ∀ a : Word, v.toNat ≤ a.toNat ∧ a.toNat < v.toNat + 2 ^ num →
    a.toNat % 0x1000 = 0 →
      ∃ j < 2 ^ (num - 12), a = v + BitVec.ofNat 32 (j * 0x1000) := fun a ha h0 => by
    obtain ⟨j, hj, hja⟩ := small_offset h12 hv ha.1 ha.2 h0
    refine ⟨j, hj, BitVec.eq_of_toNat_eq ?_⟩
    have := a.isLt
    rw [toNat_add_ofNat (by omega), hja]
  rw [handPart]
  by_cases hl : userLimit ≤ v
  · rw [if_pos hl, hu]
    refine ⟨fun h => absurd h (by simp), ?_⟩
    rintro ⟨a, pg, size, -, ha, hal, -⟩
    rw [BitVec.le_def] at hl
    rw [BitVec.lt_def] at hal
    omega
  rw [if_neg hl]
  have hl' : v < userLimit := by
    rw [BitVec.lt_def]
    rw [BitVec.le_def] at hl
    omega
  -- all of them lie below one entry of the page directory
  have hpde : ∀ a : Word, v.toNat ≤ a.toNat ∧ a.toNat < v.toNat + 2 ^ num → a.toNat % 0x1000 = 0 →
      tableIndex a 1 = tableIndex v 1 := fun a ha h0 => by
    obtain ⟨j, hj, hja⟩ := hoffset a ha h0
    exact (hpages j hj hl' a hja).1
  by_cases hval : u.ptab.isValid (pgentNext pgdir (tableIndex v 1))
  swap
  · rw [if_pos hval, hu]
    refine ⟨fun h => absurd h (by simp), ?_⟩
    rintro ⟨a, pg, size, hleaf, ha, -, -, h0, -⟩
    unfold IsLeaf at hleaf
    rw [hpde a ha h0] at hleaf
    exact absurd hleaf.1 hval
  rw [if_neg (not_not.mpr hval)]
  by_cases hsub : u.ptab.isSubtree (pgentNext pgdir (tableIndex v 1)) 1
  · rw [if_pos hsub, (handTable_static hkeep 0 _ _ v u).2, hu]
    constructor
    · rintro (h | ⟨j, hj, hv', rfl⟩)
      · simp at h
      obtain ⟨h1, h2, h3, h4, h5⟩ := hpages j hj hl' _ rfl
      rw [pgentNext_add, ← h2] at hv' ⊢
      refine ⟨_, _, 0, ?_, h3, h4, by simp, h5, rfl⟩
      unfold IsLeaf
      rw [h1]
      exact ⟨hval, .inl ⟨hsub, rfl, hv', rfl⟩⟩
    · rintro ⟨a, pg, size, hleaf, ha, hal, -, h0, rfl⟩
      obtain ⟨j, hj, hja⟩ := hoffset a ha h0
      obtain ⟨h1, h2, -⟩ := hpages j hj hl' a hja
      unfold IsLeaf at hleaf
      rw [h1, h2] at hleaf
      obtain ⟨-, ⟨-, rfl, hv', rfl⟩ | ⟨hno, -⟩⟩ := hleaf
      · refine .inr ⟨j, hj, ?_, ?_⟩
        · rw [pgentNext_add]
          exact hv'
        · rw [pgentNext_add, hja]
      · exact absurd hsub hno
  rw [if_neg hsub]
  by_cases hall : mapmask &&& mdbAllSpaces ≠ 0
  · rw [if_pos hall, hu]
    refine ⟨fun h => absurd h (by simp), ?_⟩
    rintro ⟨a, pg, size, hleaf, ha, -, href, h0, -⟩
    unfold IsLeaf at hleaf
    rw [hpde a ha h0] at hleaf
    obtain ⟨-, ⟨hs, -⟩ | ⟨-, -, hs⟩⟩ := hleaf
    · exact absurd hs hsub
    · exact absurd ⟨hs, hall⟩ href
  · rw [if_neg hall, handPieces_static hkeep, hu]
    constructor
    · rintro (h | ⟨j, hj, rfl⟩)
      · simp at h
      obtain ⟨h1, h2, h3, h4, h5⟩ := hpages j hj hl' _ rfl
      refine ⟨_, _, 1, ?_, h3, h4, fun h => hall h.2, h5, rfl⟩
      unfold IsLeaf
      rw [h1]
      exact ⟨hval, .inr ⟨hsub, rfl, rfl⟩⟩
    · rintro ⟨a, pg, size, hleaf, ha, -, -, h0, rfl⟩
      obtain ⟨j, hj, hja⟩ := hoffset a ha h0
      unfold IsLeaf at hleaf
      rw [hpde a ha h0] at hleaf
      obtain ⟨-, ⟨hs, -⟩ | ⟨-, rfl, rfl⟩⟩ := hleaf
      · exact absurd hs hsub
      · exact .inr ⟨j, hj, by rw [hja]⟩

/-- Large flexpages. -/
lemma handDirectory_leaves {num : Nat} (hno : ¬ownFlush mapmask) (h22 : 22 ≤ num) {v : Word}
    (hv : v.toNat % 2 ^ num = 0) (pgdir : Word) (u : Unmapped) (hu : u.calls = []) (c : FlushCall) :
    c ∈ (handDirectory flush mapmask (2 ^ (num - 22))
      (pgentNext pgdir (tableIndex v 1)) v u).calls ↔
      ∃ a pg size, IsLeaf u.ptab pgdir a pg size ∧
      (v.toNat ≤ a.toNat ∧ a.toNat < v.toNat + 2 ^ num) ∧
        a < userLimit ∧ a.toNat % 2 ^ pgshift size = 0 ∧ c = callAt u.ptab mapmask pg size a 1 := by
  have hlim : userLimit.toNat = 0xe0000000 := rfl
  have hsize : 2 ^ (num - 22) * 0x400000 = 2 ^ num := by
    rw [show (0x400000 : Nat) = 2 ^ 22 from rfl, ← pow_add, Nat.sub_add_cancel h22]
  have hv0 : v.toNat % 0x400000 = 0 := Nat.mod_eq_zero_of_dvd
    ((pow_dvd_pow 2 h22).trans (Nat.dvd_of_mod_eq_zero hv))
  rw [handDirectory_static hkeep hno _ _ _ _ hv0, hu]
  constructor
  · rintro (h | ⟨i, hi, hil, hval, ⟨hsub, j, hj, hv', rfl⟩ | ⟨hsub, rfl⟩⟩)
    · simp at h
    · -- an entry of a page table
      have h1 := toNat_add_ofNat (v := v) (n := i * 0x400000) (by omega)
      have h2 := toNat_add_ofNat (v := v + BitVec.ofNat 32 (i * 0x400000))
        (n := j * 0x1000) (by omega)
      rw [h1] at h2
      have hpde : tableIndex (v + BitVec.ofNat 32 (i * 0x400000) + BitVec.ofNat 32 (j * 0x1000)) 1 =
          tableIndex v 1 + i := by
        rw [tableIndex_one, tableIndex_one, h2]
        omega
      have hpte :
          tableIndex (v + BitVec.ofNat 32 (i * 0x400000) + BitVec.ofNat 32 (j * 0x1000)) 0 = j := by
        rw [tableIndex_zero, h2]
        omega
      rw [pgentNext_add] at hval hsub hv' ⊢
      refine ⟨_, _, 0, ?_, ⟨by omega, ?_⟩, ?_, ?_, rfl⟩
      · unfold IsLeaf
        rw [hpde, hpte]
        exact ⟨hval, .inl ⟨hsub, rfl, hv', rfl⟩⟩
      · rw [h2, ← hsize]
        have := Nat.mul_le_mul_right 0x400000 (Nat.succ_le_of_lt hi)
        omega
      · rw [BitVec.lt_def, h2]
        omega
      · rw [h2]
        change _ % 0x1000 = 0
        omega
    · -- a large page
      have h1 := toNat_add_ofNat (v := v) (n := i * 0x400000) (by omega)
      have hpde : tableIndex (v + BitVec.ofNat 32 (i * 0x400000)) 1 = tableIndex v 1 + i := by
        rw [tableIndex_one, tableIndex_one, h1]
        omega
      rw [pgentNext_add] at hval hsub ⊢
      refine ⟨_, _, 1, ?_, ⟨by omega, ?_⟩, ?_, ?_, rfl⟩
      · unfold IsLeaf
        rw [hpde]
        exact ⟨hval, .inr ⟨hsub, rfl, rfl⟩⟩
      · rw [h1, ← hsize]
        exact Nat.add_lt_add_left (Nat.mul_lt_mul_of_pos_right hi (by decide)) _
      · rw [BitVec.lt_def, h1]
        exact hil
      · rw [h1]
        change _ % 0x400000 = 0
        omega
  · rintro ⟨a, pg, size, hleaf, ⟨hva, hav⟩, hal, h0, rfl⟩
    rw [BitVec.lt_def] at hal
    have := a.isLt
    obtain ⟨i, hi⟩ : ∃ i, i = (a.toNat - v.toNat) / 0x400000 := ⟨_, rfl⟩
    have hi' : i < 2 ^ (num - 22) := by
      by_contra hn
      have := Nat.mul_le_mul_right 0x400000 (not_lt.mp hn)
      omega
    have hpde : tableIndex a 1 = tableIndex v 1 + i := by
      rw [tableIndex_one, tableIndex_one]
      omega
    unfold IsLeaf at hleaf
    rw [hpde, ← pgentNext_add] at hleaf
    obtain ⟨hval, ⟨hsub, rfl, hv', rfl⟩ | ⟨hsub, rfl, rfl⟩⟩ := hleaf
    · have h0 : a.toNat % 0x1000 = 0 := h0
      have hpte : a = v + BitVec.ofNat 32 (i * 0x400000) +
          BitVec.ofNat 32 (tableIndex a 0 * 0x1000) := by
        refine BitVec.eq_of_toNat_eq ?_
        have h1 := toNat_add_ofNat (v := v) (n := i * 0x400000) (by omega)
        have hp := tableIndex_zero a
        rw [toNat_add_ofNat (by rw [h1]; omega), h1]
        omega
      refine .inr ⟨i, hi', by omega, hval, .inl ⟨hsub, tableIndex a 0, ?_, hv', ?_⟩⟩
      · rw [tableIndex_zero]
        exact Nat.mod_lt _ (by decide)
      · rw [← hpte]
    · have h0 : a.toNat % 0x400000 = 0 := h0
      have ha : a = v + BitVec.ofNat 32 (i * 0x400000) := by
        refine BitVec.eq_of_toNat_eq ?_
        rw [toNat_add_ofNat (by omega)]
        omega
      exact .inr ⟨i, hi', by omega, hval, .inr ⟨hsub, by rw [← ha]⟩⟩

/-- **The entries that are handed over** by a flush that leaves the page tables alone: those that
map the flexpage below the user limit, once for each page of the smaller of the two sizes. -/
lemma handLeaves_exact (hno : ¬ownFlush mapmask) {fp : Word} (h12 : 12 ≤ fpageSize fp)
    (h32 : fpageSize fp ≤ 32) (pgdir : Word) (k : Maps) (c : FlushCall) :
    c ∈ (handLeaves flush mapmask pgdir fp k).calls ↔
      ∃ a pg size, IsLeaf k.ptab pgdir a pg size ∧ InFpage fp a ∧ a < userLimit ∧
        ¬(unmapPgsize (fpageSize fp) < size ∧ mapmask &&& mdbAllSpaces ≠ 0) ∧
        a.toNat % 2 ^ pgshift (min size (unmapPgsize (fpageSize fp))) = 0 ∧
        c = callAt k.ptab mapmask pg size a (unmapPgsize (fpageSize fp)) := by
  have hmod := fpageAddress_mod fp _ h32
  have hsize : ∀ {a pg size}, IsLeaf k.ptab pgdir a pg size → size ≤ 1 := fun {a pg size} h => by
    rcases h.2 with ⟨-, -, -, rfl⟩ | ⟨-, -, rfl⟩ <;> decide
  unfold handLeaves InFpage
  dsimp only
  generalize fpageAddress fp (fpageSize fp) = v at hmod ⊢
  generalize fpageSize fp = num at h12 h32 hmod ⊢
  by_cases hn : num < pgshift 1
  · rw [if_pos hn, show unmapPgsize num = 0 from if_pos hn]
    refine (handPart_static hkeep h12 (show num < 22 from hn) hmod pgdir
      { toMaps := k, calls := [], freed := [] } rfl c).trans ?_
    refine exists_congr fun a => exists_congr fun pg =>
      exists_congr fun size => and_congr_right fun hleaf => ?_
    have hs := hsize hleaf
    rw [Nat.min_zero, show size = 1 ↔ 0 < size by omega]
    rfl
  · rw [if_neg hn, show unmapPgsize num = 1 from if_neg hn]
    refine (handDirectory_leaves hkeep hno (show 22 ≤ num from not_lt.mp hn) hmod pgdir
      { toMaps := k, calls := [], freed := [] } rfl c).trans ?_
    refine exists_congr fun a => exists_congr fun pg =>
      exists_congr fun size => and_congr_right fun hleaf => ?_
    have hs := hsize hleaf
    rw [Nat.min_eq_left hs, iff_true_intro (show ¬(1 < size ∧
      mapmask &&& mdbAllSpaces ≠ 0) by omega), true_and]

end Static

/-! ### Part of a larger page -/

lemma pgentNext_ne (pg : Word) {j : Nat} (h0 : 0 < j) (h1 : j < 0x400) : pgentNext pg j ≠ pg := by
  unfold pgentNext
  bv_omega

/-- The first call is made, and the walk has left the entry `pde` of the page directory behind. -/
structure Past (pde : Word) (n : Nat) (s : Walk) : Prop where
  calls : ∃ c cs, s.calls = c :: cs ∧ ∀ c' ∈ cs, c'.size = 0 ∨ c'.pg ≠ pde
  position : s.size = 0 ∨ s.size = 1 ∧ ∃ j, s.pg = pgentNext pde j ∧ 0 < j ∧ j + s.num = n

/-- It does not come back to it. -/
lemma Past.body {pde : Word} {n : Nat} (h : Past pde n s) (hn : n ≤ 0x400) (h0 : s.num ≠ 0)
    (hb : s.body flush 0 mapmask = some s') : Past pde n s' := by
  obtain ⟨c, cs, hc, hcs⟩ := h.calls
  have hlim : ¬userLimit ≤ s.vaddr := fun hl => by
    rw [Walk.body, if_pos hl] at hb
    simp at hb
  -- a call for another entry
  have hand : ∀ (u : Unmapped) pg size, u.calls = c :: cs → size = 0 ∨ pg ≠ pde →
      ∃ c cs, (u.hand flush mapmask pg size s.vaddr 0).calls = c :: cs ∧
        ∀ c' ∈ cs, c'.size = 0 ∨ c'.pg ≠ pde := fun u pg size hu hne => by
    refine ⟨c, cs ++ [_], by rw [Unmapped.hand, hu, List.cons_append], fun c' hc' => ?_⟩
    rcases List.mem_append.mp hc' with hc' | hc'
    · exact hcs c' hc'
    · rw [List.mem_singleton.mp hc']
      exact hne
  rcases h.position with hs | ⟨hs, j, hpg, hj, hjn⟩
  · rw [Walk.body_table hlim hs, Walk.nextEntry_stay (by simp), Option.some.injEq] at hb
    subst hb
    refine ⟨?_, .inl hs⟩
    unfold Walk.offer
    dsimp only
    split
    · exact hand _ _ _ hc (.inl rfl)
    · exact h.calls
  · rw [Walk.body, if_neg hlim, if_pos (by omega)] at hb
    split at hb
    · simp at hb
    · rename_i hval
      split at hb
      · rw [Option.some.injEq] at hb
        subst hb
        exact ⟨h.calls, .inl (by simp [hs])⟩
      · rename_i hsub
        split at hb
        · simp at hb
        · rw [Option.some.injEq, Walk.atEntry, if_neg hval, if_neg hsub,
            Walk.nextEntry_stay (by simp)] at hb
          subst hb
          refine ⟨hand _ _ _ hc (.inr ?_), .inr ⟨hs, j + 1, ?_, by omega, ?_⟩⟩
          · rw [hpg]
            exact pgentNext_ne pde hj (by omega)
          · simp only [hpg, pgentNext_add]
          · dsimp only
            omega

lemma Past.loop {pde : Word} {n : Nat} (hn : n ≤ 0x400) {fuel : Nat} (h : Past pde n s)
    (hr : s.loop flush 0 mapmask fuel = some r) :
    ∃ c cs, r.calls = c :: cs ∧ ∀ c' ∈ cs, c'.size = 0 ∨ c'.pg ≠ pde := by
  induction fuel generalizing s with
  | zero => simp [Walk.loop] at hr
  | succ fuel ih =>
      rw [Walk.loop] at hr
      split at hr
      · exact Option.some.inj hr ▸ h.calls
      · rename_i h0
        cases hb : s.body flush 0 mapmask with
        | none =>
            rw [hb, Option.some.injEq] at hr
            exact hr ▸ h.calls
        | some s' =>
            rw [hb] at hr
            exact ih (h.body hn h0 hb) hr

/-- The pieces of a page are calls for one entry. -/
lemma handPieces_calls (pg : Word) (n : Nat) (v : Word) (u : Unmapped) :
    ∃ cs, (handPieces flush mapmask pg n v u).calls = u.calls ++ cs ∧ cs.length = n ∧
      ∀ c ∈ cs, c.size = 1 ∧ c.pg = pg := by
  induction n generalizing v u with
  | zero => exact ⟨[], by simp [handPieces], rfl, by simp⟩
  | succ n ih =>
      obtain ⟨cs, h1, h2, h3⟩ := ih (v + pageSize 0) (u.hand flush mapmask pg 1 v 0)
      refine ⟨_ :: cs,
        by rw [handPieces, h1, Unmapped.hand, List.append_assoc, List.singleton_append],
        by simp [h2], fun c hc => ?_⟩
      rcases List.mem_cons.mp hc with rfl | hc
      · exact ⟨rfl, rfl⟩
      · exact h3 c hc

/-- **Part of a larger page**: the walk hands over the first piece, and goes on to the next entry of
the page directory. -/
lemma fpageUnmap_part {pgdir fp : Word} {k : Maps} (hp : PartOfPage pgdir fp mapmask k)
    (fuel : Nat) :
    fpageUnmap flush fuel pgdir fp mapmask k ≠ some (handLeaves flush mapmask pgdir fp k) := by
  intro hr
  unfold PartOfPage at hp
  unfold fpageUnmap handLeaves at hr
  dsimp only at hp hr
  generalize fpageAddress fp (fpageSize fp) = v at hp hr
  generalize fpageSize fp = num at hp hr
  obtain ⟨h12, h22, hlim, hval, hsub, hall⟩ := hp
  generalize pgentNext pgdir (tableIndex v 1) = pg at hval hsub hr
  rw [if_neg (by omega), if_pos h22, unmapPgsize, if_pos h22, handPart, if_neg hlim,
    if_neg (not_not.mpr hval), if_neg hsub, if_neg (not_not.mpr hall)] at hr
  have h12 : 12 < num := h12
  have h22 : num < 22 := h22
  have hn : 2 ≤ 2 ^ (num - pgshift 0) :=
    Nat.le_self_pow (n := num - 12) (by omega) 2
  have hn' : 2 ^ (num - pgshift 0) ≤ 0x400 :=
    Nat.pow_le_pow_right Nat.two_pos (show num - 12 ≤ 10 by omega)
  generalize 2 ^ (num - pgshift 0) = n at hn hn' hr
  cases fuel with
  | zero => simp [Walk.loop] at hr
  | succ fuel =>
      rw [Walk.loop, if_neg (by dsimp only; omega), Walk.body, if_neg hlim, if_pos (by simp),
        if_neg (not_not.mpr hval), if_neg hsub, if_neg (not_not.mpr hall)] at hr
      dsimp only at hr
      rw [Walk.atEntry, if_neg (not_not.mpr hval), if_neg hsub, Walk.nextEntry_stay (by simp)] at hr
      obtain ⟨c, cs, hc, hcs⟩ := @Past.loop _ _ _ _ pg n hn' _
        ⟨⟨_, [], rfl, by simp⟩, .inr ⟨rfl, 1, rfl, by omega, by dsimp only; omega⟩⟩ hr
      obtain ⟨cs', h1, h2, h3⟩ := @handPieces_calls flush mapmask pg n v
        { toMaps := k, calls := [], freed := [] }
      rw [hc, List.nil_append] at h1
      subst h1
      obtain ⟨c', hc'⟩ := List.exists_mem_of_length_pos (l := cs) (by
        rw [List.length_cons] at h2
        omega)
      obtain ⟨h4, h5⟩ := h3 c' (List.mem_cons_of_mem c hc')
      exact (hcs c' hc').elim (fun h => by omega) fun h => h h5

/-- **Unmapping walks the flexpage**, and nothing else, if and only if that is not part of a larger
page.  As long as the page tables are left alone, the calls are one for each page of the flexpage
that a valid entry maps. -/
theorem unmap_exact (flush : Flusher) (pgdir fp mapmask : Word) (k : Maps) (h12 : 12 ≤ fpageSize fp)
    (h32 : fpageSize fp ≤ 32) :
    ((∃ fuel, fpageUnmap flush fuel pgdir fp mapmask k =
      some (handLeaves flush mapmask pgdir fp k)) ↔
      ¬PartOfPage pgdir fp mapmask k) ∧
    ((∀ c k, (flush c k).ptab = k.ptab) → ¬ownFlush mapmask → ∀ c,
      c ∈ (handLeaves flush mapmask pgdir fp k).calls ↔
        ∃ a pg size, IsLeaf k.ptab pgdir a pg size ∧ InFpage fp a ∧ a < userLimit ∧
          ¬(unmapPgsize (fpageSize fp) < size ∧ mapmask &&& mdbAllSpaces ≠ 0) ∧
          a.toNat % 2 ^ pgshift (min size (unmapPgsize (fpageSize fp))) = 0 ∧
          c = callAt k.ptab mapmask pg size a (unmapPgsize (fpageSize fp))) :=
  ⟨⟨fun ⟨fuel, h⟩ hp => fpageUnmap_part hp fuel h, fpageUnmap_handLeaves pgdir fp k h12 h32⟩,
    fun hkeep hno c => handLeaves_exact hkeep hno h12 h32 pgdir k c⟩

/-- The page directory at `0xf0001000` has two large pages. -/
def twoPages : Maps where
  mdb := ⟨fun _ => ⟨0, 0, 0⟩, fun _ => ⟨0, 0⟩, fun _ => 0, fun _ => [], 0⟩
  ptab := fun a => if a = 0xf0001000 then 0x00400085 else if a = 0xf0001004 then 0x00800085 else 0

/-- All of the first page, which is the size of the flexpage. -/
theorem unmap_exact_page : 12 ≤ fpageSize 0x58 ∧ fpageSize 0x58 ≤ 32 ∧
    ((∃ fuel, fpageUnmap (fun _ k => k) fuel 0xf0001000 0x58 0 twoPages =
        some (handLeaves (fun _ k => k) 0 0xf0001000 0x58 twoPages)) ↔
      ¬PartOfPage 0xf0001000 0x58 0 twoPages) :=
  ⟨by decide, by decide, (unmap_exact _ _ _ _ _ (by decide) (by decide)).1⟩

/-- To unmap the first 8K of the first page takes 4K of it, and 4K of the second page. -/
theorem unmap_overruns : (fpageUnmap (fun _ k => k) 3 0xf0001000 0x34 0 twoPages).map
      (fun u => u.calls.map fun c => (c.pg, c.vaddr)) =
      some [(0xf0001000, 0), (0xf0001004, 0x400000)] ∧
    ¬∀ flush pgdir fp mapmask k, 12 ≤ fpageSize fp → fpageSize fp ≤ 32 →
      ∃ fuel, fpageUnmap flush fuel pgdir fp mapmask k =
      some (handLeaves flush mapmask pgdir fp k) := by
  refine ⟨by decide, fun h => ?_⟩
  obtain ⟨fuel, hr⟩ := h (fun _ k => k) 0xf0001000 0x34 0 twoPages (by decide) (by decide)
  refine fpageUnmap_part ?_ fuel hr
  exact ⟨by decide, by decide, by decide, by decide, by decide, by decide⟩

end Hazelnut
