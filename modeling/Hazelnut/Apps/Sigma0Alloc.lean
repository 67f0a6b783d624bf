import Hazelnut.Apps.Sigma0Safe

/-!
Which requests sigma0 grants.

* `allocateTouches`, `allocateAnyTouches`: the entries of `page_array` that the two functions
  `allocate_space` read or write.
* `AllocateExact`, `AllocateAnyExact`: a request is granted just when its pages can be had, the free
  pages of the range get the task as owner, and only entries of `page_array` are accessed.
* `allocateSpace_exact_iff`, `allocateAny_exact_iff`: when this is so.
-/

namespace Hazelnut

variable {p : Nat → Nat} {space n idx tmp k size addr st a : Nat} {s : Sigma0}

/-- The number of entries of `page_array`. -/
def pageCount : Nat := 65536

lemma pageCount_eq : pageCount = 65536 := rfl

lemma maxMem_eq : maxMem = 268435456 := rfl

/-! ### At an address -/

/-- The loop that checks pages accepts the page. -/
def Grantable (space : Nat) (p : Nat → Nat) (k : Nat) : Prop :=
  p k = pageFree ∨ p k = pageShared ∨ p k = space

instance : Decidable (Grantable space p k) := by unfold Grantable; infer_instance

lemma checkPages_iff : checkPages space p n tmp idx = true ↔
    tmp + n * 4096 < maxMem ∧ ∀ k, idx ≤ k → k < idx + n → Grantable space p k := by
  refine ⟨fun h => (checkPages_eq h).symm, fun h => ?_⟩
  obtain ⟨hlt, hok⟩ := h
  induction n generalizing tmp idx with
  | zero => simpa [checkPages] using hlt
  | succ n ih =>
      have hidx : p idx = pageFree ∨ p idx = pageShared ∨ p idx = space := hok idx le_rfl (by omega)
      rw [checkPages, if_pos (by omega), if_pos hidx]
      exact ih (by omega) fun k h1 h2 => hok k (by omega) (by omega)

/-- The entries that `checkPages` reads. -/
def checkTouches (space : Nat) (p : Nat → Nat) : Nat → Nat → Nat → List Nat
  | 0, _, _ => []
  | n + 1, tmp, idx =>
    if tmp < maxMem then
      idx :: if p idx = pageFree ∨ p idx = pageShared ∨ p idx = space then
        checkTouches space p n (tmp + 4096) (idx + 1)
      else []
    else []

lemma checkTouches_lt (h : idx * 4096 ≤ tmp) (hk : k ∈ checkTouches space p n tmp idx) :
    k < pageCount := by
  have hp := pageCount_eq
  have hm := maxMem_eq
  induction n generalizing tmp idx with
  | zero => simp [checkTouches] at hk
  | succ n ih =>
      have hnext : (idx + 1) * 4096 ≤ tmp + 4096 := by
        rw [Nat.succ_mul]
        exact Nat.add_le_add_right h _
      rw [checkTouches] at hk
      split_ifs at hk with h1 h2
      · rcases List.mem_cons.mp hk with rfl | hk
        · omega
        · exact ih hnext hk
      · rw [List.mem_singleton] at hk
        omega
      · simp at hk

/-- The entries of `page_array` that `allocate_space` at a memory address accesses. -/
def allocateTouches (space addr size : Nat) (s : Sigma0) : List Nat :=
  if addr < s.low then []
  else if size < 12 then []
  else
    let addr := addr / shl size * shl size
    let tmp := (addr + 2 ^ 32 - s.low) % 2 ^ 32
    let num := shl (size - 12)
    let idx := tmp / 4096
    checkTouches space s.pages num tmp idx ++
      if checkPages space s.pages num tmp idx then List.range' idx num else []

lemma allocateTouches_lt (hk : k ∈ allocateTouches space addr size s) : k < pageCount := by
  have hp := pageCount_eq
  have hm := maxMem_eq
  unfold allocateTouches at hk
  dsimp only at hk
  split_ifs at hk with h1 h2 h3
  · simp at hk
  · simp at hk
  · rcases List.mem_append.mp hk with hk | hk
    · exact checkTouches_lt (by omega) hk
    · have h4 := (checkPages_iff.mp h3).1
      have h5 := List.mem_range'_1.mp hk
      omega
  · rw [List.append_nil] at hk
    exact checkTouches_lt (by omega) hk

/-- The `2 ^ size` bytes from `base` on lie in the managed memory, ending at or below `limit` bytes
of it, and the task can have all of their pages. -/
def Available (space base size limit : Nat) (s : Sigma0) : Prop :=
  s.low ≤ base ∧ base + 2 ^ size ≤ s.low + limit ∧
    ∀ k, (base - s.low) / 4096 ≤ k → k < (base - s.low) / 4096 + 2 ^ (size - 12) →
    Grantable space s.pages k

/-- The free pages of a range get the task as owner. -/
def allocated (space base size : Nat) (s : Sigma0) : Sigma0 :=
  { s with pages := fun k =>
      if base / 4096 ≤ k ∧ k < base / 4096 + 2 ^ (size - 12) ∧ s.pages k = pageFree then space
      else s.pages k }

/-- **A request for an address** is granted just when the task can have all pages of the range. -/
def AllocateExact (space addr size : Nat) (s : Sigma0) : Prop :=
  let base := addr / 2 ^ size * 2 ^ size
  (Available space base size maxMem s →
      allocateSpace space addr size s = (base, allocated space (base - s.low) size s)) ∧
    (¬Available space base size maxMem s → allocateSpace space addr size s = (noMap, s)) ∧
    ∀ k ∈ allocateTouches space addr size s, k < pageCount

/-- What the code does, with the shift counts that the hardware uses. -/
lemma allocateSpace_eq {e : Nat} (hio : ¬IsIofp addr) (haddr : addr < 2 ^ 32)
    (hlow : s.low < 2 ^ 32)
    (he : shl size = 2 ^ e) (hn : shl (size - 12) = 2 ^ (e - 12)) (h12 : 12 ≤ e) (he' : e < 32)
    (hsize : 12 ≤ size) [Decidable (Available space (addr / 2 ^ e * 2 ^ e) e (maxMem - 1) s)] :
    allocateSpace space addr size s =
      if Available space (addr / 2 ^ e * 2 ^ e) e (maxMem - 1) s then
        (addr / 2 ^ e * 2 ^ e, allocated space (addr / 2 ^ e * 2 ^ e - s.low) e s)
      else (noMap, s) := by
  have hle : addr / 2 ^ e * 2 ^ e ≤ addr := Nat.div_mul_le_self ..
  have hgap : addr < addr / 2 ^ e * 2 ^ e + 2 ^ e := Nat.lt_div_mul_add (Nat.two_pow_pos e)
  have hpow : 2 ^ e ≤ 2 ^ 31 := Nat.pow_le_pow_right (by omega) (by omega)
  have hpages : 2 ^ e = 4096 * 2 ^ (e - 12) := two_pow_pages h12
  unfold allocateSpace
  dsimp only
  rw [he, hn]
  by_cases hal : addr < s.low
  · rw [if_pos hal, if_neg fun h => by have := h.1; omega]
  rw [if_neg hal, if_neg hio, if_neg (by omega)]
  generalize addr / 2 ^ e * 2 ^ e = base at *
  by_cases hbase : base < s.low
  · -- the range starts below main memory
    have hno : ¬Available space base e (maxMem - 1) s := fun h => by
      have := h.1
      omega
    have hcheck : ¬checkPages space s.pages (2 ^ (e - 12)) ((base + 2 ^ 32 - s.low) % 2 ^ 32)
        ((base + 2 ^ 32 - s.low) % 2 ^ 32 / 4096) = true := fun h => by
      have h1 := (checkPages_iff.mp h).1
      rw [maxMem_eq] at h1
      omega
    rw [if_neg hno, if_neg hcheck]
  · have htmp : (base + 2 ^ 32 - s.low) % 2 ^ 32 = base - s.low := by omega
    rw [htmp]
    have hiff :
        checkPages space s.pages (2 ^ (e - 12)) (base - s.low) ((base - s.low) / 4096) = true ↔
        Available space base e (maxMem - 1) s := by
      rw [checkPages_iff, Available]
      have hmax : 0 < maxMem := by decide
      constructor
      · rintro ⟨h1, h2⟩
        exact ⟨by omega, by omega, h2⟩
      · rintro ⟨h1, h2, h3⟩
        exact ⟨by omega, h3⟩
    by_cases hav : Available space base e (maxMem - 1) s
    · rw [if_pos hav, if_pos (hiff.mpr hav), allocated]
      congr 2
      funext k
      exact markPages_apply ..
    · rw [if_neg hav, if_neg (fun h => hav (hiff.mp h))]

/-- A range of `2 ^ 32` bytes or more is not available. -/
lemma Available.size_lt {base limit : Nat} (h : Available space base size limit s)
    (hl : limit ≤ maxMem) :
    size < 29 := by
  by_contra hge
  have hpow : 2 ^ 29 ≤ 2 ^ size := Nat.pow_le_pow_right (by omega) (by omega)
  have h1 := h.1
  have h2 := h.2.1
  rw [maxMem_eq] at hl
  omega

/-- A request for `2 ^ 32` to `2 ^ 43` bytes is refused. -/
lemma allocateSpace_huge (hio : ¬IsIofp addr) (h1 : 32 ≤ size) (h2 : size < 44) :
    allocateSpace space addr size s = (noMap, s) := by
  have hshl : shl (size - 12) = 2 ^ (size - 12) := shl_of_lt (by omega)
  have hpow : 2 ^ 20 ≤ 2 ^ (size - 12) := Nat.pow_le_pow_right (by omega) (by omega)
  unfold allocateSpace
  dsimp only
  rw [hshl]
  by_cases hal : addr < s.low
  · rw [if_pos hal]
  · rw [if_neg hal, if_neg hio, if_neg (by omega), if_neg fun h => ?_]
    have h3 := (checkPages_iff.mp h).1
    rw [maxMem_eq] at h3
    omega

/-- The requests for an address that are served exactly: the range does not end at the limit of the
managed memory, and where the shift counts are cut off, from `2 ^ 44` bytes on, the smaller range
is not available. -/
def AllocateGood (space addr size : Nat) (s : Sigma0) : Prop :=
  if size < 44 then
    ¬(Available space (addr / 2 ^ size * 2 ^ size) size maxMem s ∧
      addr / 2 ^ size * 2 ^ size + 2 ^ size = s.low + maxMem)
  else ¬Available space (addr / 2 ^ (size - 32) * 2 ^ (size - 32)) (size - 32) (maxMem - 1) s

lemma base_ne_noMap {e : Nat} (he : 0 < e) : addr / 2 ^ e * 2 ^ e ≠ noMap := by
  intro h
  obtain ⟨m, rfl⟩ := Nat.exists_eq_succ_of_ne_zero (Nat.ne_of_gt he)
  rw [Nat.pow_succ, ← Nat.mul_assoc] at h
  unfold noMap at h
  omega

/-- **Requests for an address** are served exactly just when `AllocateGood` holds. -/
lemma allocateSpace_exact_iff (hio : ¬IsIofp addr) (haddr : addr < 2 ^ 32) (hlow : s.low < 2 ^ 32)
    (h12 : 12 ≤ size) (h64 : size < 64) :
    AllocateExact space addr size s ↔ AllocateGood space addr size s := by
  classical
  have htouch : ∀ k ∈ allocateTouches space addr size s, k < pageCount :=
    fun k => allocateTouches_lt
  have hpos : 0 < maxMem := by decide
  unfold AllocateExact AllocateGood
  dsimp only
  rcases Nat.lt_or_ge size 32 with h32 | h32
  · have hshl : shl size = 2 ^ size := shl_of_lt h32
    rw [if_pos (by omega), allocateSpace_eq hio haddr hlow hshl (shl_of_lt (by omega)) h12 h32 h12]
    have hne : addr / 2 ^ size * 2 ^ size ≠ noMap := base_ne_noMap (by omega)
    generalize addr / 2 ^ size * 2 ^ size = base at *
    constructor
    · rintro ⟨h1, -, -⟩ ⟨hav, hend⟩
      have hno : ¬Available space base size (maxMem - 1) s := fun h => by
        have := h.2.1
        omega
      have h2 := h1 hav
      rw [if_neg hno] at h2
      exact hne (Prod.mk.inj h2).1.symm
    · intro hgood
      refine ⟨fun hav => ?_, fun hno => ?_, htouch⟩
      · have h1 := hav.2.1
        have h2 : base + 2 ^ size ≠ s.low + maxMem := fun h => hgood ⟨hav, h⟩
        have h3 : base + 2 ^ size ≤ s.low + (maxMem - 1) := by omega
        rw [if_pos ⟨hav.1, h3, hav.2.2⟩]
      · refine if_neg fun h => hno ⟨h.1, ?_, h.2.2⟩
        have h1 := h.2.1
        omega
  · have hno : ¬Available space (addr / 2 ^ size * 2 ^ size) size maxMem s := fun h => by
      have := h.size_lt le_rfl
      omega
    rcases Nat.lt_or_ge size 44 with h44 | h44
    · rw [if_pos h44, allocateSpace_huge hio h32 h44]
      exact ⟨fun _ h => hno h.1, fun _ => ⟨fun h => absurd h hno, fun _ => rfl, htouch⟩⟩
    · have hshl : shl size = 2 ^ (size - 32) := by rw [shl, show size % 32 = size - 32 by omega]
      have hn : shl (size - 12) = 2 ^ (size - 32 - 12) := by
        rw [shl, show (size - 12) % 32 = size - 32 - 12 by omega]
      rw [if_neg (by omega), allocateSpace_eq hio haddr hlow hshl hn (by omega) (by omega) h12]
      have hne : addr / 2 ^ (size - 32) * 2 ^ (size - 32) ≠ noMap := base_ne_noMap (by omega)
      constructor
      · rintro ⟨-, h1, -⟩ hav
        have h2 := h1 hno
        rw [if_pos hav] at h2
        exact hne (Prod.mk.inj h2).1
      · intro hgood
        exact ⟨fun h => absurd h hno, fun _ => if_neg hgood, htouch⟩

/-! ### Anywhere -/

/-- The entries that `scanPages` reads. -/
def scanTouches (p : Nat → Nat) : Nat → Nat → Nat → List Nat
  | 0, _, _ => []
  | n + 1, tmp, idx =>
    if tmp ≤ maxMem then
      if n = 0 then []
      else idx :: if p idx ≠ pageFree then [] else scanTouches p n (tmp + 4096) (idx + 1)
    else []

/-- The entries that the search for free pages reads, and those of the pages that are marked. -/
def findTouches (size : Nat) (p : Nat → Nat) : Nat → Nat → List Nat
  | 0, _ => []
  | fuel + 1, addr =>
    if addr < maxMem then
      let (num, tmp) := scanPages p (shl (size - 12) + 1) addr (addr / 4096)
      scanTouches p (shl (size - 12) + 1) addr (addr / 4096) ++
        if num = 0 then List.range' (addr / 4096) (shl (size - 12))
        else if maxMem ≤ tmp then []
        else findTouches size p fuel (addr + shl size)
    else []

/-- The entries of `page_array` that `allocate_space` anywhere accesses. -/
def allocateAnyTouches (size : Nat) (s : Sigma0) : List Nat :=
  if size < 12 then [] else findTouches size s.pages (maxMem + 1) 0

/-- The pages from `idx` on, `n` of them, are free. -/
def AllFree (p : Nat → Nat) (idx n : Nat) : Prop := ∀ k, idx ≤ k → k < idx + n → p k = pageFree

lemma scanPages_free (h : AllFree p idx n) (hle : tmp + n * 4096 ≤ maxMem) :
    (scanPages p (n + 1) tmp idx).1 = 0 := by
  induction n generalizing tmp idx with
  | zero => rw [scanPages, if_pos (by omega), if_pos rfl]
  | succ n ih =>
      have hidx : p idx = pageFree := h idx le_rfl (by omega)
      rw [scanPages, if_pos (by omega), if_neg (by omega), if_neg (by simpa using hidx)]
      exact ih (fun k h1 h2 => h k (by omega) (by omega)) (by omega)

/-- The scan breaks at a page that is not free. -/
lemma scanPages_break {j : Nat} (h1 : idx ≤ j) (h2 : j < idx + n) (hj : p j ≠ pageFree)
    (hle : tmp + (j - idx) * 4096 ≤ maxMem) :
    (scanPages p (n + 1) tmp idx).1 ≠ 0 ∧
        (scanPages p (n + 1) tmp idx).2 ≤ tmp + (j - idx) * 4096 := by
  induction n generalizing tmp idx with
  | zero => omega
  | succ n ih =>
      rw [scanPages, if_pos (by omega), if_neg (by omega)]
      by_cases hidx : p idx = pageFree
      · have hne : idx ≠ j := fun he => hj (he ▸ hidx)
        rw [if_neg (by simpa using hidx)]
        have h3 : (scanPages p (n + 1) (tmp + 4096) (idx + 1)).1 ≠ 0 ∧
            (scanPages p (n + 1) (tmp + 4096) (idx + 1)).2 ≤ tmp + 4096 + (j - (idx + 1)) * 4096 :=
          ih (by omega) (by omega) (by omega)
        exact ⟨h3.1, h3.2.trans (by omega)⟩
      · rw [if_pos hidx]
        exact ⟨by simp, by simp⟩

lemma scanTouches_mem (hk : k ∈ scanTouches p (n + 1) tmp idx) : idx ≤ k ∧ k < idx + n := by
  induction n generalizing tmp idx with
  | zero =>
      rw [scanTouches, if_pos rfl, ite_self] at hk
      simp at hk
  | succ n ih =>
      rw [scanTouches] at hk
      split_ifs at hk with h1 h2 h3
      · simp at h2
      · rw [List.mem_singleton] at hk
        omega
      · rcases List.mem_cons.mp hk with rfl | hk
        · omega
        · have := ih hk
          omega
      · simp at hk

/-- A page that is not free ends the scan. -/
lemma scanTouches_le {j : Nat} (h1 : idx ≤ j) (hj : p j ≠ pageFree)
    (hk : k ∈ scanTouches p n tmp idx) : k ≤ j := by
  induction n generalizing tmp idx with
  | zero => simp [scanTouches] at hk
  | succ n ih =>
      rw [scanTouches] at hk
      split_ifs at hk with h2 h3 h4
      · simp at hk
      · rw [List.mem_singleton] at hk
        omega
      · rcases List.mem_cons.mp hk with rfl | hk
        · exact h1
        · have hne : idx ≠ j := fun he => h4 (he ▸ hj)
          exact ih (by omega) hk
      · simp at hk

/-- With all pages up to the last one free, the scan of a range that is too long reads behind it. -/
lemma scanTouches_over (h : AllFree p idx (pageCount - idx)) (hidx : idx ≤ pageCount)
    (hn : pageCount - idx < n) : pageCount ∈ scanTouches p (n + 1) (idx * 4096) idx := by
  have hp := pageCount_eq
  have hm := maxMem_eq
  induction n generalizing idx with
  | zero => omega
  | succ n ih =>
      rw [scanTouches, if_pos (by omega), if_neg (by omega)]
      by_cases he : idx = pageCount
      · rw [he]
        exact List.mem_cons_self
      · have hfree : p idx = pageFree := h idx le_rfl (by omega)
        rw [if_neg (by simpa using hfree)]
        have h1 : pageCount ∈ scanTouches p (n + 1) ((idx + 1) * 4096) (idx + 1) :=
          ih (fun k h2 h3 => h k (by omega) (by omega)) (by omega) (by omega)
        rw [Nat.succ_mul] at h1
        exact List.mem_cons_of_mem _ h1

/-- `2 ^ size` bytes of wholly free pages, aligned relative to main memory. -/
def FreeRange (size a : Nat) (s : Sigma0) : Prop :=
  2 ^ size ∣ a ∧ a + 2 ^ size ≤ maxMem ∧ AllFree s.pages (a / 4096) (2 ^ (size - 12))

/-- **A request for memory anywhere** is granted just when a free range exists. -/
def AllocateAnyExact (space size : Nat) (s : Sigma0) : Prop :=
  ((∃ a, FreeRange size a s) → ∃ a, FreeRange size a s ∧
      allocateAny space size s = some ((s.low + a) % 2 ^ 32, allocated space a size s)) ∧
    ((¬∃ a, FreeRange size a s) → allocateAny space size s = some (noMap, s)) ∧
    ∀ k ∈ allocateAnyTouches size s, k < pageCount

/-- The multiples of `st` up to a multiple are passed one by one. -/
lemma add_le_of_dvd_of_lt {b : Nat} (ha : st ∣ a) (hb : st ∣ b) (hab : a < b) : a + st ≤ b := by
  obtain ⟨c, rfl⟩ := ha
  obtain ⟨d, rfl⟩ := hb
  rw [← Nat.mul_succ]
  exact Nat.mul_le_mul_left st (Nat.lt_of_mul_lt_mul_left hab)

section Blocks

-- the search in steps of `st` bytes, for `n` pages
variable {fuel : Nat} (hst : shl size = st) (hn : shl (size - 12) = n)

include hst hn

/-- A block that fits is found, if the blocks divide the managed memory. -/
lemma findPages_found {b : Nat} (hsn : st = n * 4096) (ha : st ∣ a) (hb : st ∣ b) (hab : a ≤ b)
    (hfit : b + st ≤ maxMem) (hfree : AllFree p (b / 4096) n) (hfuel : maxMem < a + fuel) :
    ∃ a', findPages size p fuel a = some (some a') := by
  have hn0 : 0 < n := hn ▸ Nat.two_pow_pos _
  -- on the number of blocks that may still be looked at
  induction fuel generalizing a with
  | zero => omega
  | succ fuel ih =>
      rw [findPages, if_pos (by omega), hn, hst]
      dsimp only
      by_cases hblock : AllFree p (a / 4096) n
      · exact ⟨a, by rw [if_pos (scanPages_free hblock (by omega))]⟩
      · have hne : a ≠ b := fun he => hblock (he ▸ hfree)
        have hnext : a + st ≤ b := add_le_of_dvd_of_lt ha hb (lt_of_le_of_ne hab hne)
        unfold AllFree at hblock
        push Not at hblock
        obtain ⟨j, hj1, hj2, hj3⟩ := hblock
        have hscan : (scanPages p (n + 1) a (a / 4096)).1 ≠ 0 ∧ _ :=
          scanPages_break hj1 hj2 hj3 (by omega)
        rw [if_neg hscan.1, if_neg (by omega)]
        exact ih (Nat.dvd_add ha (Nat.dvd_refl _)) hnext (by omega)

/-- Blocks that divide the managed memory are scanned inside `page_array`. -/
lemma findTouches_lt (hsn : st = n * 4096) (hmem : st ∣ maxMem) (ha : st ∣ a)
    (hk : k ∈ findTouches size p fuel a) : k < pageCount := by
  have hp := pageCount_eq
  have hm := maxMem_eq
  induction fuel generalizing a with
  | zero => simp [findTouches] at hk
  | succ fuel ih =>
      rw [findTouches, hn, hst] at hk
      split_ifs at hk with hlt
      · have hend : a + st ≤ maxMem := add_le_of_dvd_of_lt ha hmem hlt
        dsimp only at hk
        rcases List.mem_append.mp hk with hk | hk
        · have := scanTouches_mem hk
          omega
        · split_ifs at hk with h1 h2
          · have := List.mem_range'_1.mp hk
            omega
          · simp at hk
          · exact ih (Nat.dvd_add ha (Nat.dvd_refl _)) hk
      · simp at hk

/-- A range that does not fit is not found. -/
lemma findPages_long (hlong : maxMem < n * 4096) (ha : st ∣ a) (hfuel : maxMem < a + fuel)
    (h0 : 0 < fuel) :
    findPages size p fuel a = some none := by
  obtain ⟨r, hr⟩ : ∃ r, findPages size p fuel a = some r := findPages_some h0 hfuel
  cases r with
  | none => exact hr
  | some b =>
      have h1 := (findPages_eq hr (hst ▸ ha)).2.2
      rw [hn] at h1
      omega

end Blocks

/-- The search for `2 ^ e` bytes that fit, whatever the size is called. -/
lemma allocateAny_fits {e : Nat} (hst : shl size = 2 ^ e) (hn : shl (size - 12) = 2 ^ (e - 12))
    (h12 : 12 ≤ e) (h28 : e ≤ 28) (hsize : 12 ≤ size) :
    ((∃ a, FreeRange e a s) → ∃ a, FreeRange e a s ∧
      allocateAny space size s = some ((s.low + a) % 2 ^ 32, allocated space a e s)) ∧
    ((¬∃ a, FreeRange e a s) → allocateAny space size s = some (noMap, s)) ∧
    ∀ k ∈ allocateAnyTouches size s, k < pageCount := by
  have hsn : 2 ^ e = 2 ^ (e - 12) * 4096 := by rw [two_pow_pages h12, Nat.mul_comm]
  have hmem : 2 ^ e ∣ maxMem := by
    have h1 : maxMem = 2 ^ 28 := by decide
    rw [h1]
    exact Nat.pow_dvd_pow 2 h28
  have hres : ∀ {a}, findPages size s.pages (maxMem + 1) 0 = some (some a) → FreeRange e a s ∧
      allocateAny space size s = some ((s.low + a) % 2 ^ 32, allocated space a e s) := by
    intro a ha
    obtain ⟨h1, h2, h3⟩ := findPages_eq ha (Nat.dvd_zero _)
    rw [hst] at h1
    rw [hn] at h2 h3
    refine ⟨⟨h1, by omega, h2⟩, ?_⟩
    rw [allocateAny, if_neg (by omega), ha, hn]
    dsimp only
    rw [allocated]
    congr 3
    funext k
    exact markPages_apply ..
  refine ⟨fun hex => ?_, fun hno => ?_, fun k hk => ?_⟩
  · obtain ⟨b, hb⟩ := hex
    obtain ⟨a, ha⟩ : ∃ a, findPages size s.pages (maxMem + 1) 0 = some (some a) :=
      findPages_found hst hn hsn (Nat.dvd_zero _) hb.1 (Nat.zero_le b) hb.2.1 hb.2.2 (by omega)
    exact ⟨a, hres ha⟩
  · obtain ⟨r, hr⟩ : ∃ r, findPages size s.pages (maxMem + 1) 0 = some r :=
      findPages_some (by omega) (by omega)
    cases r with
    | none => rw [allocateAny, if_neg (by omega), hr]
    | some a => exact absurd ⟨a, (hres hr).1⟩ hno
  · rw [allocateAnyTouches, if_neg (by omega)] at hk
    exact findTouches_lt hst hn hsn hmem (Nat.dvd_zero _) hk

/-- No range of `2 ^ 29` bytes or more fits. -/
lemma FreeRange.size_lt (h : FreeRange size a s) : size < 29 := by
  by_contra hge
  have hpow : 2 ^ 29 ≤ 2 ^ size := Nat.pow_le_pow_right (by omega) (by omega)
  have h1 := h.2.1
  rw [maxMem_eq] at h1
  omega

lemma allocateAny_long (hsize : 12 ≤ size) (hlong : maxMem < shl (size - 12) * 4096) :
    allocateAny space size s = some (noMap, s) := by
  rw [allocateAny, if_neg (by omega),
    findPages_long rfl rfl hlong (Nat.dvd_zero _) (by omega) (Nat.succ_pos _)]

/-- A range that is as long as the memory or longer: all entries are read if all pages are free, and
one more. -/
lemma findTouches_whole (hst : maxMem ≤ shl size) (hlong : maxMem < shl (size - 12) * 4096)
    {fuel : Nat}
    (hfuel : 1 < fuel) : (∀ k ∈ findTouches size p fuel 0, k < pageCount) ↔
    ∃ k < pageCount, p k ≠ pageFree := by
  have hp := pageCount_eq
  have hm := maxMem_eq
  obtain ⟨f, rfl⟩ : ∃ f, fuel = f + 2 := ⟨fuel - 2, by omega⟩
  rw [findTouches, if_pos (by omega)]
  dsimp only
  constructor
  · intro h
    by_contra hno
    push Not at hno
    have h1 : AllFree p 0 (pageCount - 0) := fun k _ hk => hno k (by omega)
    have h2 := scanTouches_over (n := shl (size - 12)) h1 (by omega) (by omega)
    exact absurd (h pageCount (List.mem_append_left _ h2)) (lt_irrefl _)
  · rintro ⟨j, hj, hfree⟩ k hk
    have hscan : (scanPages p (shl (size - 12) + 1) 0 0).1 ≠ 0 ∧ _ :=
      scanPages_break (Nat.zero_le j) (by omega) hfree (by omega)
    rw [if_neg hscan.1] at hk
    rcases List.mem_append.mp hk with hk | hk
    · have h1 : k ≤ j := scanTouches_le (Nat.zero_le j) hfree hk
      omega
    · split_ifs at hk with h1
      · simp at hk
      · rw [findTouches, if_neg (by omega)] at hk
        simp at hk

/-- Steps shorter than a page: the search comes to the first page `j` from which on all are free,
and reads behind the last page from there. -/
lemma findTouches_over {fuel j : Nat} (hst : shl size ∣ 4096)
    (hlong : maxMem < shl (size - 12) * 4096)
    (hj : j < pageCount) (hfree : AllFree p j (pageCount - j))
    (hfirst : 0 < j → p (j - 1) ≠ pageFree)
    (ha : shl size ∣ a) (haj : a ≤ j * 4096) (hfuel : maxMem < a + fuel) :
    pageCount ∈ findTouches size p fuel a := by
  have hp := pageCount_eq
  have hm := maxMem_eq
  induction fuel generalizing a with
  | zero => omega
  | succ fuel ih =>
      rw [findTouches, if_pos (by omega)]
      dsimp only
      rcases Nat.lt_or_ge a (j * 4096) with hlt | hge
      · have hidx : a / 4096 < j := Nat.div_lt_of_lt_mul (by omega)
        have hscan : (scanPages p (shl (size - 12) + 1) a (a / 4096)).1 ≠ 0 ∧
            (scanPages p (shl (size - 12) + 1) a (a / 4096)).2 ≤ a + (j - 1 - a / 4096) * 4096 :=
          scanPages_break (by omega) (by omega) (hfirst (by omega)) (by omega)
        rw [if_neg hscan.1, if_neg (by omega)]
        have hpos : 0 < shl size := Nat.two_pow_pos _
        have hnext := add_le_of_dvd_of_lt ha (hst.trans (Dvd.intro_left j rfl)) hlt
        exact List.mem_append_right _ (ih (Nat.dvd_add ha (Nat.dvd_refl _)) hnext (by omega))
      · obtain rfl : a = j * 4096 := by omega
        rw [Nat.mul_div_cancel j (by omega)]
        exact List.mem_append_left _ (scanTouches_over hfree (by omega) (by omega))

/-- Steps shorter than a page, for a range that does not fit: the scan reads behind the last page if
that is free. -/
lemma findTouches_bytes (hst : shl size ∣ 4096) (hlong : maxMem < shl (size - 12) * 4096)
    {fuel : Nat}
    (hfuel : maxMem < fuel) :
    (∀ k ∈ findTouches size p fuel 0, k < pageCount) ↔ p (pageCount - 1) ≠ pageFree := by
  have hp := pageCount_eq
  have hm := maxMem_eq
  constructor
  · intro h hfree
    classical
    have hex : ∃ j, AllFree p j (pageCount - j) := ⟨pageCount - 1, fun k h1 h2 => by
      obtain rfl : k = pageCount - 1 := by omega
      exact hfree⟩
    have hle : Nat.find hex ≤ pageCount - 1 := Nat.find_le fun k h1 h2 => by
      obtain rfl : k = pageCount - 1 := by omega
      exact hfree
    refine absurd (h pageCount (findTouches_over hst hlong (j := Nat.find hex) (by omega)
      (Nat.find_spec hex) (fun hpos hprev => ?_) (Nat.dvd_zero _) (Nat.zero_le _) (by omega)))
      (lt_irrefl _)
    refine Nat.find_min hex (Nat.sub_one_lt_of_lt hpos) fun k h1 h2 => ?_
    rcases Nat.eq_or_lt_of_le h1 with rfl | h3
    · exact hprev
    · exact Nat.find_spec hex k (by omega) (by omega)
  · intro hfree
    have hall : ∀ f a, ∀ k ∈ findTouches size p f a, k < pageCount := by
      intro f
      induction f with
      | zero => intro a k hk; simp [findTouches] at hk
      | succ f ih =>
          intro a k hk
          rw [findTouches] at hk
          split_ifs at hk with hlt
          · dsimp only at hk
            have hidx : a / 4096 ≤ pageCount - 1 := by omega
            have hscan : (scanPages p (shl (size - 12) + 1) a (a / 4096)).1 ≠ 0 ∧ _ :=
              scanPages_break hidx (by omega) hfree (by omega)
            rw [if_neg hscan.1] at hk
            rcases List.mem_append.mp hk with hk | hk
            · have := scanTouches_le hidx hfree hk
              omega
            · split_ifs at hk
              · simp at hk
              · exact ih _ k hk
          · simp at hk
    exact hall fuel 0

/-- The requests for memory anywhere that are served exactly.  Sizes of 29 to 43 bits are refused,
but the search reads behind the end of `page_array` if it comes there, and from 44 bits on the shift
counts are cut off, so that a smaller range is handed out. -/
def AllocateAnyGood (size : Nat) (s : Sigma0) : Prop :=
  if size < 29 then True
  else if size < 32 then ∃ k < pageCount, s.pages k ≠ pageFree
  else if size < 44 then s.pages (pageCount - 1) ≠ pageFree
  else if size < 61 then ¬∃ a, FreeRange (size - 32) a s
  else ∃ k < pageCount, s.pages k ≠ pageFree

/-- What is refused rightly is served exactly if the search stays inside the array. -/
lemma allocateAnyExact_long (h12 : 12 ≤ size) (h29 : 29 ≤ size)
    (hlong : maxMem < shl (size - 12) * 4096) : AllocateAnyExact space size s ↔
      ∀ k ∈ findTouches size s.pages (maxMem + 1) 0, k < pageCount := by
  have hno : ¬∃ a, FreeRange size a s := fun ⟨a, ha⟩ => by
    have := ha.size_lt
    omega
  have htouch : allocateAnyTouches size s = findTouches size s.pages (maxMem + 1) 0 := by
    rw [allocateAnyTouches, if_neg (by omega)]
  rw [AllocateAnyExact, htouch]
  exact ⟨fun h => h.2.2, fun h => ⟨fun h1 => absurd h1 hno, fun _ => allocateAny_long h12 hlong, h⟩⟩

/-- **Requests for memory anywhere** are served exactly just when `AllocateAnyGood` holds. -/
lemma allocateAny_exact_iff (hlow : 4096 ∣ s.low) (h12 : 12 ≤ size) (h64 : size < 64) :
    AllocateAnyExact space size s ↔ AllocateAnyGood size s := by
  have hm := maxMem_eq
  unfold AllocateAnyGood
  rcases Nat.lt_or_ge size 29 with h29 | h29
  · rw [if_pos h29]
    exact ⟨fun _ => trivial, fun _ =>
      allocateAny_fits (shl_of_lt (by omega)) (shl_of_lt (by omega)) h12 (by omega) h12⟩
  rw [if_neg (by omega)]
  have hlong : ∀ {e}, 17 ≤ e → 2 ^ 17 ≤ 2 ^ e := fun he => Nat.pow_le_pow_right (by omega) he
  rcases Nat.lt_or_ge size 32 with h32 | h32
  · have h1 := hlong (e := size - 12) (by omega)
    have h2 : 2 ^ 29 ≤ 2 ^ size := Nat.pow_le_pow_right (by omega) h29
    have h3 : maxMem < shl (size - 12) * 4096 := by rw [shl_of_lt (by omega)]; omega
    rw [if_pos h32, allocateAnyExact_long h12 h29 h3]
    exact findTouches_whole (by rw [shl_of_lt h32]; omega) h3 (by omega)
  rw [if_neg (by omega)]
  rcases Nat.lt_or_ge size 44 with h44 | h44
  · have h1 := hlong (e := size - 12) (by omega)
    have h3 : maxMem < shl (size - 12) * 4096 := by rw [shl_of_lt (by omega)]; omega
    rw [if_pos h44, allocateAnyExact_long h12 h29 h3]
    refine findTouches_bytes ?_ h3 (by omega)
    rw [shl, show size % 32 = size - 32 by omega]
    exact Nat.pow_dvd_pow 2 (n := 12) (by omega)
  rw [if_neg (by omega)]
  have hst : shl size = 2 ^ (size - 32) := by rw [shl, show size % 32 = size - 32 by omega]
  have hn : shl (size - 12) = 2 ^ (size - 32 - 12) := by
    rw [shl, show (size - 12) % 32 = size - 32 - 12 by omega]
  rcases Nat.lt_or_ge size 61 with h61 | h61
  · rw [if_pos h61]
    obtain ⟨h1, h2, h3⟩ : ((∃ a, FreeRange (size - 32) a s) → ∃ a, FreeRange (size - 32) a s ∧
        allocateAny space size s =
          some ((s.low + a) % 2 ^ 32, allocated space a (size - 32) s)) ∧ _ :=
      allocateAny_fits hst hn (by omega) (by omega) h12
    have hno : ¬∃ a, FreeRange size a s := by
      rintro ⟨a, ha⟩
      have := ha.size_lt
      omega
    refine ⟨?_, fun hgood => ⟨fun h4 => absurd h4 hno, fun _ => h2 hgood, h3⟩⟩
    rintro ⟨-, h4, -⟩ hex
    obtain ⟨a, ha, h5⟩ := h1 hex
    rw [h4 hno, Option.some.injEq, Prod.mk.injEq] at h5
    -- a page address is not `NO_MAP`
    have h6 : 4096 ∣ a := by
      have h7 : 2 ^ 12 ∣ 2 ^ (size - 32) := Nat.pow_dvd_pow 2 (by omega)
      exact h7.trans ha.1
    have h8 := h5.1
    unfold noMap at h8
    omega
  · rw [if_neg (by omega)]
    have h1 := hlong (e := size - 32 - 12) (by omega)
    have h2 : 2 ^ 29 ≤ 2 ^ (size - 32) := Nat.pow_le_pow_right (by omega) (by omega)
    have h3 : maxMem < shl (size - 12) * 4096 := by rw [hn]; omega
    rw [allocateAnyExact_long h12 h29 h3]
    exact findTouches_whole (by rw [hst]; omega) h3 (by omega)

/-- **Which requests sigma0 grants.**  A request of 12 to 63 bits is all or nothing and granted just
when it can be, with accesses inside `page_array` only: at an address if and only if `AllocateGood`
holds, and anywhere if and only if `AllocateAnyGood` holds. -/
theorem allocate_exact_iff (hio : ¬IsIofp addr) (haddr : addr < 2 ^ 32) (hlow : s.low < 2 ^ 32)
    (hpage : 4096 ∣ s.low) (h12 : 12 ≤ size) (h64 : size < 64) :
    (AllocateExact space addr size s ↔ AllocateGood space addr size s) ∧
      (AllocateAnyExact space size s ↔ AllocateAnyGood size s) :=
  ⟨allocateSpace_exact_iff hio haddr hlow h12 h64, allocateAny_exact_iff hpage h12 h64⟩

/-- All pages are free, and main memory starts at 0. -/
def allFree : Sigma0 := ⟨0, fun _ => pageFree, fun _ => portFree⟩

/-- The second page, and any page. -/
theorem allocate_exact_second : AllocateExact 7 4096 12 allFree ∧
    AllocateAnyExact 7 12 allFree := by
  have h : (AllocateExact 7 4096 12 allFree ↔ AllocateGood 7 4096 12 allFree) ∧
      (AllocateAnyExact 7 12 allFree ↔ AllocateAnyGood 12 allFree) :=
    allocate_exact_iff (by decide) (by omega) (by decide) (by decide) le_rfl (by omega)
  refine ⟨h.1.mpr ?_, h.2.mpr trivial⟩
  rw [AllocateGood, if_pos (by omega)]
  exact fun hend => absurd hend.2 (by decide)

/-- The last page of the managed memory cannot be had, although it is free, and 16 pages of the
managed memory are handed out when `2 ^ 48` bytes are asked for. -/
theorem allocate_last_page : Available 7 0x0ffff000 12 maxMem allFree ∧
    allocateSpace 7 0x0ffff000 12 allFree = (noMap, allFree) ∧
    ¬AllocateExact 7 0x0ffff000 12 allFree ∧ ¬AllocateAnyExact 7 48 allFree := by
  have hav : Available 7 0x0ffff000 12 maxMem allFree :=
    ⟨Nat.zero_le _, by decide, fun _ _ _ => .inl rfl⟩
  have hnone : allocateSpace 7 0x0ffff000 12 allFree = (noMap, allFree) := rfl
  refine ⟨hav, hnone, fun h => ?_, fun h => ?_⟩
  · have h1 := h.1 hav
    rw [hnone] at h1
    exact absurd (Prod.mk.inj h1).1 (by decide)
  · have h1 := (allocateAny_exact_iff (by decide) (by omega) (by omega)).mp h
    rw [AllocateAnyGood, if_neg (by omega), if_neg (by omega), if_neg (by omega),
      if_pos (by omega)] at h1
    exact h1 ⟨0, Nat.dvd_zero _, by decide, fun _ _ _ => rfl⟩

end Hazelnut
