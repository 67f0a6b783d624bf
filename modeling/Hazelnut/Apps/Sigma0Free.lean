import Hazelnut.Apps.Sigma0Alloc

/-!
What sigma0 frees.

* `FreeEvent`, `freeEvents`: the accesses of `free_space` to `page_array` and the flexpages that it
  unmaps, in order.
* `mem_regionsEvents`, `allRegions_sub`: what the loop over the regions of one size does, one region
  at a time.
* `FreeSound`: only pages of the flexpage that the task owns are marked free, after they have been
  unmapped, and nothing else is unmapped.
* `freeSound_iff`: this holds just when `FreeGood` does.
-/

namespace Hazelnut

variable {p q : Nat → Nat} {space n idx tmp k size addr ed shift plus : Nat} {s : Sigma0}
    {e : FreeEvent}

/-- What `free_space` does that can be seen from outside. -/
inductive FreeEvent
  /-- An entry of `page_array` is read. -/
  | read (idx : Nat)
  /-- `l4_fpage_unmap` of the flexpage at `base`. -/
  | unmap (base shift : Nat)
  /-- An entry of `page_array` becomes `PAGE_FREE`. -/
  | mark (idx : Nat)
  deriving DecidableEq

/-- The loop that checks whether the task owns all pages of a region. -/
def scanEvents (space : Nat) (p : Nat → Nat) : Nat → Nat → List FreeEvent
  | 0, _ => []
  | n + 1, idx => .read idx :: if p idx = space then scanEvents space p n (idx + 1) else []

/-- The loop that frees the pages of a region. -/
def markEvents (space addr endaddr : Nat) : Nat → Nat → Nat → (Nat → Nat) → List FreeEvent
  | 0, _, _, _ => []
  | n + 1, idx, tmp, p =>
    if addr ≤ tmp ∧ tmp ≤ endaddr then
      if p idx = space then
        .read idx :: .mark idx ::
          markEvents space addr endaddr n (idx + 1) (tmp + 4096) (Function.update p idx pageFree)
      else .read idx :: markEvents space addr endaddr n (idx + 1) (tmp + 4096) p
    else markEvents space addr endaddr n (idx + 1) (tmp + 4096) p

/-- One region. -/
def regionEvents (space addr endaddr shift tmp : Nat) (p : Nat → Nat) : List FreeEvent :=
  let num := 2 ^ (shift - 12)
  let idx := tmp / 4096
  scanEvents space p num idx ++
    if ownsAll space p num idx then .unmap tmp shift :: markEvents space addr endaddr num idx tmp p
    else []

/-- The regions of one size. -/
def regionsEvents (space addr endaddr shift : Nat) : Nat → Nat → (Nat → Nat) → List FreeEvent
  | 0, _, _ => []
  | n + 1, plus, p =>
    let tmp := (addr / 2 ^ shift * 2 ^ shift + plus) % 2 ^ 32
    let num := 2 ^ (shift - 12)
    let idx := tmp / 4096
    regionEvents space addr endaddr shift tmp p ++
      regionsEvents space addr endaddr shift n (plus + 2 ^ shift)
        (if ownsAll space p num idx then freePages space addr endaddr num idx tmp p else p)

/-- The number of regions of one size. -/
def regionCount (size shift : Nat) : Nat := if shift < size then shl (size - shift) else 1

/-- The first address of the flexpage, and its last page. -/
def freeBase (addr size : Nat) : Nat := addr / shl size * shl size
def freeEnd (addr size : Nat) : Nat := (freeBase addr size + shl size + 2 ^ 32 - 4096) % 2 ^ 32

/-- `free_space`, in `freeSpace`, step by step. -/
def freeEvents (space addr size : Nat) (s : Sigma0) : List FreeEvent :=
  if IsIofp addr then []
  else if size < 12 then []
  else
    let events := regionsEvents space (freeBase addr size) (freeEnd addr size)
    let p := freeRegions space (freeBase addr size) (freeEnd addr size) 22
      (regionCount size 22) 0 s.pages
    events 22 (regionCount size 22) 0 s.pages ++ events 12 (regionCount size 12) 0 p

/-! ### The loops -/

lemma ownsAll_iff : ownsAll space p n idx = true ↔ ∀ k, idx ≤ k → k < idx + n → p k = space := by
  induction n generalizing idx with
  | zero => exact iff_of_true rfl fun k h1 h2 => by omega
  | succ n ih =>
      rw [ownsAll, Bool.and_eq_true, decide_eq_true_eq, ih]
      constructor
      · rintro ⟨h1, h2⟩ k hk hk'
        by_cases hki : k = idx
        · exact hki ▸ h1
        · exact h2 k (by omega) (by omega)
      · intro h
        exact ⟨h idx le_rfl (by omega), fun k hk hk' => h k (by omega) (by omega)⟩

lemma mem_scanEvents (h : e ∈ scanEvents space p n idx) :
    ∃ k, idx ≤ k ∧ k < idx + n ∧ e = .read k := by
  induction n generalizing idx with
  | zero => simp [scanEvents] at h
  | succ n ih =>
      rw [scanEvents] at h
      rcases List.mem_cons.mp h with rfl | h
      · exact ⟨idx, le_rfl, by omega, rfl⟩
      · split_ifs at h with hidx
        · obtain ⟨k, h1, h2, rfl⟩ := ih h
          exact ⟨k, by omega, by omega, rfl⟩
        · simp at h

/-- The entries that the freeing loop accesses. -/
lemma mem_markEvents (h : e ∈ markEvents space addr ed n idx tmp p) :
    ∃ k, idx ≤ k ∧ k < idx + n ∧ (e = .read k ∨ e = .mark k ∧ p k = space ∧
      addr ≤ tmp + (k - idx) * 4096 ∧ tmp + (k - idx) * 4096 ≤ ed) := by
  induction n generalizing idx tmp p with
  | zero => simp [markEvents] at h
  | succ n ih =>
      have hnext : ∀ q, (∀ k, idx < k → q k = p k) →
        e ∈ markEvents space addr ed n (idx + 1) (tmp + 4096) q →
          ∃ k, idx ≤ k ∧ k < idx + (n + 1) ∧ (e = .read k ∨ e = .mark k ∧ p k = space ∧
            addr ≤ tmp + (k - idx) * 4096 ∧ tmp + (k - idx) * 4096 ≤ ed) := by
        intro q hq hmem
        obtain ⟨k, h1, h2, h3⟩ := ih hmem
        refine ⟨k, by omega, by omega, h3.imp_right fun ⟨h4, h5, h6⟩ => ⟨h4, ?_, by omega⟩⟩
        rw [← hq k (by omega), h5]
      rw [markEvents] at h
      split_ifs at h with hrange hown
      · rcases List.mem_cons.mp h with rfl | h
        · exact ⟨idx, le_rfl, by omega, .inl rfl⟩
        rcases List.mem_cons.mp h with rfl | h
        · exact ⟨idx, le_rfl, by omega, .inr ⟨rfl, hown, by omega⟩⟩
        · exact hnext _ (fun k hk => Function.update_of_ne (by omega) ..) h
      · rcases List.mem_cons.mp h with rfl | h
        · exact ⟨idx, le_rfl, by omega, .inl rfl⟩
        · exact hnext _ (fun k _ => rfl) h
      · exact hnext _ (fun k _ => rfl) h

/-- All pages of the flexpage that the task owns are freed. -/
lemma mark_mem_markEvents (h1 : idx ≤ k) (h2 : k < idx + n) (hown : p k = space)
    (haddr : addr ≤ tmp + (k - idx) * 4096) (hed : tmp + (k - idx) * 4096 ≤ ed) :
    .mark k ∈ markEvents space addr ed n idx tmp p := by
  induction n generalizing idx tmp p with
  | zero => omega
  | succ n ih =>
      rw [markEvents]
      by_cases hk : k = idx
      · subst hk
        rw [if_pos (by omega), if_pos hown]
        exact List.mem_cons_of_mem _ List.mem_cons_self
      · have hrest : ∀ q, q k = p k →
            .mark k ∈ markEvents space addr ed n (idx + 1) (tmp + 4096) q :=
          fun q hq => ih (by omega) (by omega) (hq.trans hown) (by omega) (by omega)
        split_ifs
        · exact List.mem_cons_of_mem _
            (List.mem_cons_of_mem _ (hrest _ (Function.update_of_ne hk ..)))
        · exact List.mem_cons_of_mem _ (hrest p rfl)
        · exact hrest p rfl

/-- The pages after the freeing loop. -/
lemma freePages_eq (k : Nat) : freePages space addr ed n idx tmp p k =
    if .mark k ∈ markEvents space addr ed n idx tmp p then pageFree else p k := by
  induction n generalizing idx tmp p with
  | zero => rfl
  | succ n ih =>
      rw [freePages, markEvents]
      by_cases hrange : addr ≤ tmp ∧ tmp ≤ ed
      · by_cases hown : p idx = space
        · have hboth : addr ≤ tmp ∧ tmp ≤ ed ∧ p idx = space := ⟨hrange.1, hrange.2, hown⟩
          rw [if_pos hboth, if_pos hrange, if_pos hown, ih]
          by_cases hk : k = idx
          · subst hk
            simp
          · simp [hk]
        · have hno : ¬(addr ≤ tmp ∧ tmp ≤ ed ∧ p idx = space) := fun h => hown h.2.2
          rw [if_neg hno, if_pos hrange, if_neg hown, ih]
          simp
      · have hno : ¬(addr ≤ tmp ∧ tmp ≤ ed ∧ p idx = space) := fun h => hrange ⟨h.1, h.2.1⟩
        rw [if_neg hno, if_neg hrange, ih]

/-! ### One region -/

/-- Everything happens in the region, and more than reading only if the task owns all of it. -/
lemma mem_regionEvents (h : e ∈ regionEvents space addr ed shift tmp p) :
    (∃ k, tmp / 4096 ≤ k ∧ k < tmp / 4096 + 2 ^ (shift - 12) ∧
    (e = .read k ∨ e = .mark k ∧ p k = space ∧
      addr ≤ tmp + (k - tmp / 4096) * 4096 ∧ tmp + (k - tmp / 4096) * 4096 ≤ ed)) ∨
    e = .unmap tmp shift ∧ ∀ k, tmp / 4096 ≤ k → k < tmp / 4096 + 2 ^ (shift - 12) →
        p k = space := by
  rw [regionEvents] at h
  rcases List.mem_append.mp h with h | h
  · obtain ⟨k, h1, h2, rfl⟩ := mem_scanEvents h
    exact .inl ⟨k, h1, h2, .inl rfl⟩
  · split_ifs at h with hall
    · rcases List.mem_cons.mp h with rfl | h
      · exact .inr ⟨rfl, ownsAll_iff.mp hall⟩
      · exact .inl (mem_markEvents h)
    · simp at h

/-- The first entry of a region is read. -/
lemma read_mem_regionEvents : .read (tmp / 4096) ∈ regionEvents space addr ed shift tmp p := by
  have hnum : ∃ n, 2 ^ (shift - 12) = n + 1 :=
    ⟨2 ^ (shift - 12) - 1, by have := Nat.two_pow_pos (shift - 12); omega⟩
  obtain ⟨n, hn⟩ := hnum
  rw [regionEvents]
  refine List.mem_append_left _ ?_
  rw [hn, scanEvents]
  exact List.mem_cons_self

/-- The pages after a region. -/
lemma region_eq (k : Nat) :
    (if ownsAll space p (2 ^ (shift - 12)) (tmp / 4096) then
      freePages space addr ed (2 ^ (shift - 12)) (tmp / 4096) tmp p else p) k =
    if .mark k ∈ regionEvents space addr ed shift tmp p then pageFree else p k := by
  have hscan : .mark k ∉ scanEvents space p (2 ^ (shift - 12)) (tmp / 4096) := fun h => by
    obtain ⟨j, -, -, h1⟩ := mem_scanEvents h
    exact FreeEvent.noConfusion h1
  rw [regionEvents]
  split_ifs with h1 h2 h2
  · rw [freePages_eq, if_pos]
    simpa [hscan] using h2
  · rw [freePages_eq, if_neg]
    simpa [hscan] using h2
  · simp [hscan] at h2
  · rfl

/-! ### The regions of one size -/

lemma freeRegions_eq (k : Nat) : freeRegions space addr ed shift n plus p k =
    if .mark k ∈ regionsEvents space addr ed shift n plus p then pageFree else p k := by
  induction n generalizing plus p with
  | zero => rfl
  | succ n ih =>
      rw [freeRegions, regionsEvents, ih, region_eq]
      simp only [List.mem_append]
      split_ifs <;> tauto

/-- The start of a region. -/
def regionAt (addr shift j : Nat) : Nat := (addr / 2 ^ shift * 2 ^ shift + j * 2 ^ shift) % 2 ^ 32

/-- What happens, happens in one of the regions, with pages of the task that it had before. -/
lemma mem_regionsEvents {i : Nat} (h : e ∈ regionsEvents space addr ed shift n (i * 2 ^ shift) p) :
    ∃ j q, i ≤ j ∧ j < i + n ∧ (∀ k, q k = space → p k = space) ∧
      e ∈ regionEvents space addr ed shift (regionAt addr shift j) q := by
  induction n generalizing i p with
  | zero => simp [regionsEvents] at h
  | succ n ih =>
      rw [regionsEvents, ← Nat.succ_mul] at h
      rcases List.mem_append.mp h with h | h
      · exact ⟨i, p, le_rfl, by omega, fun _ => id, h⟩
      · obtain ⟨j, q, h1, h2, h3, h4⟩ := ih h
        refine ⟨j, q, by omega, by omega, fun k hk => ?_, h4⟩
        have h5 := h3 k hk
        split_ifs at h5 with hall
        · rcases freePages_apply k with h6 | ⟨h6, -⟩
          · exact h6.symm.trans h5
          · exact h6
        · exact h5

/-- Every region is treated, with the pages of the task that have not been freed. -/
lemma regionsEvents_sub {i j : Nat} (h1 : i ≤ j) (h2 : j < i + n) :
    ∃ q, (∀ k, p k = space → q k = space ∨
    .mark k ∈ regionsEvents space addr ed shift n (i * 2 ^ shift) p) ∧
      ∀ e ∈ regionEvents space addr ed shift (regionAt addr shift j) q,
        e ∈ regionsEvents space addr ed shift n (i * 2 ^ shift) p := by
  induction n generalizing i p with
  | zero => omega
  | succ n ih =>
      rw [regionsEvents, ← Nat.succ_mul]
      by_cases hj : j = i
      · subst hj
        exact ⟨p, fun k hk => .inl hk, fun e he => List.mem_append_left _ he⟩
      · obtain ⟨q, h3, h4⟩ := ih (p := if ownsAll space p (2 ^ (shift - 12))
            ((addr / 2 ^ shift * 2 ^ shift + i * 2 ^ shift) % 2 ^ 32 / 4096) then
          freePages space addr ed (2 ^ (shift - 12))
            ((addr / 2 ^ shift * 2 ^ shift + i * 2 ^ shift) % 2 ^ 32 / 4096)
            ((addr / 2 ^ shift * 2 ^ shift + i * 2 ^ shift) % 2 ^ 32) p else p) (i :=
              i + 1) (by omega) (by omega)
        refine ⟨q, fun k hk => ?_, fun e he => List.mem_append_right _ (h4 e he)⟩
        by_cases hmark : .mark k ∈ regionEvents space addr ed shift
            ((addr / 2 ^ shift * 2 ^ shift + i * 2 ^ shift) % 2 ^ 32) p
        · exact .inr (List.mem_append_left _ hmark)
        · refine (h3 k ?_).imp_right fun h5 => List.mem_append_right _ h5
          rw [region_eq, if_neg hmark]
          exact hk

/-- The same for the whole loop. -/
lemma allRegions_sub {j : Nat} (hj : j < n) :
    ∃ q, (∀ k, p k = space → q k = space ∨ .mark k ∈ regionsEvents space addr ed shift n 0 p) ∧
      ∀ e ∈ regionEvents space addr ed shift (regionAt addr shift j) q,
        e ∈ regionsEvents space addr ed shift n 0 p := by
  rw [← Nat.zero_mul (2 ^ shift)]
  exact regionsEvents_sub (Nat.zero_le j) (by omega)

/-! ### Unmapped before it is freed -/

/-- Every page that is marked free has been unmapped before. -/
def MarksCovered (low : Nat) (l : List FreeEvent) : Prop :=
  ∀ pre k post, l = pre ++ .mark k :: post →
    ∃ base shift, .unmap base shift ∈ pre ∧ base ≤ low + 4096 * k ∧
    low + 4096 * k + 4096 ≤ base + 2 ^ shift

namespace MarksCovered

variable {low : Nat} {l l' : List FreeEvent}

lemma append (h : MarksCovered low l) (h' : MarksCovered low l') : MarksCovered low (l ++ l') := by
  intro pre k post heq
  rcases List.append_eq_append_iff.mp heq with ⟨c, rfl, h1⟩ | ⟨c, h1, h2⟩
  · obtain ⟨b, sh, h2, h3⟩ := h' c k post h1
    exact ⟨b, sh, List.mem_append_right _ h2, h3⟩
  · cases c with
    | nil =>
        obtain ⟨b, sh, h3, -⟩ := h' [] k post h2.symm
        simp at h3
    | cons x c =>
        obtain ⟨rfl, -⟩ := List.cons.inj h2
        exact h pre k c h1

lemma region (h12 : 12 ≤ shift) (htmp : 4096 ∣ tmp) :
    MarksCovered 0 (regionEvents space addr ed shift tmp p) := by
  have hpow := two_pow_pages h12
  intro pre k post heq
  have hmem : .mark k ∈ regionEvents space addr ed shift tmp p := by
    rw [heq]
    exact List.mem_append_right _ List.mem_cons_self
  obtain ⟨j, h1, h2, h3⟩ : ∃ j, tmp / 4096 ≤ j ∧ j < tmp / 4096 + 2 ^ (shift - 12) ∧ k = j := by
    rcases mem_regionEvents hmem with ⟨j, h1, h2, h3 | h3⟩ | h3
    · exact FreeEvent.noConfusion h3
    · exact ⟨j, h1, h2, FreeEvent.mark.inj h3.1⟩
    · exact FreeEvent.noConfusion h3.1
  subst h3
  refine ⟨tmp, shift, ?_, by omega, by omega⟩
  rw [regionEvents] at heq
  rcases List.append_eq_append_iff.mp heq with ⟨c, rfl, h4⟩ | ⟨c, h4, h5⟩
  · split_ifs at h4 with hall
    · cases c with
      | nil => simp at h4
      | cons x c =>
          obtain ⟨rfl, -⟩ := List.cons.inj h4
          exact List.mem_append_right _ List.mem_cons_self
    · simp at h4
  · -- nothing is marked while the region is checked
    cases c with
    | nil =>
        rw [List.nil_append] at h5
        split_ifs at h5
        exact FreeEvent.noConfusion (List.cons.inj h5).1
    | cons x c =>
        obtain ⟨rfl, -⟩ := List.cons.inj h5
        have hscan : .mark k ∈ scanEvents space p (2 ^ (shift - 12)) (tmp / 4096) := by
          rw [h4]
          exact List.mem_append_right _ List.mem_cons_self
        obtain ⟨j, -, -, h6⟩ := mem_scanEvents hscan
        exact FreeEvent.noConfusion h6

lemma regions (h12 : 12 ≤ shift) (hplus : 2 ^ shift ∣ plus) :
    MarksCovered 0 (regionsEvents space addr ed shift n plus p) := by
  have h4096 : 4096 ∣ 2 ^ shift := Nat.pow_dvd_pow 2 h12
  induction n generalizing plus p with
  | zero =>
      intro pre k post h
      simp [regionsEvents] at h
  | succ n ih =>
      rw [regionsEvents]
      refine append (region h12 ?_) (ih (Nat.dvd_add hplus (Nat.dvd_refl _)))
      refine (Nat.dvd_mod_iff (by decide : 4096 ∣ 2 ^ 32)).mpr ?_
      exact Nat.dvd_add (h4096.trans (Nat.dvd_mul_left ..)) (h4096.trans hplus)

/-- In the addresses that the code uses. -/
lemma freeEvents : MarksCovered 0 (freeEvents space addr size s) := by
  unfold Hazelnut.freeEvents
  have hnil : MarksCovered 0 [] := fun pre k post h => by simp at h
  split_ifs
  · exact hnil
  · exact hnil
  · exact append (regions (by omega) (Nat.dvd_zero _)) (regions (by omega) (Nat.dvd_zero _))

end MarksCovered

/-! ### Flexpages -/

/-- The pages of the flexpage.  Entry `k` of `page_array` is for the page at `4096 * k` of main
memory. -/
def InFlex (addr size low k : Nat) : Prop :=
  ¬IsIofp addr ∧ addr / 2 ^ size * 2 ^ size ≤ low + 4096 * k ∧
    low + 4096 * k + 4096 ≤ addr / 2 ^ size * 2 ^ size + 2 ^ size

/-- The entries that the code takes for those of the flexpage. -/
def InRange (addr size k : Nat) : Prop :=
  freeBase addr size ≤ 4096 * k ∧ 4096 * k < freeBase addr size + shl size

/-- **Freeing touches the memory of the task only.** -/
structure FreeSound (space addr size : Nat) (s : Sigma0) : Prop where
  bounds : ∀ k, .read k ∈ freeEvents space addr size s ∨ .mark k ∈ freeEvents space addr size s →
    k < pageCount
  marks : ∀ k < pageCount,
    .mark k ∈ freeEvents space addr size s ↔ s.pages k = space ∧ InFlex addr size s.low k
  unmaps : ∀ base shift, .unmap base shift ∈ freeEvents space addr size s →
    ∀ x, 4096 ∣ x → base ≤ x → x < base + 2 ^ shift →
      ∃ k < pageCount, x = s.low + 4096 * k ∧ s.pages k = space
  covered : MarksCovered s.low (freeEvents space addr size s)

/-- The sizes with which the shift counts are consistent, for a range that ends in `page_array`. -/
def FitsArray (addr size : Nat) : Prop :=
  (size < 32 ∨ 54 ≤ size) ∧ freeBase addr size + shl size ≤ maxMem

/-- What is freed properly: ranges in `page_array`, if main memory starts at 0, or if the task owns
neither a page of the flexpage nor one that the code takes for such a page. -/
def FreeGood (space addr size : Nat) (s : Sigma0) : Prop :=
  IsIofp addr ∨ size < 12 ∨ FitsArray addr size ∧
    if s.low = 0 then size < 32 ∨ ∀ k < pageCount, s.pages k = space → InRange addr size k
    else ∀ k < pageCount, s.pages k = space → ¬InRange addr size k ∧ ¬InFlex addr size s.low k

lemma shl_mod (size : Nat) : shl size = 2 ^ (size % 32) := rfl

lemma regionCount_eq (h : size < 32 ∨ 54 ≤ size) (h64 : size < 64) (hs : shift = 12 ∨ shift = 22) :
    regionCount size shift = 2 ^ (size % 32 - shift) := by
  rw [regionCount]
  split_ifs with hlt
  · rw [shl]
    congr 1
    omega
  · rw [show size % 32 - shift = 0 by omega, pow_zero]

lemma shl_ge (hsize : size < 32 ∨ 54 ≤ size) (h12 : 12 ≤ size) (h64 : size < 64) :
    4096 ≤ shl size := by
  have h : 2 ^ 12 ≤ 2 ^ (size % 32) := Nat.pow_le_pow_right (by omega) (by omega)
  exact h

/-- Where a region is: inside `page_array`, and with a page of the range in it. -/
lemma region_spec (h : FitsArray addr size) (h12 : 12 ≤ size) (h64 : size < 64)
    (hs : shift = 12 ∨ shift = 22)
    {j : Nat} (hj : j < regionCount size shift) :
    ∃ t, regionAt (freeBase addr size) shift j = 4096 * t ∧ t + 2 ^ (shift - 12) ≤ pageCount ∧
      ∃ k, t ≤ k ∧ k < t + 2 ^ (shift - 12) ∧ InRange addr size k := by
  obtain ⟨hsize, hend⟩ := h
  rw [regionCount_eq hsize h64 hs] at hj
  have hS : 2 ^ shift = 4096 * 2 ^ (shift - 12) := two_pow_pages (by omega)
  have hE : shl size = 4096 * 2 ^ (size % 32 - 12) := two_pow_pages (by omega)
  have hmem : 2 ^ shift ∣ maxMem := by rcases hs with rfl | rfl <;> decide
  have hdvd : shl size ∣ freeBase addr size := Nat.dvd_mul_left ..
  have hpos : 0 < 2 ^ (shift - 12) := Nat.two_pow_pos _
  have hpos' : 0 < 2 ^ (size % 32 - 12) := Nat.two_pow_pos _
  have hp := pageCount_eq
  have hm := maxMem_eq
  unfold regionAt InRange
  generalize freeBase addr size = B at *
  rcases Nat.lt_or_ge shift (size % 32) with hlt | hge
  · -- the regions divide the range
    have hsplit : shl size = 2 ^ (size % 32 - shift) * 2 ^ shift := by
      rw [shl_mod, ← pow_add]
      congr 1
      omega
    have hB : B / 2 ^ shift * 2 ^ shift = B :=
      Nat.div_mul_cancel ((Dvd.intro_left _ hsplit.symm).trans hdvd)
    have hnext : (j + 1) * 2 ^ shift ≤ shl size := by
      rw [hsplit]
      exact Nat.mul_le_mul_right _ hj
    rw [Nat.succ_mul] at hnext
    obtain ⟨b, rfl⟩ : 4096 ∣ B := (Dvd.intro _ hE.symm).trans hdvd
    have hjS : j * 2 ^ shift = 4096 * (j * 2 ^ (shift - 12)) := by
      rw [hS, Nat.mul_left_comm]
    rw [hB, Nat.mod_eq_of_lt (by omega)]
    exact ⟨b + j * 2 ^ (shift - 12), by omega, by omega, b + j * 2 ^ (shift - 12), le_rfl, by omega,
      by omega, by omega⟩
  · -- one region contains the range
    obtain rfl : j = 0 := by
      rw [show size % 32 - shift = 0 by omega, pow_zero] at hj
      omega
    have hle : B / 2 ^ shift * 2 ^ shift ≤ B := Nat.div_mul_le_self ..
    have hgap : B < B / 2 ^ shift * 2 ^ shift + 2 ^ shift := Nat.lt_div_mul_add (by omega)
    have hlast : B / 2 ^ shift * 2 ^ shift + 2 ^ shift ≤ maxMem :=
      add_le_of_dvd_of_lt (Nat.dvd_mul_left ..) hmem (by omega)
    obtain ⟨b, rfl⟩ : 4096 ∣ B := (Dvd.intro _ hE.symm).trans hdvd
    obtain ⟨t, ht⟩ : 4096 ∣ 4096 * b / 2 ^ shift * 2 ^ shift :=
      (Dvd.intro _ hS.symm).trans (Nat.dvd_mul_left ..)
    rw [Nat.zero_mul, Nat.add_zero, Nat.mod_eq_of_lt (by omega), ht]
    exact ⟨t, rfl, by omega, b, by omega, by omega, by omega, by omega⟩

/-- What one pass over a range that fits does. -/
def Touches (space addr size : Nat) (p : Nat → Nat) (e : FreeEvent) : Prop :=
  (∃ k < pageCount, e = .read k) ∨
  (∃ k < pageCount, e = .mark k ∧ p k = space ∧ InRange addr size k) ∨
  ∃ t shift, 12 ≤ shift ∧ e = .unmap (4096 * t) shift ∧ t + 2 ^ (shift - 12) ≤ pageCount ∧
    (∀ k, t ≤ k → k < t + 2 ^ (shift - 12) → p k = space) ∧
    ∃ k, t ≤ k ∧ k < t + 2 ^ (shift - 12) ∧ InRange addr size k

namespace Touches

lemma of_read (h : Touches space addr size p (.read k)) : k < pageCount := by
  rcases h with ⟨j, h1, h2⟩ | ⟨j, -, h2, -⟩ | ⟨t, sh, -, h2, -⟩
  · exact FreeEvent.read.inj h2 ▸ h1
  · cases h2
  · cases h2

lemma of_mark (h : Touches space addr size p (.mark k)) :
    k < pageCount ∧ p k = space ∧ InRange addr size k := by
  rcases h with ⟨j, -, h2⟩ | ⟨j, h1, h2, h3⟩ | ⟨t, sh, -, h2, -⟩
  · cases h2
  · obtain rfl := FreeEvent.mark.inj h2
    exact ⟨h1, h3⟩
  · cases h2

lemma of_unmap {b : Nat} (h : Touches space addr size p (.unmap b shift)) :
    12 ≤ shift ∧ ∃ t, b = 4096 * t ∧ t + 2 ^ (shift - 12) ≤ pageCount ∧
      (∀ k, t ≤ k → k < t + 2 ^ (shift - 12) → p k = space) ∧
      ∃ k, t ≤ k ∧ k < t + 2 ^ (shift - 12) ∧ InRange addr size k := by
  rcases h with ⟨j, -, h2⟩ | ⟨j, -, h2, -⟩ | ⟨t, sh, h1, h2, h3⟩
  · cases h2
  · cases h2
  · obtain ⟨rfl, rfl⟩ := FreeEvent.unmap.inj h2
    exact ⟨h1, t, rfl, h3⟩

end Touches

lemma touches_pass (h : FitsArray addr size) (h12 : 12 ≤ size) (h64 : size < 64)
    (hs : shift = 12 ∨ shift = 22)
    (hown : ∀ k, q k = space → p k = space)
    (he : e ∈ regionsEvents space (freeBase addr size) (freeEnd addr size) shift
      (regionCount size shift) 0 q) :
    Touches space addr size p e := by
  rw [← Nat.zero_mul (2 ^ shift)] at he
  obtain ⟨j, r, -, hj, hr, he⟩ := mem_regionsEvents he
  obtain ⟨t, ht, hlast, hin⟩ := region_spec h h12 h64 hs (by omega : j < regionCount size shift)
  have hdiv : 4096 * t / 4096 = t := Nat.mul_div_cancel_left t (by omega)
  rw [ht] at he
  rcases mem_regionEvents he with ⟨k, h1, h2, h3 | ⟨h3, h4, h5, h6⟩⟩ | ⟨h1, h2⟩
  · exact .inl ⟨k, by omega, h3⟩
  · refine .inr (.inl ⟨k, by omega, h3, hown k (hr k h4), by omega, ?_⟩)
    have h7 := h.2
    have hge := shl_ge h.1 h12 h64
    rw [maxMem_eq] at h7
    unfold freeEnd at h6
    omega
  · refine .inr (.inr ⟨t, shift, by omega, h1, hlast,
      fun k h3 h4 => hown k (hr k (h2 k ?_ ?_)), hin⟩)
    · rw [hdiv]
      exact h3
    · rw [hdiv]
      exact h4

lemma touches_freeEvents (hio : ¬IsIofp addr) (h : FitsArray addr size) (h12 : 12 ≤ size)
    (h64 : size < 64)
    (he : e ∈ freeEvents space addr size s) : Touches space addr size s.pages e := by
  rw [freeEvents, if_neg hio, if_neg (by omega)] at he
  rcases List.mem_append.mp he with he | he
  · exact touches_pass h h12 h64 (.inr rfl) (fun _ => id) he
  · refine touches_pass h h12 h64 (.inl rfl) (fun k hk => ?_) he
    rcases freeRegions_apply k with h1 | ⟨h1, -⟩
    · exact h1.symm.trans hk
    · exact h1

/-- A page that the task owns is freed. -/
lemma mark_mem_region (hown : p k = space) (h1 : addr ≤ 4096 * k) (h2 : 4096 * k ≤ ed) :
    .mark k ∈ regionEvents space addr ed 12 (4096 * k) p := by
  have hdiv : 4096 * k / 4096 = k := Nat.mul_div_cancel_left k (by omega)
  have hall : ownsAll space p (2 ^ (12 - 12)) k = true := ownsAll_iff.mpr fun j h3 h4 => by
    obtain rfl : j = k := by omega
    exact hown
  rw [regionEvents, hdiv, if_pos hall]
  exact List.mem_append_right _ (List.mem_cons_of_mem _
    (mark_mem_markEvents le_rfl (by omega) hown (by omega) (by omega)))

/-- All pages of the range that the task owns are freed. -/
lemma mark_of_inRange (hio : ¬IsIofp addr) (h : FitsArray addr size) (h12 : 12 ≤ size)
    (h64 : size < 64)
    (hown : s.pages k = space) (hin : InRange addr size k) :
    .mark k ∈ freeEvents space addr size s := by
  obtain ⟨hsize, hend⟩ := h
  have hge := shl_ge hsize h12 h64
  have hE : shl size = 4096 * 2 ^ (size % 32 - 12) := two_pow_pages (by omega)
  have hcount : regionCount size 12 = 2 ^ (size % 32 - 12) := regionCount_eq hsize h64 (.inl rfl)
  have hdvd : 4096 ∣ freeBase addr size := (Dvd.intro _ hE.symm).trans (Nat.dvd_mul_left ..)
  rw [freeEvents, if_neg hio, if_neg (by omega)]
  by_cases h22 : .mark k ∈ regionsEvents space (freeBase addr size) (freeEnd addr size) 22
      (regionCount size 22) 0 s.pages
  · exact List.mem_append_left _ h22
  refine List.mem_append_right _ ?_
  have hown' : freeRegions space (freeBase addr size) (freeEnd addr size) 22
    (regionCount size 22) 0 s.pages k
      = space := by rw [freeRegions_eq, if_neg h22, hown]
  unfold InRange at hin
  rw [maxMem_eq] at hend
  -- the region of this page
  have hat : regionAt (freeBase addr size) 12 (k - freeBase addr size / 4096) = 4096 * k := by
    unfold regionAt
    omega
  have hj : k - freeBase addr size / 4096 < regionCount size 12 := by
    rw [hcount]
    omega
  generalize freeRegions space (freeBase addr size) (freeEnd addr size) 22
    (regionCount size 22) 0 s.pages = p at *
  obtain ⟨q, h1, h2⟩ := allRegions_sub hj
  rcases h1 k hown' with h3 | h3
  · refine h2 _ ?_
    rw [hat]
    refine mark_mem_region h3 hin.1 ?_
    unfold freeEnd
    omega
  · exact h3

/-- **What is freed**, for a range that fits. -/
lemma mark_iff (hio : ¬IsIofp addr) (h : FitsArray addr size) (h12 : 12 ≤ size) (h64 : size < 64) :
    .mark k ∈ freeEvents space addr size s ↔ s.pages k = space ∧ InRange addr size k := by
  refine ⟨fun he => ?_, fun ⟨h1, h2⟩ => mark_of_inRange hio h h12 h64 h1 h2⟩
  exact (touches_freeEvents hio h h12 h64 he).of_mark.2

/-! ### When freeing is sound -/

/-- The first page of every region of 4 MB is looked at. -/
lemma read_mem_freeEvents (hio : ¬IsIofp addr) (h12 : 12 ≤ size) {j : Nat}
    (hj : j < regionCount size 22) :
    .read (regionAt (freeBase addr size) 22 j / 4096) ∈ freeEvents space addr size s := by
  rw [freeEvents, if_neg hio, if_neg (by omega)]
  refine List.mem_append_left _ ?_
  obtain ⟨q, -, h2⟩ := allRegions_sub hj
  exact h2 _ read_mem_regionEvents

/-- Accesses inside `page_array` only: the range fits. -/
lemma fitsArray_of_bounds (hio : ¬IsIofp addr) (haddr : addr < 2 ^ 32) (h12 : 12 ≤ size)
    (h64 : size < 64)
    (h : ∀ k, .read k ∈ freeEvents space addr size s → k < pageCount) : FitsArray addr size := by
  have hread : ∀ j < regionCount size 22, regionAt (freeBase addr size) 22 j / 4096 < pageCount :=
    fun j hj => h _ (read_mem_freeEvents hio h12 hj)
  have hB : freeBase addr size ≤ addr := Nat.div_mul_le_self ..
  have hdvd : shl size ∣ freeBase addr size := Nat.dvd_mul_left ..
  have hp := pageCount_eq
  have hm := maxMem_eq
  unfold regionAt at hread
  generalize hb : freeBase addr size = B at *
  have hsize : size < 32 ∨ 54 ≤ size := by
    by_contra hno
    -- so many regions that they go around the address space
    have hcount : 2 ^ 10 ≤ regionCount size 22 := by
      rw [regionCount, if_pos (by omega)]
      exact Nat.pow_le_pow_right (by omega) (by omega)
    have h1 : (B / 2 ^ 22 * 2 ^ 22 + (1088 - B / 2 ^ 22) % 1024 * 2 ^ 22) % 2 ^ 32 /
        4096 < pageCount :=
      hread _ (by omega)
    omega
  refine ⟨hsize, ?_⟩
  rw [hb]
  rw [regionCount_eq hsize h64 (.inr rfl)] at hread
  have hlast := hread (2 ^ (size % 32 - 22) - 1) (Nat.sub_one_lt (Nat.two_pow_pos _).ne')
  rcases Nat.lt_or_ge 22 (size % 32) with hlt | hge
  · have hsplit : shl size = 2 ^ 22 * 2 ^ (size % 32 - 22) := by
      rw [shl_mod, ← pow_add]
      congr 1
      omega
    have hend : B + shl size ≤ 2 ^ 32 :=
      add_le_of_dvd_of_lt hdvd (Nat.pow_dvd_pow 2 (by omega)) (by omega)
    obtain ⟨b, rfl⟩ : 2 ^ 22 ∣ B := (Dvd.intro _ hsplit.symm).trans hdvd
    omega
  · rw [show size % 32 - 22 = 0 by omega, pow_zero] at hlast
    have hend : B + shl size ≤ B / 2 ^ 22 * 2 ^ 22 + 2 ^ 22 := by
      have h1 : shl size ∣ 2 ^ 22 := Nat.pow_dvd_pow 2 hge
      refine add_le_of_dvd_of_lt hdvd (Nat.dvd_add (h1.trans (Nat.dvd_mul_left ..)) h1) ?_
      omega
    omega

/-- The flexpage, from the size that the code uses. -/
lemma inFlex_of_inRange {low l : Nat} (hio : ¬IsIofp addr) (haddr : addr < 2 ^ 32)
    (h : FitsArray addr size)
    (h12 : 12 ≤ size) (hin : InRange addr size k) (heq : low + 4096 * l = 4096 * k) :
    InFlex addr size low l := by
  obtain ⟨hsize, hend⟩ := h
  unfold InRange at hin
  rw [maxMem_eq] at hend
  refine ⟨hio, ?_⟩
  rcases hsize with h32 | h54
  · have hE : 2 ^ size = 4096 * 2 ^ (size - 12) := two_pow_pages h12
    obtain ⟨b, hb⟩ : 4096 ∣ addr / 2 ^ size * 2 ^ size :=
      (Dvd.intro _ hE.symm).trans (Nat.dvd_mul_left ..)
    rw [freeBase, shl_of_lt h32] at hin
    omega
  · have hbig : 2 ^ 54 ≤ 2 ^ size := Nat.pow_le_pow_right (by omega) h54
    rw [Nat.div_eq_of_lt (by omega), Nat.zero_mul]
    omega

lemma inRange_of_inFlex (h32 : size < 32) (h : InFlex addr size 0 k) : InRange addr size k := by
  obtain ⟨-, h1, h2⟩ := h
  rw [InRange, freeBase, shl_of_lt h32]
  omega

/-- With main memory not at 0, a page that is freed has a page in front of it that is freed as well.
-/
lemma FreeSound.not_inRange (h : FreeSound space addr size s) (hio : ¬IsIofp addr)
    (haddr : addr < 2 ^ 32)
    (hfit : FitsArray addr size) (h12 : 12 ≤ size) (h64 : size < 64) (hlow : s.low ≠ 0)
    (hk : k < pageCount)
    (hown : s.pages k = space) : ¬InRange addr size k := by
  induction k using Nat.strong_induction_on with
  | _ k ih =>
      intro hin
      have hmark := mark_of_inRange hio hfit h12 h64 hown hin
      obtain ⟨pre, post, hsplit⟩ := List.append_of_mem hmark
      -- the code unmaps the page at `4096 * k`
      obtain ⟨b, sh, h1, h2, h3⟩ := MarksCovered.freeEvents pre k post hsplit
      have hun : .unmap b sh ∈ freeEvents space addr size s := by
        rw [hsplit]
        exact List.mem_append_left _ h1
      obtain ⟨l, h4, h5, h6⟩ :=
        h.unmaps b sh hun (4096 * k) (Nat.dvd_mul_right ..) (by omega) (by omega)
      have hflex := inFlex_of_inRange hio haddr hfit h12 hin h5.symm
      have hprev := (mark_iff hio hfit h12 h64).mp ((h.marks l h4).mpr ⟨h6, hflex⟩)
      exact ih l (by omega) h4 h6 hprev.2

lemma FreeSound.good (h : FreeSound space addr size s) (haddr : addr < 2 ^ 32) (h64 : size < 64) :
    FreeGood space addr size s := by
  by_cases hio : IsIofp addr
  · exact .inl hio
  by_cases h12 : size < 12
  · exact .inr (.inl h12)
  have hfit := fitsArray_of_bounds hio haddr (by omega) h64 fun k hk => h.bounds k (.inl hk)
  refine .inr (.inr ⟨hfit, ?_⟩)
  have hrange : ∀ k < pageCount, s.pages k = space → InFlex addr size s.low k →
      InRange addr size k :=
    fun k hk hown hflex =>
      ((mark_iff hio hfit (by omega) h64).mp ((h.marks k hk).mpr ⟨hown, hflex⟩)).2
  split_ifs with hlow
  · rcases hfit.1 with h32 | h54
    · exact .inl h32
    · refine .inr fun k hk hown => hrange k hk hown ⟨hio, ?_⟩
      have hbig : 2 ^ 54 ≤ 2 ^ size := Nat.pow_le_pow_right (by omega) h54
      have hp := pageCount_eq
      rw [Nat.div_eq_of_lt (by omega), Nat.zero_mul]
      omega
  · intro k hk hown
    have hno := h.not_inRange hio haddr hfit (by omega) h64 hlow hk hown
    exact ⟨hno, fun hflex => hno (hrange k hk hown hflex)⟩

/-- Nothing happens. -/
lemma FreeSound.of_nil (h : freeEvents space addr size s = [])
    (hno : ∀ k, ¬InFlex addr size s.low k) : FreeSound space addr size s := by
  refine ⟨fun k hk => ?_, fun k _ => ?_, fun b sh hb => ?_, fun pre k post hsplit => ?_⟩
  · simp [h] at hk
  · exact iff_of_false (by simp [h]) fun hk => hno k hk.2
  · simp [h] at hb
  · simp [h] at hsplit

lemma FreeGood.sound (h : FreeGood space addr size s) (haddr : addr < 2 ^ 32) (h64 : size < 64) :
    FreeSound space addr size s := by
  by_cases hio : IsIofp addr
  · exact .of_nil (by rw [freeEvents, if_pos hio]) fun k hk => hk.1 hio
  by_cases h12 : size < 12
  · refine .of_nil (by rw [freeEvents, if_neg hio, if_pos h12]) fun k hk => ?_
    have hsmall : 2 ^ size ≤ 2 ^ 11 := Nat.pow_le_pow_right (by omega) (by omega)
    have := hk.2
    omega
  obtain ⟨hfit, hgood⟩ : FitsArray addr size ∧ _ := (h.resolve_left hio).resolve_left h12
  have htouch : ∀ e ∈ freeEvents space addr size s, Touches space addr size s.pages e :=
    fun e he => touches_freeEvents hio hfit (by omega) h64 he
  have hmark : ∀ k, .mark k ∈ freeEvents space addr size s ↔ s.pages k = space ∧
      InRange addr size k :=
    fun k => mark_iff hio hfit (by omega) h64
  -- in the second case of the condition, no page is found that the task owns
  have hnone : s.low ≠ 0 → ∀ k < pageCount, s.pages k = space → ¬InRange addr size k ∧
      ¬InFlex addr size s.low k := by
    intro hlow
    rwa [if_neg hlow] at hgood
  refine ⟨fun k hk => ?_, fun k hk => ?_, fun b sh hb x hx h1 h2 => ?_, fun pre k post hsplit => ?_⟩
  · rcases hk with hk | hk
    · exact (htouch _ hk).of_read
    · exact (htouch _ hk).of_mark.1
  · refine (hmark k).trans (and_congr_right fun hown => ?_)
    by_cases hlow : s.low = 0
    · rw [if_pos hlow] at hgood
      have hflex : InRange addr size k → InFlex addr size s.low k := fun hin =>
        inFlex_of_inRange hio haddr hfit (by omega) hin (by omega)
      rcases hgood with h32 | hall
      · exact ⟨hflex, fun h1 => inRange_of_inFlex h32 (hlow ▸ h1)⟩
      · exact ⟨hflex, fun _ => hall k hk hown⟩
    · obtain ⟨h1, h2⟩ := hnone hlow k hk hown
      exact iff_of_false h1 h2
  · obtain ⟨h3, t, rfl, h5, h6, k, h7, h8, h9⟩ := (htouch _ hb).of_unmap
    by_cases hlow : s.low = 0
    · have hpow := two_pow_pages h3
      obtain ⟨y, rfl⟩ := hx
      exact ⟨y, by omega, by omega, h6 y (by omega) (by omega)⟩
    · exact absurd h9 (hnone hlow k (by omega) (h6 k h7 h8)).1
  · have hk : .mark k ∈ freeEvents space addr size s := by
      rw [hsplit]
      exact List.mem_append_right _ List.mem_cons_self
    by_cases hlow : s.low = 0
    · rw [hlow]
      exact MarksCovered.freeEvents pre k post hsplit
    · obtain ⟨h3, h5, h6⟩ := (htouch _ hk).of_mark
      exact absurd h6 (hnone hlow k h3 h5).1

lemma freeSound_iff (haddr : addr < 2 ^ 32) (h64 : size < 64) :
    FreeSound space addr size s ↔ FreeGood space addr size s :=
  ⟨fun h => h.good haddr h64, fun h => h.sound haddr h64⟩

/-! ### Freeing what has been allocated -/

variable {s' : Sigma0} {a : Nat}

lemma freeSpace_eq (hio : ¬IsIofp addr) (h12 : 12 ≤ size) (k : Nat) :
    (freeSpace space addr size s).pages k =
    if .mark k ∈ freeEvents space addr size s then pageFree else s.pages k := by
  have hsize : ¬size < 12 := by omega
  rw [freeSpace, freeEvents, if_neg hio, if_neg hio, if_neg hsize, if_neg hsize]
  change freeRegions space (freeBase addr size) (freeEnd addr size) 12 (regionCount size 12) 0
    (freeRegions space (freeBase addr size) (freeEnd addr size) 22
      (regionCount size 22) 0 s.pages) k = _
  rw [freeRegions_eq, freeRegions_eq]
  simp only [List.mem_append]
  split_ifs <;> tauto

/-- What an allocation changes: free pages of the flexpage get the task as owner. -/
lemma allocateSpace_apply (hio : ¬IsIofp addr) (haddr : addr < 2 ^ 32) (hlow : s.low < 2 ^ 32)
    (hpage : 4096 ∣ s.low) (h12 : 12 ≤ size) (h64 : size < 64) (hsize : size < 32 ∨ 54 ≤ size)
    (h : allocateSpace space addr size s = (a, s')) : s'.low = s.low ∧
      ∀ k, s'.pages k = s.pages k ∨
        s.pages k = pageFree ∧ s'.pages k = space ∧ k < pageCount ∧ InFlex addr size s.low k := by
  classical
  have hn : shl (size - 12) = 2 ^ (size % 32 - 12) := by
    rw [shl]
    congr 1
    omega
  rw [allocateSpace_eq hio haddr hlow (shl_mod size) hn (by omega) (by omega) h12] at h
  have hE : 2 ^ (size % 32) = 4096 * 2 ^ (size % 32 - 12) := two_pow_pages (by omega)
  split_ifs at h with hav
  · obtain ⟨-, rfl⟩ := Prod.mk.inj h
    refine ⟨rfl, fun k => ?_⟩
    rw [allocated]
    dsimp only
    split_ifs with hk
    · refine .inr ⟨hk.2.2, rfl, ?_⟩
      obtain ⟨h1, h2, -⟩ := hav
      obtain ⟨b, hb⟩ : 4096 ∣ addr / 2 ^ (size % 32) * 2 ^ (size % 32) :=
        (Dvd.intro _ hE.symm).trans (Nat.dvd_mul_left ..)
      have hp := pageCount_eq
      have hm := maxMem_eq
      refine ⟨by omega, hio, ?_⟩
      rcases hsize with h32 | h54
      · rw [Nat.mod_eq_of_lt h32] at *
        omega
      · have hbig : 2 ^ 54 ≤ 2 ^ size := Nat.pow_le_pow_right (by omega) h54
        rw [Nat.div_eq_of_lt (show addr < 2 ^ size by omega), Nat.zero_mul]
        omega
    · exact .inl rfl
  · obtain ⟨-, rfl⟩ := Prod.mk.inj h
    exact ⟨rfl, fun k => .inl rfl⟩

/-- I/O flexpages leave `page_array` alone. -/
lemma ports_pages (hio : IsIofp addr) (h : allocateSpace space addr size s = (a, s')) :
    (freeSpace space addr size s').pages = s.pages := by
  have hfree : (freeSpace space addr size s').pages = s'.pages := by
    rw [freeSpace, if_pos hio, freeIoSpace]
    split_ifs <;> rfl
  rw [hfree]
  rw [allocateSpace, if_pos hio, allocateIoSpace] at h
  split_ifs at h
  all_goals
    obtain ⟨-, rfl⟩ := Prod.mk.inj h
    rfl

/-- A flexpage that is freed after it has been allocated. -/
lemma restore_iff (haddr : addr < 2 ^ 32) (h64 : size < 64) (hlow : s.low < 2 ^ 32)
    (hpage : 4096 ∣ s.low)
    (h : allocateSpace space addr size s = (a, s')) (hgood : FreeGood space addr size s') :
    (freeSpace space addr size s').pages = s.pages ↔
      space = pageFree ∨ ∀ k < pageCount, InFlex addr size s.low k → s.pages k ≠ space := by
  by_cases hio : IsIofp addr
  · exact iff_of_true (ports_pages hio h) (.inr fun k _ hk => absurd hio hk.1)
  by_cases h12 : size < 12
  · have hs : s' = s := by
      rw [allocateSpace, if_neg hio, if_pos h12, ite_self] at h
      exact (Prod.mk.inj h).2.symm
    have hsmall : 2 ^ size ≤ 2 ^ 11 := Nat.pow_le_pow_right (by omega) (by omega)
    refine iff_of_true ?_ (.inr fun k _ hk => absurd hk.2 (by omega))
    rw [freeSpace, if_neg hio, if_pos h12, hs]
  have hfit : FitsArray addr size := ((hgood.resolve_left hio).resolve_left h12).1
  have hsound := hgood.sound haddr h64
  obtain ⟨hlow', happly⟩ := allocateSpace_apply hio haddr hlow hpage (by omega) h64 hfit.1 h
  constructor
  · intro hrestore
    by_cases hspace : space = pageFree
    · exact .inl hspace
    refine .inr fun k hk hflex hown => hspace ?_
    have hown' : s'.pages k = space := by
      rcases happly k with h1 | ⟨-, h1, -⟩
      · exact h1.trans hown
      · exact h1
    have hmark := (hsound.marks k hk).mpr ⟨hown', hlow' ▸ hflex⟩
    have hfinal : (freeSpace space addr size s').pages k = pageFree := by
      rw [freeSpace_eq hio (by omega), if_pos hmark]
    rwa [hrestore, hown] at hfinal
  · intro hown
    funext k
    rw [freeSpace_eq hio (by omega)]
    split_ifs with hmark
    · have hk := hsound.bounds k (.inr hmark)
      obtain ⟨h1, h2⟩ := (hsound.marks k hk).mp hmark
      rw [hlow'] at h2
      rcases happly k with h3 | ⟨h3, -⟩
      · rcases hown with h4 | h4
        · rw [← h3, h1, h4]
        · exact absurd (h3.symm.trans h1) (h4 k hk h2)
      · exact h3.symm
    · rcases happly k with h3 | ⟨-, h3, h4, h5⟩
      · exact h3
      · exact absurd ((hsound.marks k h4).mpr ⟨h3, hlow'.symm ▸ h5⟩) hmark

/-- What the search anywhere changes: a range of free pages, aligned relative to main memory, gets
the task as owner. -/
lemma allocateAny_apply (h : allocateAny space size s = some (a, s')) (ha : a ≠ noMap) :
    ∃ addr, a = (s.low + addr) % 2 ^ 32 ∧ 12 ≤ size ∧ shl size ∣ addr ∧
      addr + shl (size - 12) * 4096 ≤ maxMem ∧ s'.low = s.low ∧
      (∀ k, addr / 4096 ≤ k → k < addr / 4096 + shl (size - 12) →
        s.pages k = pageFree ∧ s'.pages k = space) ∧
      ∀ k, ¬(addr / 4096 ≤ k ∧ k < addr / 4096 + shl (size - 12)) → s'.pages k = s.pages k := by
  rw [allocateAny] at h
  split_ifs at h with h12
  · exact absurd (Prod.mk.inj (Option.some.inj h)).1.symm ha
  cases hfind : findPages size s.pages (maxMem + 1) 0 with
  | none => simp [hfind] at h
  | some res =>
      cases res with
      | none =>
          simp only [hfind] at h
          exact absurd (Prod.mk.inj (Option.some.inj h)).1.symm ha
      | some addr =>
          simp only [hfind] at h
          obtain ⟨rfl, rfl⟩ := Prod.mk.inj (Option.some.inj h)
          obtain ⟨hdvd, hfree, hend⟩ := findPages_eq hfind (Nat.dvd_zero _)
          refine ⟨addr, rfl, by omega, hdvd, hend, rfl, fun k h1 h2 => ⟨hfree k h1 h2, ?_⟩,
            fun k hk => ?_⟩
          · exact (markPages_apply ..).trans (if_pos ⟨h1, h2, hfree k h1 h2⟩)
          · exact (markPages_apply ..).trans (if_neg fun hc => hk ⟨hc.1, hc.2.1⟩)

/-- The pages that are found, in numbers. -/
lemma found_range (hfit : FitsArray addr size) (h12 : 12 ≤ size) (h64 : size < 64)
    (hdvd : shl size ∣ addr) : 4096 ∣ addr ∧ shl size = 4096 * shl (size - 12) ∧
      freeBase addr size = addr := by
  have hsize := hfit.1
  have hn : shl (size - 12) = 2 ^ (size % 32 - 12) := by
    rw [shl]
    congr 1
    omega
  have hE : shl size = 4096 * shl (size - 12) := by
    rw [hn]
    exact two_pow_pages (by omega)
  exact ⟨(Dvd.intro _ hE.symm).trans hdvd, hE, Nat.div_mul_cancel hdvd⟩

/-- Where main memory starts at 0, the pages that are found are those of the flexpage that the task
owns. -/
lemma found_inFlex (hfit : FitsArray addr size) (h12 : 12 ≤ size) (h64 : size < 64)
    (hdvd : shl size ∣ addr) (haddr : addr < 2 ^ 32) (hio : ¬IsIofp addr)
    (hcase : size < 32 ∨ ∀ k < pageCount, s'.pages k = space → InRange addr size k)
    (hk : k < pageCount) (hown : s'.pages k = space) :
    InFlex addr size 0 k ↔ addr / 4096 ≤ k ∧ k < addr / 4096 + shl (size - 12) := by
  obtain ⟨⟨b, rfl⟩, hE, hbase⟩ := found_range hfit h12 h64 hdvd
  have hp := pageCount_eq
  rw [InFlex, Nat.mul_div_cancel_left b (by omega)]
  rcases Nat.lt_or_ge size 32 with h32 | h32
  · have hpow : 2 ^ size = 4096 * shl (size - 12) := (shl_of_lt h32).symm.trans hE
    rw [Nat.div_mul_cancel ((shl_of_lt h32) ▸ hdvd), hpow]
    constructor
    · rintro ⟨-, h1, h2⟩
      omega
    · rintro ⟨h1, h2⟩
      exact ⟨hio, by omega, by omega⟩
  · have h54 : 54 ≤ size := by
      have := hfit.1
      omega
    have hbig : 2 ^ 54 ≤ 2 ^ size := Nat.pow_le_pow_right (by omega) h54
    rw [Nat.div_eq_of_lt (by omega), Nat.zero_mul]
    obtain ⟨h1, h2⟩ := (hcase.resolve_left (by omega)) k hk hown
    rw [hbase] at h1 h2
    rw [hE] at h2
    exact iff_of_true ⟨hio, by omega, by omega⟩ ⟨by omega, by omega⟩

/-- A range anywhere that is freed after it has been allocated. -/
lemma restoreAny_iff (h64 : size < 64) (h : allocateAny space size s = some (a, s'))
    (ha : a ≠ noMap)
    (hgood : FreeGood space a size s') :
    (freeSpace space a size s').pages = s.pages ↔ space = pageFree ∨ s.low = 0 := by
  obtain ⟨addr, rfl, h12, hdvd, hend, hlow', hin, hout⟩ := allocateAny_apply h ha
  have haddr : (s.low + addr) % 2 ^ 32 < 2 ^ 32 := Nat.mod_lt _ (by omega)
  have hpos : 0 < shl (size - 12) := Nat.two_pow_pos _
  -- the first page has been free, and is the task's now
  obtain ⟨hfirst, hfirst'⟩ := hin (addr / 4096) le_rfl (by omega)
  have hp := pageCount_eq
  have hm := maxMem_eq
  by_cases hio : IsIofp ((s.low + addr) % 2 ^ 32)
  · have hsame : (freeSpace space ((s.low + addr) % 2 ^ 32) size s').pages = s'.pages := by
      rw [freeSpace, if_pos hio, freeIoSpace]
      split_ifs <;> rfl
    rw [hsame]
    constructor
    · intro heq
      exact .inl (hfirst'.symm.trans ((congrFun heq _).trans hfirst))
    · rintro (rfl | hzero)
      · funext k
        by_cases hk : addr / 4096 ≤ k ∧ k < addr / 4096 + shl (size - 12)
        · obtain ⟨h1, h2⟩ := hin k hk.1 hk.2
          rw [h1, h2]
        · exact hout k hk
      · have := hio.1
        simp only [iofpLoBound] at this
        omega
  obtain ⟨hfit, hcase⟩ := (hgood.resolve_left hio).resolve_left (by omega)
  have hsound := hgood.sound haddr h64
  rw [hlow'] at hcase
  constructor
  · intro heq
    by_contra hne
    obtain ⟨hspace, hzero⟩ := not_or.mp hne
    rw [if_neg hzero] at hcase
    have hpage := congrFun heq (addr / 4096)
    rw [freeSpace_eq hio h12, hfirst] at hpage
    split_ifs at hpage with hmark
    · have hk := hsound.bounds _ (.inr hmark)
      obtain ⟨h1, h2⟩ := (hsound.marks _ hk).mp hmark
      exact (hcase _ hk h1).2 (hlow' ▸ h2)
    · exact hspace (hfirst'.symm.trans hpage)
  · rintro (rfl | hzero)
    · funext k
      have hkeep : s'.pages k = s.pages k := by
        by_cases hk : addr / 4096 ≤ k ∧ k < addr / 4096 + shl (size - 12)
        · obtain ⟨h1, h2⟩ := hin k hk.1 hk.2
          rw [h1, h2]
        · exact hout k hk
      rw [freeSpace_eq hio h12]
      split_ifs with hmark
      · have hk := hsound.bounds _ (.inr hmark)
        rw [← hkeep, ((hsound.marks _ hk).mp hmark).1]
      · exact hkeep
    · have haddr0 : (s.low + addr) % 2 ^ 32 = addr := by omega
      rw [haddr0] at haddr hio hfit hsound hcase ⊢
      rw [if_pos hzero] at hcase
      rw [hzero] at hlow'
      funext k
      rw [freeSpace_eq hio h12]
      by_cases hk : addr / 4096 ≤ k ∧ k < addr / 4096 + shl (size - 12)
      · obtain ⟨h1, h2⟩ := hin k hk.1 hk.2
        have hlt : k < pageCount := by omega
        have hmark := (hsound.marks k hlt).mpr ⟨h2, hlow' ▸
          (found_inFlex hfit h12 h64 hdvd haddr hio hcase hlt h2).mpr hk⟩
        rw [if_pos hmark, h1]
      · split_ifs with hmark
        · have hlt := hsound.bounds _ (.inr hmark)
          obtain ⟨h1, h2⟩ := (hsound.marks k hlt).mp hmark
          exact absurd ((found_inFlex hfit h12 h64 hdvd haddr hio hcase hlt h1).mp (hlow' ▸ h2)) hk
        · exact hout k hk

end Hazelnut
