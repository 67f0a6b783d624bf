import Mathlib.Algebra.Group.Nat.Defs
import Mathlib.Order.Interval.Finset.Nat
import Hazelnut.Lib.Ledger

/-!
The memory of the resource manager, after `apps/rmgr/src/memmap.h`, `quota.h` and `memmap.c`.

* `Memmap`: `__memmap`, `__memmap4mb`, `mem_high` and the quotas of memory.  An access beyond the
  end of `__memmap` has no result.
* `freePage`, `allocPage`, `ownerPage`, `freeSuperpage`, `allocSuperpage`, `findFree`: the functions
  of the source.
* `own`: who owns a page, by the page or by its superpage.
* `Good`: superpages and pages fit each other, and quotas what their tasks own.
-/

namespace Hazelnut.Rmgr

open Ledger

/-- `O_FREE` and `O_RESERVED`; other owners are tasks. -/
def oFree : Nat := 0
def oReserved : Nat := 1
def oMax : Nat := 255

def pageSize : Nat := 4096
def superpageSize : Nat := 4194304
def memMax : Nat := 268435456

/-- `u_quota_t`. -/
structure Quota where
  low : Nat
  high : Nat
  max : Nat
  current : Nat
  deriving DecidableEq, Repr

namespace Quota

/-- `__quota_check_u`. -/
def check (q : Quota) (at' amount : Nat) : Bool :=
  amount ≤ q.max && q.current ≤ q.max - amount && q.low ≤ at' && (at' + amount - 1) %
    2 ^ 32 ≤ q.high

/-- `__quota_alloc_u`. -/
def alloc (q : Quota) (at' amount : Nat) : Option Quota :=
  if q.check at' amount then some { q with current := (q.current + amount) % 2 ^ 32 } else none

/-- `__quota_free_u`. -/
def free (q : Quota) (amount : Nat) : Quota :=
    { q with current := (q.current + 2 ^ 32 - amount) % 2 ^ 32 }

end Quota

/-- `__superpage_t`. -/
structure Superpage where
  freePages : Nat
  owner : Nat
  deriving DecidableEq, Repr

/-- The memory map and the quotas of the tasks. -/
structure Memmap where
  memHigh : Nat
  page : Nat → Nat
  super : Nat → Superpage
  mem : Nat → Quota
  himem : Nat → Quota

namespace Memmap

variable (s : Memmap)

/-- `__memmap[address/L4_PAGESIZE]`. -/
def pageAt (a : Nat) : Option Nat := if a < memMax then some (s.page (a / pageSize)) else none

/-- `__memmap4mb[address/L4_SUPERPAGESIZE]`. -/
def superAt (a : Nat) : Superpage := s.super (a / superpageSize)

def setPage (a owner : Nat) : Memmap :=
    { s with page := Function.update s.page (a / pageSize) owner }

def setSuper (a : Nat) (x : Superpage) : Memmap :=
  { s with super := Function.update s.super (a / superpageSize) x }

/-- `quota_check_mem`. -/
def quotaCheck (t a amount : Nat) : Bool :=
    (if a < s.memHigh then s.mem t else s.himem t).check a amount

/-- `quota_alloc_mem`. -/
def quotaAlloc (t a amount : Nat) : Option Memmap :=
  if a < s.memHigh then ((s.mem t).alloc a amount).map fun q =>
    { s with mem := Function.update s.mem t q }
  else ((s.himem t).alloc a amount).map fun q => { s with himem := Function.update s.himem t q }

/-- `quota_free_mem`. -/
def quotaFree (t a amount : Nat) : Memmap :=
  if a < s.memHigh then { s with mem := Function.update s.mem t ((s.mem t).free amount) }
  else { s with himem := Function.update s.himem t ((s.himem t).free amount) }

/-- `memmap_free_page`. -/
def freePage (a owner : Nat) : Option (Bool × Memmap) :=
  let sp := s.superAt a
  if sp.owner = oFree then some (true, s)
  else if sp.owner ≠ oReserved then some (false, s)
  else
    (s.pageAt a).map fun m =>
      if m = oFree then (true, s)
      else if m ≠ owner then (false, s)
      else
        let n := (sp.freePages + 1) % 65536
        (true, ((s.quotaFree owner a pageSize).setPage a oFree).setSuper a
          { freePages := n, owner := if n = superpageSize / pageSize then oFree else sp.owner })

/-- `memmap_alloc_page`. -/
def allocPage (a owner : Nat) : Option (Bool × Memmap) :=
  (s.pageAt a).map fun m =>
    if m = owner then (true, s)
    else if m ≠ oFree then (false, s)
    else
      let sp := s.superAt a
      if sp.owner = oFree ∨ sp.owner = oReserved then
        let s₁ := s.setSuper a { sp with owner := oReserved }
        match s₁.quotaAlloc owner a pageSize with
        | none => (false, s₁)
        | some s₂ =>
          (true, (s₂.setSuper a
            { freePages := (sp.freePages + 65535) % 65536, owner := oReserved }).setPage
            a owner)
      else (false, s)

/-- `memmap_owner_page`. -/
def ownerPage (a : Nat) : Option Nat :=
  if (s.superAt a).owner = oReserved then s.pageAt a else some (s.superAt a).owner

/-- `memmap_free_superpage`. -/
def freeSuperpage (a owner : Nat) : Bool × Memmap :=
  let sp := s.superAt a
  if sp.owner = oFree then (true, s)
  else if sp.owner ≠ owner then (false, s)
  else
    (true, (s.quotaFree owner a superpageSize).setSuper a
      { freePages := superpageSize / pageSize, owner := oFree })

/-- The pages of a superpage. -/
def pagesOf (i : Nat) : List Nat := (List.range 1024).map (1024 * i + ·)

/-- `memmap_alloc_superpage`.  The loop over the pages changes nothing, so that it does not matter
at which page it returns. -/
def allocSuperpage (a owner : Nat) : Bool × Memmap :=
  let sp := s.superAt a
  let base := a / superpageSize * superpageSize
  let given (s : Memmap) : Memmap := s.setSuper a { sp with owner := owner }
  if sp.owner = owner then (true, s)
  else if sp.owner ≠ oFree then
    if sp.owner ≠ oReserved then (false, s)
    else if memMax ≤ base then (false, s)
    else
      let pages := (pagesOf (a / superpageSize)).map s.page
      if pages.all fun m => m = oFree || m = owner then
        let mine := pageSize * pages.count owner
        let s₁ := if mine ≠ 0 then s.quotaFree owner base mine else s
        match s₁.quotaAlloc owner base superpageSize with
        | none =>
          (false, if mine ≠ 0 then
            { s₁ with
              mem := Function.update s₁.mem owner
                { s₁.mem owner with current := ((s₁.mem owner).current + mine) % 2 ^ 32 } }
          else s₁)
        | some s₂ =>
          (true, given
            { s₂ with page := fun p => if p / 1024 = a / superpageSize then oFree else s₂.page p })
      else (false, s)
  else
    match s.quotaAlloc owner base superpageSize with
    | none => (false, s)
    | some s₁ => (true, given s₁)

/-- `memmap_nrfree_superpage`. -/
def nrfreeSuperpage (a : Nat) : Nat :=
  if (s.superAt a).owner = oFree ∨ (s.superAt a).owner = oReserved then (s.superAt a).freePages
    else 0

/-- The inner loop of `find_free`, over `n` pages. -/
def findPage (owner : Nat) (a : Nat) : Nat → Option (Option Nat)
  | 0 => some none
  | n + 1 =>
    if s.memHigh ≤ a then some none
    else if s.quotaCheck owner a pageSize then
      (s.ownerPage a).bind fun o => if o = oFree then some (some a)
        else findPage owner (a + pageSize) n
    else findPage owner (a + pageSize) n

/-- The outer loop, over `n` superpages; after the inner one `address` is not below `mem_high`. -/
def findSuper (owner : Nat) (a : Nat) : Nat → Option (Option Nat)
  | 0 => some none
  | n + 1 =>
    if s.memHigh ≤ a then some none
    else if s.nrfreeSuperpage a = 0 then findSuper owner (a + superpageSize) n
    else s.findPage owner a (memMax / pageSize)

/-- `find_free`: the address of the page, if there is one. -/
def findFree (owner : Nat) : Option (Option Nat) := s.findSuper owner 0 (memMax / superpageSize)

end Memmap

/-! ### Owners -/

namespace Memmap

/-- Who owns a page. -/
def own (s : Memmap) (p : Nat) : Nat :=
  if (s.super (p / 1024)).owner = oReserved then (if p < 65536 then s.page p else oReserved)
  else (s.super (p / 1024)).owner

/-- The pages of a superpage of main memory. -/
def block (i : Nat) : Finset Nat := Finset.Ico (1024 * i) (1024 * (i + 1))

lemma mem_block {i p : Nat} : p ∈ block i ↔ p / 1024 = i := by
  simp only [block, Finset.mem_Ico]
  omega

@[simp] lemma card_block (i : Nat) : (block i).card = 1024 := by
  simp only [block, Nat.card_Ico]
  omega

lemma block_subset {i : Nat} (hi : i < 64) : block i ⊆ Finset.range 65536 := fun p hp => by
  rw [mem_block] at hp
  simp only [Finset.mem_range]
  omega

/-- Superpages and their pages fit each other. -/
structure Shape (s : Memmap) : Prop where
  aligned : s.memHigh % pageSize = 0
  le : s.memHigh ≤ memMax
  reserved : ∀ i < 64, (s.super i).owner = oReserved →
    (s.super i).freePages = (owned (block i) s.page oFree).card
  whole : ∀ i < 64, (s.super i).owner ≠ oReserved → ∀ p ∈ block i, s.page p = oFree
  free : ∀ i < 64, (s.super i).owner = oFree → (s.super i).freePages = 1024
  above : ∀ p < 65536, s.memHigh ≤ pageSize * p → s.own p = oReserved

variable {s s' : Memmap} {a p i t : Nat}

lemma superAt_eq : s.superAt a = s.super (a / pageSize / 1024) := by
  rw [superAt, Nat.div_div_eq_div_mul]
  rfl

lemma pageAt_of_lt (ha : a < memMax) : s.pageAt a = some (s.page (a / pageSize)) := if_pos ha

lemma index_lt (ha : a < memMax) : a / pageSize < 65536 := by
  simp only [pageSize, memMax] at *
  omega

lemma ownerPage_eq (h : a < memMax ∨ (s.superAt a).owner ≠ oReserved) :
    s.ownerPage a = some (s.own (a / pageSize)) := by
  unfold ownerPage own
  rw [superAt_eq] at *
  split_ifs with h₁ h₂
  · exact pageAt_of_lt (h.resolve_right (not_not.2 h₁))
  · exact absurd (index_lt (h.resolve_right (not_not.2 h₁))) h₂
  · rfl

/-- **Faults**: the owner of a page is looked up beyond `__memmap` if its superpage is reserved and
not in main memory. -/
lemma ownerPage_eq_none : s.ownerPage a = none ↔ memMax ≤ a ∧ (s.superAt a).owner = oReserved := by
  unfold ownerPage pageAt
  split_ifs <;> simp_all

lemma Shape.super_of_page (h : Shape s) (hp : p < 65536) (hpage : s.page p ≠ oFree) :
    (s.super (p / 1024)).owner = oReserved := by
  by_contra ho
  exact hpage (h.whole _ (by omega) ho p (mem_block.2 rfl))

lemma Shape.own_of_page (h : Shape s) (hp : p < 65536) (hpage : s.page p ≠ oFree) :
    s.own p = s.page p := by
  rw [own, if_pos (h.super_of_page hp hpage), if_pos hp]

lemma Shape.page_of_own (h : Shape s) (hp : p < 65536) (hown : s.own p = oFree) :
    s.page p = oFree := by
  by_contra hpage
  exact hpage (h.own_of_page hp hpage ▸ hown)

lemma Shape.super_of_own (hown : s.own p = oFree) :
    (s.super (p / 1024)).owner = oFree ∨ (s.super (p / 1024)).owner = oReserved := by
  unfold own at hown
  split_ifs at hown
  all_goals first | exact .inr ‹_› | exact .inl hown

/-- A free superpage may be marked as one whose pages have owners. -/
lemma Shape.reserve (h : Shape s) (hi : i < 64)
    (ho : (s.super i).owner = oFree ∨ (s.super i).owner = oReserved)
    (hs : s' = { s with
      super := Function.update s.super i { s.super i with owner := oReserved } }) :
    Shape s' ∧ s'.own = s.own := by
  have hown : s'.own = s.own := by
    funext p
    subst hs
    unfold own
    rcases eq_or_ne (p / 1024) i with rfl | hp
    · rcases ho with ho | ho
      · have := h.whole _ hi (by rw [ho]; decide) p (mem_block.2 rfl)
        have hp : p < 65536 := by omega
        simp [ho, this, hp, oFree, oReserved]
      · simp [ho]
    · simp [hp]
  refine ⟨⟨?_, ?_, fun j hj hr => ?_, fun j hj hr => ?_, fun j hj hf => ?_, ?_⟩, hown⟩
  · rw [hs]
    exact h.aligned
  · rw [hs]
    exact h.le
  · subst hs
    rcases eq_or_ne j i with rfl | hji
    · rcases ho with ho | ho
      · have hall : owned (block j) s.page oFree = block j :=
          Finset.filter_true_of_mem (h.whole j hj (by rw [ho]; decide))
        simpa [hall] using h.free j hj ho
      · simpa using h.reserved j hj ho
    · simpa [hji] using h.reserved j hj (by simpa [hji] using hr)
  · subst hs
    rcases eq_or_ne j i with rfl | hji
    · simp at hr
    · exact h.whole j hj (by simpa [hji] using hr)
  · subst hs
    rcases eq_or_ne j i with rfl | hji
    · simp [oFree, oReserved] at hf
    · simpa [hji] using h.free j hj (by simpa [hji] using hf)
  · rw [hown, hs]
    exact h.above

/-- The page of a reserved superpage gets an owner. -/
lemma Shape.setPage (h : Shape s) (s' : Memmap) (hp : p < 65536)
    (ho : (s.super (p / 1024)).owner = oReserved)
    (hpage : s.page p = oFree) (ht : t ≠ oFree)
    (hs : s' = { s with
      page := Function.update s.page p t
      super := Function.update s.super (p / 1024)
        { freePages := ((s.super (p / 1024)).freePages + 65535) % 65536, owner := oReserved } }) :
    Shape s' ∧ s'.own = Function.update s.own p t := by
  have hi : p / 1024 < 64 := by omega
  have hown : s'.own = Function.update s.own p t := by
    funext q
    subst hs
    unfold own
    rcases eq_or_ne q p with rfl | hq
    · simp [hp]
    · rcases eq_or_ne (q / 1024) (p / 1024) with hqp | hqp
      · simp [hq, hqp, ho]
      · simp [hq, hqp]
  have hlt : s.memHigh > pageSize * p := by
    by_contra hle
    have := h.above p hp (by omega)
    rw [own, if_pos ho, if_pos hp, hpage] at this
    cases this
  refine ⟨⟨?_, ?_, fun j hj hr => ?_, fun j hj hr q hq => ?_, fun j hj hf => ?_,
    fun q hq hle => ?_⟩, hown⟩
  · rw [hs]
    exact h.aligned
  · rw [hs]
    exact h.le
  · subst hs
    rcases eq_or_ne j (p / 1024) with rfl | hji
    · have hcard := h.reserved _ hj ho
      have hlose := card_owned_lose (S := block (p / 1024)) (mem_block.2 rfl) hpage ht
      have hle := Finset.card_le_card
        (Finset.filter_subset (fun q => s.page q = oFree) (block (p / 1024)))
      rw [card_block] at hle
      change (owned _ _ _).card ≤ _ at hle
      simp only [Function.update_self]
      omega
    · have hnot : p ∉ block j := fun hm => hji (mem_block.1 hm).symm
      simpa [hji, owned_update_not_mem hnot] using h.reserved j hj (by simpa [hji] using hr)
  · subst hs
    rcases eq_or_ne j (p / 1024) with rfl | hji
    · simp at hr
    · have hqp : q ≠ p := fun hqp => hji (by rw [← hqp]; exact (mem_block.1 hq).symm)
      simpa [hqp] using h.whole j hj (by simpa [hji] using hr) q hq
  · subst hs
    rcases eq_or_ne j (p / 1024) with rfl | hji
    · simp [oFree, oReserved] at hf
    · simpa [hji] using h.free j hj (by simpa [hji] using hf)
  · have hqp : q ≠ p := by
      rintro rfl
      rw [hs] at hle
      exact absurd hle (by simpa using hlt)
    rw [hown, Function.update_of_ne hqp]
    rw [hs] at hle
    exact h.above q hq hle

/-- The page of a reserved superpage is given back. -/
lemma Shape.clearPage {n : Nat} (h : Shape s) (s' : Memmap) (hp : p < 65536)
    (ho : (s.super (p / 1024)).owner = oReserved)
    (hpage : s.page p ≠ oFree) (hlt : pageSize * p < s.memHigh)
    (hn : n = ((s.super (p / 1024)).freePages + 1) % 65536)
    (hs : s' = { s with
      page := Function.update s.page p oFree
      super := Function.update s.super (p / 1024)
        { freePages := n, owner := if n = 1024 then oFree else oReserved } }) :
    Shape s' ∧ s'.own = Function.update s.own p oFree := by
  have hi : p / 1024 < 64 := by omega
  have hget := card_owned_get (S := block (p / 1024)) (mem_block.2 rfl) hpage
  have hle₀ := Finset.card_le_card (Finset.filter_subset
    (fun q => Function.update s.page p oFree q = oFree) (block (p / 1024)))
  rw [card_block] at hle₀
  change (owned _ _ _).card ≤ _ at hle₀
  have hcard : n = (owned (block (p / 1024)) (Function.update s.page p oFree) oFree).card := by
    have := h.reserved _ hi ho
    omega
  -- with the last page the superpage is free
  have hall : n = 1024 → ∀ q ∈ block (p / 1024), Function.update s.page p oFree q = oFree :=
    fun hn q hq => by
    have := Finset.eq_of_subset_of_card_le (Finset.filter_subset
      (fun q => Function.update s.page p oFree q = oFree) (block (p / 1024))) (by
        rw [card_block]
        change _ ≤ (owned _ _ _).card
        omega)
    rw [← this] at hq
    exact (Finset.mem_filter.1 hq).2
  have hown : s'.own = Function.update s.own p oFree := by
    funext q
    subst hs
    unfold own
    rcases eq_or_ne (q / 1024) (p / 1024) with hqp | hqp
    · have hq : q < 65536 := by omega
      simp only [hqp, Function.update_self, ho, hq, if_true, Function.update_apply]
      by_cases hn : n = 1024
      · have := hall hn q (mem_block.2 hqp)
        rw [Function.update_apply] at this
        simp [hn, oFree, oReserved] at this ⊢
        exact fun hq => (this hq).symm
      · simp [hn]
    · have hq : q ≠ p := fun h => hqp (by rw [h])
      simp [hq, hqp]
  refine ⟨⟨?_, ?_, fun j hj hr => ?_, fun j hj hr q hq => ?_, fun j hj hf => ?_,
    fun q hq hle => ?_⟩, hown⟩
  · rw [hs]
    exact h.aligned
  · rw [hs]
    exact h.le
  · subst hs
    rcases eq_or_ne j (p / 1024) with rfl | hji
    · simpa using hcard
    · have hnot : p ∉ block j := fun hm => hji (mem_block.1 hm).symm
      simpa [hji, owned_update_not_mem hnot] using h.reserved j hj (by simpa [hji] using hr)
  · subst hs
    rcases eq_or_ne j (p / 1024) with rfl | hji
    · by_cases hn : n = 1024
      · exact hall hn q hq
      · simp [hn] at hr
    · have hqp : q ≠ p := fun hqp => hji (by rw [← hqp]; exact (mem_block.1 hq).symm)
      simpa [hqp] using h.whole j hj (by simpa [hji] using hr) q hq
  · subst hs
    rcases eq_or_ne j (p / 1024) with rfl | hji
    · by_cases hn : n = 1024
      · simpa using hn
      · simp [hn, oFree, oReserved] at hf
    · simpa [hji] using h.free j hj (by simpa [hji] using hf)
  · have hqp : q ≠ p := by
      rintro rfl
      rw [hs] at hle
      exact absurd hle (by simpa using hlt)
    rw [hown, Function.update_of_ne hqp]
    rw [hs] at hle
    exact h.above q hq hle

/-- A superpage with no pages of others gets an owner. -/
lemma Shape.setSuper (h : Shape s) (s' : Memmap) (ht : 2 ≤ t)
    (hi : i < 64 → ∀ p ∈ block i, s.own p = oFree ∨ s.own p = t)
    (ho : i < 64 ∨ (s.super i).owner ≠ oReserved) {n : Nat}
    (hs : s' = { s with
      page := fun p => if p / 1024 = i ∧ p < 65536 then oFree else s.page p
      super := Function.update s.super i { freePages := n, owner := t } }) :
    Shape s' ∧ s'.own = fun p => if p / 1024 = i then t else s.own p := by
  have htr : t ≠ oReserved := by unfold oReserved; omega
  have htf : t ≠ oFree := by unfold oFree; omega
  have hown : s'.own = fun p => if p / 1024 = i then t else s.own p := by
    funext q
    subst hs
    unfold own
    rcases eq_or_ne (q / 1024) i with hqi | hqi <;> simp [hqi, htr]
  refine ⟨⟨?_, ?_, fun j hj hr => ?_, fun j hj hr q hq => ?_, fun j hj hf => ?_,
    fun q hq hle => ?_⟩, hown⟩
  · rw [hs]
    exact h.aligned
  · rw [hs]
    exact h.le
  · subst hs
    rcases eq_or_ne j i with rfl | hji
    · simp [htr] at hr
    · have : owned (block j) (fun p => if p / 1024 = i ∧ p < 65536 then oFree else s.page p) oFree =
          owned (block j) s.page oFree :=
        owned_congr fun q hq => by
          rw [mem_block] at hq
          simp [hq, hji]
      simpa [hji, this] using h.reserved j hj (by simpa [hji] using hr)
  · subst hs
    have hq' := mem_block.1 hq
    rcases eq_or_ne j i with rfl | hji
    · have : q < 65536 := by omega
      simp [hq', this]
    · simpa [hq', hji] using h.whole j hj (by simpa [hji] using hr) q hq
  · subst hs
    rcases eq_or_ne j i with rfl | hji
    · simp [htf] at hf
    · simpa [hji] using h.free j hj (by simpa [hji] using hf)
  · have hab := h.above q hq (by rw [hs] at hle; exact hle)
    rw [hown]
    rcases eq_or_ne (q / 1024) i with hqi | hqi
    · have := hi (by omega) q (mem_block.2 hqi)
      rw [hab] at this
      rcases this with h | h
      · cases h
      · exact absurd h.symm htr
    · simpa [hqi] using hab

/-- A superpage is given back. -/
lemma Shape.clearSuper (h : Shape s) (s' : Memmap) (ht : 2 ≤ t) (ho : (s.super i).owner = t)
    (hs : s' = { s with
      super := Function.update s.super i { freePages := 1024, owner := oFree } }) :
    Shape s' ∧ s'.own = fun p => if p / 1024 = i then oFree else s.own p := by
  have htr : t ≠ oReserved := by unfold oReserved; omega
  have hown : s'.own = fun p => if p / 1024 = i then oFree else s.own p := by
    funext q
    subst hs
    unfold own
    rcases eq_or_ne (q / 1024) i with hqi | hqi
    · simp [hqi, oFree, oReserved]
    · simp [hqi]
  refine ⟨⟨?_, ?_, fun j hj hr => ?_, fun j hj hr q hq => ?_, fun j hj hf => ?_,
    fun q hq hle => ?_⟩, hown⟩
  · rw [hs]
    exact h.aligned
  · rw [hs]
    exact h.le
  · subst hs
    rcases eq_or_ne j i with rfl | hji
    · simp [oFree, oReserved] at hr
    · simpa [hji] using h.reserved j hj (by simpa [hji] using hr)
  · subst hs
    rcases eq_or_ne j i with rfl | hji
    · exact h.whole j hj (by rw [ho]; exact htr) q hq
    · exact h.whole j hj (by simpa [hji] using hr) q hq
  · subst hs
    rcases eq_or_ne j i with rfl | hji
    · simp
    · simpa [hji] using h.free j hj (by simpa [hji] using hf)
  · have hab := h.above q hq (by rw [hs] at hle; exact hle)
    rw [hown]
    rcases eq_or_ne (q / 1024) i with hqi | hqi
    · rw [own, hqi, ho, if_neg htr] at hab
      exact absurd hab htr
    · simpa [hqi] using hab

end Memmap

/-! ### Quotas -/

namespace Quota

variable {q : Quota} {a n : Nat}

/-- All but what is in use. -/
def limits (q : Quota) : Nat × Nat × Nat := (q.low, q.high, q.max)

@[simp] lemma limits_current : limits { q with current := n } = q.limits := by
  simp only [limits]

/-- What is not in use. -/
lemma check_le (h : q.check a n = true) : q.current + n ≤ q.max := by
  simp only [check, Bool.and_eq_true, decide_eq_true_eq] at h
  omega

lemma alloc_eq (hq : q.max < 2 ^ 32) :
    q.alloc a n = if q.check a n then some { q with current := q.current + n } else none := by
  unfold alloc
  split_ifs with h
  · rw [Nat.mod_eq_of_lt ((check_le h).trans_lt hq)]
  · rfl

lemma free_eq (hn : n ≤ q.current) (hq : q.current < 2 ^ 32) : q.free n =
    { q with current := q.current - n } := by
  unfold free
  congr 1
  omega

end Quota

namespace Memmap

/-- The bytes of main memory that a task has. -/
def held (s : Memmap) (t : Nat) : Nat := pageSize * (owned (Finset.range 65536) s.own t).card

/-- The bytes beyond main memory that a task has. -/
def heldHigh (s : Memmap) (t : Nat) : Nat :=
  superpageSize * (owned (Finset.Ico 64 1024) (fun i => (s.super i).owner) t).card

/-- The quotas count what the tasks have, and `lost t` bytes more. -/
structure Quotas (s : Memmap) (lost : Nat → Nat) : Prop where
  mem : ∀ t, 2 ≤ t → (s.mem t).current = s.held t + lost t
  himem : ∀ t, 2 ≤ t → (s.himem t).current = s.heldHigh t
  mem_le : ∀ t, 2 ≤ t → (s.mem t).current ≤ (s.mem t).max
  himem_le : ∀ t, 2 ≤ t → (s.himem t).current ≤ (s.himem t).max
  mem_lt : ∀ t, (s.mem t).max < 2 ^ 32
  himem_lt : ∀ t, (s.himem t).max < 2 ^ 32

/-- The limits are the same. -/
structure Frame (s s' : Memmap) : Prop where
  memHigh : s'.memHigh = s.memHigh
  mem : ∀ t, (s'.mem t).limits = (s.mem t).limits
  himem : ∀ t, (s'.himem t).limits = (s.himem t).limits

variable {s s' : Memmap} {lost lost' : Nat → Nat} {a p i t n : Nat} {q : Quota}

@[refl] lemma Frame.refl : Frame s s := ⟨rfl, fun _ => rfl, fun _ => rfl⟩

lemma Frame.trans {s'' : Memmap} (h : Frame s s') (h' : Frame s' s'') : Frame s s'' :=
  ⟨h'.memHigh.trans h.memHigh,
    fun t => (h'.mem t).trans (h.mem t), fun t => (h'.himem t).trans (h.himem t)⟩

lemma Frame.mem_max (h : Frame s s') (t : Nat) : (s'.mem t).max = (s.mem t).max :=
  congrArg (fun l => l.2.2) (h.mem t)

lemma Frame.himem_max (h : Frame s s') (t : Nat) : (s'.himem t).max = (s.himem t).max :=
  congrArg (fun l => l.2.2) (h.himem t)

/-- The quota for main memory changes with what the task has there. -/
lemma Quotas.of_main (h : Quotas s lost) (hf : Frame s s') (hmem : ∀ u, u ≠ t → s'.mem u = s.mem u)
    (hhimem : s'.himem = s.himem) (hsuper : ∀ i, 64 ≤ i → s'.super i = s.super i)
    (hown : ∀ u, 2 ≤ u → u ≠ t → ∀ p < 65536, s'.own p = u ↔ s.own p = u)
    (hlost : ∀ u, u ≠ t → lost' u = lost u) (hle : (s'.mem t).current ≤ (s.mem t).max)
    (hcur : (s'.mem t).current = s'.held t + lost' t) : Quotas s' lost' where
  mem u hu := by
    by_cases hut : u = t
    · rw [hut, hcur]
    · rw [hmem u hut, h.mem u hu, hlost u hut, held, held,
        owned_congr fun p hp => hown u hu hut p (Finset.mem_range.1 hp)]
  himem u hu := by
    have : ∀ i ∈ Finset.Ico 64 1024, (s'.super i).owner = u ↔ (s.super i).owner = u :=
      fun i hi => by
      rw [hsuper i (Finset.mem_Ico.1 hi).1]
    rw [hhimem, h.himem u hu, heldHigh, heldHigh, owned_congr this]
  mem_le u hu := by
    by_cases hut : u = t
    · rw [hut, hf.mem_max]
      exact hle
    · rw [hmem u hut]
      exact h.mem_le u hu
  himem_le u hu := by
    rw [hhimem]
    exact h.himem_le u hu
  mem_lt u := by
    rw [hf.mem_max]
    exact h.mem_lt u
  himem_lt u := by
    rw [hhimem]
    exact h.himem_lt u

/-- The quota for the other memory changes with what the task has there. -/
lemma Quotas.of_high (h : Quotas s lost) (hf : Frame s s') (hmem : s'.mem = s.mem)
    (hhimem : ∀ u, u ≠ t → s'.himem u = s.himem u) (hown : ∀ p < 65536, s'.own p = s.own p)
    (hsuper : ∀ u, 2 ≤ u → u ≠ t → ∀ i, 64 ≤ i → ((s'.super i).owner = u ↔ (s.super i).owner = u))
    (hle : (s'.himem t).current ≤ (s.himem t).max) (hcur : (s'.himem t).current = s'.heldHigh t) :
    Quotas s' lost where
  mem u hu := by
    have : ∀ p ∈ Finset.range 65536, s'.own p = u ↔ s.own p = u := fun p hp => by
      rw [hown p (Finset.mem_range.1 hp)]
    rw [hmem, h.mem u hu, held, held, owned_congr this]
  himem u hu := by
    by_cases hut : u = t
    · rw [hut, hcur]
    · rw [hhimem u hut, h.himem u hu, heldHigh, heldHigh,
        owned_congr fun i hi => hsuper u hu hut i (Finset.mem_Ico.1 hi).1]
  mem_le u hu := by
    rw [hmem]
    exact h.mem_le u hu
  himem_le u hu := by
    by_cases hut : u = t
    · rw [hut, hf.himem_max]
      exact hle
    · rw [hhimem u hut]
      exact h.himem_le u hu
  mem_lt u := by
    rw [hmem]
    exact h.mem_lt u
  himem_lt u := by
    rw [hf.himem_max]
    exact h.himem_lt u

lemma quotaAlloc_main (ha : a < s.memHigh) (hq : (s.mem t).max < 2 ^ 32) :
    s.quotaAlloc t a n = if s.quotaCheck t a n then
      some { s with
        mem := Function.update s.mem t { s.mem t with current := (s.mem t).current + n } }
    else none := by
  simp only [quotaAlloc, quotaCheck, if_pos ha, Quota.alloc_eq hq]
  split_ifs <;> rfl

lemma quotaAlloc_high (ha : s.memHigh ≤ a) (hq : (s.himem t).max < 2 ^ 32) :
    s.quotaAlloc t a n = if s.quotaCheck t a n then
      some { s with himem := Function.update s.himem t { s.himem
        t with current := (s.himem t).current + n } }
    else none := by
  simp only [quotaAlloc, quotaCheck, if_neg (Nat.not_lt.2 ha), Quota.alloc_eq hq]
  split_ifs <;> rfl

lemma quotaCheck_main_le (ha : a < s.memHigh) (h : s.quotaCheck t a n = true) :
    (s.mem t).current + n ≤ (s.mem t).max := by
  rw [quotaCheck, if_pos ha] at h
  exact Quota.check_le h

lemma quotaCheck_high_le (ha : s.memHigh ≤ a) (h : s.quotaCheck t a n = true) :
    (s.himem t).current + n ≤ (s.himem t).max := by
  rw [quotaCheck, if_neg (Nat.not_lt.2 ha)] at h
  exact Quota.check_le h

/-- Superpages and pages fit each other, and quotas what their tasks own. -/
structure Good (s : Memmap) (lost : Nat → Nat) : Prop where
  shape : Shape s
  quotas : Quotas s lost

/-- 8 MB, of which the first half is nobody's.  So is what is beyond 2 GB. -/
def small : Memmap where
  memHigh := 8388608
  page p := if p < 1024 then oFree else oReserved
  super i := if i = 0 ∨ 512 ≤ i then { freePages := 1024, owner := oFree }
    else { freePages := 0, owner := oReserved }
  mem _ := { low := 0, high := 2 ^ 32 - 1, max := 2 ^ 32 - 1, current := 0 }
  himem _ := { low := 0, high := 2 ^ 32 - 1, max := 2 ^ 32 - 1, current := 0 }

lemma small_owner (i : Nat) : (small.super i).owner = if i = 0 ∨ 512 ≤ i then oFree
    else oReserved := by
  simp only [small]
  split_ifs <;> rfl

lemma small_own (p : Nat) : small.own p = if p < 1024 ∨ 524288 ≤ p then oFree else oReserved := by
  rw [own, small_owner]
  simp only [small, oFree, oReserved]
  split_ifs <;> first | rfl | omega

lemma small_good : Good small fun _ => 0 where
  shape := {
    aligned := rfl
    le := by decide
    reserved := fun i hi ho => by
      rw [small_owner] at ho
      split_ifs at ho with hi0
      · cases ho
      have hnone : owned (block i) small.page oFree = ∅ := Finset.filter_false_of_mem fun p hp => by
        rw [mem_block] at hp
        have : ¬p < 1024 := by omega
        simp [small, this, oFree, oReserved]
      rw [hnone]
      simp [small, hi0]
    whole := fun i hi ho p hp => by
      rw [small_owner] at ho
      rw [mem_block] at hp
      simp only [small, oFree, oReserved] at *
      split_ifs at * <;> omega
    free := fun i hi ho => by
      rw [small_owner] at ho
      split_ifs at ho with hi0
      · simp [small, hi0]
      · cases ho
    above := fun p hp hle => by
      simp only [small, pageSize] at hle
      rw [small_own, if_neg (by omega)] }
  quotas := {
    mem := fun t ht => by
      have hnone : owned (Finset.range 65536) small.own t = ∅ :=
        Finset.filter_false_of_mem fun p _ => by
        rw [small_own]
        simp only [oFree, oReserved]
        split_ifs <;> omega
      rw [held, hnone]
      rfl
    himem := fun t ht => by
      have hnone : owned (Finset.Ico 64 1024) (fun i => (small.super i).owner) t = ∅ :=
        Finset.filter_false_of_mem fun i _ => by
          simp only [small_owner, oFree, oReserved]
          split_ifs <;> omega
      rw [heldHigh, hnone]
      rfl
    mem_le := fun _ _ => Nat.zero_le _
    himem_le := fun _ _ => Nat.zero_le _
    mem_lt := fun _ => show 2 ^ 32 - 1 < 2 ^ 32 by decide
    himem_lt := fun _ => show 2 ^ 32 - 1 < 2 ^ 32 by decide }

/-- A page goes from nobody to a task, as far as its quota admits that. -/
lemma Good.setPage (h : Good s lost) (ht : 2 ≤ t) (ha : a < s.memHigh)
    (hown : s.own (a / pageSize) = oFree) (hc : s.quotaCheck t a pageSize = true)
    (ho : (s.superAt a).owner = oReserved)
    (hs : s' = { s with
      page := Function.update s.page (a / pageSize) t
      super := Function.update s.super (a / pageSize / 1024)
        { freePages := ((s.superAt a).freePages + 65535) % 65536, owner := oReserved }
      mem := Function.update s.mem t { s.mem t with current := (s.mem t).current + pageSize } }) :
    Good s' lost ∧ s'.own = Function.update s.own (a / pageSize) t ∧ Frame s s' := by
  have hp : a / pageSize < 65536 := index_lt (ha.trans_le h.shape.le)
  have htf : t ≠ oFree := by unfold oFree; omega
  rw [superAt_eq] at ho hs
  obtain ⟨hshape, hown'⟩ := h.shape.setPage { s' with mem := s.mem } hp ho
    (h.shape.page_of_own hp hown) htf (by rw [hs])
  change s'.own = _ at hown'
  have hf : Frame s s' := by
    refine ⟨by rw [hs], fun u => ?_, fun u => by rw [hs]⟩
    subst hs
    rcases eq_or_ne u t with rfl | hu
    · simp
    · simp [hu]
  have hget := card_owned_get (Finset.mem_range.2 hp)
    (show s.own (a / pageSize) ≠ t by rw [hown]; exact htf.symm)
  refine ⟨⟨⟨hshape.1, hshape.2, hshape.3, hshape.4, hshape.5, hshape.6⟩,
    h.quotas.of_main (t := t) hf (fun u hu => ?_) (by rw [hs]) (fun i hi => ?_)
    (fun u hu hut q hq => ?_)
      (fun _ _ => rfl) ?_ ?_⟩, hown', hf⟩
  · simp [hs, hu]
  · have : i ≠ a / pageSize / 1024 := by omega
    simp [hs, this]
  · rw [hown']
    rcases eq_or_ne q (a / pageSize) with rfl | hqp
    · have : oFree ≠ u := by unfold oFree; omega
      simp [hown, hut.symm, this]
    · simp [hqp]
  · simpa [hs] using quotaCheck_main_le ha hc
  · have := h.quotas.mem t ht
    simp only [held] at this ⊢
    rw [hown', hget, hs]
    simp only [Function.update_self]
    rw [this, Nat.mul_add, Nat.mul_one]
    omega
end Memmap

end Hazelnut.Rmgr
