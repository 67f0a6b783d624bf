import Hazelnut.Apps.MemmapSafe

/-!
Ranges of memory, after `reserve_range` of `apps/rmgr/src/memmap.c`.

* `reserveUp`, `reserveDown`: the two searches.  They have no result where the source looks beyond
  `__memmap`, or does not get to an end.
* `reserveRange`: the function of the source, whose assertion may fail.
* `Shape.reserveUp`: the search upwards finds the lowest range.
* `Shape.reserveDown`: the search downwards finds the highest one, which may begin too low.
* `reserve_range`: what is done to the owners, and when the assertion fails.
-/

namespace Hazelnut.Rmgr

open Ledger

def add32 (a b : Nat) : Nat := (a + b) % 2 ^ 32
def sub32 (a b : Nat) : Nat := (a + 2 ^ 32 - b) % 2 ^ 32

lemma add32_of_lt {a b : Nat} (h : a + b < 2 ^ 32) : add32 a b = a + b := Nat.mod_eq_of_lt h

lemma sub32_of_le {a b : Nat} (h : b ≤ a) (ha : a < 2 ^ 32) : sub32 a b = a - b := by
  unfold sub32
  omega

namespace Memmap

/-- The conditions that the loops check for a page. -/
def usable (s : Memmap) (t a : Nat) : Option Bool :=
  if s.quotaCheck t a pageSize then (s.ownerPage a).map fun o => o = oFree else some false

/-- `n + 1` pages from `a` on: the first one that cannot be used, or the last one. -/
def scanUp (s : Memmap) (t : Nat) : Nat → Nat → Option (Nat ⊕ Nat)
  | 0, a => (s.usable t a).map fun u => if u then .inr a else .inl a
  | n + 1, a => (s.usable t a).bind fun u => if u then scanUp s t n (add32 a pageSize)
      else some (.inl a)

/-- The search upwards, up to `last`; `align` is the number of bytes. -/
def reserveUp (s : Memmap) (t size align last : Nat) : Nat → Nat → Option (Option Nat)
  | 0, _ => none
  | fuel + 1, a =>
    let a := add32 a (align - 1) / align * align
    if last < a then some none
    else (s.scanUp t (size / pageSize - 1) a).bind fun
      | .inr b => some (some (sub32 b (sub32 size pageSize)))
      | .inl b => reserveUp s t size align last fuel (add32 b pageSize)

/-- `n + 1` pages below `a`. -/
def scanDown (s : Memmap) (t : Nat) : Nat → Nat → Option (Nat ⊕ Nat)
  | 0, a =>
    let a := sub32 a pageSize
    (s.usable t a).map fun u => if u then .inr a else .inl a
  | n + 1, a =>
    let a := sub32 a pageSize
    (s.usable t a).bind fun u => if u then scanDown s t n a else some (.inl a)

/-- The search downwards, down to `first`. -/
def reserveDown (s : Memmap) (t size align first : Nat) : Nat → Nat → Option (Option Nat)
  | 0, _ => none
  | fuel + 1, a =>
    if a < add32 first size then some none
    else (s.scanDown t (size / pageSize - 1) (add32 (sub32 a size / align * align) size)).bind fun
      | .inr b => some (some b)
      | .inl b => reserveDown s t size align first fuel b

/-- `n` pages from `a` on are allocated; the inner `none` is a failed assertion. -/
def allocRange (t : Nat) : Nat → Nat → Memmap → Option (Option Memmap)
  | 0, _, s => some (some s)
  | n + 1, a, s => (s.allocPage a t).bind fun x => if x.1 then allocRange t n (a + pageSize) x.2
      else some none

end Memmap

/-- The parts of `size_and_align`. -/
def reserveAlign (sa : Nat) : Nat := 2 ^ max 12 (min 28 (sa % 64))
def reserveDma (sa : Nat) : Bool := sa / 64 % 2 = 1
def reserveUpwards (sa : Nat) : Bool := sa / 128 % 2 = 1
def reserveSize (sa : Nat) : Nat := sa / pageSize * pageSize

/-- `max_address`. -/
def reserveMax (memHigh sa hi : Nat) : Nat :=
  let m := if hi ≠ 0 then min memHigh hi else memHigh
  (if reserveDma sa then min m (16 * 1024 * 1024) else m) / pageSize * pageSize

/-- `min_address`. -/
def reserveMin (lo : Nat) : Nat := add32 lo (pageSize - 1) / pageSize * pageSize

/-- The search of `reserve_range`. -/
def reserveSearch (s : Memmap) (t sa lo hi : Nat) : Option (Option Nat) :=
  let size := reserveSize sa
  let last := reserveMax s.memHigh sa hi
  let first := reserveMin lo
  if sub32 last first < size then some none
  else if reserveUpwards sa then
    s.reserveUp t size (reserveAlign sa) (sub32 last size) (2 ^ 20) first
  else s.reserveDown t size (reserveAlign sa) first (2 ^ 20) last

/-- What `reserve_range` ends with. -/
inductive Reserved where
  | nothing
  | range (a : Nat) (s : Memmap)
  /-- `assert(ret)` fails -/
  | assertion

def reserveRange (s : Memmap) (t sa lo hi : Nat) : Option Reserved :=
  (reserveSearch s t sa lo hi).bind fun
    | none => some .nothing
    | some a => (Memmap.allocRange t (reserveSize sa / pageSize) a s).map fun
      | none => .assertion
      | some s' => .range a s'

namespace Memmap

variable {s s' : Memmap} {lost : Nat → Nat} {t a b n size align last first fuel k : Nat}

lemma Shape.usable (h : Shape s) (ha : a % pageSize = 0) (hlt : a < s.memHigh) :
    ∃ u, s.usable t a = some u ∧ (u = true ↔ s.Fits t a) := by
  unfold Memmap.usable
  split_ifs with hc
  · rw [ownerPage_eq (.inl (hlt.trans_le h.le))]
    refine ⟨_, rfl, ?_⟩
    simp [Fits, ha, hlt, hc]
  · exact ⟨false, rfl, by simp [Fits, hc]⟩

/-- The pages of a range. -/
def FitsAll (s : Memmap) (t a n : Nat) : Prop := ∀ k < n, s.Fits t (a + pageSize * k)

lemma Shape.scanUp (h : Shape s) (ha : a % pageSize = 0) (hlt : a + pageSize * n < s.memHigh) :
    (s.scanUp t n a = some (.inr (a + pageSize * n)) ∧ s.FitsAll t a (n + 1)) ∨
      ∃ k ≤ n, s.scanUp t n a = some (.inl (a + pageSize * k)) ∧ ¬s.Fits t (a + pageSize * k) := by
  induction n generalizing a with
  | zero =>
    obtain ⟨u, hu, hfit⟩ := h.usable (t := t) ha (by simpa using hlt)
    simp only [Memmap.scanUp, hu, Option.map_some]
    by_cases hfits : s.Fits t a
    · left
      refine ⟨by simp [hfit.2 hfits], fun k hk => ?_⟩
      obtain rfl : k = 0 := by omega
      exact hfits
    · right
      refine ⟨0, le_rfl, ?_, by simpa using hfits⟩
      have : u = false := by simpa [hfits] using hfit
      simp [this]
  | succ n ih =>
    have hmem := h.le
    have hshift (k : Nat) : a + pageSize + pageSize * k = a + pageSize * (k + 1) := by
      rw [Nat.mul_succ]
      omega
    rw [← hshift] at hlt
    have hnext : add32 a pageSize = a + pageSize :=
      add32_of_lt (((Nat.le_add_right ..).trans_lt hlt).trans_le (hmem.trans (by decide)))
    obtain ⟨u, hu, hfit⟩ := h.usable (t := t) ha (by omega)
    simp only [Memmap.scanUp, hu, Option.bind_some, hnext]
    by_cases hfits : s.Fits t a
    · rw [if_pos (hfit.2 hfits)]
      rcases ih (a := a + pageSize) (by rw [Nat.add_mod_right, ha]) hlt with
        ⟨hr, hall⟩ | ⟨k, hk, hr, hno⟩
      · left
        refine ⟨by rw [hr, hshift], fun k hk => ?_⟩
        cases k with
        | zero => simpa using hfits
        | succ k =>
          rw [← hshift]
          exact hall k (by omega)
      · exact .inr ⟨k + 1, by omega, by rw [hr, hshift], by rwa [← hshift]⟩
    · right
      have : u = false := by simpa [hfits] using hfit
      exact ⟨0, Nat.zero_le _, by simp [this], by simpa using hfits⟩

lemma Shape.scanDown (h : Shape s) (ha : a % pageSize = 0) (hle : pageSize * (n + 1) ≤ a)
    (hhigh : a ≤ s.memHigh) :
    (s.scanDown t n a = some (.inr (a - pageSize * (n + 1))) ∧
      s.FitsAll t (a - pageSize * (n + 1)) (n + 1)) ∨
      ∃ k ≤ n, s.scanDown t n a = some (.inl (a - pageSize * (k + 1))) ∧
        ¬s.Fits t (a - pageSize * (k + 1)) := by
  have hmem := h.le
  have hpos : 0 < pageSize := by decide
  induction n generalizing a with
  | zero =>
    simp only [Nat.zero_add, Nat.mul_one] at hle ⊢
    have hprev : sub32 a pageSize = a - pageSize :=
      sub32_of_le hle ((hhigh.trans hmem).trans_lt (by decide))
    obtain ⟨u, hu, hfit⟩ := h.usable (t := t) (a := a - pageSize)
      (by rw [← Nat.mod_eq_sub_mod hle, ha]) (by omega)
    simp only [Memmap.scanDown, hprev, hu, Option.map_some]
    by_cases hfits : s.Fits t (a - pageSize)
    · left
      refine ⟨by simp [hfit.2 hfits], fun k hk => ?_⟩
      obtain rfl : k = 0 := by omega
      rwa [Nat.mul_zero, Nat.add_zero]
    · right
      refine ⟨0, le_rfl, ?_, by simpa using hfits⟩
      have : u = false := by simpa [hfits] using hfit
      simp [this]
  | succ n ih =>
    have hle' : pageSize ≤ a := (Nat.le_mul_of_pos_right _ (by omega)).trans hle
    have hprev : sub32 a pageSize = a - pageSize :=
      sub32_of_le hle' ((hhigh.trans hmem).trans_lt (by decide))
    have hmod : (a - pageSize) % pageSize = 0 := by rw [← Nat.mod_eq_sub_mod hle', ha]
    obtain ⟨u, hu, hfit⟩ := h.usable (t := t) (a := a - pageSize) hmod (by omega)
    have hshift (k : Nat) : a - pageSize - pageSize * (k + 1) = a - pageSize * (k + 1 + 1) := by
      rw [Nat.mul_succ pageSize (k + 1)]
      omega
    simp only [Memmap.scanDown, hprev, hu, Option.bind_some]
    by_cases hfits : s.Fits t (a - pageSize)
    · rw [if_pos (hfit.2 hfits)]
      rw [Nat.mul_succ] at hle
      rcases ih (a := a - pageSize) hmod (by omega) (by omega) with ⟨hr, hall⟩ | ⟨k, hk, hr, hno⟩
      · left
        refine ⟨by rw [hr, hshift], fun k hk => ?_⟩
        by_cases hkn : k = n + 1
        · have : a - pageSize * (n + 1 + 1) + pageSize * k = a - pageSize := by
            rw [hkn, ← hshift]
            omega
          rwa [this]
        · rw [← hshift]
          exact hall k (by omega)
      · exact .inr ⟨k + 1, by omega, by rw [hr, hshift], by rwa [← hshift]⟩
    · right
      have : u = false := by simpa [hfits] using hfit
      exact ⟨0, Nat.zero_le _, by simp [this], by simpa using hfits⟩

/-- A range that the task could get. -/
def FitsRange (s : Memmap) (t size align a : Nat) : Prop :=
  a % align = 0 ∧ s.FitsAll t a (size / pageSize)

/-- A range with a page that does not fit is none. -/
lemma FitsRange.not_mem (h : s.FitsRange t size align a) (hdvd : pageSize ∣ align)
    (hsize : size % pageSize = 0) (hb : b % pageSize = 0) (hno : ¬s.Fits t b) (hab : a ≤ b) :
    a + size ≤ b := by
  have ha : a % pageSize = 0 := Nat.mod_eq_zero_of_dvd (hdvd.trans (Nat.dvd_of_mod_eq_zero h.1))
  by_contra hlt
  have := h.2 ((b - a) / pageSize) (by simp only [pageSize] at *; omega)
  have hk : a + pageSize * ((b - a) / pageSize) = b := by
    simp only [pageSize] at *
    omega
  rw [hk] at this
  exact hno this

/-- The multiples of `align` next to `a`. -/
lemma le_of_mod_eq_zero (hal : 0 < align) (hb : b % align = 0) (hab : a ≤ b) :
    (a + (align - 1)) / align * align ≤ b := by
  obtain ⟨c, rfl⟩ := Nat.dvd_of_mod_eq_zero hb
  rw [Nat.mul_comm]
  refine Nat.mul_le_mul_left _ (Nat.lt_succ_iff.1 ((Nat.div_lt_iff_lt_mul hal).2 ?_))
  rw [Nat.succ_mul, Nat.mul_comm c]
  omega

lemma le_div_mul (hal : 0 < align) (hb : b % align = 0) (hab : b ≤ a) : b ≤ a / align * align := by
  obtain ⟨c, rfl⟩ := Nat.dvd_of_mod_eq_zero hb
  rw [Nat.mul_comm]
  exact Nat.mul_le_mul_right _ ((Nat.le_div_iff_mul_le hal).2 (by rwa [Nat.mul_comm]))

/-- **Search upwards**: the lowest range from `a` on that begins at `last` at most is found, if
there is one. -/
theorem Shape.reserveUp (h : Shape s) (hal : 0 < align) (hdvd : pageSize ∣ align)
    (hmax : align ≤ 2 ^ 28)
    (hpos : 0 < size) (hsize : size % pageSize = 0) (hhigh : last + size ≤ s.memHigh)
    (ha : a ≤ last + size) (hfuel : last < a + pageSize * fuel) :
    ∃ r, s.reserveUp t size align last (fuel + 1) a = some r ∧
      IsFirst (fun b => b ≤ last ∧ s.FitsRange t size align b) a r := by
  have hmem : s.memHigh ≤ 2 ^ 28 := h.le.trans (by decide)
  obtain ⟨n, hn⟩ : ∃ n, size / pageSize = n + 1 :=
    Nat.exists_eq_succ_of_ne_zero (by simp only [pageSize] at *; omega)
  have hsz : size = pageSize * n + pageSize := by
    have := Nat.div_add_mod size pageSize
    rw [hn, hsize, Nat.mul_succ] at this
    omega
  have hpage0 : 0 < pageSize := by decide
  induction fuel generalizing a with
  | zero =>
    unfold Memmap.reserveUp
    dsimp only
    rw [add32_of_lt (a := a) (b := align - 1) (by omega)]
    have := Nat.lt_div_mul_add hal (a := a + (align - 1))
    rw [if_pos (by omega)]
    exact ⟨none, rfl, fun b hb hfits => by omega⟩
  | succ fuel ih =>
    unfold Memmap.reserveUp
    dsimp only
    rw [add32_of_lt (a := a) (b := align - 1) (by omega)]
    set a' := (a + (align - 1)) / align * align with ha'
    have hle : a ≤ a' := by
      have := Nat.lt_div_mul_add hal (a := a + (align - 1))
      omega
    have hmul : a' % align = 0 := Nat.mul_mod_left ..
    have hpage : a' % pageSize = 0 :=
      Nat.mod_eq_zero_of_dvd (hdvd.trans (Nat.dvd_of_mod_eq_zero hmul))
    split_ifs with hlast
    · exact ⟨none, rfl, fun b hb hfits => absurd (le_of_mod_eq_zero hal hfits.2.1 hb) (by omega)⟩
    rw [hn, Nat.add_sub_cancel]
    rcases h.scanUp (t := t) (n := n) hpage (by omega) with ⟨hr, hall⟩ | ⟨k, hk, hr, hno⟩
    · rw [hr, Option.bind_some]
      dsimp only
      have hback : sub32 (a' + pageSize * n) (sub32 size pageSize) = a' := by
        rw [sub32_of_le (a := size) (by omega) (by omega), sub32_of_le (by omega) (by omega)]
        omega
      refine ⟨some a', by rw [hback], hle, ⟨by omega, hmul, by rw [hn]; exact hall⟩,
        fun b hb hlt hfits => ?_⟩
      exact absurd (le_of_mod_eq_zero hal hfits.2.1 hb) (by omega)
    · rw [hr, Option.bind_some]
      dsimp only
      have hkn : pageSize * k ≤ pageSize * n := Nat.mul_le_mul_left _ hk
      rw [Nat.mul_succ] at hfuel
      rw [add32_of_lt (by omega)]
      obtain ⟨r, hr', hfirst⟩ := ih (a := a' + pageSize * k + pageSize) (by omega) (by omega)
      refine ⟨r, hr', hfirst.skip (by omega) fun b hb hlt hfits => ?_⟩
      -- the range would have the page that does not fit
      have hab := le_of_mod_eq_zero hal hfits.2.1 hb
      have hbpage : b % pageSize = 0 :=
        Nat.mod_eq_zero_of_dvd (hdvd.trans (Nat.dvd_of_mod_eq_zero hfits.2.1))
      have hkpage : (a' + pageSize * k) % pageSize = 0 := by rw [Nat.add_mul_mod_self_left, hpage]
      have := hfits.2.not_mem hdvd hsize hkpage hno (by simp only [pageSize] at *; omega)
      omega

/-- The highest range below `hi`; it ends above `first`, if it is not aligned up. -/
def IsLast (P : Nat → Prop) (size align first hi : Nat) : Option Nat → Prop
  | some a => P a ∧ a + size ≤ hi ∧ first < a + align ∧ ∀ b, b + size ≤ hi → a < b → ¬P b
  | none => ∀ b, first ≤ b → b + size ≤ hi → ¬P b

/-- **Search downwards**: the highest range is found, or none if there is none from `first` on; the
range found may begin below `first`, by less than the alignment. -/
theorem Shape.reserveDown (h : Shape s) (hal : 0 < align) (hdvd : pageSize ∣ align)
    (hpos : 0 < size)
    (hsize : size % pageSize = 0) (hhigh : a ≤ s.memHigh) (hfirst : first + size < 2 ^ 32)
    (hfuel : a < first + size + pageSize * fuel) :
    ∃ r, s.reserveDown t size align first (fuel + 1) a = some r ∧
      IsLast (s.FitsRange t size align) size align first a r := by
  have hmem : s.memHigh ≤ 2 ^ 28 := h.le.trans (by decide)
  obtain ⟨n, hn⟩ : ∃ n, size / pageSize = n + 1 :=
    Nat.exists_eq_succ_of_ne_zero (by simp only [pageSize] at *; omega)
  have hsz : size = pageSize * (n + 1) := by
    rw [← hn]
    simp only [pageSize] at *
    omega
  induction fuel generalizing a with
  | zero =>
    unfold Memmap.reserveDown
    rw [add32_of_lt hfirst, if_pos (by omega)]
    exact ⟨none, rfl, fun b hb hle _ => by omega⟩
  | succ fuel ih =>
    unfold Memmap.reserveDown
    rw [add32_of_lt hfirst]
    split_ifs with hlast
    · exact ⟨none, rfl, fun b hb hle _ => by omega⟩
    rw [sub32_of_le (by omega) (by omega)]
    set c := (a - size) / align * align with hc
    have hle : c ≤ a - size := Nat.div_mul_le_self ..
    have hlt : a - size < c + align := Nat.lt_div_mul_add hal
    have hmul : c % align = 0 := Nat.mul_mod_left ..
    have hpage : c % pageSize = 0 :=
      Nat.mod_eq_zero_of_dvd (hdvd.trans (Nat.dvd_of_mod_eq_zero hmul))
    rw [add32_of_lt (by omega), hn, Nat.add_sub_cancel]
    have hcs : (c + size) % pageSize = 0 := by rw [Nat.add_mod, hpage, hsize]; rfl
    rcases h.scanDown (t := t) (n := n) hcs (by omega) (by omega) with ⟨hr, hall⟩ | ⟨k, hk, hr, hno⟩
    · rw [← hsz, Nat.add_sub_cancel] at hr hall
      rw [hr, Option.bind_some]
      refine ⟨some c, rfl, ⟨hmul, by rw [hn]; exact hall⟩, by omega, by omega,
        fun b hb hcb hfits => ?_⟩
      exact absurd (le_div_mul (a := a - size) hal hfits.1 (by omega)) (by omega)
    · rw [hr, Option.bind_some]
      dsimp only
      have hkn : pageSize * (k + 1) ≤ size := by
        rw [hsz]
        exact Nat.mul_le_mul_left _ (by omega)
      have hk1 : pageSize ≤ pageSize * (k + 1) := Nat.le_mul_of_pos_right _ (by omega)
      set b := c + size - pageSize * (k + 1) with hb
      have hbpage : b % pageSize = 0 := by
        simp only [pageSize] at *
        omega
      have hpage0 : 0 < pageSize := by decide
      rw [Nat.mul_succ] at hfuel
      obtain ⟨r, hr', hlastr⟩ := ih (a := b) (by omega) (by omega)
      refine ⟨r, hr', ?_⟩
      -- a range that reaches above the page that does not fit has it
      have hskip (d : Nat) (hd : d + size ≤ a) (hfits : s.FitsRange t size align d) :
          d + size ≤ b := by
        have hdc := le_div_mul (a := a - size) hal hfits.1 (by omega)
        exact hfits.not_mem hdvd hsize hbpage hno (by omega)
      cases r with
      | none => exact fun d hd hle hfits => hlastr d hd (hskip d hle hfits) hfits
      | some d =>
        obtain ⟨hfits, hle', hfd, hno'⟩ := hlastr
        exact ⟨hfits, by omega, hfd, fun e he hde hfe => hno' e (hskip e he hfe) hde hfe⟩

lemma quotaCheck_iff (ha : a < s.memHigh) :
    s.quotaCheck t a n = true ↔ (s.mem t).current + n ≤ (s.mem t).max ∧ (s.mem t).low ≤ a ∧
      (a + n - 1) % 2 ^ 32 ≤ (s.mem t).high := by
  rw [quotaCheck, if_pos ha]
  simp only [Quota.check, Bool.and_eq_true, decide_eq_true_eq]
  omega

/-- What a page needs apart from room in the quota. -/
def Free (s : Memmap) (t a : Nat) : Prop :=
  a < s.memHigh ∧ s.own (a / pageSize) = oFree ∧ (s.mem t).low ≤ a ∧
    (a + pageSize - 1) % 2 ^ 32 ≤ (s.mem t).high

lemma Fits.free (h : s.Fits t a) : s.Free t a :=
  ⟨h.2.1, h.2.2.1, ((quotaCheck_iff h.2.1).1 h.2.2.2).2⟩

lemma Frame.limits_mem (h : Frame s s') (t : Nat) :
    (s'.mem t).low = (s.mem t).low ∧ (s'.mem t).high = (s.mem t).high ∧
    (s'.mem t).max = (s.mem t).max := by
  have := h.mem t
  simp only [Quota.limits, Prod.mk.injEq] at this
  exact this

/-- **Allocation**: all the pages are allocated if there is room for them in the quota, and if not,
one of them is not. -/
lemma Good.allocRange (h : Good s lost) (ht : 2 ≤ t) (ha : a % pageSize = 0)
    (hfree : ∀ k < n, s.Free t (a + pageSize * k)) :
    ((s.mem t).current + pageSize * n ≤ (s.mem t).max ∧ ∃ s', allocRange t n a s = some (some s') ∧
      Good s' lost ∧ Frame s s' ∧
        s'.own = fun p => if a / pageSize ≤ p ∧ p < a / pageSize + n then t else s.own p) ∨
    ((s.mem t).max < (s.mem t).current + pageSize * n ∧ allocRange t n a s = some none) := by
  induction n generalizing a s with
  | zero =>
    refine .inl ⟨h.quotas.mem_le t ht, s, rfl, h, .refl, funext fun p => ?_⟩
    rw [if_neg (by omega)]
  | succ n ih =>
    have hfirst : s.Free t a := by simpa using hfree 0 (by omega)
    obtain ⟨hlt, hown, hlow, hhigh⟩ := hfirst
    have htf : t ≠ oFree := by unfold oFree; omega
    obtain ⟨r, s₁, hr, hg, hf, hcase⟩ := h.allocPage ht (hlt.trans_le h.shape.le)
    simp only [Memmap.allocRange, hr, Option.bind_some]
    rw [Nat.mul_succ]
    rcases hcase with ⟨-, howned, -⟩ | ⟨rfl, -, hc, hown₁⟩ | ⟨rfl, hno, -⟩
    · exact absurd (howned.symm.trans hown) htf
    · -- one more page is in use
      have hp : a / pageSize < 65536 := index_lt (hlt.trans_le h.shape.le)
      have hcur : (s₁.mem t).current = (s.mem t).current + pageSize := by
        rw [hg.quotas.mem t ht, h.quotas.mem t ht, held, held, hown₁,
          card_owned_get (Finset.mem_range.2 hp) (by rw [hown]; exact htf.symm), Nat.mul_succ]
        omega
      obtain ⟨hl, hh, hm⟩ := hf.limits_mem t
      have hnext : (a + pageSize) / pageSize = a / pageSize + 1 := Nat.add_div_right _ (by decide)
      have hrest : ∀ k < n, s₁.Free t (a + pageSize + pageSize * k) := fun k hk => by
        have hshift : a + pageSize + pageSize * k = a + pageSize * (k + 1) := by
          rw [Nat.mul_succ]
          omega
        obtain ⟨h₁, h₂, h₃, h₄⟩ := hfree (k + 1) (by omega)
        rw [← hshift] at h₁ h₂ h₃ h₄
        refine ⟨by rw [hf.memHigh]; exact h₁, ?_, by rw [hl]; exact h₃, by rw [hh]; exact h₄⟩
        rw [hown₁, Function.update_of_ne, h₂]
        rw [Nat.add_mul_div_left _ _ (by decide), hnext]
        omega
      rcases ih (a := a + pageSize) hg (by rw [Nat.add_mod_right, ha]) hrest with
        ⟨hle, s', hs', hg', hf', hown'⟩ | ⟨hgt, hs'⟩
      · left
        refine ⟨by omega, s', hs', hg', hf.trans hf', ?_⟩
        rw [hown', hown₁, hnext]
        funext p
        by_cases hpa : p = a / pageSize
        · simp [hpa]
        · rw [Function.update_of_ne hpa]
          by_cases hin : a / pageSize + 1 ≤ p ∧ p < a / pageSize + 1 + n
          · rw [if_pos hin, if_pos (by omega)]
          · rw [if_neg hin, if_neg (by omega)]
      · exact .inr ⟨by omega, hs'⟩
    · right
      refine ⟨?_, rfl⟩
      by_contra hroom
      exact hno ⟨hown, (quotaCheck_iff hlt).2 ⟨by omega, hlow, hhigh⟩⟩

end Memmap

open Memmap

variable {s s' : Memmap} {lost : Nat → Nat} {t sa lo hi a : Nat}

/-- The pages of the range. -/
def Taken (s : Memmap) (t sa a : Nat) (s' : Memmap) : Prop :=
  s'.own = fun p => if a / pageSize ≤ p ∧
    p < a / pageSize + reserveSize sa / pageSize then t else s.own p

/-- The range that `reserve_range` looks for. -/
def Wanted (s : Memmap) (t sa lo hi : Nat) : Option Nat → Prop :=
  let range := s.FitsRange t (reserveSize sa) (reserveAlign sa)
  let last := reserveMax s.memHigh sa hi
  if reserveUpwards sa then IsFirst (fun b => b + reserveSize sa ≤ last ∧ range b) (reserveMin lo)
  else IsLast range (reserveSize sa) (reserveAlign sa) (reserveMin lo) last

lemma reserveSearch_spec (h : Shape s) (hpos : 0 < reserveSize sa)
    (hle : reserveMin lo ≤ reserveMax s.memHigh sa hi) :
    ∃ r, reserveSearch s t sa lo hi = some r ∧ Wanted s t sa lo hi r := by
  have hal : 0 < reserveAlign sa := Nat.two_pow_pos _
  have hdvd : pageSize ∣ reserveAlign sa := by
    change 2 ^ 12 ∣ _
    exact pow_dvd_pow 2 (le_max_left ..)
  have halign : reserveAlign sa ≤ 2 ^ 28 := Nat.pow_le_pow_right (by omega) (by omega)
  have hsize : reserveSize sa % pageSize = 0 := Nat.mul_mod_left ..
  have hmax : reserveMax s.memHigh sa hi ≤ s.memHigh := by
    refine (Nat.div_mul_le_self ..).trans ?_
    split_ifs <;> omega
  have hmem : s.memHigh ≤ 2 ^ 28 := h.le.trans (by decide)
  unfold reserveSearch Wanted
  dsimp only
  rw [sub32_of_le hle (by omega)]
  by_cases hroom : reserveMax s.memHigh sa hi - reserveMin lo < reserveSize sa
  · rw [if_pos hroom]
    refine ⟨none, rfl, ?_⟩
    split_ifs with hup
    · exact fun b hb hfits => by omega
    · exact fun b hb hle _ => by omega
  rw [if_neg hroom]
  split_ifs with hup
  · rw [sub32_of_le (a := reserveMax s.memHigh sa hi) (b := reserveSize sa) (by omega) (by omega)]
    obtain ⟨r, hr, hfirst⟩ := h.reserveUp (t := t) hal hdvd halign hpos hsize
      (show reserveMax s.memHigh sa hi - reserveSize sa + reserveSize sa ≤ s.memHigh by omega)
      (show reserveMin lo ≤ _ by omega)
      (show reserveMax s.memHigh sa hi - reserveSize sa < reserveMin lo + pageSize * (2 ^ 20 - 1) by
        simp only [pageSize]
        omega)
    refine ⟨r, hr, ?_⟩
    have hiff : (fun b => b + reserveSize sa ≤ reserveMax s.memHigh sa hi ∧
        s.FitsRange t (reserveSize sa) (reserveAlign sa) b) = fun b =>
        b ≤ reserveMax s.memHigh sa hi - reserveSize sa ∧
          s.FitsRange t (reserveSize sa) (reserveAlign sa) b := by
      funext b
      congr 1
      exact propext (by omega)
    rw [hiff]
    exact hfirst
  · exact h.reserveDown hal hdvd hpos hsize hmax (show reserveMin lo + _ < 2 ^ 32 by omega)
      (show _ < _ + pageSize * (2 ^ 20 - 1) by
        simp only [pageSize]
        omega)

lemma Wanted.fitsRange (h : Wanted s t sa lo hi (some a)) :
    s.FitsRange t (reserveSize sa) (reserveAlign sa) a := by
  unfold Wanted at h
  split_ifs at h
  · exact h.2.1.2
  · exact h.1

lemma reserveRange_none (hr : reserveSearch s t sa lo hi = some none) :
    reserveRange s t sa lo hi = some .nothing := by
  simp [reserveRange, hr]

/-- The pages of the range found are allocated, all of them or not. -/
lemma Memmap.Good.reserveRange (h : Good s lost) (ht : 2 ≤ t) (hpos : 0 < reserveSize sa)
    (hr : reserveSearch s t sa lo hi = some (some a)) (hw : Wanted s t sa lo hi (some a)) :
    ((s.mem t).current + reserveSize sa ≤ (s.mem t).max ∧
      ∃ s', reserveRange s t sa lo hi = some (.range a s') ∧ Good s' lost ∧ Frame s s' ∧
      Taken s t sa a s') ∨
    ((s.mem t).max < (s.mem t).current + reserveSize sa ∧
        reserveRange s t sa lo hi = some .assertion) := by
  have hrange := hw.fitsRange
  have hpage : a % pageSize = 0 := by
    have := hrange.2 0 (Nat.div_pos (Nat.le_of_dvd hpos (Nat.dvd_mul_left ..)) (by decide))
    simpa using this.1
  have hsz : pageSize * (reserveSize sa / pageSize) = reserveSize sa :=
    Nat.mul_div_cancel' (Nat.dvd_mul_left ..)
  have halloc := h.allocRange ht hpage fun k hk => (hrange.2 k hk).free
  rw [hsz] at halloc
  rcases halloc with ⟨hroom, s', hs', hg, hf, hown⟩ | ⟨hroom, hs'⟩
  · exact .inl ⟨hroom, s', by simp [Rmgr.reserveRange, hr, hs'], hg, hf, hown⟩
  · exact .inr ⟨hroom, by simp [Rmgr.reserveRange, hr, hs']⟩

/-- **Reserve**: the range found is given to the task, if its quota has room for all of it; if it
has room only for each page, the assertion fails. -/
theorem reserve_range (h : Good s lost) (ht : 2 ≤ t) (hpos : 0 < reserveSize sa)
    (hle : reserveMin lo ≤ reserveMax s.memHigh sa hi) :
    ∃ r, Wanted s t sa lo hi r ∧
      match r with
      | none => reserveRange s t sa lo hi = some .nothing
      | some a =>
        if (s.mem t).current + reserveSize sa ≤ (s.mem t).max then
          ∃ s', reserveRange s t sa lo hi = some (.range a s') ∧ Good s' lost ∧ Frame s s' ∧
            Taken s t sa a s'
        else reserveRange s t sa lo hi = some .assertion := by
  obtain ⟨r, hr, hw⟩ := reserveSearch_spec (t := t) h.shape hpos hle
  refine ⟨r, hw, ?_⟩
  cases r with
  | none => exact reserveRange_none hr
  | some a =>
    rcases h.reserveRange ht hpos hr hw with ⟨hroom, hres⟩ | ⟨hroom, hres⟩
    · simpa only [if_pos hroom] using hres
    · simpa only [if_neg (Nat.not_le.2 hroom)] using hres

/-- Two pages below 8 MB. -/
theorem reserve_range_small : ∃ r, Wanted small 5 0x2000 0 0 r ∧
    match r with
    | none => reserveRange small 5 0x2000 0 0 = some .nothing
    | some a =>
      if (small.mem 5).current + reserveSize 0x2000 ≤ (small.mem 5).max then
        ∃ s', reserveRange small 5 0x2000 0 0 = some (.range a s') ∧ Good s' (fun _ => 0) ∧
          Frame small s' ∧
          Taken small 5 0x2000 a s'
      else reserveRange small 5 0x2000 0 0 = some .assertion :=
  reserve_range small_good (by decide) (by decide) (by decide)

end Hazelnut.Rmgr
