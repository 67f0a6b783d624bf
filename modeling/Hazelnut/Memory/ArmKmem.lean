import Mathlib.Logic.Function.Basic
import Hazelnut.Thread.Tcb

/-!
`kmem_init` of the ARM kernel memory allocator, after `kernel/src/arm/kmemory.c`.

* `ArmKmem`, `ArmLayout`: the allocator and the addresses the linker gives it.  The heads of
  the free lists are words of memory, since the links of the first pages point back to them.
* `armKmemInit`: the lists of 16K, 4K and 1K pages and the allocation bits.
* `Marked`: the bits of a 4K page, as `kmem_alloc_4k` sets and `kmem_free_4k` clears them.
* `armKmemInit_marked`: after `kmem_init` every other page is marked although none is
  allocated.
-/

namespace Hazelnut

/-- `kmem_start`, `kmem_end`, `cpaddr`, and the addresses of the heads of the free lists. -/
structure ArmLayout where
  kmemStart : Word
  kmemEnd : Word
  cpaddr : Word
  freelist16k : Word
  freelist4k : Word
  freelist1k : Word

/-- The words of memory, the static variables, and `alloc_array`. -/
structure ArmKmem where
  mem : Word → Word
  numfree16k : Word
  cluster4k : Word
  numfree4k : Word
  numfree1k : Word
  allocArray : Nat → BitVec 8

/-- `KMEM_16K_MASK`, `KMEM_1K_MASK`. -/
def kmem16kMask : Word := 0x3fff
def kmem1kMask : Word := 0x03ff

namespace ArmLayout

variable (y : ArmLayout)

/-- Where 16K pages start.  The rounding up is a statement of its own in the source, whose
value is dropped. -/
def start16k : Word := y.kmemStart - (y.kmemStart &&& kmem16kMask)

def end16k : Word := y.kmemEnd - (y.kmemEnd &&& kmem16kMask)

end ArmLayout

/-! ### The free lists -/

/-- `pg->next`, `pg->prev` and `pg->next_cluster`. -/
def setNextPage (m : Word → Word) (pg v : Word) : Word → Word := Function.update m pg v
def setPrevPage (m : Word → Word) (pg v : Word) : Word → Word := Function.update m (pg + 4) v
def setNextCluster (m : Word → Word) (pg v : Word) : Word → Word := Function.update m (pg + 8) v

/-- Zeroing `n` words from `p` on. -/
def zeroPage : Nat → Word → (Word → Word) → Word → Word
  | 0, _, m => m
  | n + 1, p, m => zeroPage n (p + 4) (Function.update m p 0)

/-- The pages of the given size from `pg` up to `lim` are zeroed and linked: the last page,
their number and the memory. -/
def linkPages (size lim : Word) : Nat → Word → Word → Word → (Word → Word) →
    Option (Word × Word × (Word → Word))
  | 0, _, _, _, _ => none
  | fuel + 1, pg, pgp, num, m =>
    if pg < lim then
      let pgn := pg + size
      let m := zeroPage (size / 4).toNat pg m
      let m := setNextPage m pg pgn
      let m := setPrevPage m pg pgp
      linkPages size lim fuel pgn pg (num + 1) m
    else some (pgp, num, m)

/-- `n` small pages from `pg` on are linked: the page behind them, the last one, and the
memory. -/
def linkSmall (size : Word) : Nat → Word → Word → (Word → Word) → Word × Word × (Word → Word)
  | 0, pg, pgp, m => (pg, pgp, m)
  | n + 1, pg, pgp, m =>
    let pgn := pg + size
    linkSmall size n pgn pg (setPrevPage (setNextPage m pg pgn) pg pgp)

/-- `n` 16K pages from `pg` on are split into 4K pages. -/
def splitPages : Nat → Word → Word → (Word → Word) → Word × Word × (Word → Word)
  | 0, pg, pgp, m => (pg, pgp, m)
  | n + 1, pg, pgp, m =>
    let m := if 0 < n then setNextCluster m pg (pg + 16384) else m
    let (pg, pgp, m) := linkSmall 4096 4 pg pgp m
    splitPages n pg pgp m

/-- The 1K pages from `first` up to `lim` go to the front of their list. -/
def insertFront (y : ArmLayout) (fuel : Nat) (first lim num1 : Word) (m : Word → Word) :
    Option (Word × (Word → Word)) := do
  let (pgp, num1, m) ← linkPages 1024 lim fuel first y.freelist1k num1 m
  let m := setNextPage m pgp (m y.freelist1k)
  let m := if m pgp ≠ 0 then setPrevPage m (m pgp) pgp else m
  let m := setPrevPage m pgp y.freelist1k
  return (num1, Function.update m y.freelist1k first)

/-! ### The allocation bits -/

/-- The loop that marks kernel memory as free. -/
def freeBits (lim : Word) : Nat → Word → Word → (Nat → BitVec 8) → Option (Nat → BitVec 8)
  | 0, _, _, _ => none
  | fuel + 1, addr, i, arr =>
    if addr < lim then
      let byte := (i >>> 3).toNat
      let arr := Function.update arr byte (arr byte &&& ~~~ ((0x80 : BitVec 8) >>> (i &&& 3).toNat))
      freeBits lim fuel (addr + (kmem1kMask + 1)) (i + 1) arr
    else some arr

/-- The part of `kmem_init` that moves `num4` pages from the 16K to the 4K list: the number
of 4K pages, `cluster_4k`, and the memory. -/
def move16kTo4k (y : ArmLayout) (num4 : Word) (m : Word → Word) : Word × Word × (Word → Word) :=
  if num4 ≠ 0 then
    let m := Function.update m y.freelist4k (m y.freelist16k)
    let (pg, pgp, m) := splitPages num4.toNat (m y.freelist4k) y.freelist4k m
    let m := setNextPage m pgp 0
    let cluster4k := m y.freelist4k
    let m := if pg < y.end16k then
        setPrevPage (Function.update m y.freelist16k pg) pg y.freelist16k
      else Function.update m y.freelist16k 0
    (num4 * 4, cluster4k, m)
  else (num4, 0, Function.update m y.freelist4k 0)

/-- The part of `kmem_init` that fills the 1K list with what lies before and behind the 16K
pages. -/
def fill1k (y : ArmLayout) (fuel : Nat) (m : Word → Word) : Option (Word × (Word → Word)) := do
  let m := Function.update m y.freelist1k 0
  let (num1, m) ←
    if y.kmemStart < y.start16k then insertFront y fuel y.kmemStart y.start16k 0 m
    else pure (0, m)
  if y.end16k < y.kmemEnd then insertFront y fuel y.end16k y.kmemEnd num1 m
  else pure (num1, m)

/-- `kmem_init`.  `KMEM_INIT_4K_RATIO` is `1 / 1` and `KMEM_INIT_1K_RATIO` is 0, so that all
16K pages are split and none goes to the list of 1K pages. -/
def armKmemInit (fuel : Nat) (y : ArmLayout) (m : Word → Word) : Option ArmKmem := do
  -- First, put all kmem into 16K pages.
  let m := Function.update m y.freelist16k y.start16k
  let (pgp, num16, m) ← linkPages 16384 y.end16k fuel y.start16k y.freelist16k 0 m
  let m := setNextPage m pgp 0
  let num4 := num16 * 1 / 1
  let num16 := num16 - num4
  let (num4, cluster4k, m) := move16kTo4k y num4 m
  let (num1, m) ← fill1k y fuel m
  -- Mark kernel memory as free.
  let addr := (y.kmemStart + kmem1kMask) &&& ~~~kmem1kMask
  let arr ← freeBits (y.kmemEnd &&& ~~~kmem1kMask) fuel addr
    ((addr - (y.cpaddr &&& ~~~kmem1kMask)) >>> 10) fun _ => 0xff
  return ⟨m, num16, cluster4k, num4, num1, arr⟩

/-! ### What the bits say -/

/-- The byte and the bits of a 4K page. -/
def markByte (y : ArmLayout) (pg : Word) : Nat := ((pg - y.cpaddr) >>> 13).toNat

def markBits (pg : Word) : BitVec 8 := if pg &&& 0x1000 ≠ 0 then 0xf0 else 0x0f

/-- A page is marked as allocated. -/
def Marked (y : ArmLayout) (s : ArmKmem) (pg : Word) : Prop :=
  s.allocArray (markByte y pg) &&& markBits pg ≠ 0

/-- The bits mark exactly the live pages among those of kernel memory. -/
def MarksLive (y : ArmLayout) (s : ArmKmem) (live : List Word) : Prop :=
  ∀ pg, pg &&& 0xfff = 0 → y.start16k ≤ pg → pg < y.end16k → (Marked y s pg ↔ pg ∈ live)

variable {y : ArmLayout} {m : Word → Word} {lim pg size : Word} {fuel : Nat}

/-! ### The loops end -/

lemma toNat_add_of_lt (h : pg < lim) (hlim : lim.toNat + size.toNat ≤ 2 ^ 32) :
    (pg + size).toNat = pg.toNat + size.toNat := by
  rw [BitVec.lt_def] at h
  rw [BitVec.toNat_add, Nat.mod_eq_of_lt (by omega)]

lemma linkPages_returns (hs : 0 < size.toNat) (hlim : lim.toNat + size.toNat ≤ 2 ^ 32)
    (pgp num : Word) (m : Word → Word) (hf : lim.toNat - pg.toNat < fuel) :
    ∃ r, linkPages size lim fuel pg pgp num m = some r := by
  induction fuel generalizing pg pgp num m with
  | zero => omega
  | succ fuel ih =>
      rw [linkPages]
      split
      · rename_i hlt
        have hadd := toNat_add_of_lt hlt hlim
        rw [BitVec.lt_def] at hlt
        exact ih _ _ _ (by omega)
      · exact ⟨_, rfl⟩

lemma freeBits_returns (hlim : lim.toNat + 1024 ≤ 2 ^ 32) (i : Word) (arr : Nat → BitVec 8)
    (hf : lim.toNat - pg.toNat < fuel) : ∃ arr', freeBits lim fuel pg i arr = some arr' := by
  induction fuel generalizing pg i arr with
  | zero => omega
  | succ fuel ih =>
      rw [freeBits]
      split
      · rename_i hlt
        have h1024 : (kmem1kMask + 1).toNat = 1024 := rfl
        have hlim' : lim.toNat + (kmem1kMask + 1).toNat ≤ 2 ^ 32 := by rw [h1024]; exact hlim
        have hadd := toNat_add_of_lt hlt hlim'
        rw [BitVec.lt_def] at hlt
        exact ih _ _ (by omega)
      · exact ⟨_, rfl⟩

lemma insertFront_returns (first num1 : Word) (m : Word → Word) (hlim : lim.toNat + 1024 ≤ 2 ^ 32)
    (hf : 2 ^ 32 ≤ fuel) : ∃ r, insertFront y fuel first lim num1 m = some r := by
  have hlt := lim.isLt
  have hsize : 0 < (1024 : Word).toNat := by decide
  have hfuel : lim.toNat - first.toNat < fuel := by omega
  obtain ⟨r, hr⟩ := linkPages_returns hsize hlim y.freelist1k num1 m hfuel
  simp only [insertFront, hr, Option.bind_eq_bind, Option.bind_some, pure]
  exact ⟨_, rfl⟩

lemma sub_and_mask (a : Word) : (a - (a &&& kmem16kMask)).toNat = a.toNat - a.toNat % 16384 := by
  have hmask : kmem16kMask.toNat = 2 ^ 14 - 1 := by decide
  have hand : (a &&& kmem16kMask).toNat = a.toNat % 16384 := by
    rw [BitVec.toNat_and, hmask, Nat.and_two_pow_sub_one_eq_mod]
  rw [BitVec.toNat_sub, hand]
  have := a.isLt
  omega

lemma and_not_mask_le (a : Word) : (a &&& ~~~kmem1kMask).toNat ≤ a.toNat := by
  rw [BitVec.toNat_and]
  exact Nat.and_le_left

/-- `kmem_init` returns, if kernel memory does not reach the last 16K page of the address
space. -/
lemma armKmemInit_returns (hend : y.kmemEnd.toNat + 16384 ≤ 2 ^ 32) (m : Word → Word)
    (hf : 2 ^ 32 ≤ fuel) : ∃ s, armKmemInit fuel y m = some s := by
  have hend16 : y.end16k.toNat ≤ y.kmemEnd.toNat := by
    rw [ArmLayout.end16k, sub_and_mask]
    omega
  have hsize : 0 < (16384 : Word).toNat := by decide
  have hlim : y.end16k.toNat + (16384 : Word).toNat ≤ 2 ^ 32 := by
    have h16384 : (16384 : Word).toNat = 16384 := rfl
    omega
  have hfuel : y.end16k.toNat - y.start16k.toNat < fuel := by
    have := y.kmemEnd.isLt
    omega
  obtain ⟨⟨pgp, num16, m₁⟩, h₁⟩ := linkPages_returns hsize hlim y.freelist16k 0
    (Function.update m y.freelist16k y.start16k) hfuel
  have hstart : (y.start16k).toNat + 1024 ≤ 2 ^ 32 := by
    rw [ArmLayout.start16k, sub_and_mask]
    have := y.kmemStart.isLt
    omega
  have hbits := and_not_mask_le y.kmemEnd
  have hbits' : (y.kmemEnd &&& ~~~kmem1kMask).toNat + 1024 ≤ 2 ^ 32 := by omega
  have hfuel' : ∀ pg : Word, (y.kmemEnd &&& ~~~kmem1kMask).toNat - pg.toNat < fuel := by
    intro pg
    have := y.kmemEnd.isLt
    omega
  have hbehind : ∀ num1 m, ∃ r, (if y.end16k < y.kmemEnd then
        insertFront y fuel y.end16k y.kmemEnd num1 m
      else pure (num1, m)) = some r := by
    intro num1 m
    split
    · exact insertFront_returns y.end16k num1 m (by omega) hf
    · exact ⟨_, rfl⟩
  have hfill : ∀ m, ∃ r, fill1k y fuel m = some r := by
    intro m
    simp only [fill1k, Option.bind_eq_bind]
    split
    · obtain ⟨⟨num1, m₂⟩, hr⟩ := insertFront_returns (y := y) y.kmemStart 0
        (Function.update m y.freelist1k 0) hstart hf
      rw [hr, Option.bind_some]
      exact hbehind num1 m₂
    · exact hbehind 0 _
  simp only [armKmemInit, h₁, Option.bind_eq_bind, Option.bind_some]
  obtain ⟨r, hr⟩ := hfill (move16kTo4k y (num16 * 1 / 1) (setNextPage m₁ pgp 0)).2.2
  obtain ⟨arr, harr⟩ := freeBits_returns hbits'
    ((((y.kmemStart + kmem1kMask) &&& ~~~kmem1kMask) - (y.cpaddr &&& ~~~kmem1kMask)) >>> 10)
    (fun _ => 0xff) (hfuel' ((y.kmemStart + kmem1kMask) &&& ~~~kmem1kMask))
  simp only [hr, harr, Option.bind_some, pure]
  exact ⟨_, rfl⟩

/-! ### The bits after `kmem_init` -/

/-- The loop clears none of the lower four bits of a byte. -/
lemma freeBits_low {i : Word} {arr arr' : Nat → BitVec 8}
    (h : freeBits lim fuel pg i arr = some arr') (hl : ∀ b, arr b &&& 0x0f = 0x0f) :
    ∀ b, arr' b &&& 0x0f = 0x0f := by
  induction fuel generalizing pg i arr with
  | zero => simp [freeBits] at h
  | succ fuel ih =>
      rw [freeBits] at h
      split at h
      · refine ih h fun b => ?_
        by_cases hb : b = (i >>> 3).toNat
        · subst hb
          have hk : (i &&& 3).toNat < 4 := by
            have h3 : (3 : Word).toNat = 2 ^ 2 - 1 := by decide
            rw [BitVec.toNat_and, h3, Nat.and_two_pow_sub_one_eq_mod]
            omega
          have hlow : ∀ k < 4, (0x0f : BitVec 8) &&& ~~~ ((0x80 : BitVec 8) >>> k) = 0x0f := by
            decide
          rw [Function.update_self, BitVec.and_assoc, BitVec.and_comm (~~~ _), ← BitVec.and_assoc,
            hl, hlow _ hk]
        · rw [Function.update_of_ne hb]
          exact hl b
      · obtain rfl := Option.some.inj h
        exact hl

/-- A 16K page starts with a 4K page that has the lower bits of its byte. -/
lemma start16k_aligned (y : ArmLayout) : y.start16k &&& 0xfff = 0 ∧ markBits y.start16k = 0x0f := by
  have hand : ∀ k : Word, k &&& kmem16kMask = k → y.start16k &&& k = 0 := by
    intro k hk
    have hmod : y.start16k &&& kmem16kMask = 0 := by
      refine BitVec.eq_of_toNat_eq ?_
      have hmask : kmem16kMask.toNat = 2 ^ 14 - 1 := by decide
      have hzero : (0 : Word).toNat = 0 := rfl
      rw [BitVec.toNat_and, hmask, Nat.and_two_pow_sub_one_eq_mod, ArmLayout.start16k,
        sub_and_mask, hzero]
      omega
    rw [← hk, BitVec.and_comm k, ← BitVec.and_assoc, hmod]
    exact BitVec.zero_and
  refine ⟨hand 0xfff (by decide), ?_⟩
  rw [markBits, if_neg (not_not_intro (hand 0x1000 (by decide)))]

/-- The first 4K page is marked. -/
lemma marked_start16k {s : ArmKmem} (hs : armKmemInit fuel y m = some s) :
    Marked y s y.start16k := by
  have hlow : s.allocArray (markByte y y.start16k) &&& 0x0f = 0x0f := by
    simp only [armKmemInit, Option.bind_eq_bind, Option.bind_eq_some_iff, pure] at hs
    obtain ⟨_, _, _, _, arr, harr, hs⟩ := hs
    obtain rfl := Option.some.inj hs
    exact freeBits_low harr (fun _ => by decide) _
  rw [Marked, (start16k_aligned y).2, hlow]
  decide

/-- **`kmem_init` marks pages that are free.**  Whatever kernel memory there is, if it has a
16K page: the first 4K page of it is marked, and no page is allocated. -/
theorem armKmemInit_marked (y : ArmLayout) (m : Word → Word) (hy : y.start16k < y.end16k)
    (hend : y.kmemEnd.toNat + 16384 ≤ 2 ^ 32) :
    ∀ fuel, 2 ^ 32 ≤ fuel → ∃ s, armKmemInit fuel y m = some s ∧ ¬ MarksLive y s [] := by
  intro fuel hf
  obtain ⟨s, hs⟩ := armKmemInit_returns hend m hf
  refine ⟨s, hs, fun hmarks => ?_⟩
  have hmark := hmarks y.start16k (start16k_aligned y).1 (BitVec.le_refl _) hy
  exact List.not_mem_nil (hmark.mp (marked_start16k hs))

/-- Kernel memory that starts within a 16K page. -/
theorem armKmemInit_marked_unaligned :
    ∃ s, armKmemInit (2 ^ 32) ⟨0x9400, 0x12c00, 0, 0x100, 0x104, 0x108⟩ (fun _ => 0) = some s ∧
      ¬ MarksLive ⟨0x9400, 0x12c00, 0, 0x100, 0x104, 0x108⟩ s [] :=
  armKmemInit_marked _ _ (by decide) (by decide) _ (Nat.le_refl _)

/-- 32K of kernel memory from 32K on. -/
def smallLayout : ArmLayout := ⟨0x8000, 0x10000, 0, 0x100, 0x104, 0x108⟩

/-- The page at 32K is free, and marked. -/
theorem arm_free_page_marked :
    ∃ s, armKmemInit (2 ^ 32) smallLayout (fun _ => 0) = some s ∧ Marked smallLayout s 0x8000 ∧
      ¬ MarksLive smallLayout s [] := by
  obtain ⟨s, hs⟩ := armKmemInit_returns (y := smallLayout) (by decide) (fun _ => 0) (Nat.le_refl _)
  have hmark : Marked smallLayout s 0x8000 := marked_start16k hs
  refine ⟨s, hs, hmark, fun hmarks => ?_⟩
  have hlive := hmarks 0x8000 (by decide) (by decide) (by decide)
  exact List.not_mem_nil (hlive.mp hmark)

end Hazelnut
