import Mathlib.Data.Nat.Bitwise
import Hazelnut.Memory.KmemSafe

/-!
What `kmem_alloc` finds.

* `HasRun`: adjacent free chunks at an address that is aligned to their size.
* `checkRun_run`, `allocScan_found`: the search succeeds at a run that has a free chunk behind it.
* `kmemAlloc_complete_iff`: the requests that are served as they should be.
-/

namespace Hazelnut

variable {k k' : Kmem} {b c n i j x : Nat} {l u v w : List Nat} {o : Option Word}

/-- The chunks from `c` on, `n` of them, are free, and `n` divides the number of the first. -/
def HasRun (l : List Nat) (n c : Nat) : Prop := n ∣ c ∧ ∀ y, c ≤ y → y < c + n → y ∈ l

/-- A block that is returned is a run of free chunks; null is returned if there is no such run, and
then nothing changes. -/
def AllocComplete (k : Kmem) (l : List Nat) (n : Nat) : Prop :=
  ∃ p k', kmemAlloc kmemFuel (chunkAddr n) k = some (p, k') ∧
    ((∃ c, HasRun l n c) → ∃ c, HasRun l n c ∧ p = chunkAddr c ∧ p ≠ 0) ∧
    ((¬∃ c, HasRun l n c) → p = 0 ∧ k' = k)

/-- The test of alignment. -/
lemma aligned_iff (hj : j < 22) (hc : c < 2 ^ 22) :
    chunkAddr c &&& (chunkAddr (2 ^ j) - 1) = 0 ↔ 2 ^ j ∣ c := by
  have hlt : (2 : Nat) ^ j < 2 ^ 22 := Nat.pow_lt_pow_right (by omega) hj
  have hpow : 1024 * 2 ^ j = 2 ^ (10 + j) := by rw [Nat.pow_add]
  have hmask : (chunkAddr (2 ^ j) - 1).toNat = 2 ^ (10 + j) - 1 := by
    have hpos : 0 < (2 : Nat) ^ j := Nat.two_pow_pos j
    have hone : (1 : Word).toNat = 1 := rfl
    rw [BitVec.toNat_sub_of_le, chunkAddr_toNat hlt, hpow, hone]
    rw [BitVec.le_def, chunkAddr_toNat hlt, hone]
    omega
  have hzero : (0 : Word).toNat = 0 := rfl
  rw [← BitVec.toNat_inj, BitVec.toNat_and, hmask, Nat.and_two_pow_sub_one_eq_mod,
    chunkAddr_toNat hc,
    hzero, ← Nat.dvd_iff_mod_eq_zero, ← hpow]
  exact Nat.mul_dvd_mul_iff_left (by omega)

/-! ### Runs in an ascending list -/

lemma Ascending.length_lt (h : Ascending l) : l.length < kmemFuel := by
  have h1 : l ⊆ List.range' 1 (2 ^ 22 - 1) := fun x hx => by
    have h2 := h.2 x hx
    exact List.mem_range'_1.mpr ⟨h2.1, by have := h2.2; omega⟩
  have h2 := (List.subperm_of_subset (h.1.imp Nat.ne_of_lt) h1).length_le
  rw [List.length_range'] at h2
  unfold kmemFuel
  omega

/-- Adjacent members of an ascending list are neighbours in it. -/
lemma run_split (h : l.Pairwise (· < ·)) (hrun : ∀ y, c ≤ y → y < c + n → y ∈ l) :
    ∃ u v, l = u ++ (List.range' c n ++ v) ∧ (∀ y ∈ u, y < c) ∧ ∀ y, y ∈ v ↔ y ∈ l ∧ c + n ≤ y := by
  have hu : ∀ y, y ∈ l.filter (· < c) ↔ y ∈ l ∧ y < c := fun y => by simp
  have hv : ∀ y, y ∈ l.filter (c + n ≤ ·) ↔ y ∈ l ∧ c + n ≤ y := fun y => by simp
  have hasc : (l.filter (· < c) ++ (List.range' c n ++ l.filter (c + n ≤ ·))).Pairwise (· < ·) := by
    refine List.pairwise_append.mpr ⟨h.filter _, List.pairwise_append.mpr
      ⟨List.pairwise_lt_range' .., h.filter _, fun y hy z hz => ?_⟩, fun y hy z hz => ?_⟩
    · have h1 := List.mem_range'_1.mp hy
      have h2 := ((hv z).mp hz).2
      omega
    · have h1 := ((hu y).mp hy).2
      rcases List.mem_append.mp hz with hz | hz
      · have h2 := List.mem_range'_1.mp hz
        omega
      · have h2 := ((hv z).mp hz).2
        omega
  refine ⟨l.filter (· < c), l.filter (c + n ≤ ·), ?_, fun y hy => ((hu y).mp hy).2, hv⟩
  refine List.Perm.eq_of_pairwise (fun a b _ _ h1 h2 => by omega) h hasc ?_
  refine (List.perm_ext_iff_of_nodup (h.imp Nat.ne_of_lt) (hasc.imp Nat.ne_of_lt)).mpr fun y => ?_
  rw [List.mem_append, List.mem_append, hu, hv, List.mem_range'_1]
  constructor
  · intro hy
    rcases Nat.lt_or_ge y c with h1 | h1
    · exact .inl ⟨hy, h1⟩
    · rcases Nat.lt_or_ge y (c + n) with h2 | h2
      · exact .inr (.inl ⟨h1, h2⟩)
      · exact .inr (.inr ⟨hy, h2⟩)
  · rintro (⟨hy, -⟩ | ⟨h1, h2⟩ | ⟨hy, -⟩)
    · exact hy
    · exact hrun y h1 h2
    · exact hy

/-! ### The search -/

/-- **The inner loop** succeeds at a run that has a free chunk behind it. -/
lemma checkRun_run (h : FreeList k o (List.range' (c + i) n ++ x :: l)) :
    checkRun k (chunkAddr c) n i (k.get o) = chunkAddr x := by
  induction n generalizing i o with
  | zero => exact (freeList_cons.mp h).1
  | succ n ih =>
      rw [List.range'_succ, List.cons_append] at h
      obtain ⟨h1, h2, h3⟩ := freeList_cons.mp h
      have hmul : kmemChunksize * BitVec.ofNat 32 i = chunkAddr i := by
        rw [chunkAddr, BitVec.ofNat_mul]
        rfl
      rw [checkRun, h1, if_neg h2, hmul, chunkAddr_add, if_neg (not_not.mpr rfl)]
      exact ih (by rwa [Nat.add_assoc] at h3)

/-- **The outer loop** finds a block if there is a run with a free chunk behind it. -/
lemma allocScan_found {fuel : Nat} (h : FreeList k none (u ++ v)) (ha : Ascending (u ++ v))
    (hn : 0 < n) (hn' : n < 2 ^ 22) (hf : v.length < fuel)
    (hv : v = w ++ (List.range' c n ++ x :: l)) (hal : chunkAddr c &&& (chunkAddr n - 1) = 0) :
    ∃ p k', allocScan (chunkAddr n) k fuel (linkBehind u) (k.get (linkBehind u)) = some (p, k') ∧
      p ≠ 0 := by
  -- on the chunks in front of the run
  induction w generalizing u v fuel with
  | nil =>
      obtain ⟨f, rfl⟩ := Nat.exists_eq_succ_of_ne_zero (Nat.ne_of_gt (Nat.zero_lt_of_lt hf))
      obtain ⟨m, rfl⟩ := Nat.exists_eq_succ_of_ne_zero (Nat.ne_of_gt hn)
      rw [List.nil_append, List.range'_succ, List.cons_append] at hv
      subst hv
      obtain ⟨hc, hc0, hrest⟩ := freeList_cons.mp h.behind
      have hrun : checkRun k (chunkAddr c) m 1 (k.mem (chunkAddr c)) = chunkAddr x :=
        checkRun_run hrest
      have hx : chunkAddr x ≠ 0 := chunkAddr_ne_zero (ha.2 x (by simp))
      rw [allocScan, hc, if_neg hc0, if_pos hal, chunkAddr_div hn', Nat.succ_eq_add_one,
        Nat.add_sub_cancel]
      dsimp only
      rw [hrun, if_pos hx]
      exact ⟨_, _, rfl, hc0⟩
  | cons b w ih =>
      obtain ⟨f, rfl⟩ := Nat.exists_eq_succ_of_ne_zero (Nat.ne_of_gt (Nat.zero_lt_of_lt hf))
      rw [List.cons_append] at hv
      subst hv
      obtain ⟨hb, hb0, -⟩ := freeList_cons.mp h.behind
      have hlen : (w ++ (List.range' c n ++ x :: l)).length < f := by simpa using hf
      have hrest := ih (u := u ++ [b]) (v := w ++ (List.range' c n ++ x :: l)) (by simpa using h)
        (by simpa using ha) hlen rfl
      rw [linkBehind_concat] at hrest
      rw [allocScan, hb, if_neg hb0]
      dsimp only
      split
      · split
        · exact ⟨_, _, rfl, hb0⟩
        · exact hrest
      · exact hrest

/-- **The requests that are served.**  On a free list in ascending order, a request for `2 ^ j`
chunks is served as it should be just when there is no suitable run of free chunks, or one that a
free chunk lies behind: a run at the very end of the list is not taken. -/
theorem kmemAlloc_complete_iff (h : FreeList k none l) (ha : Ascending l) (hj : j < 22) :
    AllocComplete k l (2 ^ j) ↔
      ((∃ c, HasRun l (2 ^ j) c) → ∃ c, HasRun l (2 ^ j) c ∧ ∃ x ∈ l, c + 2 ^ j ≤ x) := by
  have hpos : 0 < (2 : Nat) ^ j := Nat.two_pow_pos j
  have hlt : (2 : Nat) ^ j < 2 ^ 22 := Nat.pow_lt_pow_right (by omega) hj
  have hfound := allocScan_spec (u := []) (v := l) h ha hpos hlt ha.length_lt
  -- a run that is found has a chunk behind it
  have hrun : ∀ {u c x v}, l = u ++ (List.range' c (2 ^ j) ++ x :: v) →
      chunkAddr c &&& (chunkAddr (2 ^ j) - 1) = 0 →
      HasRun l (2 ^ j) c ∧ c + 2 ^ j ≤ x ∧ x ∈ l ∧ IsChunk c := by
    intro u c x v hl hal
    subst hl
    have hc : IsChunk c := ha.2 c (by simp [List.mem_range'_1, hpos])
    refine ⟨⟨(aligned_iff hj hc.2).mp hal, fun y h1 h2 => ?_⟩, (ha.split hpos).2.1, by simp, hc⟩
    exact List.mem_append_right _ (List.mem_append_left _ (List.mem_range'_1.mpr ⟨h1, h2⟩))
  constructor
  · rintro ⟨p, k', halloc, hsome, -⟩ hex
    obtain ⟨-, -, -, hp⟩ := hsome hex
    rcases hfound with hnone | ⟨u, c, x, v, hl, hal, -⟩
    · have h1 : p = 0 := by
        have h2 := halloc.symm.trans hnone
        simp only [Option.some.injEq, Prod.mk.injEq] at h2
        exact h2.1
      exact absurd h1 hp
    · obtain ⟨h1, h2, h3, -⟩ := hrun hl hal
      exact ⟨c, h1, x, h3, h2⟩
  · intro hcond
    by_cases hex : ∃ c, HasRun l (2 ^ j) c
    · obtain ⟨c, hc, x, hx, hcx⟩ := hcond hex
      obtain ⟨u, v, hl, -, hv⟩ := run_split ha.1 hc.2
      obtain ⟨y, v', rfl⟩ := List.exists_cons_of_ne_nil (List.ne_nil_of_mem ((hv x).mpr ⟨hx, hcx⟩))
      have hc0 : IsChunk c := ha.2 c (hc.2 c le_rfl (by omega))
      obtain ⟨p, k', halloc, hp⟩ := allocScan_found (u := []) h ha hpos hlt ha.length_lt hl
        ((aligned_iff hj hc0.2).mpr hc.1)
      refine ⟨p, k', halloc, fun _ => ?_, fun hno => absurd hex hno⟩
      rcases hfound with hnone | ⟨u', c', x', w', hl', hal', hsome⟩
      · have h1 := halloc.symm.trans hnone
        simp only [Option.some.injEq, Prod.mk.injEq] at h1
        exact absurd h1.1 hp
      · have h1 := halloc.symm.trans hsome
        simp only [Option.some.injEq, Prod.mk.injEq] at h1
        exact ⟨c', (hrun hl' hal').1, h1.1, hp⟩
    · rcases hfound with hnone | ⟨u, c, x, v, hl, hal, -⟩
      · exact ⟨0, k, hnone, fun h1 => absurd h1 hex, fun _ => ⟨rfl, rfl⟩⟩
      · exact absurd ⟨c, (hrun hl hal).1⟩ hex

/-- Two free chunks, at 1 KB. -/
def twoChunks : Kmem := ⟨fun p => if p = chunkAddr 1 then chunkAddr 2 else 0, chunkAddr 1, 2⟩

/-- The first of two free chunks is handed out. -/
theorem kmemAlloc_complete_two : FreeList twoChunks none [1, 2] ∧
    AllocComplete twoChunks [1, 2] (2 ^ 0) := by
  have hl : FreeList twoChunks none [1, 2] := by
    refine freeList_cons.mpr ⟨rfl, by decide, freeList_cons.mpr ⟨by decide, by decide, ?_⟩⟩
    exact Chain.isChain_nil.mpr (by decide)
  have ha : Ascending [1, 2] := by
    refine ⟨by simp, fun x hx => ?_⟩
    simp only [List.mem_cons, List.not_mem_nil, or_false] at hx
    exact ⟨by omega, by omega⟩
  refine ⟨hl, (kmemAlloc_complete_iff hl ha (by omega)).mpr fun _ => ⟨1, ⟨one_dvd _, ?_⟩, 2,
    by simp, le_rfl⟩⟩
  intro y h1 h2
  obtain rfl : y = 1 := by omega
  simp

/-- One free chunk, at 1 KB. -/
def oneChunk : Kmem := ⟨fun _ => 0, chunkAddr 1, 1⟩

lemma oneChunk_list : FreeList oneChunk none [1] ∧ Ascending [1] := by
  refine ⟨freeList_cons.mpr ⟨rfl, by decide, Chain.isChain_nil.mpr rfl⟩, by simp, ?_⟩
  intro x hx
  obtain rfl : x = 1 := by simpa using hx
  exact ⟨by omega, by omega⟩

/-- A request for the only free chunk is refused. -/
theorem kmemAlloc_refused : FreeList oneChunk none [1] ∧ Ascending [1] ∧ HasRun [1] (2 ^ 0) 1 ∧
    kmemAlloc kmemFuel (chunkAddr (2 ^ 0)) oneChunk = some (0, oneChunk) ∧
    ¬AllocComplete oneChunk [1] (2 ^ 0) := by
  have hrun : HasRun [1] (2 ^ 0) 1 := ⟨one_dvd _, fun y h1 h2 => by
    rw [List.mem_singleton]
    omega⟩
  have hnull : kmemAlloc kmemFuel (chunkAddr (2 ^ 0)) oneChunk = some (0, oneChunk) := by
    rw [kmemAlloc, show kmemFuel = (2 ^ 22 - 2) + 1 + 1 from rfl, allocScan, if_neg (by decide),
      if_pos (by decide)]
    rfl
  refine ⟨oneChunk_list.1, oneChunk_list.2, hrun, hnull, ?_⟩
  rintro ⟨p, k', h1, h2, -⟩
  obtain ⟨-, -, -, hp⟩ := h2 ⟨1, hrun⟩
  have h3 := h1.symm.trans hnull
  simp only [Option.some.injEq, Prod.mk.injEq] at h3
  exact hp h3.1

end Hazelnut
