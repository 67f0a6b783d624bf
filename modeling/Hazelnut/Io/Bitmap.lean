import Hazelnut.Io.Node

/-!
The ranges of ports that `zero_iopbm` and `set_iopbm` of `kernel/src/x86/io_mapping.c` work on.

* `rangeMask`: the bits of a range in every dword of a bitmap; `getLsbD_rangeMask` says which ones
  they are.
* `setBits_apply`, `zeroBits_apply`, `freshBits_apply`: what the three pieces of code make of a
  dword, by the mask.  The first dword, those the loop fills and the last one are three cases of
  each.
* `iopbm_ranges`: the bits of the ports, and the two branches of `zero_iopbm`.
-/

namespace Hazelnut.Io

namespace Iopbm

variable {bm mem : Iopbm} {v : Word} {port size i j k b c o : Nat}

/-- The bit of a port. -/
def bit (bm : Iopbm) (i : Nat) : Bool := (bm (i / 32)).getLsbD (i % 32)

/-! ### The masks -/

/-- The bits from `o` on of a dword, `c` of them. -/
lemma getLsbD_partMask (hb : b < 32) (hc : o + c ≤ 32) :
    ((BitVec.allOnes 32 >>> (32 - c)) <<< o).getLsbD b = decide (o ≤ b ∧ b < o + c) := by
  rw [BitVec.getLsbD_shiftLeft, BitVec.getLsbD_ushiftRight, BitVec.getLsbD_allOnes]
  by_cases ho : b < o
  · have hob : ¬(o ≤ b ∧ b < o + c) := by omega
    simp [ho, hob]
  · have hiff : (32 - c + (b - o) < 32) ↔ (o ≤ b ∧ b < o + c) := by omega
    simp [ho, hb, hiff]

lemma getLsbD_lowMask (hc : c ≤ 32) :
    (BitVec.allOnes 32 >>> (32 - c)).getLsbD b = decide (b < c) := by
  rw [BitVec.getLsbD_ushiftRight, BitVec.getLsbD_allOnes]
  exact decide_eq_decide.mpr (by omega)

/-- The number of bits in the first dword of a range. -/
def firstCount (port size : Nat) : Nat := min size (32 - port % 32)

/-- The bits of a range of ports in dword `j`. -/
def rangeMask (port size j : Nat) : Word :=
  let rest := size - firstCount port size
  if j = port / 32 then (BitVec.allOnes 32 >>> (32 - firstCount port size)) <<< (port % 32)
  else if port / 32 < j ∧ j < port / 32 + 1 + rest / 32 then BitVec.allOnes 32
  else if j = port / 32 + 1 + rest / 32 then
    if rest % 32 ≠ 0 then BitVec.allOnes 32 >>> (32 - rest % 32) else 0
  else 0

lemma getLsbD_rangeMask (hb : b < 32) :
    (rangeMask port size j).getLsbD b = decide (port ≤ 32 * j + b ∧ 32 * j + b < port + size) := by
  have hcount : firstCount port size = min size (32 - port % 32) := rfl
  rw [rangeMask]
  split_ifs with hfirst hmid hlast hrest
  · rw [getLsbD_partMask hb (by omega)]
    exact decide_eq_decide.mpr (by omega)
  · rw [BitVec.getLsbD_allOnes]
    exact decide_eq_decide.mpr (by omega)
  · rw [getLsbD_lowMask (by omega)]
    exact decide_eq_decide.mpr (by omega)
  · rw [BitVec.ofNat_eq_ofNat, BitVec.getLsbD_zero]
    exact (decide_eq_false (by omega)).symm
  · rw [BitVec.ofNat_eq_ofNat, BitVec.getLsbD_zero]
    exact (decide_eq_false (by omega)).symm

/-! ### What the code makes of a dword -/

lemma fill_apply : fill v i k bm j = if i ≤ j ∧ j < i + k then v else bm j := by
  induction k generalizing i bm with
  | zero =>
    rw [fill, if_neg (by omega)]
  | succ k ih =>
    rw [fill, ih]
    by_cases hj : j = i
    · subst hj
      rw [if_neg (by omega), if_pos (by omega), Function.update_self]
    · by_cases hin : i + 1 ≤ j ∧ j < i + 1 + k
      · rw [if_pos hin, if_pos (by omega)]
      · rw [if_neg hin, if_neg (by omega), Function.update_of_ne hj]

/-- The dword behind those of the loop still has its bits. -/
lemma fill_last {x : Word} :
    fill v (i + 1) k (Function.update bm i x) (i + 1 + k) = bm (i + 1 + k) := by
  rw [fill_apply, if_neg (by omega), Function.update_of_ne (by omega)]

/-- A first dword, `k` that the loop fills, and a last one if `c` bits are left. -/
lemma pieces_apply {x y : Word} :
    (if c ≠ 0 then
      Function.update (fill v (i + 1) k (Function.update bm i x)) (i + 1 + k) y
    else fill v (i + 1) k (Function.update bm i x)) j =
      if j = i then x else if i < j ∧ j < i + 1 + k then v
      else if j = i + 1 + k then if c ≠ 0 then y else bm j else bm j := by
  have hfill : ∀ {j}, j ≠ i + 1 + k → fill v (i + 1) k (Function.update bm i x) j =
      if j = i then x else if i < j ∧ j < i + 1 + k then v else bm j := by
    intro j hj
    rw [fill_apply, Function.update_apply]
    split_ifs <;> first | rfl | omega
  by_cases hj : j = i + 1 + k
  · have hji : ¬j = i := by omega
    have hin : ¬(i < j ∧ j < i + 1 + k) := by omega
    rw [if_neg hji, if_neg hin, if_pos hj, hj]
    split_ifs with hc
    · rw [Function.update_self]
    · exact fill_last
  · rw [if_neg hj]
    split_ifs with hc
    all_goals first | rw [Function.update_of_ne hj, hfill hj] | rw [hfill hj]
    all_goals simp [*]

lemma setBits_apply : setBits port size bm j = bm j ||| rangeMask port size j := by
  rw [setBits, rangeMask, ← firstCount, pieces_apply, fill_last]
  split_ifs with hfirst hmid hlast hrest
  · rw [hfirst]
  · exact BitVec.or_allOnes.symm
  · rw [hlast]
  · exact BitVec.or_zero.symm
  · exact BitVec.or_zero.symm

lemma zeroBits_apply : zeroBits port size bm j = bm j &&& ~~~rangeMask port size j := by
  rw [zeroBits, rangeMask, ← firstCount, pieces_apply, fill_last]
  split_ifs with hfirst hmid hlast hrest
  · rw [hfirst]
  · rw [BitVec.not_allOnes]
    exact BitVec.and_zero.symm
  · rw [hlast]
  · exact BitVec.and_allOnes.symm
  · exact BitVec.and_allOnes.symm

lemma freshBits_apply (hj : j < 2048) :
    freshBits port size mem j = ~~~rangeMask port size j := by
  have hcount : firstCount port size = min size (32 - port % 32) := rfl
  rw [freshBits, rangeMask, ← firstCount, fill_apply, pieces_apply, fill_apply]
  generalize hr : size - firstCount port size = rest
  split_ifs <;> first | omega | simp

/-! ### Ports -/

/-- The ports of a range. -/
def inRange (port size i : Nat) : Bool := decide (port ≤ i ∧ i < port + size)

lemma getLsbD_rangeMask_port :
    (rangeMask port size (i / 32)).getLsbD (i % 32) = inRange port size i := by
  rw [getLsbD_rangeMask (Nat.mod_lt i (by decide)), Nat.div_add_mod, inRange]

lemma bit_setBits : (setBits port size bm).bit i = (bm.bit i || inRange port size i) := by
  rw [bit, setBits_apply, BitVec.getLsbD_or, getLsbD_rangeMask_port, bit]

lemma bit_zeroBits : (zeroBits port size bm).bit i = (bm.bit i && !inRange port size i) := by
  have hi : i % 32 < 32 := Nat.mod_lt i (by decide)
  rw [bit, zeroBits_apply, BitVec.getLsbD_and, BitVec.getLsbD_not, getLsbD_rangeMask_port, bit,
    decide_eq_true hi, Bool.true_and]

/-- A range that ends within the bitmap has no bits behind it. -/
lemma rangeMask_of_ge (h : port + size ≤ 65536) (hj : 2048 ≤ j) : rangeMask port size j = 0 := by
  refine BitVec.eq_of_getLsbD_eq fun b hb => ?_
  rw [getLsbD_rangeMask hb, decide_eq_false (by omega)]
  exact BitVec.getLsbD_zero.symm

lemma setBits_of_ge (h : port + size ≤ 65536) (hj : 2048 ≤ j) : setBits port size bm j = bm j := by
  rw [setBits_apply, rangeMask_of_ge h hj]
  exact BitVec.or_zero

lemma zeroBits_of_ge (h : port + size ≤ 65536) (hj : 2048 ≤ j) :
    zeroBits port size bm j = bm j := by
  rw [zeroBits_apply, rangeMask_of_ge h hj]
  exact BitVec.and_allOnes

/-- The two branches of `zero_iopbm` agree. -/
lemma freshBits_eq (hbm : ∀ j < 2048, bm j = BitVec.allOnes 32) (hj : j < 2048) :
    freshBits port size mem j = zeroBits port size bm j := by
  rw [freshBits_apply hj, zeroBits_apply, hbm j hj, BitVec.allOnes_and]

end Iopbm

open Iopbm

/-- **The ranges are exact**: `zero_iopbm` and `set_iopbm` change the bits of the ports of the
range, and within the bitmap; `zero_iopbm` of a task with the default bitmap leaves it with what the
same range makes of a copy of that one. -/
theorem iopbm_ranges (s : IoMdb) (tid port size : Word) (hsize : 1 ≤ size.toNat)
    (hlast : port.toNat + size.toNat ≤ 65536) :
    (∀ bm, s.iopbm tid = some bm →
      (∃ bm', (zeroIopbm tid port size).run s
          = .ok ((), { s with iopbm := Function.update s.iopbm tid (some bm') }) ∧
        (∀ i, bm'.bit i = (bm.bit i && !inRange port.toNat size.toNat i)) ∧
        ∀ j, 2048 ≤ j → bm' j = bm j) ∧
      ∃ bm', (setIopbm tid port size).run s
          = .ok ((), { s with iopbm := Function.update s.iopbm tid (some bm') }) ∧
        (∀ i, bm'.bit i = (bm.bit i || inRange port.toNat size.toNat i)) ∧
        ∀ j, 2048 ≤ j → bm' j = bm j) ∧
    (s.iopbm tid = none →
      (∃ bm', (setIopbm tid port size).run s = .ok ((), { s with defaultIopbm := bm' }) ∧
        ∀ i, bm'.bit i = (s.defaultIopbm.bit i || inRange port.toNat size.toNat i)) ∧
      ∀ k, s.pages = k + 1 → (∀ j < 2048, s.defaultIopbm j = BitVec.allOnes 32) →
        ∃ bm', (zeroIopbm tid port size).run s
            = .ok ((), { s with iopbm := Function.update s.iopbm tid (some bm'), pages := k }) ∧
          ∀ j < 2048, bm' j = s.defaultIopbm.zeroBits port.toNat size.toNat j) ∧
    (∀ mem bm : Iopbm, (∀ j < 2048, bm j = BitVec.allOnes 32) → ∀ j < 2048,
      freshBits port.toNat size.toNat mem j = bm.zeroBits port.toNat size.toNat j) ∧
    32 - firstCount port.toNat size.toNat < 32 := by
  have hcount : firstCount port.toNat size.toNat = min size.toNat (32 - port.toNat % 32) := rfl
  refine ⟨fun bm hbm => ⟨?_, ?_⟩, fun hnone => ⟨?_, fun k hk hd => ?_⟩,
    fun mem bm hbm j hj => freshBits_eq hbm hj, by omega⟩
  · refine ⟨bm.zeroBits port.toNat size.toNat, ?_, fun i => bit_zeroBits,
      fun j hj => zeroBits_of_ge hlast hj⟩
    rw [StateT.run, zeroIopbm, hbm]
  · refine ⟨bm.setBits port.toNat size.toNat, ?_, fun i => bit_setBits,
      fun j hj => setBits_of_ge hlast hj⟩
    rw [setIopbm, StateT.run_modify, hbm]
    rfl
  · refine ⟨s.defaultIopbm.setBits port.toNat size.toNat, ?_, fun i => bit_setBits⟩
    rw [setIopbm, StateT.run_modify, hnone]
    rfl
  · refine ⟨fresh port.toNat size.toNat, ?_, fun j hj => freshBits_eq hd hj⟩
    rw [StateT.run, zeroIopbm, hnone, hk]

/-- The keyboard controller, whose ports lie in one dword. -/
theorem iopbm_ranges_keyboard :
    freshBits (0x60 : Word).toNat (5 : Word).toNat (fun _ => 0) 3
      = zeroBits (0x60 : Word).toNat (5 : Word).toNat (fun _ => BitVec.allOnes 32) 3 := by
  have h := iopbm_ranges
    ⟨fun _ => ⟨0, 0, 0, 0, 0, 0, 0⟩, [],
    fun _ => 0, fun _ => none, fun _ => BitVec.allOnes 32, 0, []⟩
    0 0x60 5 (by decide) (by decide)
  exact h.2.2.1 (fun _ => 0) _ (fun _ _ => rfl) 3 (by decide)

end Hazelnut.Io
