import Mathlib.Tactic.Ring
import Hazelnut.Thread.MapItem

/-!
The window of `map_fpage` of `kernel/src/memory.c`: the addresses it computes from the send base and
the two flexpages.

* `toNat_and_not_lowOnes`, `toNat_and_lowOnes`: the two masks, as division and remainder.
* `mapFpage_window`: the addresses the loop over the page tables is entered with.
* `toNat_sendAddr`, `toNat_rcvAddr`: the addresses as numbers.  The bits of the base between the two
  sizes select a position in the receive flexpage.
-/

namespace Hazelnut

variable {S : Type} {a b base base' snd rcv : Word} {n i : Nat}

/-! ### The masks -/

lemma getLsbD_lowOnes (h0 : 0 < n) (hn : n ≤ 32) : (lowOnes n).getLsbD i = decide (i < n) := by
  have hs : (64 - n) % 32 = 32 - n := by omega
  change (BitVec.ofNat 32 ((2 ^ 32 - 1) >>> ((64 - n) % 32))).getLsbD i = _
  rw [hs, BitVec.getLsbD_ofNat, Nat.testBit_shiftRight, Nat.testBit_two_pow_sub_one,
    ← Bool.decide_and]
  exact decide_eq_decide.mpr (by omega)

/-- `x & ~(~0 >> (32 - n))` is `x`, aligned down to `2 ^ n`. -/
lemma toNat_and_not_lowOnes (h0 : 0 < n) (hn : n ≤ 32) :
    (a &&& ~~~lowOnes n).toNat = a.toNat / 2 ^ n * 2 ^ n := by
  refine Nat.eq_of_testBit_eq fun i => ?_
  rw [BitVec.testBit_toNat, BitVec.getLsbD_and, BitVec.getLsbD_not, getLsbD_lowOnes h0 hn,
    ← BitVec.testBit_toNat, Nat.mul_comm, Nat.testBit_two_pow_mul, Nat.testBit_div_two_pow]
  rcases Nat.lt_or_ge i n with hi | hi
  · have hin : ¬n ≤ i := by omega
    simp [hi, hin]
  · have hin : ¬i < n := by omega
    have hadd : i - n + n = i := by omega
    rw [hadd]
    by_cases hi32 : i < 32
    · simp [hi, hi32, hin]
    · have hz : a.getLsbD i = false := BitVec.getLsbD_of_ge _ _ (by omega)
      simp [BitVec.testBit_toNat, hz]

/-- `x & (~0 >> (32 - n))` are the bits of `x` below `n`. -/
lemma toNat_and_lowOnes (h0 : 0 < n) (hn : n ≤ 32) : (a &&& lowOnes n).toNat = a.toNat % 2 ^ n := by
  refine Nat.eq_of_testBit_eq fun i => ?_
  rw [BitVec.testBit_toNat, BitVec.getLsbD_and, getLsbD_lowOnes h0 hn, Nat.testBit_mod_two_pow,
    BitVec.testBit_toNat, Bool.and_comm]

section window

variable (h0 : 0 < fpageSize snd) (hle : fpageSize snd ≤ fpageSize rcv) (h32 : fpageSize rcv ≤ 32)

/-- `f_addr`, before the grant bit is put into it. -/
def sendAddr (snd : Word) : Word := flexAddress snd (fpageSize snd)

/-- `t_addr`. -/
def rcvAddr (base snd rcv : Word) : Word :=
  (flexAddress rcv (fpageSize snd) &&& ~~~baseMask rcv (fpageSize snd)) +
    (base &&& baseMask rcv (fpageSize snd))

/-- What the loop over the page tables is entered with. -/
lemma mapFpage_window {loop : MapLoop S} {fuel : Nat} {fromTid toTid : Word} {k : Mappings S}
    (hio : ¬isIoFpage snd) (h12 : 12 ≤ fpageSize snd) (hle : fpageSize snd ≤ fpageSize rcv) :
    mapFpage loop fuel fromTid toTid base snd rcv k =
      (loop fromTid toTid (if snd &&& 1 ≠ 0 then sendAddr snd ||| 1 else sendAddr snd)
        (rcvAddr base snd rcv) (fpageSize snd) snd k.space).map
          fun space => (1, { k with space := space }) := by
  have hp : ¬fpageSize snd < pgshift 0 := by
    have h : pgshift 0 = 12 := rfl
    omega
  rw [mapFpage, if_neg hio, if_pos hle]
  dsimp only
  rw [if_neg hp]
  rfl

include h0 hle h32

/-- Outside the two masks together only the bits from the receive size on are left. -/
lemma rcvBits_eq :
    flexAddress rcv (fpageSize snd) &&& ~~~baseMask rcv (fpageSize snd)
      = rcv &&& ~~~lowOnes (fpageSize rcv) := by
  refine BitVec.eq_of_getLsbD_eq fun i hi => ?_
  simp only [flexAddress, baseMask, BitVec.getLsbD_and, BitVec.getLsbD_not,
    getLsbD_lowOnes h0 (hle.trans h32), getLsbD_lowOnes (h0.trans_le hle) h32, hi]
  by_cases hs : i < fpageSize snd
  · have hr : i < fpageSize rcv := by omega
    simp [hs, hr]
  · simp [hs]

/-- The bits of the base between the two sizes. -/
lemma toNat_baseBits :
    (base &&& baseMask rcv (fpageSize snd)).toNat
      = base.toNat % 2 ^ fpageSize rcv / 2 ^ fpageSize snd * 2 ^ fpageSize snd := by
  rw [baseMask, ← BitVec.and_assoc, toNat_and_not_lowOnes h0 (hle.trans h32),
    toNat_and_lowOnes (h0.trans_le hle) h32]

omit hle h32 in
lemma toNat_sendAddr (hs : fpageSize snd ≤ 32) :
    (sendAddr snd).toNat = snd.toNat / 2 ^ fpageSize snd * 2 ^ fpageSize snd := by
  rw [sendAddr, flexAddress, toNat_and_not_lowOnes h0 hs]

omit h0 h32 in
/-- The window ends where the receive flexpage ends. -/
lemma rcvEnd_le :
    rcv.toNat / 2 ^ fpageSize rcv * 2 ^ fpageSize rcv
      + base.toNat % 2 ^ fpageSize rcv / 2 ^ fpageSize snd * 2 ^ fpageSize snd + 2 ^ fpageSize snd
      ≤ rcv.toNat / 2 ^ fpageSize rcv * 2 ^ fpageSize rcv + 2 ^ fpageSize rcv := by
  have hR : 2 ^ fpageSize rcv = 2 ^ (fpageSize rcv - fpageSize snd) * 2 ^ fpageSize snd := by
    rw [← pow_add]
    congr 1
    omega
  have hlt : base.toNat % 2 ^ fpageSize rcv / 2 ^ fpageSize snd
      < 2 ^ (fpageSize rcv - fpageSize snd) := by
    rw [Nat.div_lt_iff_lt_mul (Nat.two_pow_pos _), ← hR]
    exact Nat.mod_lt _ (Nat.two_pow_pos _)
  have hmul := Nat.mul_le_mul_right (2 ^ fpageSize snd) hlt
  rw [← hR, Nat.succ_mul] at hmul
  omega

omit h0 hle in
/-- The receive flexpage ends within the address space. -/
lemma rcvPage_le : rcv.toNat / 2 ^ fpageSize rcv * 2 ^ fpageSize rcv + 2 ^ fpageSize rcv ≤
    2 ^ 32 := by
  have hQ : 2 ^ 32 = 2 ^ (32 - fpageSize rcv) * 2 ^ fpageSize rcv := by
    rw [← pow_add]
    congr 1
    omega
  have hlt : rcv.toNat / 2 ^ fpageSize rcv < 2 ^ (32 - fpageSize rcv) := by
    rw [Nat.div_lt_iff_lt_mul (Nat.two_pow_pos _), ← hQ]
    exact rcv.isLt
  calc rcv.toNat / 2 ^ fpageSize rcv * 2 ^ fpageSize rcv + 2 ^ fpageSize rcv
      = (rcv.toNat / 2 ^ fpageSize rcv + 1) * 2 ^ fpageSize rcv := by ring
    _ ≤ 2 ^ (32 - fpageSize rcv) * 2 ^ fpageSize rcv := Nat.mul_le_mul_right _ hlt
    _ = 2 ^ 32 := hQ.symm

lemma toNat_rcvAddr :
    (rcvAddr base snd rcv).toNat
      = rcv.toNat / 2 ^ fpageSize rcv * 2 ^ fpageSize rcv
        + base.toNat % 2 ^ fpageSize rcv / 2 ^ fpageSize snd * 2 ^ fpageSize snd := by
  have hend := @rcvEnd_le base snd rcv hle
  have hpage := @rcvPage_le rcv h32
  have hpos := Nat.two_pow_pos (fpageSize snd)
  rw [rcvAddr, BitVec.toNat_add, rcvBits_eq h0 hle h32, toNat_baseBits h0 hle h32,
    toNat_and_not_lowOnes (h0.trans_le hle) h32, Nat.mod_eq_of_lt]
  exact Nat.lt_of_lt_of_le (Nat.lt_add_of_pos_right hpos) (hend.trans hpage)

lemma rcvAddr_aligned : 2 ^ fpageSize snd ∣ (rcvAddr base snd rcv).toNat := by
  rw [toNat_rcvAddr h0 hle h32]
  exact Nat.dvd_add (Dvd.dvd.mul_left (pow_dvd_pow 2 hle) _) (Nat.dvd_mul_left _ _)

omit h0 hle h32 in
/-- The bits that `rcvAddr` takes from the base. -/
lemma baseBits_eq_iff :
    base.toNat % 2 ^ fpageSize rcv / 2 ^ fpageSize snd
        = base'.toNat % 2 ^ fpageSize rcv / 2 ^ fpageSize snd ↔
      ∀ i, fpageSize snd ≤ i → i < fpageSize rcv → base.getLsbD i = base'.getLsbD i := by
  have hbit : ∀ (c : Word) j, (c.toNat % 2 ^ fpageSize rcv / 2 ^ fpageSize snd).testBit j
      = (decide (j + fpageSize snd < fpageSize rcv) && c.getLsbD (j + fpageSize snd)) := by
    intro c j
    rw [Nat.testBit_div_two_pow, Nat.testBit_mod_two_pow, BitVec.testBit_toNat]
  constructor
  · intro h i hs hr
    have hj := congrArg (fun m => m.testBit (i - fpageSize snd)) h
    have hi : i - fpageSize snd + fpageSize snd = i := by omega
    simpa [hbit, hi, hr] using hj
  · intro h
    refine Nat.eq_of_testBit_eq fun j => ?_
    rw [hbit, hbit]
    by_cases hj : j + fpageSize snd < fpageSize rcv
    · rw [h _ (by omega) hj]
    · simp [hj]

lemma rcvAddr_eq_iff :
    rcvAddr base snd rcv = rcvAddr base' snd rcv ↔
      ∀ i, fpageSize snd ≤ i → i < fpageSize rcv → base.getLsbD i = base'.getLsbD i := by
  rw [← baseBits_eq_iff, ← BitVec.toNat_inj, toNat_rcvAddr h0 hle h32,
    toNat_rcvAddr h0 hle h32, Nat.add_left_cancel_iff,
    Nat.mul_right_cancel_iff (Nat.two_pow_pos _)]

end window

/-- **The receive window**: the addresses the loop of `map_fpage` gets are the send page aligned
down to its size and an address aligned to it, from which a page of this size lies inside the
receive flexpage.  Where, is decided by the bits of the base between the two sizes. -/
theorem mapFpage_addresses (base base' snd rcv : Word) (h12 : 12 ≤ fpageSize snd)
    (hle : fpageSize snd ≤ fpageSize rcv) (h32 : fpageSize rcv ≤ 32) :
    (∀ (loop : MapLoop S) fuel fromTid toTid (k : Mappings S), ¬isIoFpage snd →
      mapFpage loop fuel fromTid toTid base snd rcv k =
        (loop fromTid toTid (if snd &&& 1 ≠ 0 then sendAddr snd ||| 1 else sendAddr snd)
          (rcvAddr base snd rcv) (fpageSize snd) snd k.space).map
            fun space => (1, { k with space := space })) ∧
    (sendAddr snd).toNat = snd.toNat / 2 ^ fpageSize snd * 2 ^ fpageSize snd ∧
    2 ^ fpageSize snd ∣ (rcvAddr base snd rcv).toNat ∧
    rcv.toNat / 2 ^ fpageSize rcv * 2 ^ fpageSize rcv ≤ (rcvAddr base snd rcv).toNat ∧
    (rcvAddr base snd rcv).toNat + 2 ^ fpageSize snd
      ≤ rcv.toNat / 2 ^ fpageSize rcv * 2 ^ fpageSize rcv + 2 ^ fpageSize rcv ∧
    (rcvAddr base snd rcv = rcvAddr base' snd rcv ↔
      ∀ i, fpageSize snd ≤ i → i < fpageSize rcv → base.getLsbD i = base'.getLsbD i) := by
  have h0 : 0 < fpageSize snd := by omega
  refine ⟨fun loop fuel fromTid toTid k hio => mapFpage_window hio h12 hle,
    toNat_sendAddr h0 (hle.trans h32), rcvAddr_aligned h0 hle h32, ?_, ?_,
    rcvAddr_eq_iff h0 hle h32⟩
  · rw [toNat_rcvAddr h0 hle h32]
    exact Nat.le_add_right _ _
  · rw [toNat_rcvAddr h0 hle h32]
    exact rcvEnd_le hle

/-- A page of 4 KB is sent to the fourth page of a window of 64 KB at 1 MB. -/
theorem mapFpage_addresses_page :
    (2 ^ fpageSize (0x00400030 : Word) ∣ (rcvAddr 0x3000 0x00400030 0x00100040).toNat) ∧
      rcvAddr 0x3000 0x00400030 0x00100040 = 0x00103000 :=
  ⟨(mapFpage_addresses (S := Unit) 0x3000 0 0x00400030 0x00100040 (by decide) (by decide)
    (by decide)).2.2.1, by decide⟩

end Hazelnut
