import Mathlib.Data.BitVec

/-!
Words that hold a pointer together with tag bits, or several bit fields.

A mask `t` selects bits; a word is clear in `t` if `a &&& t = 0`.

* `or_and_not`: tagging a clear word and masking the tag out again is the
  identity; `xor_or_and_not` is the same for two words that are kept xored.
* `setField`: overwriting the bits of a mask, with `setField_and` (the field is
  read back) and `setField_and_of_disjoint` (the other fields are kept).
* `shiftLeft_and_of_lt`, `and_ushiftRight_of_lt`, `shiftLeft_ushiftRight_of_lt`: a field that
  is kept above other bits.
-/

namespace Word

variable {w : Nat} {a b s t : BitVec w}

/-! ### Tags -/

lemma and_not_eq (h : a &&& t = 0#w) : a &&& ~~~t = a := by
  ext i hi
  have hb := congrArg (fun x => x[i]) h
  simp only [BitVec.getElem_and, BitVec.getElem_not] at hb ⊢
  cases ha : a[i] <;> simp_all

/-- A tag on a clear word is masked out again. -/
lemma or_and_not (h : a &&& t = 0#w) (hs : s &&& ~~~t = 0#w) : (a ||| s) &&& ~~~t = a := by
  rw [BitVec.and_or_distrib_right, and_not_eq h, hs, BitVec.or_zero]

lemma or_and_self : (a ||| t) &&& t = t := by
  ext i hi
  simp only [BitVec.getElem_and, BitVec.getElem_or]
  cases t[i] <;> simp

lemma xor_and (h : a &&& t = 0#w) (hb : b &&& t = 0#w) : (a ^^^ b) &&& t = 0#w := by
  ext i hi
  have h₁ := congrArg (fun x => x[i]) h
  have h₂ := congrArg (fun x => x[i]) hb
  simp only [BitVec.getElem_and, BitVec.getElem_xor] at h₁ h₂ ⊢
  cases ht : t[i] <;> simp_all

lemma xor_xor_left : (a ^^^ b) ^^^ a = b := by
  rw [BitVec.xor_comm a b, BitVec.xor_assoc, BitVec.xor_self, BitVec.xor_zero]

lemma xor_xor_right : (a ^^^ b) ^^^ b = a := by
  rw [BitVec.xor_assoc, BitVec.xor_self, BitVec.xor_zero]

/-- Of a tagged xor of two words, either is recovered from the other one. -/
lemma xor_or_and_not (h : a &&& t = 0#w) : (((a ^^^ b) ||| t) ^^^ b) &&& ~~~t = a := by
  ext i hi
  have hb := congrArg (fun x => x[i]) h
  simp only [BitVec.getElem_and, BitVec.getElem_xor, BitVec.getElem_or, BitVec.getElem_not] at hb ⊢
  cases ha : a[i] <;> cases ht : t[i] <;> simp_all

/-- A word is the sum of its parts inside and outside a mask. -/
lemma and_not_add_and : (a &&& ~~~t) + (a &&& t) = a := by
  rw [BitVec.add_eq_or_of_and_eq_zero]
  · ext i hi
    simp only [BitVec.getElem_or, BitVec.getElem_and, BitVec.getElem_not]
    cases a[i] <;> cases t[i] <;> rfl
  · ext i hi
    simp only [BitVec.getElem_and, BitVec.getElem_not, BitVec.getElem_zero]
    cases a[i] <;> cases t[i] <;> rfl

/-! ### Fields -/

/-- Overwrite the bits of the mask `t` in `a` by those of `b`. -/
def setField (t a b : BitVec w) : BitVec w := (a &&& ~~~t) ||| (b &&& t)

lemma setField_and : setField t a b &&& t = b &&& t := by
  ext i hi
  simp only [setField, BitVec.getElem_and, BitVec.getElem_or, BitVec.getElem_not]
  cases t[i] <;> simp

lemma setField_and_of_disjoint (h : s &&& t = 0#w) : setField t a b &&& s = a &&& s := by
  ext i hi
  have hb := congrArg (fun x => x[i]) h
  simp only [setField, BitVec.getElem_and, BitVec.getElem_or, BitVec.getElem_not] at hb ⊢
  cases ht : t[i] <;> simp_all

lemma and_not_and_of_disjoint (h : s &&& t = 0#w) : (a &&& ~~~t) &&& s = a &&& s := by
  rw [BitVec.and_assoc, BitVec.and_comm (~~~t) s, and_not_eq h]

/-! ### Shifts -/

section shift

variable {d : BitVec w} {k : Nat}

/-- What has been shifted up has no bits below. -/
lemma shiftLeft_and_of_lt (hd : d.toNat < 2 ^ k) : (a <<< k) &&& d = 0#w := by
  refine BitVec.eq_of_getLsbD_eq fun i _ => ?_
  rw [BitVec.getLsbD_and, BitVec.getLsbD_shiftLeft, BitVec.getLsbD_zero]
  rcases Nat.lt_or_ge i k with hi | hi
  · simp [hi]
  · have hdi : d.getLsbD i = false :=
      Nat.testBit_lt_two_pow (Nat.lt_of_lt_of_le hd (Nat.pow_le_pow_right (by omega) hi))
    simp [hdi]

/-- What lies below is shifted out. -/
lemma and_ushiftRight_of_lt (hd : d.toNat < 2 ^ k) : (a &&& d) >>> k = 0#w := by
  refine BitVec.eq_of_toNat_eq ?_
  rw [BitVec.toNat_ushiftRight, BitVec.toNat_and, Nat.shiftRight_eq_div_pow,
    Nat.div_eq_of_lt (Nat.lt_of_le_of_lt Nat.and_le_right hd), BitVec.toNat_zero]

/-- A word is shifted up and down again. -/
lemma shiftLeft_ushiftRight_of_lt (ha : a.toNat * 2 ^ k < 2 ^ w) : (a <<< k) >>> k = a := by
  refine BitVec.eq_of_toNat_eq ?_
  rw [BitVec.toNat_ushiftRight, BitVec.toNat_shiftLeft, Nat.shiftLeft_eq, Nat.mod_eq_of_lt ha,
    Nat.shiftRight_eq_div_pow, Nat.mul_div_cancel _ (Nat.two_pow_pos k)]
end shift

end Word
