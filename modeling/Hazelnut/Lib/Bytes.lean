import Mathlib.Algebra.Group.Nat.Defs
import Mathlib.Logic.Function.Basic

/-!
Words of 32 bits in a memory of bytes, in little endian order.

Addresses need not be aligned, so that words may overlap.
-/

namespace Bytes

variable {m m' : Nat → Nat} {a b v x : Nat}

/-- The word at an address. -/
def ld (m : Nat → Nat) (a : Nat) : Nat :=
  m a % 256 + 256 * (m (a + 1) % 256) + 65536 * (m (a + 2) % 256) + 16777216 * (m (a + 3) % 256)

/-- A word is written. -/
def st (m : Nat → Nat) (a v : Nat) : Nat → Nat := fun x =>
  if x = a then v % 256
  else if x = a + 1 then v / 256 % 256
  else if x = a + 2 then v / 65536 % 256
  else if x = a + 3 then v / 16777216 % 256
  else m x

lemma ld_lt : ld m a < 2 ^ 32 := by
  unfold ld
  omega

lemma st_of_out (h : x < a ∨ a + 4 ≤ x) : st m a v x = m x := by
  simp only [st]
  rw [if_neg (by omega), if_neg (by omega), if_neg (by omega), if_neg (by omega)]

lemma ld_congr (h : ∀ x, a ≤ x → x < a + 4 → m' x = m x) : ld m' a = ld m a := by
  simp only [ld]
  rw [h a (by omega) (by omega), h (a + 1) (by omega) (by omega), h (a + 2) (by omega) (by omega),
    h (a + 3) (by omega) (by omega)]

lemma ld_st_self : ld (st m a v) a = v % 2 ^ 32 := by
  simp only [ld, st]
  simp
  omega

lemma ld_st_of_disjoint (h : a + 4 ≤ b ∨ b + 4 ≤ a) : ld (st m a v) b = ld m b :=
  ld_congr fun _ h1 h2 => st_of_out (by omega)

end Bytes
