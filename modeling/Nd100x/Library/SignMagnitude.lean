import Mathlib.Algebra.Order.Ring.Int
import Mathlib.Tactic.Ring

namespace Nd100x.Library

/-- A sign and a magnitude give a two's-complement word. -/
def signed {width : Nat} (negative : Bool) (magnitude : BitVec width) : BitVec width :=
  if negative then -magnitude else magnitude

section Integers

/-- The sign of an integer and its absolute value give the integer back. -/
theorem natAbs_signed (n : Int) : (if n < 0 then -(n.natAbs : Int) else n.natAbs) = n := by
  split <;> omega

/-- The product has the product of the magnitudes, negative for different signs. -/
theorem mul_eq_magnitudes (n m : Int) :
    n * m = if decide (n < 0) ^^ decide (m < 0) then -((n.natAbs * m.natAbs : Nat) : Int)
      else ((n.natAbs * m.natAbs : Nat) : Int) := by
  have left := natAbs_signed n
  have right := natAbs_signed m
  rw [Int.natCast_mul]
  by_cases first : n < 0 <;> by_cases second : m < 0 <;>
    simp only [first, second, if_true, if_false] at left right <;>
    simp only [first, second, decide_true, decide_false, Bool.xor_true, Bool.xor_false, Bool.not_true,
      Bool.not_false, if_true, Bool.false_eq_true, if_false]
  · rw [← Int.neg_mul_neg, ← left, ← right, neg_neg, neg_neg, Int.natAbs_neg, Int.natAbs_neg,
      Int.natAbs_natCast, Int.natAbs_natCast]
  · nth_rewrite 1 [← left, ← right]
    rw [neg_mul]
  · nth_rewrite 1 [← left, ← right]
    rw [mul_neg]
  · rw [left, right]

/-- The truncated quotient has the quotient of the magnitudes, negative for different signs. -/
theorem tdiv_eq_magnitudes (n m : Int) :
    n.tdiv m = if decide (n < 0) ^^ decide (m < 0) then -((n.natAbs / m.natAbs : Nat) : Int)
      else ((n.natAbs / m.natAbs : Nat) : Int) := by
  have magnitudes : ((n.natAbs / m.natAbs : Nat) : Int) = (n.natAbs : Int).tdiv m.natAbs := rfl
  have left := natAbs_signed n
  have right := natAbs_signed m
  rw [magnitudes]
  by_cases first : n < 0 <;> by_cases second : m < 0 <;>
    simp only [first, second, if_true, if_false] at left right <;>
    simp only [first, second, decide_true, decide_false, Bool.xor_true, Bool.xor_false, Bool.not_true,
      Bool.not_false, if_true, Bool.false_eq_true, if_false]
  · nth_rewrite 1 [← left, ← right]
    exact Int.neg_tdiv_neg _ _
  · nth_rewrite 1 [← left, ← right]
    exact Int.neg_tdiv _ _
  · nth_rewrite 1 [← left, ← right]
    exact Int.tdiv_neg _ _
  · rw [left, right]

/-- The truncated remainder takes the sign of the dividend. -/
theorem tmod_eq_magnitudes (n m : Int) :
    n.tmod m = if n < 0 then -((n.natAbs % m.natAbs : Nat) : Int)
      else ((n.natAbs % m.natAbs : Nat) : Int) := by
  have magnitude : ((n.tmod m).natAbs : Int) = ((n.natAbs % m.natAbs : Nat) : Int) :=
    congrArg Nat.cast (Int.natAbs_tmod n m)
  rw [← magnitude]
  split
  · next negative =>
      have sign : 0 ≤ -(n.tmod m) := by
        rw [← Int.neg_tmod]
        exact Int.tmod_nonneg m (by omega)
      omega
  · next positive =>
      have sign := Int.tmod_nonneg m (show 0 ≤ n by omega)
      omega

/-- The quotient of the magnitudes needs more than `2 ^ k` values exactly where the high part
of the dividend reaches the divisor. -/
theorem two_pow_le_div_iff (k : Nat) {dividend divisor : Nat} (some : 0 < divisor) :
    2 ^ k ≤ dividend / divisor ↔ divisor ≤ dividend / 2 ^ k := by
  rw [Nat.le_div_iff_mul_le some, Nat.le_div_iff_mul_le (Nat.two_pow_pos k), Nat.mul_comm]

end Integers

section Words

variable {width : Nat}

theorem slt_zero_iff (x : BitVec width) : x.slt 0 = decide (x.toInt < 0) := by
  rw [BitVec.slt_eq_decide]
  simp

/-- The negation of a negative word is its absolute value, also for the least word. -/
theorem toNat_magnitude (x : BitVec width) :
    (if x.slt 0 then -x else x).toNat = x.toInt.natAbs := by
  have bound := x.isLt
  rw [slt_zero_iff, BitVec.toInt_eq_toNat_cond]
  by_cases low : 2 * x.toNat < 2 ^ width
  · rw [if_pos low, if_neg (by simp)]
    rfl
  · rw [if_neg low, if_pos (by rw [decide_eq_true_eq]; omega), BitVec.toNat_neg,
      Nat.mod_eq_of_lt (by omega)]
    omega

/-- A magnitude in range keeps its value under its sign. -/
theorem toInt_signed {negative : Bool} {magnitude : BitVec width}
    (fits : if negative then 2 * magnitude.toNat ≤ 2 ^ width else 2 * magnitude.toNat < 2 ^ width) :
    (signed negative magnitude).toInt =
      if negative then -(magnitude.toNat : Int) else magnitude.toNat := by
  have bound := magnitude.isLt
  rw [signed]
  cases negative with
  | false =>
    rw [if_neg Bool.false_ne_true] at fits ⊢
    rw [if_neg Bool.false_ne_true, BitVec.toInt_eq_toNat_of_lt fits]
  | true =>
    rw [if_pos rfl] at fits ⊢
    rw [if_pos rfl, BitVec.toInt_eq_toNat_cond, BitVec.toNat_neg]
    by_cases zero : magnitude.toNat = 0
    · rw [zero, Nat.sub_zero, Nat.mod_self]
      simp
    · rw [Nat.mod_eq_of_lt (by omega), if_neg (by omega)]
      omega

end Words

end Nd100x.Library
