import Mathlib.Algebra.Order.Archimedean.Basic
import Mathlib.Algebra.Order.Floor.Semifield
import Mathlib.Algebra.Order.Field.Power
import Mathlib.Data.Int.Log
import Mathlib.Data.Rat.Floor
import Mathlib.Tactic.FieldSimp
import Mathlib.Tactic.Linarith
import Mathlib.Tactic.Positivity
import Mathlib.Tactic.Ring

namespace Nd100x.Library

/-- A number with exponent `e` has a mantissa from one half to one. -/
def HasExponent (x : ℚ) (e : ℤ) : Prop := 2 ^ (e - 1) ≤ |x| ∧ |x| < 2 ^ e

section Powers

theorem two_zpow_pos (e : ℤ) : (0 : ℚ) < 2 ^ e := zpow_pos (by norm_num) e

theorem two_zpow_le {e f : ℤ} (below : e ≤ f) : (2 : ℚ) ^ e ≤ 2 ^ f :=
  zpow_le_zpow_right₀ (by norm_num) below

theorem two_zpow_lt_iff {e f : ℤ} : (2 : ℚ) ^ e < 2 ^ f ↔ e < f :=
  zpow_lt_zpow_iff_right₀ (by norm_num)

theorem two_zpow_add (e f : ℤ) : (2 : ℚ) ^ (e + f) = 2 ^ e * 2 ^ f := zpow_add₀ (by norm_num) e f

theorem two_zpow_succ (e : ℤ) : (2 : ℚ) ^ (e + 1) = 2 * 2 ^ e := by
  rw [two_zpow_add, zpow_one, mul_comm]

theorem two_zpow_natCast (k : ℕ) : (2 : ℚ) ^ (k : ℤ) = 2 ^ k := zpow_natCast 2 k

end Powers

namespace HasExponent

variable {x : ℚ} {e f n : ℤ}

theorem ne_zero (exponent : HasExponent x e) : x ≠ 0 := by
  intro zero
  have low := exponent.1
  rw [zero, abs_zero] at low
  exact absurd low (not_le.mpr (two_zpow_pos _))

theorem lt_iff (exponent : HasExponent x e) : |x| < 2 ^ n ↔ e ≤ n := by
  constructor
  · intro small
    have below := lt_of_le_of_lt exponent.1 small
    rw [two_zpow_lt_iff] at below
    omega
  · intro below
    exact lt_of_lt_of_le exponent.2 (two_zpow_le below)

theorem le_iff (exponent : HasExponent x e) : 2 ^ n ≤ |x| ↔ n < e := by
  rw [← not_lt, exponent.lt_iff, not_le]

theorem unique (exponent : HasExponent x e) (other : HasExponent x f) : e = f := by
  have first := exponent.lt_iff.mp other.2
  have second := other.lt_iff.mp exponent.2
  omega

theorem of_abs (exponent : HasExponent |x| e) : HasExponent x e := by
  unfold HasExponent at exponent
  rwa [abs_abs] at exponent

end HasExponent

/-- A mantissa of `k` bits whose first bit is set fixes the exponent. -/
theorem hasExponent_mantissa {m : ℚ} {k : ℤ} (e : ℤ) (low : 2 ^ (k - 1) ≤ m) (high : m < 2 ^ k) :
    HasExponent (m * 2 ^ (e - k)) e := by
  have positive : 0 < m := lt_of_lt_of_le (two_zpow_pos _) low
  have unit := two_zpow_pos (e - k)
  rw [HasExponent, abs_of_pos (mul_pos positive unit)]
  constructor
  · calc (2 : ℚ) ^ (e - 1) = 2 ^ (k - 1) * 2 ^ (e - k) := by
          rw [← two_zpow_add]
          congr 1
          ring
      _ ≤ m * 2 ^ (e - k) := mul_le_mul_of_nonneg_right low unit.le
  · calc m * 2 ^ (e - k) < 2 ^ k * 2 ^ (e - k) := mul_lt_mul_of_pos_right high unit
      _ = 2 ^ e := by
          rw [← two_zpow_add]
          congr 1
          ring

/-- A mantissa is `k` places higher under an exponent that is `k` larger. -/
theorem scaled_down (m : ℚ) (e : ℤ) (k : ℕ) : m / 2 ^ k * 2 ^ (e + k) = m * 2 ^ e := by
  rw [two_zpow_add, two_zpow_natCast]
  field_simp

section Sticky

/-- A set low bit adds at most one. -/
theorem or_bit_bounds (q : ℕ) {g : ℕ} (bit : g ≤ 1) : q ≤ q ||| g ∧ q ||| g ≤ q + g := by
  obtain rfl | rfl : g = 0 ∨ g = 1 := by omega
  · simp
  · have parity : q ||| 1 = q / 2 * 2 + 1 := by
      apply Nat.eq_of_testBit_eq
      intro place
      cases place with
      | zero => simp
      | succ place =>
        have half : (q / 2 * 2 + 1) / 2 = q / 2 := by omega
        rw [Nat.testBit_or, Nat.testBit_succ (q / 2 * 2 + 1), half, ← Nat.testBit_succ]
        simp [Nat.testBit_succ]
    omega

/-- The bits above the last place are the same with and without the low bit. -/
theorem or_bit_div (q : ℕ) {g : ℕ} (bit : g ≤ 1) : (q ||| g) / 2 = q / 2 := by
  have bounds := or_bit_bounds q bit
  obtain rfl | rfl : g = 0 ∨ g = 1 := by omega
  · simp
  · have odd : (q ||| 1) % 2 = 1 := by simp
    omega

end Sticky

section Quotient

/-- The quotient of naturals is the integer part of the rational quotient. -/
theorem natDiv_bounds (m d : ℕ) : ((m / d : ℕ) : ℚ) ≤ m / d ∧ (m : ℚ) / d < (m / d : ℕ) + 1 := by
  have quotient : ⌊(m : ℚ) / d⌋₊ = m / d := Nat.floor_div_eq_div m d
  rw [← quotient]
  exact ⟨Nat.floor_le (by positivity), Nat.lt_floor_add_one _⟩

/-- A rest makes the rational quotient larger than its integer part. -/
theorem natDiv_exact_iff {m d : ℕ} (some : 0 < d) : (m : ℚ) / d = (m / d : ℕ) ↔ m % d = 0 := by
  have positive : (0 : ℚ) < d := by exact_mod_cast some
  rw [div_eq_iff positive.ne']
  have whole := Nat.div_add_mod m d
  constructor
  · intro same
    have product : m = m / d * d := by exact_mod_cast same
    rw [mul_comm] at product
    omega
  · intro none
    rw [none, add_zero, mul_comm] at whole
    exact_mod_cast whole.symm

/-- The integer part of a number without its sign. -/
def towardZero (x : ℚ) : ℤ := if x < 0 then ⌈x⌉ else ⌊x⌋

theorem towardZero_signed (s : Bool) {x : ℚ} (nonneg : 0 ≤ x) :
    towardZero ((if s then (-1 : ℚ) else 1) * x) = if s then -⌊x⌋ else ⌊x⌋ := by
  cases s with
  | false =>
    rw [if_neg Bool.false_ne_true, if_neg Bool.false_ne_true, one_mul, towardZero, if_neg (not_lt.mpr nonneg)]
  | true =>
    rw [if_pos rfl, if_pos rfl, neg_one_mul, towardZero]
    split
    · exact Int.ceil_neg
    · have zero : x = 0 := by linarith
      rw [zero]
      simp

end Quotient

end Nd100x.Library
