import Nd100x.Library.BinaryScale
import Nd100x.Machine.Floats

namespace Nd100x

open Library

namespace Fp

/-- A mantissa of 32 bits lies between zero and one. -/
def magnitude (f : Fp) : ℚ := f.m * 2 ^ (f.e - 32)

def value (f : Fp) : ℚ := if f.s then -f.magnitude else f.magnitude

/-- The first bit of the mantissa is set. -/
def Normal (f : Fp) : Prop := 2 ^ 31 ≤ f.m ∧ f.m < 2 ^ 32

/-- One unit in the last place of the mantissa. -/
def ulp (f : Fp) : ℚ := 2 ^ (f.e - 32)

theorem ulp_pos (f : Fp) : 0 < f.ulp := two_zpow_pos _

theorem magnitude_eq (f : Fp) : f.magnitude = f.m * f.ulp := rfl

theorem magnitude_nonneg (f : Fp) : 0 ≤ f.magnitude :=
  mul_nonneg (Nat.cast_nonneg _) (ulp_pos f).le

theorem abs_value (f : Fp) : |f.value| = f.magnitude := by
  rw [value]
  split
  · rw [abs_neg, abs_of_nonneg f.magnitude_nonneg]
  · rw [abs_of_nonneg f.magnitude_nonneg]

theorem Normal.exponent {f : Fp} (normal : f.Normal) : HasExponent f.magnitude f.e := by
  have low : ((2 ^ 31 : ℕ) : ℚ) ≤ f.m := Nat.cast_le.mpr normal.1
  have high : (f.m : ℚ) < (2 ^ 32 : ℕ) := Nat.cast_lt.mpr normal.2
  norm_num at low high
  exact hasExponent_mantissa f.e (by norm_num; exact low) (by norm_num; exact high)

theorem Normal.magnitude_pos {f : Fp} (normal : f.Normal) : 0 < f.magnitude := by
  have some : 0 < f.m := lt_of_lt_of_le (by norm_num) normal.1
  exact mul_pos (by exact_mod_cast some) (ulp_pos f)

end Fp

section Aligned

variable {f1 f2 : Fp} {scale : Nat}

/-- The mantissa of the smaller exponent in units of the larger one. -/
theorem magnitude_aligned (apart : f1.e = f2.e + scale) :
    f2.magnitude = (f2.m : ℚ) / 2 ^ scale * f1.ulp := by
  have place : f1.e - 32 = f2.e - 32 + scale := by omega
  rw [Fp.ulp, place, scaled_down]
  rfl

theorem guardBit_le (scale m : Nat) : guardBit scale m ≤ 1 := by
  unfold guardBit
  split <;> omega

/-- The guard bit tells a rest. -/
theorem guardBit_eq (scale m : Nat) : guardBit scale m = if m % 2 ^ scale = 0 then 0 else 1 := by
  have masked : ((1 <<< scale) - 1) &&& m = m % 2 ^ scale := by
    rw [Nat.one_shiftLeft, Nat.and_comm, Nat.and_two_pow_sub_one_eq_mod]
  unfold guardBit
  rw [masked]
  by_cases none : m % 2 ^ scale = 0
  · rw [if_neg fun both => both.2 none, if_pos none]
  · have moved : scale ≠ 0 := by
      rintro rfl
      exact none (Nat.mod_one m)
    rw [if_pos ⟨moved, none⟩, if_neg none]

/-- The aligned mantissa, its integer part and its guard bit. -/
structure Alignment (t : ℚ) (q g : Nat) : Prop where
  low : (q : ℚ) ≤ t
  high : t < q + 1
  bit : g ≤ 1
  none : g = 0 → t = q
  rest : g = 1 → (q : ℚ) < t

theorem alignment (scale m : Nat) :
    Alignment ((m : ℚ) / 2 ^ scale) (m >>> scale) (guardBit scale m) := by
  have bounds := natDiv_bounds m (2 ^ scale)
  have whole := natDiv_exact_iff (m := m) (Nat.two_pow_pos scale)
  rw [Nat.shiftRight_eq_div_pow]
  push_cast at bounds whole ⊢
  refine ⟨bounds.1, bounds.2, guardBit_le _ _, fun zero => whole.mpr ?_, fun one => ?_⟩
  · rw [guardBit_eq] at zero
    split at zero
    · assumption
    · cases zero
  · refine lt_of_le_of_ne bounds.1 fun same => ?_
    rw [guardBit_eq, if_pos (whole.mp same.symm)] at one
    cases one

end Aligned

section Sums

/-- A mantissa between 2 ^ 31 and 2 ^ 32 in units of a number. -/
theorem exponent_units {e : ℤ} {x : ℚ} (low : 2147483648 ≤ x) (high : x < 4294967296) :
    HasExponent (x * 2 ^ (e - 32)) e :=
  hasExponent_mantissa e (by norm_num; exact low) (by norm_num; exact high)

theorem place_above (e : ℤ) : (2 : ℚ) ^ (e + 1 - 32) = 2 * 2 ^ (e - 32) := by
  rw [← two_zpow_succ]
  congr 1
  ring

/-- The sum keeps its exponent, and its error is below one unit in the last place. -/
structure SumOf (e : ℤ) (sum : ℚ) (r : Fp) : Prop where
  normal : r.Normal
  exponent : HasExponent sum r.e
  above : r.magnitude < sum + 2 ^ (e - 32)
  below : sum < r.magnitude + r.ulp
  place : r.e = e ∨ r.e = e + 1

variable {s : Bool} {e : ℤ} {m q g : ℕ} {t : ℚ}

/-- A carry drops the guard bit with the last place. -/
theorem carryDown_carry (first : m < 2 ^ 32) (kept : q < 2 ^ 32) (aligned : Alignment t q g)
    (carry : 0xffffffff < (m + q) ||| g) :
    SumOf e ((m + t) * 2 ^ (e - 32)) (carryDown s e ((m + q) ||| g)) := by
  have unit := two_zpow_pos (e - 32)
  have halved : ((m + q) ||| g) >>> 1 = (m + q) / 2 := by
    rw [Nat.shiftRight_eq_div_pow, pow_one, or_bit_div _ aligned.bit]
  have joined := (or_bit_bounds (m + q) aligned.bit).2
  have half := or_bit_div (m + q) aligned.bit
  have twice := place_above e
  have even : (((m + q) / 2 : ℕ) : ℚ) * 2 ≤ m + q := by
    have : (m + q) / 2 * 2 ≤ m + q := by omega
    exact_mod_cast this
  have odd : (m : ℚ) + q ≤ ((m + q) / 2 : ℕ) * 2 + 1 := by
    have : m + q ≤ (m + q) / 2 * 2 + 1 := by omega
    exact_mod_cast this
  have low : (4294967296 : ℚ) ≤ m + q := by
    have : 4294967296 ≤ m + q := by omega
    exact_mod_cast this
  have high : (m : ℚ) + q + 1 < 8589934592 := by
    have : m + q + 1 < 8589934592 := by omega
    exact_mod_cast this
  have least := aligned.low
  have less := aligned.high
  rw [carryDown, if_pos carry, halved]
  refine ⟨⟨?_, ?_⟩, ?_, ?_, ?_, .inr rfl⟩
  · dsimp only
    omega
  · dsimp only
    omega
  · have split : (m + t) * 2 ^ (e - 32) = ((m + t) / 2) * 2 ^ (e + 1 - 32) := by
      rw [twice]
      ring
    rw [split]
    exact exponent_units (by linarith) (by linarith)
  · rw [Fp.magnitude, twice]
    have := mul_le_mul_of_nonneg_right even unit.le
    have := mul_le_mul_of_nonneg_right least unit.le
    linarith
  · rw [Fp.magnitude, Fp.ulp, twice]
    have := mul_le_mul_of_nonneg_right odd unit.le
    have := mul_lt_mul_of_pos_right less unit
    linarith

/-- Without a carry the guard bit stands in the last place. -/
theorem carryDown_fits (first : 2 ^ 31 ≤ m) (aligned : Alignment t q g)
    (fits : ¬ 0xffffffff < (m + q) ||| g) :
    SumOf e ((m + t) * 2 ^ (e - 32)) (carryDown s e ((m + q) ||| g)) := by
  have unit := two_zpow_pos (e - 32)
  have joined := or_bit_bounds (m + q) aligned.bit
  have floor : (m : ℚ) + q ≤ ((m + q) ||| g : ℕ) := by exact_mod_cast joined.1
  have ceil : (((m + q) ||| g : ℕ) : ℚ) ≤ m + q + g := by exact_mod_cast joined.2
  have low : (2147483648 : ℚ) ≤ m := by exact_mod_cast first
  have high : (m : ℚ) + q + 1 ≤ 4294967296 := by
    have : m + q + 1 ≤ 4294967296 := by omega
    exact_mod_cast this
  have least := aligned.low
  have less := aligned.high
  have nonneg : (0 : ℚ) ≤ q := Nat.cast_nonneg q
  have guard : (q : ℚ) + g < t + 1 := by
    have bit := aligned.bit
    obtain rfl | rfl : g = 0 ∨ g = 1 := by omega
    · rw [aligned.none rfl, Nat.cast_zero]
      linarith
    · have := aligned.rest rfl
      rw [Nat.cast_one]
      linarith
  rw [carryDown, if_neg fits]
  refine ⟨⟨?_, ?_⟩, ?_, ?_, ?_, .inl rfl⟩
  · dsimp only
    omega
  · dsimp only
    omega
  · exact exponent_units (by linarith) (by linarith)
  · rw [Fp.magnitude]
    have := mul_le_mul_of_nonneg_right ceil unit.le
    have := mul_lt_mul_of_pos_right guard unit
    linarith
  · rw [Fp.magnitude, Fp.ulp]
    have := mul_le_mul_of_nonneg_right floor unit.le
    have := mul_lt_mul_of_pos_right less unit
    linarith

/-- A sum without a rest and without a carry is exact. -/
theorem carryDown_exact (aligned : Alignment t q g) (none : g = 0) (fits : m + q < 2 ^ 32) :
    (carryDown s e ((m + q) ||| g)).magnitude = (m + t) * 2 ^ (e - 32) := by
  have whole : (m + q) ||| g = m + q := by rw [none, Nat.or_zero]
  rw [whole, carryDown, if_neg (by omega), Fp.magnitude, aligned.none none]
  push_cast
  rfl

end Sums

section Differences

theorem testBit_top {m : ℕ} (bits : m < 2 ^ 32) : m.testBit 31 = decide (2 ^ 31 ≤ m) := by
  rw [Nat.testBit_eq_decide_div_mod_eq, decide_eq_decide]
  omega

/-- A mantissa of at most 32 bits moves up until its first bit is set. -/
theorem normalizeUp_spec (fuel : ℕ) (e : ℤ) {m : ℕ} (bits : m < 2 ^ 32) (enough : 2 ^ 31 ≤ m * 2 ^ fuel) :
    ∃ n : ℕ, normalizeUp fuel e m = (e - n, m * 2 ^ n) ∧ 2 ^ 31 ≤ m * 2 ^ n ∧ m * 2 ^ n < 2 ^ 32 := by
  induction fuel generalizing e m with
  | zero => exact ⟨0, by simp [normalizeUp], by simpa using enough, by simpa using bits⟩
  | succ fuel ih =>
    rw [normalizeUp, testBit_top bits]
    by_cases top : 2 ^ 31 ≤ m
    · rw [decide_eq_true top, if_pos rfl]
      exact ⟨0, by simp, by simpa using top, by simpa using bits⟩
    · rw [decide_eq_false top, if_neg (by decide), Nat.shiftLeft_eq, pow_one]
      obtain ⟨n, found, low, high⟩ := ih (e - 1) (m := m * 2) (by omega)
        (by rw [mul_assoc, ← pow_succ']; exact enough)
      have double : m * 2 * 2 ^ n = m * 2 ^ (n + 1) := by rw [pow_succ', mul_assoc]
      rw [double] at found low high
      refine ⟨n + 1, ?_, low, high⟩
      rw [found]
      push_cast
      rw [sub_sub, add_comm]

/-- The guard bit does not change the place of the first bit. -/
theorem first_bit_kept {y x n : ℕ} (some : 0 < y) (half : x / 2 = y / 2) (low : 2 ^ 31 ≤ x * 2 ^ n) :
    2 ^ 31 ≤ y * 2 ^ n := by
  by_cases small : n ≤ 30
  · have split : 2 ^ 31 = 2 * 2 ^ (30 - n) * 2 ^ n := by
      rw [mul_assoc, ← pow_add, Nat.sub_add_cancel small]
      norm_num
    rw [split] at low ⊢
    have above := Nat.le_of_mul_le_mul_right low (Nat.two_pow_pos n)
    exact Nat.mul_le_mul_right _ (by omega)
  · calc 2 ^ 31 ≤ 2 ^ n := Nat.pow_le_pow_right (by decide) (by omega)
      _ ≤ y * 2 ^ n := Nat.le_mul_of_pos_left _ some

/-- A difference is rounded up by less than two units of the larger operand. -/
structure DifferenceOf (e : ℤ) (diff : ℚ) (whole : Prop) (r : Fp) : Prop where
  normal : r.Normal
  positive : 0 < diff
  below : diff ≤ r.magnitude
  above : r.magnitude < diff + 2 * 2 ^ (e - 32)
  exponent : HasExponent diff r.e ∨ HasExponent diff (r.e - 1)
  ceil : HasExponent (⌈diff / 2 ^ (e - 32)⌉ * 2 ^ (e - 32)) r.e
  place : r.e ≤ e
  exact : whole → r.magnitude = diff

variable {s : Bool} {e f : ℤ} {y g : ℕ} {d : ℚ}

/-- An exponent is at most one smaller where a number is not halved. -/
theorem exponent_of_ceil (exponent : HasExponent ((y : ℚ) * 2 ^ (e - 32)) f) (low : d ≤ y)
    (half : (y : ℚ) / 2 ≤ d) :
    HasExponent (d * 2 ^ (e - 32)) f ∨ HasExponent (d * 2 ^ (e - 32)) (f - 1) := by
  have unit := two_zpow_pos (e - 32)
  have some : (0 : ℚ) ≤ y := Nat.cast_nonneg y
  have nonneg : 0 ≤ d * 2 ^ (e - 32) := mul_nonneg (by linarith) unit.le
  have bounds := exponent
  rw [HasExponent, abs_of_nonneg (mul_nonneg some unit.le)] at bounds
  have above := mul_le_mul_of_nonneg_right low unit.le
  have below := mul_le_mul_of_nonneg_right half unit.le
  have twice : (2 : ℚ) ^ (f - 1) = 2 * 2 ^ (f - 1 - 1) := by
    rw [← two_zpow_succ, sub_add_cancel]
  simp only [HasExponent, abs_of_nonneg nonneg]
  by_cases reached : 2 ^ (f - 1) ≤ d * 2 ^ (e - 32)
  · exact .inl ⟨reached, by linarith⟩
  · exact .inr ⟨by linarith [bounds.1], not_le.mp reached⟩

/-- A mantissa difference, its guard bit and the difference that they stand for. -/
structure Rounded (y g : ℕ) (d : ℚ) : Prop where
  bit : g ≤ 1
  low : d ≤ y
  high : (y : ℚ) < d + 1
  none : g = 0 → d = y
  half : (y : ℚ) / 2 ≤ d

theorem ceil_units (low : d ≤ y) (high : (y : ℚ) < d + 1) :
    ⌈d * 2 ^ (e - 32) / 2 ^ (e - 32)⌉ = (y : ℤ) := by
  have unit := two_zpow_pos (e - 32)
  rw [mul_div_assoc, div_self unit.ne', mul_one, Int.ceil_eq_iff]
  push_cast
  exact ⟨by linarith, low⟩

theorem normalized_difference (some : 0 < y) (bits : y < 2 ^ 32) (rounded : Rounded y g d) :
    DifferenceOf e (d * 2 ^ (e - 32)) (g = 0)
      ⟨s, (normalizeUp 32 e (y ||| g)).1, (normalizeUp 32 e (y ||| g)).2⟩ := by
  have unit := two_zpow_pos (e - 32)
  have joined := or_bit_bounds y rounded.bit
  have half := or_bit_div y rounded.bit
  obtain ⟨n, found, low, high⟩ := normalizeUp_spec 32 e (m := y ||| g) (by omega)
    (by omega)
  rw [found]
  have exact : (⟨s, e - n, (y ||| g) * 2 ^ n⟩ : Fp).magnitude = (y ||| g : ℕ) * 2 ^ (e - 32) := by
    have place : e - n - 32 + n = e - 32 := by ring
    rw [Fp.magnitude, ← place, two_zpow_add, two_zpow_natCast]
    push_cast
    ring
  have floor : (y : ℚ) ≤ (y ||| g : ℕ) := by exact_mod_cast joined.1
  have top : ((y ||| g : ℕ) : ℚ) ≤ y + 1 := by
    have : y ||| g ≤ y + 1 := by have := rounded.bit; omega
    exact_mod_cast this
  have first : 2 ^ 31 ≤ y * 2 ^ n := first_bit_kept some half low
  have last : y * 2 ^ n < 2 ^ 32 := lt_of_le_of_lt (Nat.mul_le_mul_right _ joined.1) high
  have exponent : HasExponent ((y : ℚ) * 2 ^ (e - 32)) (e - n) := by
    have place : e - n - 32 + n = e - 32 := by ring
    have units : (y : ℚ) * 2 ^ (e - 32) = (y * 2 ^ n : ℕ) * 2 ^ (e - n - 32) := by
      rw [← place, two_zpow_add, two_zpow_natCast]
      push_cast
      ring
    rw [units]
    exact exponent_units (by exact_mod_cast first) (by exact_mod_cast last)
  have positive : 0 < d := lt_of_lt_of_le (by positivity) rounded.half
  refine ⟨⟨low, high⟩, mul_pos positive unit, ?_, ?_,
    exponent_of_ceil exponent rounded.low rounded.half, ?_, ?_, fun none => ?_⟩
  · rw [exact]
    exact mul_le_mul_of_nonneg_right (rounded.low.trans floor) unit.le
  · rw [exact]
    have := mul_lt_mul_of_pos_right (show ((y ||| g : ℕ) : ℚ) < d + 2 by linarith [rounded.high]) unit
    linarith
  · rw [ceil_units rounded.low rounded.high]
    exact exponent
  · dsimp only
    omega
  · rw [exact, rounded.none none, none, Nat.or_zero]

end Differences

section Ordered

variable {f1 f2 : Fp}

/-- A mantissa that is more than 31 places lower is below one unit. -/
theorem far_below {m scale : ℕ} (bits : m < 2 ^ 32) (far : 31 < scale) : (m : ℚ) / 2 ^ scale < 1 := by
  have power : 2 ^ 32 ≤ 2 ^ scale := Nat.pow_le_pow_right (by decide) far
  have small : m < 2 ^ scale := by omega
  rw [div_lt_one (by positivity)]
  exact_mod_cast small

theorem scale_exists (ordered : f2.e ≤ f1.e) :
    ∃ scale : ℕ, (f1.e - f2.e).toNat = scale ∧ f2.magnitude = (f2.m : ℚ) / 2 ^ scale * 2 ^ (f1.e - 32) :=
  ⟨(f1.e - f2.e).toNat, rfl, magnitude_aligned (by omega)⟩

theorem addOrdered_spec (first : f1.Normal) (second : f2.Normal) (ordered : f2.e ≤ f1.e) :
    SumOf f1.e (f1.magnitude + f2.magnitude) (addOrdered f1 f2) := by
  obtain ⟨scale, count, aligned⟩ := scale_exists ordered
  have unit := f1.ulp_pos
  rw [aligned, Fp.magnitude, ← add_mul, addOrdered, count]
  by_cases far : 31 < scale
  · have below := far_below second.2 far
    have nonneg : (0 : ℚ) ≤ (f2.m : ℚ) / 2 ^ scale := by positivity
    have low : (2147483648 : ℚ) ≤ f1.m := by exact_mod_cast first.1
    have high : (f1.m : ℚ) + 1 ≤ 4294967296 := by exact_mod_cast first.2
    rw [if_pos far]
    refine ⟨first, exponent_units (by linarith) (by linarith), ?_, ?_, .inl rfl⟩
    · rw [Fp.magnitude]
      have := mul_nonneg nonneg unit.le
      unfold Fp.ulp at this unit
      linarith
    · rw [Fp.magnitude, Fp.ulp]
      have := mul_lt_mul_of_pos_right below unit
      unfold Fp.ulp at this
      linarith
  · rw [if_neg far]
    have kept : f2.m >>> scale < 2 ^ 32 := lt_of_le_of_lt (Nat.shiftRight_le _ _) second.2
    by_cases carry : 0xffffffff < (f1.m + f2.m >>> scale) ||| guardBit scale f2.m
    · exact carryDown_carry first.2 kept (alignment scale f2.m) carry
    · exact carryDown_fits first.1 (alignment scale f2.m) carry

theorem addOrdered_s : (addOrdered f1 f2).s = f1.s := by
  unfold addOrdered carryDown
  dsimp only
  split
  · rfl
  · split <;> rfl

/-- The alignment shifts out no one-bit and the sum has no carry. -/
theorem addOrdered_exact (second : f2.m < 2 ^ 32) (ordered : f2.e ≤ f1.e)
    (whole : f2.m % 2 ^ (f1.e - f2.e).toNat = 0)
    (fits : f1.m + f2.m / 2 ^ (f1.e - f2.e).toNat < 2 ^ 32) :
    (addOrdered f1 f2).magnitude = f1.magnitude + f2.magnitude := by
  obtain ⟨scale, count, aligned⟩ := scale_exists ordered
  rw [count] at whole fits
  rw [addOrdered, count]
  by_cases far : 31 < scale
  · rw [Nat.mod_eq_of_lt (lt_of_lt_of_le second (Nat.pow_le_pow_right (by decide) far))] at whole
    rw [if_pos far, Fp.magnitude, Fp.magnitude, whole]
    simp
  · rw [if_neg far, aligned, Fp.magnitude.eq_def f1, ← add_mul]
    rw [← Nat.shiftRight_eq_div_pow] at fits
    exact carryDown_exact (alignment scale f2.m) (by rw [guardBit_eq, if_pos whole]) fits

/-- The difference of the aligned mantissas halves no remaining number. -/
theorem rounded_difference (first : f1.Normal) (second : f2.Normal) {scale : ℕ} (moved : scale ≠ 0) :
    Rounded (f1.m - f2.m >>> scale) (guardBit scale f2.m) (f1.m - (f2.m : ℚ) / 2 ^ scale) := by
  obtain ⟨least, less, bit, none, rest⟩ := alignment scale f2.m
  have half : f2.m >>> scale ≤ f2.m / 2 := by
    rw [Nat.shiftRight_eq_div_pow]
    exact Nat.div_le_div_left (Nat.le_self_pow moved 2) (by decide)
  have bits := second.2
  have top := first.1
  have cast : ((f1.m - f2.m >>> scale : ℕ) : ℚ) = f1.m - (f2.m >>> scale : ℕ) :=
    Nat.cast_sub (by omega)
  refine ⟨bit, by linarith, by linarith, fun zero => by rw [cast, none zero], ?_⟩
  rw [cast]
  by_cases one : scale = 1
  · subst one
    have some : ((f2.m >>> 1 : ℕ) : ℚ) + 1 ≤ f1.m := by
      have : f2.m >>> 1 + 1 ≤ f1.m := by omega
      exact_mod_cast this
    have near : (f2.m : ℚ) ≤ (2 : ℚ) * ((f2.m >>> 1 : ℕ) : ℚ) + 1 := by
      have : f2.m ≤ 2 * (f2.m >>> 1) + 1 := by
        rw [Nat.shiftRight_eq_div_pow, pow_one]
        omega
      exact_mod_cast this
    rw [pow_one]
    linarith
  · have quarter : f2.m >>> scale ≤ f2.m / 4 := by
      rw [Nat.shiftRight_eq_div_pow]
      have power : 2 ^ 2 ≤ 2 ^ scale := Nat.pow_le_pow_right (by decide) (by omega)
      exact Nat.div_le_div_left power (by decide)
    have some : ((f2.m >>> scale : ℕ) : ℚ) + 2 ≤ f1.m := by
      have : f2.m >>> scale + 2 ≤ f1.m := by omega
      exact_mod_cast this
    linarith

/-- No one-bit is shifted out of the second mantissa. -/
def Whole (f1 f2 : Fp) : Prop := f2.m % 2 ^ (f1.e - f2.e).toNat = 0

/-- The larger magnitude gives the sign of a difference, and equal magnitudes give none. -/
inductive Difference (f1 f2 : Fp) : Option Fp → Prop
  | none : f1.magnitude = f2.magnitude → Difference f1 f2 none
  | first {r : Fp} : r.s = f1.s →
      DifferenceOf f1.e (f1.magnitude - f2.magnitude) (Whole f1 f2) r → Difference f1 f2 (some r)
  | second {r : Fp} : r.s = f2.s →
      DifferenceOf f1.e (f2.magnitude - f1.magnitude) (Whole f1 f2) r → Difference f1 f2 (some r)

theorem subOrdered_far (first : f1.Normal) (second : f2.Normal) (ordered : f2.e ≤ f1.e)
    (far : 31 < (f1.e - f2.e).toNat) : Difference f1 f2 (subOrdered f1 f2) := by
  obtain ⟨scale, count, aligned⟩ := scale_exists ordered
  rw [subOrdered, if_pos far]
  rw [count] at far
  have unit := two_zpow_pos (f1.e - 32)
  have below := far_below second.2 far
  have some : 0 < (f2.m : ℚ) / 2 ^ scale := by
    have : 0 < f2.m := lt_of_lt_of_le (by decide) second.1
    positivity
  have low : (2147483648 : ℚ) ≤ f1.m := by exact_mod_cast first.1
  refine .first rfl ?_
  rw [aligned, Fp.magnitude, ← sub_mul]
  clear aligned
  generalize (f2.m : ℚ) / 2 ^ scale = t at below some ⊢
  refine ⟨first, mul_pos (by linarith) unit, ?_, ?_,
    exponent_of_ceil first.exponent (by linarith) (by linarith), ?_, le_refl _, fun whole => ?_⟩
  · exact mul_le_mul_of_nonneg_right (by linarith) unit.le
  · have := mul_lt_mul_of_pos_right (show (f1.m : ℚ) < f1.m - t + 2 by linarith) unit
    rwa [add_mul] at this
  · rw [ceil_units (by linarith) (by linarith)]
    exact first.exponent
  · rw [Whole, count, Nat.mod_eq_of_lt (lt_of_lt_of_le second.2 (Nat.pow_le_pow_right (by decide) far))]
      at whole
    exact absurd whole (by have := second.1; omega)

theorem subOrdered_moved (first : f1.Normal) (second : f2.Normal) (ordered : f2.e ≤ f1.e)
    (near : ¬ 31 < (f1.e - f2.e).toNat) (moved : (f1.e - f2.e).toNat ≠ 0) :
    Difference f1 f2 (subOrdered f1 f2) := by
  obtain ⟨scale, count, aligned⟩ := scale_exists ordered
  rw [count] at near moved
  have half : f2.m >>> scale ≤ f2.m / 2 := by
    rw [Nat.shiftRight_eq_div_pow]
    exact Nat.div_le_div_left (Nat.le_self_pow moved 2) (by decide)
  have less : f2.m >>> scale < f1.m := by
    have := first.1
    have := second.2
    exact lt_of_le_of_lt half (by omega)
  have some : 0 < f1.m - f2.m >>> scale := Nat.sub_pos_of_lt less
  have joined := (or_bit_bounds (f1.m - f2.m >>> scale) (guardBit_le scale f2.m)).1
  rw [subOrdered, count, if_neg near, byMantissa, if_neg (not_lt.mpr less.le)]
  dsimp only
  rw [if_neg (lt_of_lt_of_le some joined).ne']
  refine .first rfl ?_
  rw [aligned, Fp.magnitude, ← sub_mul]
  have rounded := normalized_difference some (lt_of_le_of_lt (Nat.sub_le _ _) first.2)
    (rounded_difference first second moved) (s := f1.s) (e := f1.e)
  refine { rounded with exact := fun whole => rounded.exact ?_ }
  rw [Whole, count] at whole
  rw [guardBit_eq, if_pos whole]

/-- Mantissas of one exponent are subtracted without a rest. -/
theorem aligned_difference {s : Bool} {e : ℤ} {m n : ℕ} (less : n < m) (bits : m < 2 ^ 32) {whole : Prop} :
    DifferenceOf e (m * 2 ^ (e - 32) - n * 2 ^ (e - 32)) whole
      ⟨s, (normalizeUp 32 e (m - n)).1, (normalizeUp 32 e (m - n)).2⟩ := by
  have cast : ((m - n : ℕ) : ℚ) = m - n := Nat.cast_sub less.le
  have positive : (0 : ℚ) < m - n := sub_pos.mpr (by exact_mod_cast less)
  have rounded : Rounded (m - n) 0 ((m : ℚ) - n) :=
    ⟨by decide, by rw [cast], by rw [cast]; linarith, fun _ => cast.symm, by rw [cast]; linarith⟩
  have spec := normalized_difference (s := s) (e := e) (by omega) (by omega) rounded
  rw [Nat.or_zero, sub_mul] at spec
  exact { spec with exact := fun _ => spec.exact rfl }

theorem subOrdered_aligned (first : f1.Normal) (second : f2.Normal) (same : f1.e = f2.e) :
    Difference f1 f2 (subOrdered f1 f2) := by
  have zero : (f1.e - f2.e).toNat = 0 := by omega
  rw [subOrdered, zero, if_neg (by decide)]
  dsimp only
  rw [show guardBit 0 f2.m = 0 from rfl, Nat.or_zero, Nat.shiftRight_zero, byMantissa]
  rcases lt_trichotomy f1.m f2.m with less | equal | greater
  · rw [if_pos less, if_neg (by dsimp only; omega)]
    refine .second rfl ?_
    rw [Fp.magnitude, Fp.magnitude, ← same]
    exact aligned_difference less second.2
  · rw [if_neg (show ¬ f1.m < f2.m by omega), if_pos (by dsimp only; omega)]
    refine .none ?_
    rw [Fp.magnitude, Fp.magnitude, ← same, equal]
  · rw [if_neg (show ¬ f1.m < f2.m by omega), if_neg (by dsimp only; omega)]
    refine .first rfl ?_
    rw [Fp.magnitude, Fp.magnitude, ← same]
    exact aligned_difference greater first.2

theorem subOrdered_spec (first : f1.Normal) (second : f2.Normal) (ordered : f2.e ≤ f1.e) :
    Difference f1 f2 (subOrdered f1 f2) := by
  by_cases far : 31 < (f1.e - f2.e).toNat
  · exact subOrdered_far first second ordered far
  · by_cases moved : (f1.e - f2.e).toNat = 0
    · exact subOrdered_aligned first second (by omega)
    · exact subOrdered_moved first second ordered far moved

end Ordered

section Signed

variable {f1 f2 : Fp}

/-- The sum of two signed numbers before it is packed, where `none` is a zero. -/
def sumCore (f1 f2 : Fp) : Option Fp :=
  if f1.s != f2.s then subCore f1 f2 else some (addCore f1 f2)

/-- The mantissas of one sign have no carry. -/
def Carryless (f1 f2 : Fp) : Prop := f1.m + f2.m / 2 ^ (f1.e - f2.e).toNat < 2 ^ 32

/-- The sum of two numbers of which the first has the larger exponent. -/
inductive CoreSum (f1 f2 : Fp) : Option Fp → Prop
  | zero : f1.s ≠ f2.s → f1.value + f2.value = 0 → CoreSum f1 f2 none
  | sum {r : Fp} : f1.s = f2.s → r.s = decide (f1.value + f2.value < 0) →
      SumOf f1.e |f1.value + f2.value| r →
      (Whole f1 f2 → Carryless f1 f2 → r.magnitude = |f1.value + f2.value|) → CoreSum f1 f2 (some r)
  | difference {r : Fp} : f1.s ≠ f2.s → r.s = decide (f1.value + f2.value < 0) →
      DifferenceOf f1.e |f1.value + f2.value| (Whole f1 f2) r → CoreSum f1 f2 (some r)

theorem decide_of_pos {x : ℚ} (positive : 0 < x) : decide (x < 0) = false :=
  decide_eq_false (not_lt.mpr positive.le)

theorem decide_of_neg {x : ℚ} (positive : 0 < x) : decide (-x < 0) = true :=
  decide_eq_true (neg_lt_zero.mpr positive)

/-- A number and its sign. -/
theorem signed_abs {x : ℚ} (positive : 0 < x) (s : Bool) :
    |if s then -x else x| = x ∧ decide ((if s then -x else x) < 0) = s := by
  cases s with
  | false =>
    rw [if_neg Bool.false_ne_true]
    exact ⟨abs_of_pos positive, decide_of_pos positive⟩
  | true =>
    rw [if_pos rfl, abs_neg]
    exact ⟨abs_of_pos positive, decide_of_neg positive⟩

theorem value_add (same : f1.s = f2.s) :
    f1.value + f2.value = if f1.s then -(f1.magnitude + f2.magnitude) else f1.magnitude + f2.magnitude := by
  unfold Fp.value
  rw [← same]
  split
  · ring
  · rfl

theorem value_sub (other : f1.s ≠ f2.s) :
    f1.value + f2.value = if f1.s then -(f1.magnitude - f2.magnitude) else f1.magnitude - f2.magnitude := by
  unfold Fp.value
  rw [Bool.eq_not_of_ne other.symm]
  cases f1.s with
  | false => simp [sub_eq_add_neg]
  | true => simp [neg_add_eq_sub]

theorem addOrdered_summed (first : f1.Normal) (second : f2.Normal) (ordered : f2.e ≤ f1.e) (same : f1.s = f2.s) :
    CoreSum f1 f2 (some (addOrdered f1 f2)) := by
  obtain ⟨size, sign⟩ := signed_abs (add_pos first.magnitude_pos second.magnitude_pos) f1.s
  rw [← value_add same] at size sign
  refine .sum same ?_ ?_ fun whole fits => ?_
  · rw [sign]
    exact addOrdered_s
  · rw [size]
    exact addOrdered_spec first second ordered
  · rw [size]
    exact addOrdered_exact second.2 ordered whole fits

theorem subOrdered_summed (first : f1.Normal) (second : f2.Normal) (ordered : f2.e ≤ f1.e) (other : f1.s ≠ f2.s) :
    CoreSum f1 f2 (subOrdered f1 f2) := by
  have spec := subOrdered_spec first second ordered
  generalize subOrdered f1 f2 = result at spec ⊢
  cases spec with
  | none equal =>
    refine .zero other ?_
    rw [value_sub other, equal, sub_self]
    simp
  | first s difference =>
    obtain ⟨size, sign⟩ := signed_abs difference.positive f1.s
    rw [← value_sub other] at size sign
    exact .difference other (by rw [sign, s]) (by rwa [size])
  | second s difference =>
    obtain ⟨size, sign⟩ := signed_abs difference.positive f2.s
    rw [← value_sub other.symm, add_comm] at size sign
    exact .difference other (by rw [sign, s]) (by rwa [size])

/-- The order of the operands does not change their sum. -/
theorem byExponent_cases (f1 f2 : Fp) :
    (byExponent f1 f2 = (f1, f2) ∧ f2.e ≤ f1.e) ∨ (byExponent f1 f2 = (f2, f1) ∧ f1.e < f2.e) := by
  unfold byExponent
  by_cases less : f1.e < f2.e
  · exact .inr ⟨if_pos less, less⟩
  · exact .inl ⟨if_neg less, not_lt.mp less⟩

theorem sumCore_ordered (first : f1.Normal) (second : f2.Normal) (ordered : f2.e ≤ f1.e) :
    CoreSum f1 f2 (if f1.s != f2.s then subOrdered f1 f2 else some (addOrdered f1 f2)) := by
  by_cases same : f1.s = f2.s
  · rw [if_neg (by simpa using same)]
    exact addOrdered_summed first second ordered same
  · rw [if_pos (by simpa using same)]
    exact subOrdered_summed first second ordered same

theorem sumCore_spec (first : f1.Normal) (second : f2.Normal) :
    CoreSum (byExponent f1 f2).1 (byExponent f1 f2).2 (sumCore f1 f2) := by
  unfold sumCore subCore addCore
  obtain ⟨order, ordered⟩ | ⟨order, ordered⟩ := byExponent_cases f1 f2
  · rw [order]
    exact sumCore_ordered first second ordered
  · rw [order, bne_comm]
    exact sumCore_ordered second first ordered.le

theorem byExponent_value (f1 f2 : Fp) :
    (byExponent f1 f2).1.value + (byExponent f1 f2).2.value = f1.value + f2.value := by
  obtain ⟨order, -⟩ | ⟨order, -⟩ := byExponent_cases f1 f2
  · rw [order]
  · rw [order, add_comm]

theorem byExponent_e (f1 f2 : Fp) : (byExponent f1 f2).1.e = max f1.e f2.e := by
  obtain ⟨order, ordered⟩ | ⟨order, ordered⟩ := byExponent_cases f1 f2
  · rw [order, max_eq_left ordered]
  · rw [order, max_eq_right ordered.le]

/-- Of two aligned mantissas the order does not matter. -/
theorem byMantissa_swap (f1 f2 : Fp) (other : f1.m ≠ f2.m) : byMantissa f1 f2 = byMantissa f2 f1 := by
  unfold byMantissa
  by_cases less : f1.m < f2.m
  · rw [if_pos less, if_neg (by omega)]
  · rw [if_neg less, if_pos (by omega)]

theorem addOrdered_swap (same : f1.s = f2.s) (aligned : f1.e = f2.e) : addOrdered f1 f2 = addOrdered f2 f1 := by
  unfold addOrdered
  rw [same, aligned, sub_self, Int.toNat_zero, if_neg (by decide), if_neg (by decide)]
  simp only [Nat.shiftRight_zero, show ∀ m, guardBit 0 m = 0 from fun _ => rfl]
  rw [Nat.add_comm]

theorem subOrdered_swap (aligned : f1.e = f2.e) : subOrdered f1 f2 = subOrdered f2 f1 := by
  obtain ⟨s1, e1, m1⟩ := f1
  obtain ⟨s2, e2, m2⟩ := f2
  dsimp only at aligned
  subst aligned
  simp only [subOrdered, sub_self, Int.toNat_zero, Nat.shiftRight_zero,
    show ∀ m, guardBit 0 m = 0 from fun _ => rfl, Nat.or_zero, Nat.not_lt_zero, if_false]
  by_cases same : m1 = m2
  · subst same
    simp [byMantissa]
  · rw [byMantissa_swap _ _ same]

theorem sumCore_comm (f1 f2 : Fp) : sumCore f1 f2 = sumCore f2 f1 := by
  unfold sumCore subCore addCore
  obtain ⟨order, ordered⟩ | ⟨order, ordered⟩ := byExponent_cases f1 f2 <;>
    obtain ⟨swapped, backward⟩ | ⟨swapped, backward⟩ := byExponent_cases f2 f1
  · rw [order, swapped, bne_comm]
    have aligned : f1.e = f2.e := le_antisymm backward ordered
    by_cases same : f1.s = f2.s
    · rw [addOrdered_swap same aligned, subOrdered_swap aligned]
    · rw [subOrdered_swap aligned, if_pos (by simpa using Ne.symm same), if_pos (by simpa using Ne.symm same)]
  · rw [order, swapped, bne_comm]
  · rw [order, swapped, bne_comm]
  · omega

end Signed

section Products

variable {m1 m2 : ℕ}

/-- The product of two mantissas with their first bits set has 63 or 64 bits. -/
theorem normalizeProduct_spec (e : ℤ) (first : 2 ^ 31 ≤ m1 ∧ m1 < 2 ^ 32) (second : 2 ^ 31 ≤ m2 ∧ m2 < 2 ^ 32) :
    (2 ^ 63 ≤ (normalizeProduct (m1 * m2) e).2 ∧ (normalizeProduct (m1 * m2) e).2 < 2 ^ 64) ∧
      ((normalizeProduct (m1 * m2) e).2 : ℚ) * 2 ^ ((normalizeProduct (m1 * m2) e).1 - 64) =
        (m1 * m2 : ℕ) * 2 ^ (e - 64) := by
  have low : 2 ^ 31 * 2 ^ 31 ≤ m1 * m2 := Nat.mul_le_mul first.1 second.1
  have high : m1 * m2 < 2 ^ 32 * 2 ^ 32 := Nat.mul_lt_mul'' first.2 second.2
  have bit : (m1 * m2).testBit 63 = decide (2 ^ 63 ≤ m1 * m2) := by
    rw [Nat.testBit_eq_decide_div_mod_eq, decide_eq_decide]
    omega
  rw [normalizeProduct, bit]
  by_cases top : 2 ^ 63 ≤ m1 * m2
  · rw [decide_eq_true top, if_pos rfl]
    exact ⟨⟨top, high⟩, rfl⟩
  · rw [decide_eq_false top, if_neg Bool.false_ne_true, Nat.shiftLeft_eq]
    refine ⟨⟨by dsimp only; omega, by dsimp only; omega⟩, ?_⟩
    have place : e - 64 = e - 1 - 64 + 1 := by ring
    rw [place, two_zpow_succ]
    push_cast
    ring

/-- Two numbers of one sign have a positive product. -/
theorem decide_mul (f1 f2 : Fp) (first : 0 < f1.magnitude) (second : 0 < f2.magnitude) :
    |f1.value * f2.value| = f1.magnitude * f2.magnitude ∧
      decide (f1.value * f2.value < 0) = (f1.s != f2.s) := by
  rw [abs_mul, Fp.abs_value, Fp.abs_value]
  refine ⟨rfl, ?_⟩
  have positive := mul_pos first second
  unfold Fp.value
  cases f1.s <;> cases f2.s
  · simpa using positive.le
  · simpa using positive
  · simpa using positive
  · simpa using positive.le

theorem decide_div (f1 f2 : Fp) (first : 0 < f1.magnitude) (second : 0 < f2.magnitude) :
    |f2.value / f1.value| = f2.magnitude / f1.magnitude ∧
      decide (f2.value / f1.value < 0) = (f1.s != f2.s) := by
  rw [abs_div, Fp.abs_value, Fp.abs_value]
  refine ⟨rfl, ?_⟩
  have positive := div_pos second first
  unfold Fp.value
  cases f1.s <;> cases f2.s
  · simpa using positive.le
  · simpa [neg_div] using positive
  · simpa [div_neg] using positive
  · simpa using positive.le

theorem magnitude_mul (f1 f2 : Fp) :
    f1.magnitude * f2.magnitude = (f1.m * f2.m : ℕ) * 2 ^ (f1.e + f2.e - 64) := by
  have place : f1.e + f2.e - 64 = f1.e - 32 + (f2.e - 32) := by ring
  rw [Fp.magnitude, Fp.magnitude, place, two_zpow_add, Nat.cast_mul]
  ring

theorem magnitude_div (f1 f2 : Fp) :
    f2.magnitude / f1.magnitude = (f2.m : ℚ) / f1.m * 2 ^ (f2.e - f1.e) := by
  have place : f2.e - 32 = f2.e - f1.e + (f1.e - 32) := by ring
  have unit := two_zpow_pos (f1.e - 32)
  rw [Fp.magnitude, Fp.magnitude, place, two_zpow_add, ← mul_assoc, mul_div_mul_right _ _ unit.ne',
    mul_div_right_comm]

/-- The first 32 bits of a product of 64 bits. -/
structure ProductOf (product : ℚ) (e : ℤ) (m : ℕ) : Prop where
  low : 2 ^ 31 ≤ m
  high : m < 2 ^ 32
  exponent : HasExponent product e
  truncated : (m : ℤ) = ⌊product / 2 ^ (e - 32)⌋

theorem truncated_product (e : ℤ) (first : 2 ^ 31 ≤ m1 ∧ m1 < 2 ^ 32) (second : 2 ^ 31 ≤ m2 ∧ m2 < 2 ^ 32) :
    ProductOf ((m1 * m2 : ℕ) * 2 ^ (e - 64)) (normalizeProduct (m1 * m2) e).1
      ((normalizeProduct (m1 * m2) e).2 >>> 32) := by
  obtain ⟨⟨low, high⟩, equal⟩ := normalizeProduct_spec e first second
  rw [← equal]
  generalize (normalizeProduct (m1 * m2) e).1 = e3 at *
  generalize (normalizeProduct (m1 * m2) e).2 = product at *
  rw [Nat.shiftRight_eq_div_pow]
  refine ⟨by omega, by omega, hasExponent_mantissa e3 (by norm_num; omega) (by norm_num; omega), ?_⟩
  have place : e3 - 64 = e3 - 32 - (32 : ℕ) := by
    push_cast
    ring
  have unit := two_zpow_pos (e3 - 32)
  rw [place, zpow_sub₀ (by norm_num), two_zpow_natCast, mul_div_assoc', div_right_comm,
    mul_div_cancel_right₀ _ unit.ne', eq_comm]
  exact_mod_cast Rat.floor_natCast_div_natCast product (2 ^ 32)

end Products

section Quotients

variable {m1 m2 : ℕ}

/-- The quotient of the naturals is rounded up. -/
theorem ceilQuotient_bounds (dividend : ℕ) {divisor : ℕ} (some : 0 < divisor) :
    (dividend : ℚ) / divisor ≤ ceilQuotient dividend divisor ∧
      (ceilQuotient dividend divisor : ℚ) < dividend / divisor + 1 := by
  have bounds := natDiv_bounds dividend divisor
  have whole := natDiv_exact_iff (m := dividend) some
  unfold ceilQuotient
  by_cases none : dividend % divisor = 0
  · rw [if_neg (not_not.mpr none), whole.mpr none]
    exact ⟨le_refl _, by linarith⟩
  · have rest := lt_of_le_of_ne bounds.1 fun same => none (whole.mp same.symm)
    rw [if_pos none]
    push_cast
    exact ⟨bounds.2.le, by linarith⟩

/-- A quotient in units of the last place of its rounded value. -/
structure QuotientOf (quotient : ℚ) (e : ℤ) (m : ℕ) : Prop where
  low : 2 ^ 31 ≤ m
  high : m < 2 ^ 32
  exponent : HasExponent quotient e
  above : (m : ℚ) * 2 ^ (e - 32) < quotient + 2 ^ (e - 32)
  below : quotient < m * 2 ^ (e - 32) + 2 ^ (e - 32)

/-- A quotient below one is at least one unit below it. -/
theorem quotient_range (first : 2 ^ 31 ≤ m1 ∧ m1 < 2 ^ 32) (second : 2 ^ 31 ≤ m2 ∧ m2 < 2 ^ 32) :
    (2147483648 : ℚ) < (m2 <<< 32 : ℕ) / m1 ∧ ((m2 <<< 32 : ℕ) : ℚ) / m1 ≤ (8589934590 : ℚ) ∧
      (((m2 <<< 32 : ℕ) : ℚ) / m1 < (4294967296 : ℚ) → ((m2 <<< 32 : ℕ) : ℚ) / m1 < (4294967295 : ℚ)) := by
  have some : 0 < m1 := lt_of_lt_of_le (by decide) first.1
  have positive : (0 : ℚ) < m1 := by exact_mod_cast some
  rw [lt_div_iff₀ positive, div_le_iff₀ positive, div_lt_iff₀ positive, div_lt_iff₀ positive,
    Nat.shiftLeft_eq]
  norm_cast
  omega

theorem quotient_units (e : ℤ) :
    (m2 : ℚ) / m1 * (2 : ℚ) ^ e = (m2 <<< 32 : ℕ) / m1 * (2 : ℚ) ^ (e - 32) := by
  have place : e - 32 + ((32 : ℕ) : ℤ) = e := by ring
  have shifted : ((m2 <<< 32 : ℕ) : ℚ) = m2 * 2 ^ 32 := by
    rw [Nat.shiftLeft_eq]
    exact_mod_cast rfl
  rw [← scaled_down _ (e - 32) 32, place, shifted, div_right_comm, mul_div_cancel_right₀]
  positivity

theorem normalizeQuotient_spec (e : ℤ) (first : 2 ^ 31 ≤ m1 ∧ m1 < 2 ^ 32) (second : 2 ^ 31 ≤ m2 ∧ m2 < 2 ^ 32) :
    QuotientOf ((m2 : ℚ) / m1 * 2 ^ e) (normalizeQuotient (ceilQuotient (m2 <<< 32) m1) e).1
      (normalizeQuotient (ceilQuotient (m2 <<< 32) m1) e).2 := by
  have some : 0 < m1 := lt_of_lt_of_le (by decide) first.1
  have positive : (0 : ℚ) < m1 := by exact_mod_cast some
  obtain ⟨floor, ceil⟩ := ceilQuotient_bounds (m2 <<< 32) some
  have unit := two_zpow_pos (e - 32)
  rw [quotient_units]
  obtain ⟨low, high, less⟩ := quotient_range first second
  generalize ceilQuotient (m2 <<< 32) m1 = quotient at floor ceil ⊢
  generalize ((m2 <<< 32 : ℕ) : ℚ) / m1 = x at floor ceil low high less ⊢
  have least : 2 ^ 31 ≤ quotient := by
    have : (2147483648 : ℚ) < quotient := by linarith
    exact_mod_cast this.le
  unfold normalizeQuotient
  by_cases carry : 0x100000000 ≤ quotient
  · have reached : (4294967296 : ℚ) ≤ quotient := by exact_mod_cast carry
    have greatest : quotient ≤ 8589934591 := by
      have : (quotient : ℚ) < 8589934592 := by linarith
      have : quotient < 8589934592 := by exact_mod_cast this
      omega
    have one : 4294967296 ≤ x := by
      by_contra small
      linarith [less (not_le.mp small)]
    have twice := place_above e
    have halved : x * 2 ^ (e - 32) = x / 2 * 2 ^ (e + 1 - 32) := by
      rw [twice]
      ring
    have even : ((quotient / 2 : ℕ) : ℚ) * 2 ≤ quotient := by
      have : quotient / 2 * 2 ≤ quotient := by omega
      exact_mod_cast this
    have odd : (quotient : ℚ) ≤ ((quotient / 2 : ℕ) : ℚ) * 2 + 1 := by
      have : quotient ≤ quotient / 2 * 2 + 1 := by omega
      exact_mod_cast this
    rw [if_pos carry, Nat.shiftRight_eq_div_pow, pow_one, halved]
    have wide := two_zpow_pos (e + 1 - 32)
    refine ⟨by dsimp only; omega, by dsimp only; omega, exponent_units (by linarith) (by linarith), ?_, ?_⟩
    · have := mul_lt_mul_of_pos_right (show ((quotient / 2 : ℕ) : ℚ) < x / 2 + 1 by linarith) wide
      linarith
    · have := mul_lt_mul_of_pos_right (show x / 2 < ((quotient / 2 : ℕ) : ℚ) + 1 by linarith) wide
      linarith
  · rw [if_neg carry]
    have last : (quotient : ℚ) < 4294967296 := by exact_mod_cast not_le.mp carry
    refine ⟨least, not_le.mp carry, exponent_units (by linarith) (by linarith), ?_, ?_⟩
    · have := mul_lt_mul_of_pos_right ceil unit
      linarith
    · have := mul_le_mul_of_nonneg_right floor unit.le
      linarith

end Quotients

end Nd100x
