import Nd100x.Proof.FloatIntegers

namespace Nd100x

open Library

namespace Fp32

/-- The nine bits of the exponent. -/
def field (w : Fp32) : ℕ := ((w.a >>> 6) &&& 0x1FF).toNat

/-- A mantissa of 23 bits lies between one half and one, and the exponent has the bias 256. -/
def value (w : Fp32) : ℚ :=
  if w = zero then 0 else (if w.a.getLsbD 15 then (-1 : ℚ) else 1) * (mant23 w * 2 ^ ((w.field : ℤ) - 256 - 23))

end Fp32

section Words

variable {w : Fp32}

theorem field_eq (w : Fp32) : w.field = w.a.toNat / 64 % 512 := by
  rw [Fp32.field, BitVec.toNat_and, BitVec.toNat_ushiftRight, Nat.shiftRight_eq_div_pow]
  exact Nat.and_two_pow_sub_one_eq_mod _ 9

theorem field_lt (w : Fp32) : w.field < 512 := by
  rw [field_eq]
  omega

theorem sign_eq (w : Fp32) : w.a.getLsbD 15 = decide (2 ^ 15 ≤ w.a.toNat) := by
  have bits := w.a.isLt
  rw [BitVec.getLsbD, Nat.testBit_eq_decide_div_mod_eq, decide_eq_decide]
  omega

theorem mant23_eq (w : Fp32) : mant23 w = 2 ^ 22 + w.a.toNat % 64 * 2 ^ 16 + w.d.toNat := by
  have low := w.d.isLt
  have high : w.a.toNat % 64 * 2 ^ 16 + w.d.toNat < 2 ^ 22 := by omega
  have masked : (w.a &&& 0x3F).toNat = w.a.toNat % 64 := by
    rw [BitVec.toNat_and]
    exact Nat.and_two_pow_sub_one_eq_mod _ 6
  rw [mant23, masked, Nat.one_shiftLeft, Nat.shiftLeft_eq, Nat.or_assoc, Nat.mul_comm (w.a.toNat % 64),
    ← Nat.two_pow_add_eq_or_of_lt low, ← Nat.mul_one (2 ^ 22), Nat.mul_comm (2 ^ 16), add_assoc,
    Nat.two_pow_add_eq_or_of_lt high]

theorem mant23_range (w : Fp32) : 2 ^ 22 ≤ mant23 w ∧ mant23 w < 2 ^ 23 := by
  have low := w.d.isLt
  rw [mant23_eq]
  omega

/-- The words of a number that is not zero. -/
theorem mkfp32_eq (some : w ≠ Fp32.zero) : mkfp32 w = ⟨w.a.getLsbD 15, w.field - 257, mant23 w <<< 9⟩ := by
  have words : ¬ (w.a = 0 ∧ w.d = 0) := by
    rintro ⟨high, low⟩
    obtain ⟨a, d⟩ := w
    dsimp only at high low
    exact some (by rw [high, low, Fp32.zero])
  rw [mkfp32, if_neg words]
  rfl

theorem mkfp32_zero : mkfp32 Fp32.zero = ⟨false, 0, 0⟩ := rfl

/-- What the cores need to know about an operand. -/
structure Short (f : Fp) : Prop where
  normal : f.Normal
  low : -257 ≤ f.e
  high : f.e ≤ 254
  rest : f.m % 2 ^ 9 = 0

theorem mkfp32_short (some : w ≠ Fp32.zero) : Short (mkfp32 w) := by
  have range := mant23_range w
  have field := field_lt w
  rw [mkfp32_eq some]
  refine ⟨⟨?_, ?_⟩, ?_, ?_, ?_⟩ <;> dsimp only
  · rw [Nat.shiftLeft_eq]
    omega
  · rw [Nat.shiftLeft_eq]
    omega
  · omega
  · omega
  · rw [Nat.shiftLeft_eq, Nat.mul_mod_left]

theorem moved_mantissa (m : ℕ) (e : ℤ) : ((m <<< 9 : ℕ) : ℚ) * 2 ^ (e - 32) = m * 2 ^ (e - 23) := by
  have place : e - 23 = e - 32 + (9 : ℕ) := by
    push_cast
    ring
  have moved : ((m <<< 9 : ℕ) : ℚ) = m * 2 ^ 9 := by
    rw [Nat.shiftLeft_eq]
    exact_mod_cast rfl
  rw [moved, place, two_zpow_add, two_zpow_natCast]
  ring

theorem short_value (s : Bool) (e : ℤ) (m : ℕ) :
    (⟨s, e, m <<< 9⟩ : Fp).value = (if s then (-1 : ℚ) else 1) * (m * 2 ^ (e - 23)) := by
  have moved := moved_mantissa m e
  cases s with
  | false => exact moved.trans (one_mul _).symm
  | true => exact (congrArg Neg.neg moved).trans (neg_one_mul _).symm

theorem twice_place (e : ℤ) : (2 : ℚ) ^ (e - 256 - 23) = 2 * 2 ^ (e - 257 - 23) := by
  rw [← two_zpow_succ]
  congr 1
  ring

/-- The exponent of the cores is smaller by one. -/
theorem value_eq (w : Fp32) : w.value = 2 * (mkfp32 w).value := by
  by_cases zero : w = Fp32.zero
  · rw [zero, Fp32.value, if_pos rfl, mkfp32_zero]
    simp [Fp.value, Fp.magnitude]
  · rw [Fp32.value, if_neg zero, mkfp32_eq zero, short_value, twice_place]
    ring

end Words

section Packing

/-- The words that hold a sign, an exponent field and a mantissa. -/
def shortWord (s : Bool) (field mant : ℕ) : Fp32 :=
  ⟨(if s then (0x8000 : Word) else 0) ||| (BitVec.ofNat 16 (field &&& 0x1FF) <<< 6) ||| (BitVec.ofNat 16 (mant >>> 16) &&& 0x3F),
    BitVec.ofNat 16 (mant &&& 0xFFFF)⟩

variable {s : Bool} {field mant : ℕ}

theorem shortWord_a (small : field < 512) (bits : mant < 2 ^ 23) :
    (shortWord s field mant).a.toNat = (if s then 2 ^ 15 else 0) + field * 2 ^ 6 + mant / 2 ^ 16 % 64 := by
  have masked : field &&& 0x1FF = field := by
    rw [Nat.and_two_pow_sub_one_eq_mod field 9, Nat.mod_eq_of_lt small]
  have middle : (BitVec.ofNat 16 field <<< 6).toNat = 2 ^ 6 * field := by
    rw [BitVec.toNat_shiftLeft, BitVec.toNat_ofNat, Nat.shiftLeft_eq, Nat.mod_eq_of_lt (show field < 2 ^ 16 by omega),
      Nat.mul_comm, Nat.mod_eq_of_lt (by omega)]
  have lower : (BitVec.ofNat 16 (mant >>> 16) &&& 0x3F).toNat = mant / 2 ^ 16 % 64 := by
    rw [BitVec.toNat_and, BitVec.toNat_ofNat, Nat.shiftRight_eq_div_pow, Nat.mod_eq_of_lt (by omega)]
    exact Nat.and_two_pow_sub_one_eq_mod _ 6
  have sign : (if s then (0x8000 : Word) else 0).toNat = 2 ^ 15 * (if s then 1 else 0) := by
    cases s <;> rfl
  have low : mant / 2 ^ 16 % 64 < 2 ^ 6 := by omega
  have high : 2 ^ 6 * field + mant / 2 ^ 16 % 64 < 2 ^ 15 := by omega
  unfold shortWord
  dsimp only
  rw [masked, BitVec.toNat_or, BitVec.toNat_or, middle, lower, sign, Nat.or_assoc,
    ← Nat.two_pow_add_eq_or_of_lt low, ← Nat.two_pow_add_eq_or_of_lt high]
  cases s
  · rw [if_neg Bool.false_ne_true, if_neg Bool.false_ne_true]
    omega
  · rw [if_pos rfl, if_pos rfl]
    omega

theorem shortWord_d (s : Bool) (field mant : ℕ) : (shortWord s field mant).d.toNat = mant % 2 ^ 16 := by
  have masked : mant &&& 0xFFFF = mant % 2 ^ 16 := Nat.and_two_pow_sub_one_eq_mod mant 16
  unfold shortWord
  dsimp only
  rw [BitVec.toNat_ofNat, masked]
  omega

/-- The fields of a packed number are read back. -/
theorem shortWord_read (s : Bool) (small : field < 512) (some : 0 < field) (low : 2 ^ 22 ≤ mant) (bits : mant < 2 ^ 23) :
    shortWord s field mant ≠ Fp32.zero ∧ (shortWord s field mant).a.getLsbD 15 = s ∧
      (shortWord s field mant).field = field ∧ mant23 (shortWord s field mant) = mant := by
  have upper := shortWord_a (s := s) small bits
  have lower := shortWord_d s field mant
  refine ⟨fun zero => ?_, ?_, ?_, ?_⟩
  · rw [zero] at upper
    have none : Fp32.zero.a.toNat = 0 := rfl
    omega
  · rw [sign_eq, upper]
    cases s
    · rw [if_neg Bool.false_ne_true, decide_eq_false (by omega)]
    · rw [if_pos rfl, decide_eq_true (by omega)]
  · rw [field_eq, upper]
    split <;> omega
  · rw [mant23_eq, upper, lower]
    split <;> omega

theorem packField_eq {eb : ℤ} (some : 0 < eb) : packField s eb mant = shortWord s (min eb 511).toNat mant := by
  unfold packField shortWord
  rw [if_neg (not_le.mpr some)]
  by_cases large : (0x1FF : ℤ) < eb
  · rw [if_pos large, min_eq_right (by omega)]
    rfl
  · rw [if_neg large, min_eq_left (by omega)]

/-- A number whose first bit is set is packed without a move. -/
theorem pack32_eq {f : Fp} (normal : f.Normal) : pack32 f = packField f.s (f.e + 257) (f.m >>> 9) := by
  have some : f.m ≠ 0 := (lt_of_lt_of_le (Nat.two_pow_pos 31) normal.1).ne'
  have last : ¬ 0xFFFFFFFF < f.m := by
    have := normal.2
    omega
  have down : normalizeDown 40 f.e f.m = (f.e, f.m) := by rw [normalizeDown, if_neg last]
  have up : normalizeUp 40 f.e f.m = (f.e, f.m) := by
    rw [normalizeUp, testBit_top normal.2, decide_eq_true normal.1, if_pos rfl]
  unfold pack32
  rw [if_neg some]
  dsimp only
  rw [down]
  dsimp only
  rw [up]
  rfl

end Packing

section Near

/-- A core leaves a number of 32 bits within a few of its units. Its exponent exceeds the exponent
of the number only far above the smallest exponents. -/
structure NearTo (x : ℚ) (r : Fp) : Prop where
  normal : r.Normal
  sign : r.s = decide (x < 0)
  exponent : HasExponent x r.e ∨ (HasExponent x (r.e - 1) ∧ -247 ≤ r.e)
  above : r.magnitude < |x| + 8 * r.ulp
  below : |x| < r.magnitude + r.ulp

/-- A result has the sign of the exact number. Its field decides between its value, the word that
stands for a number below the range and the largest field. -/
structure ShortResult (exact : ℚ) (under : Fp32) (r : Fp32) : Prop where
  none : exact = 0 → r = Fp32.zero
  near : ∀ e, HasExponent exact e → 1 ≤ e + 256 → e + 256 ≤ 510 →
    |r.value - exact| ≤ 2 ^ (e - 23) ∧ r.a.getLsbD 15 = decide (exact < 0)
  below : ∀ e, HasExponent exact e → e + 256 ≤ 0 → r = under
  above : ∀ e, HasExponent exact e → 511 ≤ e + 256 → r.field = 511 ∧ r.a.getLsbD 15 = decide (exact < 0)

variable {x : ℚ} {r : Fp}

theorem double_exponent {e : ℤ} (exponent : HasExponent (2 * x) e) : HasExponent x (e - 1) := by
  have size : |2 * x| = 2 * |x| := by rw [abs_mul, abs_of_pos (by norm_num)]
  have low := exponent.1
  have high := exponent.2
  have twice : (2 : ℚ) ^ e = 2 * 2 ^ (e - 1) := by rw [← two_zpow_succ, sub_add_cancel]
  have twice' : (2 : ℚ) ^ (e - 1) = 2 * 2 ^ (e - 1 - 1) := by rw [← two_zpow_succ, sub_add_cancel]
  rw [size] at low high
  exact ⟨by linarith, by linarith⟩

/-- The mantissa without its last nine bits. -/
theorem truncated_mantissa (near : NearTo x r) :
    2 ^ 22 ≤ r.m >>> 9 ∧ r.m >>> 9 < 2 ^ 23 ∧ (r.m >>> 9 : ℕ) * 512 ≤ r.m ∧ r.m ≤ (r.m >>> 9) * 512 + 511 := by
  have low := near.normal.1
  have high := near.normal.2
  rw [Nat.shiftRight_eq_div_pow]
  omega

/-- The last nine bits are less than one unit of the last place that is kept. -/
theorem truncated_near (near : NearTo x r) {e : ℤ} (exponent : HasExponent x e) :
    |((r.m >>> 9 : ℕ) : ℚ) * 2 ^ (r.e - 23) - (|x|)| ≤ 2 ^ (e - 23) := by
  obtain ⟨first, -, floor, ceil⟩ := truncated_mantissa near
  generalize r.m >>> 9 = m at *
  have unit := r.ulp_pos
  have place : (2 : ℚ) ^ (r.e - 23) = 512 * r.ulp := by
    have split : r.e - 23 = r.e - 32 + (9 : ℕ) := by
      push_cast
      ring
    rw [split, two_zpow_add, two_zpow_natCast, Fp.ulp]
    ring
  have above := near.above
  have below := near.below
  have low : (m : ℚ) * 512 ≤ r.m := by exact_mod_cast floor
  have high : (r.m : ℚ) ≤ m * 512 + 511 := by exact_mod_cast ceil
  have lower := mul_le_mul_of_nonneg_right low unit.le
  have upper := mul_le_mul_of_nonneg_right high unit.le
  rw [Fp.magnitude_eq] at above below
  rcases near.exponent with same | ⟨smaller, -⟩
  · rw [exponent.unique same, place, abs_le]
    constructor <;> linarith
  · have half : (2 : ℚ) ^ (e - 23) = 256 * r.ulp := by
      have twice : (2 : ℚ) ^ (r.e - 23) = 2 * 2 ^ (r.e - 1 - 23) := by
        rw [← two_zpow_succ]
        congr 1
        ring
      rw [exponent.unique smaller]
      linarith
    have top : |x| ≤ m * 512 * r.ulp := by
      have least : (4194304 : ℚ) ≤ m := by exact_mod_cast first
      have reach : (2 : ℚ) ^ (r.e - 1) = 4194304 * (512 * r.ulp) := by
        have split : r.e - 1 = r.e - 23 + (22 : ℕ) := by
          push_cast
          ring
        rw [split, two_zpow_add, two_zpow_natCast, place]
        ring
      have := mul_le_mul_of_nonneg_right least (show (0 : ℚ) ≤ 512 * r.ulp by positivity)
      linarith [smaller.2]
    rw [half, place, abs_le]
    constructor <;> linarith

/-- The words of a packed number whose exponent is in the range. -/
theorem pack32_read (near : NearTo x r) (some : 0 < r.e + 257) :
    (pack32 r).a.getLsbD 15 = decide (x < 0) ∧ ((pack32 r).field : ℤ) = min (r.e + 257) 511 ∧
      (pack32 r).value = (if x < 0 then (-1 : ℚ) else 1) * ((r.m >>> 9 : ℕ) * 2 ^ (min (r.e + 257) 511 - 256 - 23)) := by
  obtain ⟨low, high, -, -⟩ := truncated_mantissa near
  have field : ((min (r.e + 257) 511).toNat : ℤ) = min (r.e + 257) 511 := Int.toNat_of_nonneg (by omega)
  have small : (min (r.e + 257) 511).toNat < 512 := by omega
  obtain ⟨other, sign, place, mantissa⟩ := shortWord_read r.s small (by omega) low high
  rw [pack32_eq near.normal, packField_eq some]
  refine ⟨by rw [sign, near.sign], by rw [place, field], ?_⟩
  rw [Fp32.value, if_neg other, sign, place, mantissa, field, near.sign]
  by_cases negative : x < 0
  · rw [if_pos (decide_eq_true negative), if_pos negative]
  · rw [if_neg (by simpa using negative), if_neg negative]

theorem signed_near (x y : ℚ) : |(if x < 0 then (-1 : ℚ) else 1) * y - x| = |y - (|x|)| := by
  by_cases negative : x < 0
  · rw [if_pos negative, abs_of_neg negative, ← abs_neg]
    congr 1
    ring
  · rw [if_neg negative, abs_of_nonneg (not_lt.mp negative), one_mul]

theorem pack32_result (near : NearTo x r) : ShortResult (2 * x) Fp32.zero (pack32 r) := by
  have negative : decide (2 * x < 0) = decide (x < 0) := decide_eq_decide.mpr (by constructor <;> intro <;> linarith)
  refine ⟨fun none => ?_, fun e exponent low high => ?_, fun e exponent under => ?_, fun e exponent above => ?_⟩
  · have zero : x = 0 := by linarith
    exact absurd zero (near.exponent.elim HasExponent.ne_zero fun both => both.1.ne_zero)
  · have half := double_exponent exponent
    have place : r.e = e - 1 ∨ r.e - 1 = e - 1 := near.exponent.imp (fun same => same.unique half)
      fun both => both.1.unique half
    obtain ⟨sign, -, value⟩ := pack32_read near (by omega)
    have bound := truncated_near near half
    have twice : (2 : ℚ) ^ (e - 23) = 2 * 2 ^ (e - 1 - 23) := by
      rw [← two_zpow_succ]
      congr 1
      ring
    have units : (2 : ℚ) ^ (min (r.e + 257) 511 - 256 - 23) = 2 * 2 ^ (r.e - 23) := by
      rw [← two_zpow_succ]
      congr 1
      omega
    refine ⟨?_, by rw [sign, negative]⟩
    generalize ((r.m >>> 9 : ℕ) : ℚ) = m at value bound
    have product : (if x < 0 then (-1 : ℚ) else 1) * (m * (2 * 2 ^ (r.e - 23))) - 2 * x =
        2 * ((if x < 0 then (-1 : ℚ) else 1) * (m * 2 ^ (r.e - 23)) - x) := by ring
    rw [value, units, twice, product, abs_mul, abs_of_pos (by norm_num), signed_near]
    linarith
  · have half := double_exponent exponent
    have place : r.e = e - 1 := by
      rcases near.exponent with same | ⟨smaller, far⟩
      · exact same.unique half
      · have := smaller.unique half
        omega
    rw [pack32_eq near.normal, packField, if_pos (by omega)]
  · have half := double_exponent exponent
    have place : r.e = e - 1 ∨ r.e - 1 = e - 1 := near.exponent.imp (fun same => same.unique half)
      fun both => both.1.unique half
    obtain ⟨sign, field, -⟩ := pack32_read near (by omega)
    exact ⟨by omega, by rw [sign, negative]⟩

end Near

section ShortOperations

variable {f1 f2 : Fp}

theorem Short.magnitude_lt (short : Short f1) : f1.magnitude < 2 ^ f1.e := by
  have high := short.normal.exponent.2
  rwa [abs_of_nonneg f1.magnitude_nonneg] at high

theorem Short.le_magnitude (short : Short f1) : 2 ^ (f1.e - 1) ≤ f1.magnitude := by
  have low := short.normal.exponent.1
  rwa [abs_of_nonneg f1.magnitude_nonneg] at low

/-- A one-bit is shifted out by ten places at least, so that the difference keeps all but one of the
places. -/
theorem difference_large (first : Short f1) (second : Short f2) (other : f1.s ≠ f2.s) (rest : ¬ Whole f1 f2) :
    f2.e + 10 ≤ f1.e ∧ 2 ^ (f1.e - 2) ≤ |f1.value + f2.value| := by
  have apart : f2.e + 10 ≤ f1.e := by
    by_contra near
    have shift : (f1.e - f2.e).toNat ≤ 9 := by omega
    exact rest (Nat.mod_eq_zero_of_dvd ((pow_dvd_pow 2 shift).trans (Nat.dvd_of_mod_eq_zero second.rest)))
  refine ⟨apart, ?_⟩
  have small := second.magnitude_lt
  have large := first.le_magnitude
  have below : (2 : ℚ) ^ f2.e ≤ 2 ^ (f1.e - 2) := two_zpow_le (by omega)
  have twice : (2 : ℚ) ^ (f1.e - 1) = 2 * 2 ^ (f1.e - 2) := by
    rw [← two_zpow_succ]
    congr 1
    ring
  have positive : 0 < f1.magnitude - f2.magnitude := by linarith [two_zpow_pos (f1.e - 2)]
  rw [value_sub other, (signed_abs positive f1.s).1]
  linarith

theorem difference_near (first : Short f1) (second : Short f2) (other : f1.s ≠ f2.s) {r : Fp}
    (sign : r.s = decide (f1.value + f2.value < 0))
    (difference : DifferenceOf f1.e |f1.value + f2.value| (Whole f1 f2) r) : NearTo (f1.value + f2.value) r := by
  have unit := r.ulp_pos
  by_cases whole : Whole f1 f2
  · have exact := difference.exact whole
    have exponent := difference.normal.exponent
    rw [exact] at exponent
    refine ⟨difference.normal, sign, .inl exponent.of_abs, ?_, ?_⟩
    · rw [exact]
      linarith
    · rw [exact]
      linarith
  · obtain ⟨apart, large⟩ := difference_large first second other whole
    have least := second.low
    have near : f1.e - 1 ≤ r.e := by
      rcases difference.exponent with same | above
      · have := same.of_abs.le_iff.mp large
        omega
      · have := above.of_abs.le_iff.mp large
        omega
    refine ⟨difference.normal, sign, ?_, ?_, by linarith [difference.below]⟩
    · refine difference.exponent.imp HasExponent.of_abs fun above => ⟨above.of_abs, ?_⟩
      have := above.of_abs.le_iff.mp large
      omega
    · have wide : (2 : ℚ) ^ (f1.e - 32) ≤ 2 * r.ulp := by
        rw [Fp.ulp, ← two_zpow_succ]
        exact two_zpow_le (by omega)
      linarith [difference.above]

theorem sum_near {r : Fp} (sign : r.s = decide (f1.value + f2.value < 0))
    (sum : SumOf f1.e |f1.value + f2.value| r) : NearTo (f1.value + f2.value) r := by
  have unit := r.ulp_pos
  have narrow : (2 : ℚ) ^ (f1.e - 32) ≤ r.ulp := two_zpow_le (by have := sum.place; omega)
  exact ⟨sum.normal, sign, .inl sum.exponent.of_abs, by linarith [sum.above], sum.below⟩

/-- The sum of two numbers, its zero included, is packed near the exact sum. -/
theorem sumCore_result (first : Short f1) (second : Short f2) :
    ShortResult (2 * (f1.value + f2.value)) Fp32.zero ((sumCore f1 f2).elim Fp32.zero pack32) := by
  have spec := sumCore_spec first.normal second.normal
  have shorts : Short (byExponent f1 f2).1 ∧ Short (byExponent f1 f2).2 := by
    obtain ⟨order, -⟩ | ⟨order, -⟩ := byExponent_cases f1 f2
    · rw [order]
      exact ⟨first, second⟩
    · rw [order]
      exact ⟨second, first⟩
  rw [← byExponent_value]
  generalize (byExponent f1 f2).1 = g1 at *
  generalize (byExponent f1 f2).2 = g2 at *
  generalize sumCore f1 f2 = result at *
  cases spec with
  | zero other none =>
    rw [none, mul_zero]
    have never : ∀ e, ¬ HasExponent (0 : ℚ) e := fun e exponent => exponent.ne_zero rfl
    exact ⟨fun _ => rfl, fun e exponent => absurd exponent (never e), fun e exponent => absurd exponent (never e),
      fun e exponent => absurd exponent (never e)⟩
  | sum same sign sum => exact pack32_result (sum_near sign sum)
  | difference other sign difference =>
    exact pack32_result (difference_near shorts.1 shorts.2 other sign difference)

variable {a b w : Fp32}

theorem mkfp32_m (w : Fp32) : (mkfp32 w).m = 0 ↔ w = Fp32.zero := by
  by_cases zero : w = Fp32.zero
  · rw [zero]
    exact iff_of_true rfl rfl
  · exact iff_of_false (lt_of_lt_of_le (Nat.two_pow_pos 31) (mkfp32_short zero).normal.1).ne' zero

theorem ShortResult.zero (under : Fp32) : ShortResult 0 under Fp32.zero := by
  have never : ∀ e, ¬ HasExponent (0 : ℚ) e := fun e exponent => exponent.ne_zero rfl
  exact ⟨fun _ => rfl, fun e exponent => absurd exponent (never e), fun e exponent => absurd exponent (never e),
    fun e exponent => absurd exponent (never e)⟩

/-- The sign and the exponent of an operand are those of its value. -/
theorem value_fields (some : w ≠ Fp32.zero) :
    HasExponent w.value (w.field - 256) ∧ w.a.getLsbD 15 = decide (w.value < 0) := by
  obtain ⟨low, high⟩ := mant23_range w
  have first : (4194304 : ℚ) ≤ mant23 w := by exact_mod_cast low
  have last : (mant23 w : ℚ) < 8388608 := by exact_mod_cast high
  have exponent : HasExponent ((mant23 w : ℚ) * 2 ^ ((w.field : ℤ) - 256 - 23)) (w.field - 256) :=
    hasExponent_mantissa _ (by norm_num; exact low) (by norm_num; exact high)
  have positive : (0 : ℚ) < mant23 w * 2 ^ ((w.field : ℤ) - 256 - 23) :=
    mul_pos (by linarith) (two_zpow_pos _)
  rw [Fp32.value, if_neg some]
  cases w.a.getLsbD 15 with
  | false =>
    rw [if_neg Bool.false_ne_true, one_mul]
    exact ⟨exponent, (decide_of_pos positive).symm⟩
  | true =>
    rw [if_pos rfl, neg_one_mul]
    refine ⟨?_, (decide_of_neg positive).symm⟩
    rw [HasExponent, abs_neg]
    exact exponent

/-- An operand is a result for its own value. -/
theorem operand_result (w : Fp32) : ShortResult w.value w w := by
  by_cases zero : w = Fp32.zero
  · have none : w.value = 0 := by rw [Fp32.value, if_pos zero]
    rw [none, zero]
    exact .zero _
  · obtain ⟨exponent, sign⟩ := value_fields zero
    have bits := field_lt w
    refine ⟨fun none => absurd none exponent.ne_zero, fun e _ _ _ => ⟨?_, sign⟩, fun _ _ _ => rfl,
      fun e other above => ⟨?_, sign⟩⟩
    · rw [sub_self, abs_zero]
      exact (two_zpow_pos _).le
    · have := exponent.unique other
      omega

theorem sum32_eq (f1 f2 : Fp) : sum32 f1 f2 = (sumCore f1 f2).elim Fp32.zero pack32 := by
  unfold sum32 sumCore
  split
  · cases subCore f1 f2 <;> rfl
  · rfl

/-- The word of the other sign. -/
def Fp32.neg (w : Fp32) : Fp32 := ⟨w.a ^^^ 0x8000, w.d⟩

theorem neg_sign (w : Fp32) : w.neg.a.getLsbD 15 = !w.a.getLsbD 15 := by
  have top : (0x8000 : Word).getLsbD 15 = true := by decide
  rw [Fp32.neg, BitVec.getLsbD_xor, top, Bool.xor_true]

theorem neg_low (w : Fp32) : w.neg.a.toNat % 2 ^ 15 = w.a.toNat % 2 ^ 15 := by
  have none : (0x8000 : Word).toNat % 2 ^ 15 = 0 := rfl
  rw [Fp32.neg, BitVec.toNat_xor, Nat.xor_mod_two_pow, none, Nat.xor_zero]

theorem neg_field (w : Fp32) : w.neg.field = w.field ∧ mant23 w.neg = mant23 w := by
  have low := neg_low w
  have rest : w.neg.d = w.d := rfl
  rw [field_eq, field_eq, mant23_eq, mant23_eq, rest]
  omega

/-- The other sign gives the negative value, except where it gives the zero. -/
theorem neg_result (some : w ≠ Fp32.zero) : ShortResult (-w.value) w.neg w.neg := by
  obtain ⟨exponent, -⟩ := value_fields some
  obtain ⟨field, mantissa⟩ := neg_field w
  have opposite : HasExponent (-w.value) (w.field - 256) := by
    rw [HasExponent, abs_neg]
    exact exponent
  by_cases zero : w.neg = Fp32.zero
  · have least : w.field = 0 := by
      rw [← field, zero]
      rfl
    refine ⟨fun none => absurd none opposite.ne_zero, fun e other low => ?_, fun _ _ _ => rfl, fun e other above => ?_⟩
    · have := opposite.unique other
      omega
    · have := opposite.unique other
      omega
  · have value : w.neg.value = -w.value := by
      rw [Fp32.value, Fp32.value, if_neg zero, if_neg some, neg_sign, field, mantissa]
      cases w.a.getLsbD 15 <;> simp
    rw [← value]
    exact operand_result w.neg

/-- What the four operations of the 32-bit unit promise for two numbers, and what the conversion
promises for the first one. -/
structure ShortArithmetic (a b : Fp32) : Prop where
  add : ShortResult (a.value + b.value) (if a = Fp32.zero then b else if b = Fp32.zero then a else Fp32.zero)
    (floatAdd32 a b)
  sub : ShortResult (a.value - b.value) (if b = Fp32.zero then a else if a = Fp32.zero then b.neg else Fp32.zero)
    (floatSub32 a b)
  mul : ShortResult (a.value * b.value) Fp32.zero (floatMul32 a b)
  div : b ≠ Fp32.zero → ShortResult (a.value / b.value) Fp32.zero (floatDiv32 a b).1
  integer : FitsWord (towardZero a.value) → (floatDoDnz32 0xF0 a).1.a.toInt = towardZero a.value
  overflow : (floatDoDnz32 0xF0 a).2 = decide (32767 < |towardZero a.value|)

theorem zero_value32 : Fp32.zero.value = 0 := if_pos rfl

theorem floatAdd32_result (a b : Fp32) :
    ShortResult (a.value + b.value) (if a = Fp32.zero then b else if b = Fp32.zero then a else Fp32.zero)
      (floatAdd32 a b) := by
  unfold floatAdd32
  dsimp only
  by_cases first : a = Fp32.zero
  · rw [if_pos first, if_pos ((mkfp32_m a).mpr first), first, zero_value32, zero_add]
    exact operand_result b
  · rw [if_neg first, if_neg fun none => first ((mkfp32_m a).mp none)]
    by_cases second : b = Fp32.zero
    · rw [if_pos second, if_pos ((mkfp32_m b).mpr second), second, zero_value32, add_zero]
      exact operand_result a
    · rw [if_neg second, if_neg fun none => second ((mkfp32_m b).mp none), value_eq, value_eq, ← mul_add, sum32_eq]
      exact sumCore_result (mkfp32_short first) (mkfp32_short second)

theorem Short.neg {f : Fp} (short : Short f) : Short f.neg := ⟨short.normal, short.low, short.high, short.rest⟩

theorem floatSub32_result (a b : Fp32) :
    ShortResult (a.value - b.value) (if b = Fp32.zero then a else if a = Fp32.zero then b.neg else Fp32.zero)
      (floatSub32 a b) := by
  unfold floatSub32
  dsimp only
  by_cases second : b = Fp32.zero
  · rw [if_pos second, if_pos ((mkfp32_m b).mpr second), second, zero_value32, sub_zero]
    exact operand_result a
  · rw [if_neg second, if_neg fun none => second ((mkfp32_m b).mp none)]
    by_cases first : a = Fp32.zero
    · rw [if_pos first, if_pos ((mkfp32_m a).mpr first), first, zero_value32, zero_sub]
      exact neg_result second
    · rw [if_neg first, if_neg fun none => first ((mkfp32_m a).mp none), value_eq, value_eq, ← mul_sub,
        sub_eq_add_neg, ← Fp.neg_value, sum32_eq]
      exact sumCore_result (mkfp32_short first) (mkfp32_short second).neg

/-- A product and a quotient of 32 bits are near their exact values. -/
theorem product_near {x : ℚ} {r : Fp} (sign : r.s = decide (x < 0)) (product : ProductOf |x| r.e r.m) :
    NearTo x r := by
  have unit := r.ulp_pos
  have floor := Int.floor_le (|x| / r.ulp)
  have ceil := Int.lt_floor_add_one (|x| / r.ulp)
  have bits : (⌊|x| / r.ulp⌋ : ℚ) = r.m := by
    unfold Fp.ulp
    rw [← product.truncated, Int.cast_natCast]
  rw [bits, le_div_iff₀ unit] at floor
  rw [bits, div_lt_iff₀ unit] at ceil
  exact ⟨⟨product.low, product.high⟩, sign, .inl product.exponent.of_abs, by rw [Fp.magnitude_eq]; linarith,
    by rw [Fp.magnitude_eq]; linarith⟩

theorem quotient_near {x : ℚ} {r : Fp} (sign : r.s = decide (x < 0)) (quotient : QuotientOf |x| r.e r.m) :
    NearTo x r := by
  have unit := r.ulp_pos
  have above := quotient.above
  have below := quotient.below
  exact ⟨⟨quotient.low, quotient.high⟩, sign, .inl quotient.exponent.of_abs,
    by rw [Fp.magnitude_eq]; unfold Fp.ulp at *; linarith, by rw [Fp.magnitude_eq]; exact below⟩

theorem floatMul32_result (a b : Fp32) : ShortResult (a.value * b.value) Fp32.zero (floatMul32 a b) := by
  unfold floatMul32
  dsimp only
  by_cases zero : a = Fp32.zero ∨ b = Fp32.zero
  · have none : a.value * b.value = 0 := by
      rcases zero with rfl | rfl
      · rw [zero_value32, zero_mul]
      · rw [zero_value32, mul_zero]
    rw [if_pos (zero.imp (mkfp32_m a).mpr (mkfp32_m b).mpr), none]
    exact .zero _
  · obtain ⟨first, second⟩ := not_or.mp zero
    have one := (mkfp32_short first).normal
    have two := (mkfp32_short second).normal
    rw [if_neg fun none => zero (none.imp (mkfp32_m a).mp (mkfp32_m b).mp), value_eq, value_eq]
    generalize mkfp32 a = f1 at one ⊢
    generalize mkfp32 b = f2 at two ⊢
    have double : 2 * f1.value * (2 * f2.value) = 2 * (2 * (f1.value * f2.value)) := by ring
    obtain ⟨size, sign⟩ := decide_mul f1 f2 one.magnitude_pos two.magnitude_pos
    have positive : decide (2 * (f1.value * f2.value) < 0) = (f1.s != f2.s) := by
      rw [← sign, decide_eq_decide]
      constructor <;> intro <;> linarith
    have units : |2 * (f1.value * f2.value)| = (f1.m * f2.m : ℕ) * 2 ^ (f1.e + f2.e + 1 - 64) := by
      have place : f1.e + f2.e + 1 - 64 = f1.e + f2.e - 64 + 1 := by ring
      rw [abs_mul, size, magnitude_mul, place, two_zpow_succ, abs_of_pos (by norm_num)]
      ring
    rw [double]
    apply pack32_result
    apply product_near positive.symm
    rw [units]
    exact truncated_product (f1.e + f2.e + 1) one two

theorem floatDiv32_result (a : Fp32) (some : b ≠ Fp32.zero) :
    ShortResult (a.value / b.value) Fp32.zero (floatDiv32 a b).1 := by
  unfold floatDiv32
  dsimp only
  rw [if_neg fun none => some ((mkfp32_m b).mp none)]
  by_cases zero : a = Fp32.zero
  · rw [if_pos ((mkfp32_m a).mpr zero), zero, zero_value32, zero_div]
    exact .zero _
  · have one := (mkfp32_short some).normal
    have two := (mkfp32_short zero).normal
    rw [if_neg fun none => zero ((mkfp32_m a).mp none), value_eq, value_eq]
    generalize mkfp32 b = f1 at one ⊢
    generalize mkfp32 a = f2 at two ⊢
    have half : 2 * f2.value / (2 * f1.value) = 2 * (f2.value / f1.value / 2) := by
      rw [mul_div_mul_left _ _ (by norm_num)]
      ring
    obtain ⟨size, sign⟩ := decide_div f1 f2 one.magnitude_pos two.magnitude_pos
    have positive : decide (f2.value / f1.value / 2 < 0) = (f1.s != f2.s) := by
      rw [← sign, decide_eq_decide]
      constructor <;> intro <;> linarith
    have units : |f2.value / f1.value / 2| = (f2.m : ℚ) / f1.m * 2 ^ (f2.e - f1.e - 1) := by
      have place : (2 : ℚ) ^ (f2.e - f1.e) = 2 * 2 ^ (f2.e - f1.e - 1) := by
        rw [← two_zpow_succ, sub_add_cancel]
      rw [abs_div, size, magnitude_div, place, abs_of_pos (by norm_num)]
      ring
    have spec := normalizeQuotient_spec (f2.e - f1.e - 1) one two
    rw [← units] at spec
    rw [half]
    generalize f2.m <<< 32 = dividend at spec ⊢
    generalize normalizeQuotient (ceilQuotient dividend f1.m) (f2.e - f1.e - 1) = normal at spec ⊢
    exact pack32_result (quotient_near positive.symm spec)

end ShortOperations

section ShortIntegers

variable {a : Fp32}

/-- The mantissa moved by a shift count, where large counts are limited. -/
def dnz32Value (shift : ℤ) (mant : ℕ) : ℕ :=
  if 0 ≤ shift then if 32 ≤ shift then 0 else mant >>> shift.toNat
  else if 41 ≤ -shift then 0x7FFFFFFF else mant <<< (-shift).toNat

theorem floatDoDnz32_eq (some : a ≠ Fp32.zero) : floatDoDnz32 0xF0 a =
    ((⟨BitVec.ofInt 16 (if a.a.getLsbD 15 then -(dnz32Value (279 - a.field) (mant23 a) : ℤ)
      else dnz32Value (279 - a.field) (mant23 a)), 0⟩ : Fp32), decide (32767 < dnz32Value (279 - a.field) (mant23 a))) := by
  have words : ¬ (a.a = 0 ∧ a.d = 0) := by
    rintro ⟨high, low⟩
    obtain ⟨a, d⟩ := a
    dsimp only at high low
    exact some (by rw [high, low, Fp32.zero])
  have shift : (6 : ℤ) - (a.field - fp32Bias) - (0xF0 : BitVec 8).toInt = 279 - a.field := by
    have scaling : (0xF0 : BitVec 8).toInt = -16 := by decide
    rw [scaling, fp32Bias]
    ring
  unfold floatDoDnz32 dnz32Value
  rw [if_neg words]
  dsimp only
  rw [← shift]
  rfl

/-- A shifted mantissa is the integer part of the magnitude, or both are too large. -/
theorem dnz32Value_floor {mant : ℕ} (low : 2 ^ 22 ≤ mant) (high : mant < 2 ^ 23) (shift : ℤ) :
    (dnz32Value shift mant : ℤ) = ⌊(mant : ℚ) * 2 ^ (-shift)⌋ ∨
      (32768 < dnz32Value shift mant ∧ 32768 < ⌊(mant : ℚ) * 2 ^ (-shift)⌋) := by
  unfold dnz32Value
  by_cases down : 0 ≤ shift
  · obtain ⟨k, rfl⟩ := Int.eq_ofNat_of_zero_le down
    have quotient : ⌊(mant : ℚ) * 2 ^ (-(k : ℤ))⌋ = (mant / 2 ^ k : ℕ) := by
      have divided : (mant : ℚ) * 2 ^ (-(k : ℤ)) = mant / (2 ^ k : ℕ) := by
        rw [zpow_neg, two_zpow_natCast, div_eq_mul_inv]
        push_cast
        rfl
      rw [divided]
      exact_mod_cast Rat.floor_natCast_div_natCast mant (2 ^ k)
    rw [if_pos down, quotient]
    left
    by_cases deep : (32 : ℤ) ≤ k
    · have power : 2 ^ 32 ≤ 2 ^ k := Nat.pow_le_pow_right (by decide) (by omega)
      rw [if_pos deep, Nat.div_eq_of_lt (by omega)]
    · rw [if_neg deep, Int.toNat_natCast, Nat.shiftRight_eq_div_pow]
  · obtain ⟨k, count⟩ : ∃ k : ℕ, -shift = k := ⟨(-shift).toNat, by omega⟩
    have product : ⌊(mant : ℚ) * 2 ^ (-shift)⌋ = (mant * 2 ^ k : ℕ) := by
      rw [count, two_zpow_natCast]
      exact_mod_cast Int.floor_natCast (R := ℚ) (mant * 2 ^ k)
    rw [if_neg down, product, count]
    by_cases far : (41 : ℤ) ≤ k
    · have power : 2 ^ 41 ≤ 2 ^ k := Nat.pow_le_pow_right (by decide) (by omega)
      have large : 2 ^ 22 * 2 ^ 41 ≤ mant * 2 ^ k := Nat.mul_le_mul low power
      rw [if_pos far]
      exact .inr ⟨by decide, by omega⟩
    · rw [if_neg far, Int.toNat_natCast, Nat.shiftLeft_eq]
      exact .inl rfl

theorem signed_fits (s : Bool) {val : ℕ} {n : ℤ} (both : (val : ℤ) = n ∨ (32768 < val ∧ 32768 < n))
    (fits : FitsWord (if s then -n else n)) :
    (BitVec.ofInt 16 (if s then -(val : ℤ) else val)).toInt = if s then -n else n := by
  unfold FitsWord at fits
  rw [BitVec.toInt_ofInt, Int.bmod_def]
  cases s with
  | false =>
    rw [if_neg Bool.false_ne_true] at fits ⊢
    rw [if_neg Bool.false_ne_true]
    omega
  | true =>
    rw [if_pos rfl] at fits ⊢
    rw [if_pos rfl]
    omega

theorem signed_overflow (s : Bool) {val : ℕ} {n : ℤ} (both : (val : ℤ) = n ∨ (32768 < val ∧ 32768 < n)) :
    32767 < val ↔ 32767 < |if s then -n else n| := by
  cases s with
  | false =>
    rw [if_neg Bool.false_ne_true]
    rcases both with same | ⟨wide, large⟩
    · rw [← same, Nat.abs_cast]
      omega
    · rw [abs_of_pos (by omega)]
      omega
  | true =>
    rw [if_pos rfl, abs_neg]
    rcases both with same | ⟨wide, large⟩
    · rw [← same, Nat.abs_cast]
      omega
    · rw [abs_of_pos (by omega)]
      omega

theorem floatDoDnz32_result (a : Fp32) :
    (FitsWord (towardZero a.value) → (floatDoDnz32 0xF0 a).1.a.toInt = towardZero a.value) ∧
      (floatDoDnz32 0xF0 a).2 = decide (32767 < |towardZero a.value|) := by
  by_cases zero : a = Fp32.zero
  · rw [zero, zero_value32]
    have none : towardZero 0 = 0 := rfl
    rw [none]
    exact ⟨fun _ => rfl, rfl⟩
  · obtain ⟨low, high⟩ := mant23_range a
    have both := dnz32Value_floor low high (279 - a.field)
    have place : (a.field : ℤ) - 256 - 23 = -(279 - a.field) := by ring
    have nonneg : (0 : ℚ) ≤ mant23 a * 2 ^ (-(279 - (a.field : ℤ))) :=
      mul_nonneg (Nat.cast_nonneg _) (two_zpow_pos _).le
    rw [floatDoDnz32_eq zero, Fp32.value, if_neg zero, place, towardZero_signed _ nonneg]
    exact ⟨signed_fits _ both, decide_eq_decide.mpr (signed_overflow _ both)⟩

/-- The 32-bit unit keeps its promises for all words. -/
theorem shortArithmetic (a b : Fp32) : ShortArithmetic a b :=
  ⟨floatAdd32_result a b, floatSub32_result a b, floatMul32_result a b, floatDiv32_result a,
    (floatDoDnz32_result a).1, (floatDoDnz32_result a).2⟩

/-- The numbers 2 ^ -255 and one half. -/
def leastFactors : Fp32 × Fp32 := (⟨0x0080, 0⟩, ⟨0x4000, 0⟩)

/-- The product has the biased exponent one, and it is not zero. -/
theorem leastFactors_product :
    ¬ ∀ e, HasExponent (leastFactors.1.value * leastFactors.2.value) e → e + 256 < 2 →
      floatMul32 leastFactors.1 leastFactors.2 = Fp32.zero := by
  have first : leastFactors.1.value = 4194304 * 2 ^ (-277 : ℤ) := by
    have some : leastFactors.1 ≠ Fp32.zero := by decide
    rw [Fp32.value, if_neg some]
    exact one_mul _
  have second : leastFactors.2.value = 1 / 2 := by
    have some : leastFactors.2 ≠ Fp32.zero := by decide
    have mantissa : mant23 leastFactors.2 = 4194304 := by decide
    have field : leastFactors.2.field = 256 := by decide
    rw [Fp32.value, if_neg some, mantissa, field, if_neg (by decide)]
    norm_num
  have product : leastFactors.1.value * leastFactors.2.value = 2 ^ (22 : ℕ) * 2 ^ (-278 : ℤ) := by
    have place : (2 : ℚ) ^ (-277 : ℤ) = 2 * 2 ^ (-278 : ℤ) := by
      rw [← two_zpow_succ]
      congr 1
    rw [first, second, place]
    ring
  have exponent : HasExponent (2 ^ (22 : ℕ) * 2 ^ ((-255 : ℤ) - 23)) (-255) :=
    hasExponent_mantissa (-255) (by norm_num) (by norm_num)
  intro below
  have zero := below (-255) (by rw [product]; exact exponent) (by decide)
  exact absurd zero (by decide)

end ShortIntegers

end Nd100x
