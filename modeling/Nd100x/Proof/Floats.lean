import Nd100x.Proof.FloatCores

namespace Nd100x

open Library

section Decoding

namespace Fp48

/-- The first bit of the mantissa is set. -/
def Normalized (w : Fp48) : Prop := w.a.getLsbD 15 = true

def value (w : Fp48) : ℚ := (mkfp48 w).value

/-- A number is the floating zero or normalized. -/
def Clean (w : Fp48) : Prop := w = zero ∨ w.Normalized

/-- The number of the other sign, where zero has one sign only. -/
def neg (w : Fp48) : Fp48 := if w = zero then zero else { w with t := w.t ^^^ 0x8000 }

end Fp48

variable {w : Fp48} {f : Fp}

theorem mkfp48_bits (w : Fp48) : (mkfp48 w).m < 2 ^ 32 := by
  have a := w.a.isLt
  have d := w.d.isLt
  simp only [mkfp48, Nat.shiftLeft_eq]
  omega

theorem field_toNat (t : Word) : (t &&& 0x7FFF).toNat = t.toNat % 2 ^ 15 := by
  rw [BitVec.toNat_and, ← Nat.and_two_pow_sub_one_eq_mod]
  rfl

theorem mkfp48_e (w : Fp48) : (mkfp48 w).e = (w.t.toNat % 2 ^ 15 : ℕ) - 16384 := by
  rw [mkfp48, field_toNat]

theorem mkfp48_range (w : Fp48) : -16384 ≤ (mkfp48 w).e ∧ (mkfp48 w).e ≤ 16383 := by
  rw [mkfp48_e]
  omega

theorem Fp48.Normalized.normal (normalized : w.Normalized) : (mkfp48 w).Normal := by
  refine ⟨?_, mkfp48_bits w⟩
  have top : 2 ^ 15 ≤ w.a.toNat := by
    have bit : w.a.getLsbD 15 = true := normalized
    rw [BitVec.getLsbD, Nat.testBit_eq_decide_div_mod_eq, decide_eq_true_iff] at bit
    omega
  simp only [mkfp48, Nat.shiftLeft_eq]
  omega

theorem zero_value : Fp48.zero.value = 0 := by simp [Fp48.value, Fp48.zero, mkfp48, Fp.value, Fp.magnitude]

theorem zero_not_normalized : ¬ Fp48.zero.Normalized := by
  unfold Fp48.Normalized
  decide

theorem Fp48.Normalized.ne_zero (normalized : w.Normalized) : w ≠ Fp48.zero := by
  rintro rfl
  exact zero_not_normalized normalized

theorem pack48_m (bits : f.m < 2 ^ 32) : (mkfp48 (pack48 f)).m = f.m := by
  simp only [mkfp48, pack48, BitVec.toNat_ofNat, Nat.shiftLeft_eq, Nat.shiftRight_eq_div_pow]
  omega

theorem pack48_e (f : Fp) : (mkfp48 (pack48 f)).e = (f.e + 16384) % 2 ^ 15 - 16384 := by
  have masked : (pack48 f).t.toNat % 2 ^ 15 = (BitVec.ofInt 16 (f.e + 16384)).toNat % 2 ^ 15 := by
    rw [← field_toNat, ← field_toNat]
    congr 1
    unfold pack48
    dsimp only
    split
    · rw [BitVec.and_or_distrib_right]
      simp
    · simp
  rw [mkfp48_e, masked, BitVec.toNat_ofInt]
  omega

theorem pack48_s (low : -16384 ≤ f.e) (high : f.e ≤ 16383) : (mkfp48 (pack48 f)).s = f.s := by
  have small : (BitVec.ofInt 16 (f.e + 16384)).getLsbD 15 = false := by
    rw [BitVec.getLsbD, BitVec.toNat_ofInt]
    apply Nat.testBit_lt_two_pow
    omega
  unfold mkfp48 pack48
  dsimp only
  rw [BitVec.getLsbD_or, small]
  cases f.s <;> rfl

/-- A number whose exponent has fifteen bits is read back as it was packed. -/
theorem mkfp48_pack48 (bits : f.m < 2 ^ 32) (low : -16384 ≤ f.e) (high : f.e ≤ 16383) :
    mkfp48 (pack48 f) = f := by
  have sign := pack48_s low high
  have mantissa := pack48_m bits
  have exponent : (mkfp48 (pack48 f)).e = f.e := by
    rw [pack48_e]
    omega
  obtain ⟨s, e, m⟩ := f
  generalize mkfp48 (pack48 ⟨s, e, m⟩) = back at *
  obtain ⟨s', e', m'⟩ := back
  dsimp only at sign mantissa exponent
  rw [sign, mantissa, exponent]

theorem normalized_of_normal (normal : (mkfp48 w).Normal) : w.Normalized := by
  have low := normal.1
  have d := w.d.isLt
  have a := w.a.isLt
  simp only [mkfp48, Nat.shiftLeft_eq] at low
  rw [Fp48.Normalized, BitVec.getLsbD, Nat.testBit_eq_decide_div_mod_eq, decide_eq_true_iff]
  omega

theorem pack48_normalized (normal : f.Normal) : (pack48 f).Normalized := by
  apply normalized_of_normal
  rw [Fp.Normal, pack48_m normal.2]
  exact normal

theorem pack48_value (normal : f.Normal) (low : -16384 ≤ f.e) (high : f.e ≤ 16383) :
    (pack48 f).value = f.value := by
  rw [Fp48.value, mkfp48_pack48 normal.2 low high]

end Decoding

section Operations

variable {a b : Fp48}

theorem floatAdd_eq (a b : Fp48) : floatAdd a b = (sumCore (mkfp48 a) (mkfp48 b)).elim Fp48.zero pack48 := by
  unfold floatAdd sumCore sub48 add48
  dsimp only
  split
  · cases subCore (mkfp48 a) (mkfp48 b) <;> rfl
  · rfl

def Fp.neg (f : Fp) : Fp := { f with s := !f.s }

theorem floatSub_eq (a b : Fp48) :
    floatSub a b = (sumCore (mkfp48 a) (mkfp48 b).neg).elim Fp48.zero pack48 := by
  unfold floatSub sumCore sub48 add48 Fp.neg
  dsimp only
  split
  · cases subCore (mkfp48 a) { mkfp48 b with s := !(mkfp48 b).s } <;> rfl
  · rfl

theorem Fp.neg_value (f : Fp) : f.neg.value = -f.value := by
  unfold Fp.value Fp.neg Fp.magnitude
  cases f.s
  · rfl
  · simp

/-- The product and the quotient before they are packed. -/
def mulCore (f1 f2 : Fp) : Fp :=
  ⟨f1.s != f2.s, (normalizeProduct (f1.m * f2.m) (f1.e + f2.e)).1,
    (normalizeProduct (f1.m * f2.m) (f1.e + f2.e)).2 >>> 32⟩

def divCore (f1 f2 : Fp) : Fp :=
  ⟨f1.s != f2.s, (normalizeQuotient (ceilQuotient (f2.m <<< 32) f1.m) (f2.e - f1.e)).1,
    (normalizeQuotient (ceilQuotient (f2.m <<< 32) f1.m) (f2.e - f1.e)).2⟩

theorem mulCore_spec {f1 f2 : Fp} (first : f1.Normal) (second : f2.Normal) :
    ProductOf |f1.value * f2.value| (mulCore f1 f2).e (mulCore f1 f2).m ∧
      decide (f1.value * f2.value < 0) = (mulCore f1 f2).s := by
  obtain ⟨size, sign⟩ := decide_mul f1 f2 first.magnitude_pos second.magnitude_pos
  rw [size, sign, magnitude_mul]
  dsimp only [mulCore]
  exact ⟨truncated_product (f1.e + f2.e) first second, rfl⟩

theorem divCore_spec {f1 f2 : Fp} (first : f1.Normal) (second : f2.Normal) :
    QuotientOf |f2.value / f1.value| (divCore f1 f2).e (divCore f1 f2).m ∧
      decide (f2.value / f1.value < 0) = (divCore f1 f2).s := by
  obtain ⟨size, sign⟩ := decide_div f1 f2 first.magnitude_pos second.magnitude_pos
  rw [size, sign, magnitude_div]
  dsimp only [divCore]
  exact ⟨normalizeQuotient_spec (f2.e - f1.e) first second, rfl⟩

/-- Zero stands for an exponent below -16383. -/
theorem floatMul_eq (first : a.Normalized) (second : b.Normalized) :
    floatMul a b = if (mulCore (mkfp48 a) (mkfp48 b)).e < -16383 then Fp48.zero
      else pack48 (mulCore (mkfp48 a) (mkfp48 b)) := by
  obtain ⟨⟨low, -⟩, -⟩ := normalizeProduct_spec ((mkfp48 a).e + (mkfp48 b).e) first.normal second.normal
  unfold floatMul mulCore
  dsimp only
  generalize normalizeProduct ((mkfp48 a).m * (mkfp48 b).m) ((mkfp48 a).e + (mkfp48 b).e) = normal at low ⊢
  have some : normal.2 ≠ 0 := (lt_of_lt_of_le (Nat.two_pow_pos 63) low).ne'
  by_cases under : normal.1 < -16383
  · rw [if_pos (.inr under), if_pos under]
  · rw [if_neg under, if_neg (not_or.mpr ⟨some, under⟩)]

theorem shifted_ne_zero {f : Fp} (normal : f.Normal) : f.m <<< 32 ≠ 0 := by
  have some : 0 < f.m := lt_of_lt_of_le (Nat.two_pow_pos 31) normal.1
  rw [Nat.shiftLeft_eq]
  positivity

theorem floatDiv_eq (first : a.Normalized) (second : b.Normalized) :
    (floatDiv a b).1 = if (divCore (mkfp48 b) (mkfp48 a)).e < -16383 then Fp48.zero
      else pack48 (divCore (mkfp48 b) (mkfp48 a)) := by
  have dividend := shifted_ne_zero first.normal
  have divisor : (mkfp48 b).m ≠ 0 := (lt_of_lt_of_le (Nat.two_pow_pos 31) second.normal.1).ne'
  unfold floatDiv divCore
  dsimp only
  generalize (mkfp48 a).m <<< 32 = m at dividend ⊢
  rw [if_neg divisor]
  generalize normalizeQuotient (ceilQuotient m (mkfp48 b).m) ((mkfp48 a).e - (mkfp48 b).e) = normal
  by_cases under : normal.1 < -16383
  · rw [if_pos (.inr under), if_pos under]
  · rw [if_neg under, if_neg (not_or.mpr ⟨dividend, under⟩)]

end Operations

section Limits

inductive FloatOp | add | sub | mul | div
  deriving DecidableEq

namespace FloatOp

def run : FloatOp → Fp48 → Fp48 → Fp48
  | add, a, b => floatAdd a b
  | sub, a, b => floatSub a b
  | mul, a, b => floatMul a b
  | div, a, b => (floatDiv a b).1

def exact : FloatOp → ℚ → ℚ → ℚ
  | add, x, y => x + y
  | sub, x, y => x - y
  | mul, x, y => x * y
  | div, x, y => x / y

end FloatOp

/-- One unit in the last place of the operand of the larger exponent. -/
def unitOf (a b : Fp48) : ℚ := 2 ^ (max (mkfp48 a).e (mkfp48 b).e - 32)

/-- A result is zero below the smallest magnitude. Elsewhere it has the sign of the exact result,
and its field has the exponent of the exact result, which rounding can raise by one. -/
def SignSafe (exact : ℚ) (r : Fp48) : Prop :=
  (r = Fp48.zero ∧ |exact| < 2 ^ (-16385 : ℤ)) ∨
    (r ≠ Fp48.zero ∧ (mkfp48 r).s = decide (exact < 0) ∧
      ∃ e, HasExponent exact e ∧ ((mkfp48 r).e = e ∨ (mkfp48 r).e = e + 1))

/-- The exact result is zero, or it is neither too large nor, after it is rounded up to a unit of
the operands, too small. The exponent test of a product and of a quotient also excludes the
smallest exponent. -/
def FloatOp.Safe : FloatOp → Fp48 → Fp48 → ℚ → Prop
  | mul, _, _, exact | div, _, _, exact =>
    |exact| < 2 ^ (-16385 : ℤ) ∨ (2 ^ (-16384 : ℤ) ≤ |exact| ∧ |exact| < 2 ^ (16383 : ℤ))
  | add, a, b, exact | sub, a, b, exact =>
    exact = 0 ∨ (2 ^ (-16385 : ℤ) ≤ ⌈|exact| / unitOf a b⌉ * unitOf a b ∧ |exact| < 2 ^ (16383 : ℤ))

variable {f : Fp} {exact : ℚ}

/-- The field keeps the exponent exactly where the exponent has fifteen bits. -/
theorem signSafe_pack (normal : f.Normal) (sign : f.s = decide (exact < 0))
    (exponent : HasExponent exact f.e ∨ HasExponent exact (f.e - 1)) :
    SignSafe exact (pack48 f) ↔ -16384 ≤ f.e ∧ f.e ≤ 16383 := by
  have some := (pack48_normalized normal).ne_zero
  have range := mkfp48_range (pack48 f)
  constructor
  · rintro (⟨zero, -⟩ | ⟨-, -, e, found, field⟩)
    · exact absurd zero some
    · have place : e = f.e ∨ e = f.e - 1 := exponent.imp found.unique found.unique
      rw [pack48_e] at field range
      omega
  · rintro ⟨low, high⟩
    have back := mkfp48_pack48 normal.2 low high
    refine .inr ⟨some, by rw [back, sign], ?_⟩
    rw [back]
    rcases exponent with same | above
    · exact ⟨f.e, same, .inl rfl⟩
    · exact ⟨f.e - 1, above, .inr (by ring)⟩

/-- An exponent below the test gives zero. -/
theorem signSafe_tested (normal : f.Normal) (sign : f.s = decide (exact < 0)) (exponent : HasExponent exact f.e) :
    SignSafe exact (if f.e < -16383 then Fp48.zero else pack48 f) ↔
      |exact| < 2 ^ (-16385 : ℤ) ∨ (2 ^ (-16384 : ℤ) ≤ |exact| ∧ |exact| < 2 ^ (16383 : ℤ)) := by
  rw [exponent.lt_iff, exponent.lt_iff, exponent.le_iff]
  by_cases under : f.e < -16383
  · rw [if_pos under]
    constructor
    · rintro (⟨-, small⟩ | ⟨some, -⟩)
      · exact .inl (exponent.lt_iff.mp small)
      · exact absurd rfl some
    · rintro (small | ⟨low, -⟩)
      · exact .inl ⟨rfl, exponent.lt_iff.mpr small⟩
      · omega
  · rw [if_neg under, signSafe_pack normal sign (.inl exponent)]
    omega

/-- A sum is at least as large as the unit of its larger operand allows. -/
theorem signSafe_sum {f1 f2 : Fp} (first : f1.Normal) (second : f2.Normal) (low1 : -16384 ≤ f1.e)
    (low2 : -16384 ≤ f2.e) (high1 : f1.e ≤ 16383) (high2 : f2.e ≤ 16383) {unit : ℚ}
    (place : unit = 2 ^ (max f1.e f2.e - 32)) :
    SignSafe (f1.value + f2.value) ((sumCore f1 f2).elim Fp48.zero pack48) ↔
      f1.value + f2.value = 0 ∨ (2 ^ (-16385 : ℤ) ≤ ⌈|f1.value + f2.value| / unit⌉ * unit ∧
        |f1.value + f2.value| < 2 ^ (16383 : ℤ)) := by
  have spec := sumCore_spec first second
  have larger := byExponent_e f1 f2
  rw [← larger] at place
  rw [← byExponent_value]
  generalize (byExponent f1 f2).1 = g1 at *
  generalize (byExponent f1 f2).2 = g2 at *
  generalize sumCore f1 f2 = result at *
  have positive : 0 < unit := place ▸ two_zpow_pos _
  cases spec with
  | zero other none =>
    refine iff_of_true (.inl ⟨rfl, ?_⟩) (.inl none)
    rw [none, abs_zero]
    exact two_zpow_pos _
  | sum same sign sum =>
    have exponent := sum.exponent.of_abs
    have ceil : |g1.value + g2.value| ≤ ⌈|g1.value + g2.value| / unit⌉ * unit := by
      rw [← div_le_iff₀ positive]
      exact Int.le_ceil _
    rw [Option.elim_some, signSafe_pack sum.normal sign (.inl exponent), exponent.lt_iff]
    have least : 2 ^ (-16385 : ℤ) ≤ |g1.value + g2.value| := by
      rw [exponent.le_iff]
      have := sum.place
      omega
    constructor
    · rintro ⟨-, high⟩
      exact .inr ⟨least.trans ceil, high⟩
    · rintro (zero | ⟨-, high⟩)
      · exact absurd zero exponent.ne_zero
      · have := sum.place
        omega
  | difference other sign difference =>
    have exponent := difference.exponent.imp HasExponent.of_abs HasExponent.of_abs
    have some : g1.value + g2.value ≠ 0 := exponent.elim HasExponent.ne_zero HasExponent.ne_zero
    have rounded := difference.ceil
    rw [← place] at rounded
    have small : |g1.value + g2.value| < 2 ^ (16383 : ℤ) := by
      have := difference.place
      rcases exponent with same | above
      · exact same.lt_iff.mpr (by omega)
      · exact above.lt_iff.mpr (by omega)
    have nonneg : (0 : ℚ) ≤ ⌈|g1.value + g2.value| / unit⌉ * unit := by
      have : (0 : ℤ) ≤ ⌈|g1.value + g2.value| / unit⌉ := Int.ceil_nonneg (by positivity)
      have : (0 : ℚ) ≤ ⌈|g1.value + g2.value| / unit⌉ := by exact_mod_cast this
      positivity
    rw [Option.elim_some, signSafe_pack difference.normal sign exponent,
      ← abs_of_nonneg nonneg, rounded.le_iff]
    have := difference.place
    constructor
    · rintro ⟨low, -⟩
      exact .inr ⟨by omega, small⟩
    · rintro (zero | ⟨low, -⟩)
      · exact absurd zero some
      · omega

theorem Fp.neg_normal (normal : f.Normal) : f.neg.Normal := normal

/-- Arithmetic at the exponent limits keeps the sign exactly where the result is safe. -/
theorem signAtLimits (op : FloatOp) {a b : Fp48} (first : a.Normalized) (second : b.Normalized) :
    SignSafe (op.exact a.value b.value) (op.run a b) ↔ op.Safe a b (op.exact a.value b.value) := by
  obtain ⟨low1, high1⟩ := mkfp48_range a
  obtain ⟨low2, high2⟩ := mkfp48_range b
  cases op with
  | add =>
    dsimp only [FloatOp.run, FloatOp.exact, FloatOp.Safe]
    rw [floatAdd_eq]
    exact signSafe_sum first.normal second.normal low1 low2 high1 high2 rfl
  | sub =>
    dsimp only [FloatOp.run, FloatOp.exact, FloatOp.Safe]
    rw [floatSub_eq, Fp48.value, Fp48.value, sub_eq_add_neg, ← Fp.neg_value]
    exact signSafe_sum first.normal (Fp.neg_normal second.normal) low1 low2 high1 high2 rfl
  | mul =>
    obtain ⟨product, sign⟩ := mulCore_spec first.normal second.normal
    dsimp only [FloatOp.run, FloatOp.exact, FloatOp.Safe]
    rw [floatMul_eq first second]
    exact signSafe_tested ⟨product.low, product.high⟩ sign.symm product.exponent.of_abs
  | div =>
    obtain ⟨quotient, sign⟩ := divCore_spec second.normal first.normal
    dsimp only [FloatOp.run, FloatOp.exact, FloatOp.Safe]
    rw [floatDiv_eq first second]
    exact signSafe_tested ⟨quotient.low, quotient.high⟩ sign.symm quotient.exponent.of_abs

/-- The number 2 ^ 16382 has the largest exponent. -/
def largestPower : Fp48 := ⟨0x7FFF, 0x8000, 0⟩

theorem signAtLimits_largestPower :
    SignSafe (FloatOp.sub.exact largestPower.value largestPower.value) (FloatOp.sub.run largestPower largestPower) ↔
      FloatOp.sub.Safe largestPower largestPower (FloatOp.sub.exact largestPower.value largestPower.value) :=
  signAtLimits .sub (by unfold Fp48.Normalized; decide) (by unfold Fp48.Normalized; decide)

/-- The sum of two positive numbers is packed with the sign bit. -/
theorem largestPower_twice :
    largestPower.Normalized ∧
      ¬ SignSafe (FloatOp.add.exact largestPower.value largestPower.value) (FloatOp.add.run largestPower largestPower) := by
  have sum : FloatOp.add.run largestPower largestPower = ⟨0x8000, 0x8000, 0⟩ := by decide
  have positive : 0 < largestPower.value := by
    have normal : largestPower.Normalized := by unfold Fp48.Normalized; decide
    exact normal.normal.magnitude_pos
  refine ⟨by unfold Fp48.Normalized; decide, ?_⟩
  rw [sum]
  rintro (⟨zero, -⟩ | ⟨-, sign, -⟩)
  · exact absurd zero (by decide)
  · rw [FloatOp.exact, decide_of_pos (add_pos positive positive)] at sign
    exact absurd sign (by decide)

end Limits

section Accuracy

/-- A number is zero, or its exponent has fifteen bits. -/
def Representable (x : ℚ) : Prop := x = 0 ∨ (2 ^ (-16385 : ℤ) ≤ |x| ∧ |x| < 2 ^ (16383 : ℤ))

/-- The alignment shifts out no one-bit, and no carry leaves bit 31. -/
def Exact (f1 f2 : Fp) : Prop :=
  Whole (byExponent f1 f2).1 (byExponent f1 f2).2 ∧
    (f1.s = f2.s → Carryless (byExponent f1 f2).1 (byExponent f1 f2).2)

/-- A sum is within two units of the larger operand, and exact where no bit is lost. -/
structure SumAccurate (exact unit : ℚ) (lossless : Prop) (r : Fp48) : Prop where
  clean : r.Clean
  near : |r.value - exact| ≤ 2 * unit
  same : lossless → r.value = exact

/-- The exact product without the places after its first 32 bits. -/
structure Truncated (exact : ℚ) (r : Fp48) : Prop where
  clean : r.Clean
  value : (exact = 0 ∧ r.value = 0) ∨ ∃ e, HasExponent exact e ∧
    r.value = (if exact < 0 then (-1 : ℚ) else 1) * (⌊|exact| / 2 ^ (e - 32)⌋ * 2 ^ (e - 32))

/-- A quotient is within one unit of the exact quotient. -/
structure QuotientAccurate (exact : ℚ) (r : Fp48) : Prop where
  clean : r.Clean
  near : (exact = 0 ∧ r.value = 0) ∨ ∃ e, HasExponent exact e ∧ |r.value - exact| ≤ 2 ^ (e - 32)

/-- What the four operations promise for two numbers. -/
structure Arithmetic (a b : Fp48) : Prop where
  add : Representable (a.value + b.value) →
    SumAccurate (a.value + b.value) (unitOf a b) (Exact (mkfp48 a) (mkfp48 b)) (floatAdd a b)
  sub : Representable (a.value - b.value) →
    SumAccurate (a.value - b.value) (unitOf a b) (Exact (mkfp48 a) (mkfp48 b).neg) (floatSub a b)
  commutes : floatAdd a b = floatAdd b a
  negates : floatSub a b = floatAdd a b.neg
  mul : Representable (a.value * b.value) → Truncated (a.value * b.value) (floatMul a b)
  div : b ≠ Fp48.zero → Representable (a.value / b.value) →
    QuotientAccurate (a.value / b.value) (floatDiv a b).1

variable {f f1 f2 : Fp} {exact : ℚ}

theorem value_near (sign : f.s = decide (exact < 0)) : |f.value - exact| = |f.magnitude - (|exact|)| := by
  unfold Fp.value
  by_cases negative : exact < 0
  · rw [decide_eq_true negative] at sign
    rw [sign, if_pos rfl, abs_of_neg negative, ← abs_neg]
    congr 1
    ring
  · rw [decide_eq_false negative] at sign
    rw [sign, if_neg Bool.false_ne_true, abs_of_nonneg (not_lt.mp negative)]

theorem value_same (sign : f.s = decide (exact < 0)) (size : f.magnitude = |exact|) : f.value = exact := by
  have near := value_near sign
  rw [size, sub_self, abs_zero, abs_eq_zero, sub_eq_zero] at near
  exact near

/-- The exponent of a representable number has fifteen bits. -/
theorem Representable.range {e : ℤ} (representable : Representable exact) (exponent : HasExponent exact e) :
    -16384 ≤ e ∧ e ≤ 16383 := by
  rcases representable with zero | ⟨low, high⟩
  · exact absurd zero exponent.ne_zero
  · rw [exponent.le_iff] at low
    rw [exponent.lt_iff] at high
    omega

theorem sum_accurate (first : f1.Normal) (second : f2.Normal) (high1 : f1.e ≤ 16383) (high2 : f2.e ≤ 16383)
    (representable : Representable (f1.value + f2.value)) :
    SumAccurate (f1.value + f2.value) (2 ^ (max f1.e f2.e - 32)) (Exact f1 f2)
      ((sumCore f1 f2).elim Fp48.zero pack48) := by
  have spec := sumCore_spec first second
  have larger := byExponent_e f1 f2
  have signs : f1.s = f2.s ↔ (byExponent f1 f2).1.s = (byExponent f1 f2).2.s := by
    obtain ⟨order, -⟩ | ⟨order, -⟩ := byExponent_cases f1 f2
    · rw [order]
    · rw [order, eq_comm]
  unfold Exact
  rw [signs, ← larger]
  rw [← byExponent_value] at representable ⊢
  generalize (byExponent f1 f2).1 = g1 at *
  generalize (byExponent f1 f2).2 = g2 at *
  generalize sumCore f1 f2 = result at *
  have unit := two_zpow_pos (g1.e - 32)
  cases spec with
  | zero other none =>
    have exact : Fp48.zero.value = g1.value + g2.value := by rw [zero_value, none]
    refine ⟨.inl rfl, ?_, fun _ => exact⟩
    rw [Option.elim_none, exact, sub_self, abs_zero]
    positivity
  | @sum r same sign sum whole =>
    obtain ⟨low, high⟩ := representable.range sum.exponent.of_abs
    refine ⟨.inr (pack48_normalized sum.normal), ?_, fun ⟨lossless, fits⟩ => ?_⟩
    · rw [Option.elim_some, pack48_value sum.normal low high, value_near sign, abs_le]
      have above := sum.above
      have below := sum.below
      have wide : r.ulp ≤ 2 * 2 ^ (g1.e - 32) := by
        rw [← place_above]
        exact two_zpow_le (by have := sum.place; omega)
      constructor <;> linarith
    · rw [Option.elim_some, pack48_value sum.normal low high]
      exact value_same sign (whole lossless (fits same))
  | @difference r other sign difference =>
    have range : -16384 ≤ r.e ∧ r.e ≤ 16383 := by
      have := difference.place
      rcases difference.exponent with same | above
      · have := representable.range same.of_abs
        omega
      · have := representable.range above.of_abs
        omega
    refine ⟨.inr (pack48_normalized difference.normal), ?_, fun ⟨lossless, _⟩ => ?_⟩
    · rw [Option.elim_some, pack48_value difference.normal range.1 range.2, value_near sign, abs_le]
      have above := difference.above
      have below := difference.below
      constructor <;> linarith
    · rw [Option.elim_some, pack48_value difference.normal range.1 range.2]
      exact value_same sign (difference.exact lossless)

end Accuracy

section Zeros

variable {a b w : Fp48} {f z : Fp}

theorem normalizeUp_normal (normal : f.Normal) : normalizeUp 32 f.e f.m = (f.e, f.m) := by
  rw [normalizeUp, testBit_top normal.2, decide_eq_true normal.1, if_pos rfl]

/-- A zero of a smaller exponent does not change a number. -/
theorem sumCore_zero (normal : f.Normal) (none : z.m = 0) (below : z.e ≤ f.e) : sumCore f z = some f := by
  have some : f.m ≠ 0 := (lt_of_lt_of_le (Nat.two_pow_pos 31) normal.1).ne'
  have guard : ∀ scale, guardBit scale 0 = 0 := fun scale => by
    rw [guardBit_eq, Nat.zero_mod, if_pos rfl]
  have order : byExponent f z = (f, z) := if_neg (not_lt.mpr below)
  unfold sumCore subCore addCore
  rw [order]
  dsimp only
  split
  · unfold subOrdered
    dsimp only
    split
    · rfl
    · rw [none, Nat.zero_shiftRight, guard, Nat.or_zero, byMantissa, if_neg (Nat.not_lt_zero _)]
      dsimp only
      rw [Nat.sub_zero, if_neg some, normalizeUp_normal normal]
  · unfold addOrdered
    dsimp only
    split
    · rfl
    · rw [none, Nat.zero_shiftRight, guard, Nat.or_zero, Nat.add_zero, carryDown,
        if_neg (by have := normal.2; omega)]

theorem mkfp48_zero : mkfp48 Fp48.zero = ⟨false, -16384, 0⟩ := by decide

theorem pack48_field (t : Word) :
    BitVec.ofInt 16 ((t &&& 0x7FFF).toNat - 16384 + 16384) ||| (if t.getLsbD 15 then 0x8000 else 0) = t := by
  have field : BitVec.ofInt 16 ((t &&& 0x7FFF).toNat - 16384 + 16384) = t &&& 0x7FFF := by
    rw [sub_add_cancel, BitVec.ofInt_natCast, BitVec.ofNat_toNat, BitVec.setWidth_eq]
  have top : (if t.getLsbD 15 then (0x8000 : Word) else 0) = t &&& BitVec.twoPow 16 15 := by
    rw [BitVec.and_twoPow]
    rfl
  have all : (0x7FFF : Word) ||| BitVec.twoPow 16 15 = BitVec.allOnes 16 := by decide
  rw [field, top, ← BitVec.and_or_distrib_left, all, BitVec.and_allOnes]

theorem pack48_upper (a d : Word) : BitVec.ofNat 16 (((a.toNat <<< 16) + d.toNat) >>> 16) = a := by
  have low := d.isLt
  have high := a.isLt
  apply BitVec.eq_of_toNat_eq
  rw [BitVec.toNat_ofNat, Nat.shiftLeft_eq, Nat.shiftRight_eq_div_pow]
  omega

theorem pack48_lower (a d : Word) : BitVec.ofNat 16 ((a.toNat <<< 16) + d.toNat) = d := by
  have low := d.isLt
  apply BitVec.eq_of_toNat_eq
  rw [BitVec.toNat_ofNat, Nat.shiftLeft_eq]
  omega

/-- A packed number is the word it was read from. -/
theorem pack48_mkfp48 (w : Fp48) : pack48 (mkfp48 w) = w := by
  obtain ⟨t, a, d⟩ := w
  simp only [pack48, mkfp48, pack48_upper, pack48_lower]
  exact congrArg (fun field => Fp48.mk field a d) (pack48_field t)

theorem mkfp48_neg (some : w ≠ Fp48.zero) : mkfp48 w.neg = (mkfp48 w).neg := by
  have sign : (w.t ^^^ 0x8000).getLsbD 15 = !w.t.getLsbD 15 := by
    rw [BitVec.getLsbD_xor, show (0x8000 : Word).getLsbD 15 = true from by decide, Bool.xor_true]
  have field : (w.t ^^^ 0x8000) &&& 0x7FFF = w.t &&& 0x7FFF := by
    apply BitVec.eq_of_toNat_eq
    rw [BitVec.toNat_and, BitVec.toNat_xor, Nat.and_xor_distrib_right,
      show (0x8000 : Word).toNat &&& (0x7FFF : Word).toNat = 0 from rfl, Nat.xor_zero, BitVec.toNat_and]
  rw [Fp48.neg, if_neg some, mkfp48, mkfp48, Fp.neg]
  dsimp only
  rw [sign, field]

theorem Fp48.Normalized.neg (normalized : w.Normalized) : w.neg.Normalized := by
  rw [Fp48.neg, if_neg normalized.ne_zero]
  exact normalized

theorem Fp48.Clean.neg (clean : w.Clean) : w.neg.Clean := by
  rcases clean with rfl | normalized
  · exact .inl (if_pos rfl)
  · exact .inr normalized.neg

theorem neg_value (clean : w.Clean) : w.neg.value = -w.value := by
  rcases clean with rfl | normalized
  · rw [Fp48.neg, if_pos rfl, zero_value, neg_zero]
  · rw [Fp48.value, mkfp48_neg normalized.ne_zero, Fp.neg_value]
    rfl

theorem floatAdd_comm (a b : Fp48) : floatAdd a b = floatAdd b a := by
  rw [floatAdd_eq, floatAdd_eq, sumCore_comm]

theorem floatAdd_zero (clean : a.Clean) : floatAdd a Fp48.zero = a := by
  rcases clean with rfl | normalized
  · decide
  · rw [floatAdd_eq, mkfp48_zero, sumCore_zero normalized.normal rfl (mkfp48_range a).1, Option.elim_some,
      pack48_mkfp48]

theorem floatSub_zero (clean : a.Clean) : floatSub a Fp48.zero = a := by
  rcases clean with rfl | normalized
  · decide
  · rw [floatSub_eq, mkfp48_zero, sumCore_zero normalized.normal rfl (mkfp48_range a).1, Option.elim_some,
      pack48_mkfp48]

/-- A difference is the sum with the negative number. -/
theorem floatSub_neg (first : a.Clean) (b : Fp48) : floatSub a b = floatAdd a b.neg := by
  by_cases zero : b = Fp48.zero
  · rw [zero, Fp48.neg, if_pos rfl, floatSub_zero first, floatAdd_zero first]
  · rw [floatSub_eq, floatAdd_eq, mkfp48_neg zero]

end Zeros

section Contract

variable {a b : Fp48}

theorem SumAccurate.of_same {exact unit : ℚ} {lossless : Prop} {r : Fp48} (nonneg : 0 ≤ unit) (clean : r.Clean)
    (same : r.value = exact) : SumAccurate exact unit lossless r :=
  ⟨clean, by rw [same, sub_self, abs_zero]; positivity, fun _ => same⟩

theorem unitOf_nonneg (a b : Fp48) : 0 ≤ unitOf a b := (two_zpow_pos _).le

theorem add_accurate (first : a.Clean) (second : b.Clean) (representable : Representable (a.value + b.value)) :
    SumAccurate (a.value + b.value) (unitOf a b) (Exact (mkfp48 a) (mkfp48 b)) (floatAdd a b) := by
  rcases first with rfl | first
  · rw [floatAdd_comm, floatAdd_zero second, zero_value, zero_add]
    exact .of_same (unitOf_nonneg _ _) second rfl
  · rcases second with rfl | second
    · rw [floatAdd_zero (.inr first), zero_value, add_zero]
      exact .of_same (unitOf_nonneg _ _) (.inr first) rfl
    · rw [floatAdd_eq]
      exact sum_accurate first.normal second.normal (mkfp48_range a).2 (mkfp48_range b).2 representable

theorem sub_accurate (first : a.Clean) (second : b.Clean) (representable : Representable (a.value - b.value)) :
    SumAccurate (a.value - b.value) (unitOf a b) (Exact (mkfp48 a) (mkfp48 b).neg) (floatSub a b) := by
  rcases first with rfl | first
  · rw [floatSub_neg (.inl rfl), floatAdd_comm, floatAdd_zero second.neg, zero_value, zero_sub]
    exact .of_same (unitOf_nonneg _ _) second.neg (neg_value second)
  · rcases second with rfl | second
    · rw [floatSub_zero (.inr first), zero_value, sub_zero]
      exact .of_same (unitOf_nonneg _ _) (.inr first) rfl
    · rw [floatSub_eq]
      rw [Fp48.value, Fp48.value, sub_eq_add_neg, ← Fp.neg_value] at representable ⊢
      exact sum_accurate first.normal (Fp.neg_normal second.normal) (mkfp48_range a).2 (mkfp48_range b).2
        representable

theorem floatMul_zero (zero : a = Fp48.zero ∨ b = Fp48.zero) : floatMul a b = Fp48.zero := by
  have product : (mkfp48 a).m * (mkfp48 b).m = 0 := by
    rcases zero with rfl | rfl
    · rw [mkfp48_zero, Nat.zero_mul]
    · rw [mkfp48_zero, Nat.mul_zero]
  unfold floatMul normalizeProduct
  dsimp only
  rw [product, Nat.zero_testBit, if_neg Bool.false_ne_true, if_pos (.inl (Nat.zero_shiftLeft 1))]

theorem floatDiv_zero (second : b.Normalized) : (floatDiv Fp48.zero b).1 = Fp48.zero := by
  have divisor : (mkfp48 b).m ≠ 0 := (lt_of_lt_of_le (Nat.two_pow_pos 31) second.normal.1).ne'
  unfold floatDiv
  dsimp only
  rw [if_neg divisor, if_pos (.inl (by rw [mkfp48_zero, Nat.zero_shiftLeft]))]

/-- The smallest exponent is the one that the exponent test of a result excludes. -/
theorem tested_eq {f : Fp} {exact : ℚ} (exponent : HasExponent exact f.e) (representable : Representable exact)
    (other : ¬ HasExponent exact (-16384)) :
    (if f.e < -16383 then Fp48.zero else pack48 f) = pack48 f ∧ -16384 ≤ f.e ∧ f.e ≤ 16383 := by
  have range := representable.range exponent
  have test : ¬ f.e < -16383 := by
    intro under
    have smallest : f.e = -16384 := by omega
    exact other (smallest ▸ exponent)
  exact ⟨if_neg test, range⟩

theorem representable_of_exponent {x : ℚ} {e : ℤ} (exponent : HasExponent x e) (low : -16384 ≤ e) (high : e ≤ 16383) :
    Representable x :=
  .inr ⟨exponent.le_iff.mpr (by omega), exponent.lt_iff.mpr high⟩

theorem floatMul_truncated (first : a.Clean) (second : b.Clean) :
    (Representable (a.value * b.value) → Truncated (a.value * b.value) (floatMul a b)) ↔
      ¬ HasExponent (a.value * b.value) (-16384) := by
  by_cases zero : a = Fp48.zero ∨ b = Fp48.zero
  · have none : a.value * b.value = 0 := by
      rcases zero with rfl | rfl
      · rw [zero_value, zero_mul]
      · rw [zero_value, mul_zero]
    rw [none, floatMul_zero zero]
    exact iff_of_true (fun _ => ⟨.inl rfl, .inl ⟨rfl, zero_value⟩⟩) fun smallest => smallest.ne_zero rfl
  · obtain ⟨first, second⟩ : a.Normalized ∧ b.Normalized :=
      ⟨first.resolve_left fun same => zero (.inl same), second.resolve_left fun same => zero (.inr same)⟩
    obtain ⟨product, sign⟩ := mulCore_spec first.normal second.normal
    have exponent := product.exponent.of_abs
    have normal : (mulCore (mkfp48 a) (mkfp48 b)).Normal := ⟨product.low, product.high⟩
    change (Representable ((mkfp48 a).value * (mkfp48 b).value) → _) ↔ _
    rw [floatMul_eq first second, Fp48.value, Fp48.value]
    generalize (mkfp48 a).value * (mkfp48 b).value = exact at *
    generalize mulCore (mkfp48 a) (mkfp48 b) = f at *
    constructor
    · intro truncated smallest
      have place := exponent.unique smallest
      have kept := (truncated (representable_of_exponent smallest (by decide) (by decide))).value
      rw [if_pos (by omega), zero_value] at kept
      rcases kept with ⟨none, -⟩ | ⟨e, found, none⟩
      · exact smallest.ne_zero none
      · have bits := product.truncated
        have unit := two_zpow_pos (e - 32)
        rw [exponent.unique found] at bits
        rw [← bits] at none
        have some : ((f.m : ℤ) : ℚ) ≠ 0 := by
          have : f.m ≠ 0 := (lt_of_lt_of_le (Nat.two_pow_pos 31) product.low).ne'
          exact_mod_cast this
        split at none
        · exact mul_ne_zero (by norm_num) (mul_ne_zero some unit.ne') none.symm
        · exact mul_ne_zero (by norm_num) (mul_ne_zero some unit.ne') none.symm
    · intro other representable
      obtain ⟨test, low, high⟩ := tested_eq exponent representable other
      rw [test]
      refine ⟨.inr (pack48_normalized normal), .inr ⟨f.e, exponent, ?_⟩⟩
      rw [pack48_value normal low high, ← product.truncated, Fp.value, Fp.magnitude, ← sign]
      by_cases negative : exact < 0
      · rw [if_pos (by simpa using negative), if_pos negative]
        push_cast
        ring
      · rw [if_neg (by simpa using negative), if_neg negative]
        push_cast
        ring

theorem floatDiv_accurate (first : a.Clean) (second : b.Clean) :
    (b ≠ Fp48.zero → Representable (a.value / b.value) → QuotientAccurate (a.value / b.value) (floatDiv a b).1) ↔
      (b ≠ Fp48.zero → ¬ HasExponent (a.value / b.value) (-16384)) := by
  refine forall_congr' fun some => ?_
  have second := second.resolve_left some
  rcases first with rfl | first
  · rw [zero_value, zero_div, floatDiv_zero second]
    exact iff_of_true (fun _ => ⟨.inl rfl, .inl ⟨rfl, zero_value⟩⟩) fun smallest => smallest.ne_zero rfl
  · obtain ⟨quotient, sign⟩ := divCore_spec second.normal first.normal
    have exponent := quotient.exponent.of_abs
    have normal : (divCore (mkfp48 b) (mkfp48 a)).Normal := ⟨quotient.low, quotient.high⟩
    rw [floatDiv_eq first second, Fp48.value, Fp48.value]
    generalize (mkfp48 a).value / (mkfp48 b).value = exact at *
    generalize divCore (mkfp48 b) (mkfp48 a) = f at *
    constructor
    · intro accurate smallest
      have place := exponent.unique smallest
      have near := (accurate (representable_of_exponent smallest (by decide) (by decide))).near
      rw [if_pos (by omega), zero_value, zero_sub, abs_neg] at near
      rcases near with ⟨none, -⟩ | ⟨e, found, small⟩
      · exact smallest.ne_zero none
      · have large := lt_of_lt_of_le (two_zpow_lt_iff.mpr (show e - 32 < e - 1 by omega)) found.1
        exact absurd small (not_le.mpr large)
    · intro other representable
      obtain ⟨test, low, high⟩ := tested_eq exponent representable other
      rw [test]
      refine ⟨.inr (pack48_normalized normal), .inr ⟨f.e, exponent, ?_⟩⟩
      rw [pack48_value normal low high, value_near sign.symm, Fp.magnitude, abs_le]
      have above := quotient.above
      have below := quotient.below
      constructor <;> linarith

/-- The operations keep their promises exactly where no product and no quotient has the smallest
exponent. -/
theorem floatArithmetic (first : a.Clean) (second : b.Clean) :
    Arithmetic a b ↔ ¬ HasExponent (a.value * b.value) (-16384) ∧
      (b ≠ Fp48.zero → ¬ HasExponent (a.value / b.value) (-16384)) := by
  rw [← floatMul_truncated first second, ← floatDiv_accurate first second]
  constructor
  · intro arithmetic
    exact ⟨arithmetic.mul, arithmetic.div⟩
  · rintro ⟨mul, div⟩
    exact ⟨add_accurate first second, sub_accurate first second, floatAdd_comm a b, floatSub_neg first b, mul, div⟩

/-- The numbers 2 ^ -8192 and 2 ^ -8193. -/
def smallFactors : Fp48 × Fp48 := (⟨0x2001, 0x8000, 0⟩, ⟨0x2000, 0x8000, 0⟩)

theorem floatArithmetic_smallFactors : Arithmetic smallFactors.1 Fp48.zero := by
  refine (floatArithmetic (.inr (by unfold Fp48.Normalized; decide)) (.inl rfl)).mpr
    ⟨fun smallest => ?_, fun some => absurd rfl some⟩
  rw [zero_value, mul_zero] at smallest
  exact smallest.ne_zero rfl

/-- The product 2 ^ -16385 is representable, but it is zero. -/
theorem smallFactors_product :
    smallFactors.1.Clean ∧ smallFactors.2.Clean ∧ ¬ Arithmetic smallFactors.1 smallFactors.2 := by
  have first : smallFactors.1.Normalized := by unfold Fp48.Normalized; decide
  have second : smallFactors.2.Normalized := by unfold Fp48.Normalized; decide
  refine ⟨.inr first, .inr second, fun arithmetic => ?_⟩
  have product := (mulCore_spec first.normal second.normal).1.exponent.of_abs
  have smallest : (mulCore (mkfp48 smallFactors.1) (mkfp48 smallFactors.2)).e = -16384 := by decide
  rw [smallest] at product
  exact (floatMul_truncated (.inr first) (.inr second)).mp arithmetic.mul product

end Contract

end Nd100x
