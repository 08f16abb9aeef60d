import Nd100x.Proof.Addition
import Nd100x.Proof.Floats

namespace Nd100x

open Library

section Denormalize

variable {scaling : BitVec 8} {acc : Fp48}

/-- The exponent under the scaling factor. -/
def scaledExponent (scaling : BitVec 8) (acc : Fp48) : ℤ := (mkfp48 acc).e + scaling.toInt

/-- The upper 16 bits of the mantissa under the scaled exponent. -/
def scaledValue (scaling : BitVec 8) (acc : Fp48) : ℚ :=
  (if acc.t.getLsbD 15 then (-1 : ℚ) else 1) * (acc.a.toNat * 2 ^ scaledExponent scaling acc)

/-- The truncated value is left in A where it fits, and Z is set where it does not. -/
structure Denormalized (value : ℚ) (result : Fp48 × Bool) : Prop where
  fits : FitsWord (towardZero value) → result.1.a.toInt = towardZero value
  overflow : ¬ FitsWord (towardZero value) → result.2 = true
  cleared : result.1.t = 0 ∧ result.1.d = 0

/-- A signed integer of 32 bits is cut to a word. -/
theorem signed_word {val : BitVec 32} {n : ℕ} (s : Bool) (size : val.toNat = n) (small : n ≤ 32767) :
    (((if s then -val else val).setWidth 16 : Word)).toInt = if s then -(n : ℤ) else n := by
  cases s with
  | false =>
    rw [if_neg Bool.false_ne_true, if_neg Bool.false_ne_true, BitVec.toInt_eq_toNat_bmod, BitVec.toNat_setWidth, size,
      Int.bmod_def]
    omega
  | true =>
    rw [if_pos rfl, if_pos rfl, BitVec.toInt_eq_toNat_bmod, BitVec.toNat_setWidth, BitVec.toNat_neg, size,
      Int.bmod_def]
    omega

variable (undefinedShl : BitVec 32 → Nat → BitVec 32)

/-- The shift before the sign is given to the value. -/
def dnzShift (sh : ℤ) (a : Word) : BitVec 32 × Bool :=
  if sh < 0 then (if 32 ≤ -sh then 0 else (a.setWidth 32) >>> (-sh).toNat, false)
  else if 0 < sh then
    (shlInt undefinedShl (a.setWidth 32) sh.toNat, 32767 < (shlInt undefinedShl (a.setWidth 32) sh.toNat).toInt)
  else (0, false)

theorem floatDoDnz_eq : floatDoDnz undefinedShl scaling acc =
    (⟨0, (if acc.t.getLsbD 15 then -(dnzShift undefinedShl (scaledExponent scaling acc) acc.a).1
      else (dnzShift undefinedShl (scaledExponent scaling acc) acc.a).1).setWidth 16, 0⟩,
      (dnzShift undefinedShl (scaledExponent scaling acc) acc.a).2) := by
  have sign : acc.t &&& 0x8000 ≠ 0 ↔ acc.t.getLsbD 15 = true := by
    rw [show (0x8000 : Word) = BitVec.twoPow 16 15 from rfl, BitVec.and_twoPow]
    cases acc.t.getLsbD 15 <;> decide
  unfold floatDoDnz dnzShift
  simp only [sign]
  rfl

/-- Below a shift count of zero the value is the integer part of the magnitude. -/
theorem dnzShift_down {sh : ℤ} (down : sh < 0) (a : Word) :
    (dnzShift undefinedShl sh a).2 = false ∧ ((dnzShift undefinedShl sh a).1.toNat : ℤ) = ⌊(a.toNat : ℚ) * 2 ^ sh⌋ ∧
      (dnzShift undefinedShl sh a).1.toNat ≤ 32767 := by
  obtain ⟨k, count⟩ : ∃ k : ℕ, -sh = k := ⟨(-sh).toNat, by omega⟩
  have some : k ≠ 0 := by omega
  have quotient : ⌊(a.toNat : ℚ) * 2 ^ sh⌋ = (a.toNat / 2 ^ k : ℕ) := by
    have divided : (a.toNat : ℚ) * 2 ^ sh = a.toNat / (2 ^ k : ℕ) := by
      rw [← neg_neg sh, count, zpow_neg, two_zpow_natCast, div_eq_mul_inv]
      push_cast
      rfl
    rw [divided]
    exact_mod_cast Rat.floor_natCast_div_natCast a.toNat (2 ^ k)
  have bits := a.isLt
  have half : a.toNat / 2 ^ k ≤ a.toNat / 2 := Nat.div_le_div_left (Nat.le_self_pow some 2) (by decide)
  unfold dnzShift
  rw [if_pos down, quotient]
  dsimp only
  by_cases deep : 32 ≤ -sh
  · have power : 2 ^ 16 ≤ 2 ^ k := Nat.pow_le_pow_right (by decide) (by omega)
    rw [if_pos deep, Nat.div_eq_of_lt (by omega)]
    exact ⟨rfl, rfl, by decide⟩
  · have shifted : (a.setWidth 32 >>> (-sh).toNat).toNat = a.toNat / 2 ^ k := by
      rw [count, Int.toNat_natCast, BitVec.toNat_ushiftRight, BitVec.toNat_setWidth, Nat.shiftRight_eq_div_pow,
        Nat.mod_eq_of_lt (by omega)]
    rw [if_neg deep, shifted]
    exact ⟨rfl, rfl, by omega⟩

/-- A shifted value exceeds a word where a bit is kept and the sign bit of the `int` is not reached. -/
theorem shl_overflow {a : Word} {count : ℕ} (first : 2 ^ 15 ≤ a.toNat) (some : 0 < count) (narrow : count < 32) :
    32767 < (a.setWidth 32 <<< count : BitVec 32).toInt ↔
      0 < a.toNat % 2 ^ (32 - count) ∧ a.toNat % 2 ^ (32 - count) < 2 ^ (31 - count) := by
  have bits := a.isLt
  have word : 2 ^ 32 = 2 ^ (32 - count) * 2 ^ count := by
    rw [← pow_add, Nat.sub_add_cancel narrow.le]
  have half : 2 ^ 31 = 2 ^ (31 - count) * 2 ^ count := by
    rw [← pow_add, Nat.sub_add_cancel (by omega)]
  have shifted : (a.setWidth 32 <<< count : BitVec 32).toNat = a.toNat % 2 ^ (32 - count) * 2 ^ count := by
    rw [BitVec.toNat_shiftLeft, BitVec.toNat_setWidth, Nat.mod_eq_of_lt (show a.toNat < 2 ^ 32 by omega),
      Nat.shiftLeft_eq, word, Nat.mul_mod_mul_right]
  have unit := Nat.two_pow_pos count
  have kept : 32767 < a.toNat % 2 ^ (32 - count) * 2 ^ count ↔ 0 < a.toNat % 2 ^ (32 - count) := by
    constructor
    · intro large
      refine Nat.pos_of_ne_zero fun none => ?_
      rw [none, Nat.zero_mul] at large
      omega
    · intro bit
      by_cases wide : 16 ≤ count
      · calc 32767 < 2 ^ 16 := by decide
          _ ≤ 2 ^ count := Nat.pow_le_pow_right (by decide) wide
          _ ≤ a.toNat % 2 ^ (32 - count) * 2 ^ count := Nat.le_mul_of_pos_left _ bit
      · have power : 2 ^ 16 ≤ 2 ^ (32 - count) := Nat.pow_le_pow_right (by decide) (by omega)
        rw [Nat.mod_eq_of_lt (by omega)]
        have := Nat.le_mul_of_pos_right a.toNat unit
        omega
  have sign : a.toNat % 2 ^ (32 - count) * 2 ^ count < 2 ^ 31 ↔ a.toNat % 2 ^ (32 - count) < 2 ^ (31 - count) := by
    rw [half, Nat.mul_lt_mul_right unit]
  rw [← kept, ← sign, BitVec.toInt_eq_toNat_cond, shifted]
  generalize a.toNat % 2 ^ (32 - count) * 2 ^ count = value at *
  have below : value < 2 ^ 32 := shifted ▸ (a.setWidth 32 <<< count : BitVec 32).isLt
  split
  · omega
  · omega

/-- The shift count is negative, or the shifted value keeps a bit below the sign of the `int`. -/
def DnzSafe (sh : ℤ) (a : Word) : Prop :=
  sh < 0 ∨ (0 < sh ∧ if sh < 32
    then 0 < a.toNat % 2 ^ (32 - sh.toNat) ∧ a.toNat % 2 ^ (32 - sh.toNat) < 2 ^ (31 - sh.toNat)
    else 32767 < (undefinedShl (a.setWidth 32) sh.toNat).toInt)

/-- A normalized mantissa that moves up is too large for a word. -/
theorem scaled_large {a : Word} {sh : ℤ} (first : 2 ^ 15 ≤ a.toNat) (up : 0 < sh) (s : Bool) :
    ¬ FitsWord (towardZero ((if s then (-1 : ℚ) else 1) * (a.toNat * 2 ^ sh))) := by
  have low : (32768 : ℚ) ≤ a.toNat := by exact_mod_cast first
  have twice : (2 : ℚ) ≤ 2 ^ sh := by
    rw [← zpow_one (2 : ℚ), ← zpow_mul, one_mul]
    exact two_zpow_le up
  have large : (65536 : ℚ) ≤ a.toNat * 2 ^ sh := by nlinarith
  have floor : (65536 : ℤ) ≤ ⌊(a.toNat : ℚ) * 2 ^ sh⌋ := Int.le_floor.mpr (by exact_mod_cast large)
  rw [towardZero_signed s (by linarith), FitsWord]
  split <;> omega

theorem Fp48.Normalized.upper (normalized : acc.Normalized) : 2 ^ 15 ≤ acc.a.toNat := by
  have first := normalized.normal.1
  have low := acc.d.isLt
  simp only [mkfp48, Nat.shiftLeft_eq] at first
  omega

/-- A number is converted to an integer exactly where the shift is safe. -/
theorem floatDenormalize (normalized : acc.Normalized) :
    Denormalized (scaledValue scaling acc) (floatDoDnz undefinedShl scaling acc) ↔
      DnzSafe undefinedShl (scaledExponent scaling acc) acc.a := by
  have first := normalized.upper
  rw [floatDoDnz_eq]
  unfold scaledValue DnzSafe
  generalize scaledExponent scaling acc = sh
  rcases lt_trichotomy sh 0 with down | zero | up
  · obtain ⟨calm, size, small⟩ := dnzShift_down undefinedShl down acc.a
    have nonneg : (0 : ℚ) ≤ acc.a.toNat * 2 ^ sh := mul_nonneg (Nat.cast_nonneg _) (two_zpow_pos sh).le
    refine iff_of_true ⟨fun _ => ?_, fun large => ?_, rfl, rfl⟩ (.inl down)
    · rw [signed_word _ rfl small, size, towardZero_signed _ nonneg]
    · rw [towardZero_signed _ nonneg, ← size, FitsWord] at large
      refine absurd ?_ large
      split <;> omega
  · subst zero
    have shifted : dnzShift undefinedShl 0 acc.a = (0, false) := rfl
    have value : ⌊(acc.a.toNat : ℚ) * 2 ^ (0 : ℤ)⌋ = acc.a.toNat := by
      rw [zpow_zero, mul_one, Int.floor_natCast]
    rw [shifted]
    refine iff_of_false (fun denormalized => ?_) (by omega)
    have word : ((if acc.t.getLsbD 15 then -(0 : BitVec 32) else 0).setWidth 16 : Word).toInt = 0 := by
      cases acc.t.getLsbD 15 <;> rfl
    have same := denormalized.fits (not_not.mp fun large => Bool.false_ne_true (denormalized.overflow large))
    rw [word, towardZero_signed _ (by positivity), value] at same
    split at same <;> omega
  · have large := scaled_large first up (acc.t.getLsbD 15)
    have shifted : (dnzShift undefinedShl sh acc.a).2 =
        decide (32767 < (shlInt undefinedShl (acc.a.setWidth 32) sh.toNat).toInt) := by
      unfold dnzShift
      rw [if_neg (by omega), if_pos up]
    have safe : Denormalized ((if acc.t.getLsbD 15 then (-1 : ℚ) else 1) * (acc.a.toNat * 2 ^ sh))
        (⟨0, (if acc.t.getLsbD 15 then -(dnzShift undefinedShl sh acc.a).1
          else (dnzShift undefinedShl sh acc.a).1).setWidth 16, 0⟩, (dnzShift undefinedShl sh acc.a).2) ↔
          (dnzShift undefinedShl sh acc.a).2 = true :=
      ⟨fun denormalized => denormalized.overflow large,
        fun indicator => ⟨fun fits => absurd fits large, fun _ => indicator, rfl, rfl⟩⟩
    rw [safe, shifted, decide_eq_true_iff, shlInt]
    have bounds : ¬ sh < 0 := by omega
    simp only [bounds, up, false_or, true_and]
    by_cases narrow : sh < 32
    · rw [if_pos narrow, if_pos (by omega), shl_overflow first (by omega) (by omega)]
    · rw [if_neg narrow, if_neg (by omega)]

/-- The number 32768 with the exponent 16. -/
def leastOverflow : Fp48 := ⟨0x4010, 0x8000, 0⟩

theorem floatDenormalize_leastOverflow :
    Denormalized (scaledValue 0xEF leastOverflow) (floatDoDnz (fun val _ => val) 0xEF leastOverflow) :=
  (floatDenormalize _ (by unfold Fp48.Normalized; decide)).mpr (.inl (by decide))

/-- The conversion of 32768 leaves zero and does not set the error indicator. -/
theorem leastOverflow_silent :
    leastOverflow.Normalized ∧
      ¬ Denormalized (scaledValue 0xF0 leastOverflow) (floatDoDnz (fun val _ => val) 0xF0 leastOverflow) := by
  have exponent : scaledExponent 0xF0 leastOverflow = 0 := by decide
  have value : scaledValue 0xF0 leastOverflow = (if false then -1 else 1) * (32768 : ℕ) := by
    rw [scaledValue, exponent, zpow_zero, mul_one]
    rfl
  have result : (floatDoDnz (fun val _ => val) 0xF0 leastOverflow).2 = false := by decide
  refine ⟨by unfold Fp48.Normalized; decide, fun denormalized => ?_⟩
  have indicator := denormalized.overflow (by
    rw [value, towardZero_signed false (by norm_num), if_neg Bool.false_ne_true, Int.floor_natCast]
    unfold FitsWord
    decide)
  rw [result] at indicator
  exact Bool.false_ne_true indicator

end Denormalize

end Nd100x
