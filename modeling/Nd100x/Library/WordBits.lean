import Mathlib.Data.Nat.Bitwise
import Mathlib.Tactic.IntervalCases

namespace Nd100x.Library

/-- A mask selects nothing exactly when every masked bit is clear. -/
theorem and_eq_zero_iff {width : Nat} (word mask : BitVec width) :
    word &&& mask = 0 ↔ ∀ bit, mask.getLsbD bit = true → word.getLsbD bit = false := by
  constructor
  · intro empty bit masked
    have same := congrArg (fun value : BitVec width => value.getLsbD bit) empty
    simpa [masked] using same
  · intro clear
    apply BitVec.eq_of_getLsbD_eq
    intro bit inside
    have cleared := clear bit
    cases masked : mask.getLsbD bit
    · simp [masked]
    · simp [masked, cleared masked]

/-- A shifted one has a single bit. -/
theorem getLsbD_single {width : Nat} (bit position : Nat) :
    ((1 : BitVec width) <<< bit).getLsbD position = decide (position = bit ∧ position < width) := by
  change (BitVec.ofNat width 1 <<< bit).getLsbD position = _
  rw [BitVec.getLsbD_shiftLeft, BitVec.getLsbD_one, Bool.eq_iff_iff]
  simp
  omega

/-- A word that has a bit is not changed by adding it. -/
theorem or_single_eq_self {width : Nat} (word : BitVec width) (bit : Nat)
    (present : word.getLsbD bit = true) : word ||| ((1 : BitVec width) <<< bit) = word := by
  apply BitVec.eq_of_getLsbD_eq
  intro position inside
  rw [BitVec.getLsbD_or, getLsbD_single]
  by_cases same : position = bit
  · simp [same, present]
  · simp [same]

theorem or_right_comm {width : Nat} (x y z : BitVec width) : x ||| y ||| z = x ||| z ||| y := by
  rw [BitVec.or_assoc, BitVec.or_comm y z, ← BitVec.or_assoc]

/-- A word is determined by its lowest sixteen bits. -/
theorem word_eq_of_bits {first second : BitVec 16}
    (same : ∀ bit < 16, first.getLsbD bit = second.getLsbD bit) : first = second :=
  BitVec.eq_of_getLsbD_eq same

/-- A shifted field and a low field do not overlap. -/
theorem shiftLeft_or_eq_add (high low shift : Nat) (fits : low < 2 ^ shift) :
    (high <<< shift) ||| low = high * 2 ^ shift + low := by
  rw [← Nat.shiftLeft_add_eq_or_of_lt fits, Nat.shiftLeft_eq]

variable {width : Nat}

def fieldMask (width size : Nat) : BitVec width := BitVec.ofNat width (2 ^ size - 1)

/-- A field is read by a shift and a mask. -/
def extractField (word : BitVec width) (shift size : Nat) : BitVec width :=
  (word >>> shift) &&& fieldMask width size

/-- The other bits of the word are kept. -/
def insertField (word value : BitVec width) (shift size : Nat) : BitVec width :=
  (word &&& ~~~(fieldMask width size <<< shift)) ||| ((value &&& fieldMask width size) <<< shift)

theorem getLsbD_fieldMask (size bit : Nat) :
    (fieldMask width size).getLsbD bit = (decide (bit < width) && decide (bit < size)) := by
  rw [fieldMask, BitVec.getLsbD_ofNat, Nat.testBit_two_pow_sub_one]

theorem extractField_insertField_same (word value : BitVec width) (shift size : Nat)
    (inside : shift + size ≤ width) :
    extractField (insertField word value shift size) shift size =
      value &&& fieldMask width size := by
  apply BitVec.eq_of_getLsbD_eq
  intro bit below
  simp only [extractField, insertField, BitVec.getLsbD_and, BitVec.getLsbD_ushiftRight,
    BitVec.getLsbD_or, BitVec.getLsbD_not, BitVec.getLsbD_shiftLeft, getLsbD_fieldMask]
  by_cases small : bit < size
  · have reached : shift + bit < width := by omega
    simp [small, below, reached]
  · simp [small]

/-- Disjoint fields do not disturb each other. -/
theorem extractField_insertField_other (word value : BitVec width) (read written size : Nat)
    (apart : read + size ≤ written ∨ written + size ≤ read) :
    extractField (insertField word value written size) read size =
      extractField word read size := by
  apply BitVec.eq_of_getLsbD_eq
  intro bit below
  simp only [extractField, insertField, BitVec.getLsbD_and, BitVec.getLsbD_ushiftRight,
    BitVec.getLsbD_or, BitVec.getLsbD_not, BitVec.getLsbD_shiftLeft, getLsbD_fieldMask]
  by_cases small : bit < size
  · by_cases reached : read + bit < width
    · by_cases before : read + bit < written
      · simp [small, reached, before]
      · have after : ¬ (read + bit - written < size) := by omega
        simp [small, reached, before, after]
    · simp [reached, BitVec.getLsbD_of_ge word (read + bit) (by omega)]
  · simp [small]

theorem toNat_and_fieldMask (value : BitVec width) (size : Nat) (inside : size ≤ width) :
    (value &&& fieldMask width size).toNat = value.toNat % 2 ^ size := by
  have small : 2 ^ size - 1 < 2 ^ width :=
    Nat.lt_of_lt_of_le (Nat.sub_one_lt (Nat.two_pow_pos size).ne')
      (Nat.pow_le_pow_right (by decide) inside)
  rw [BitVec.toNat_and, fieldMask, BitVec.toNat_ofNat, Nat.mod_eq_of_lt small,
    Nat.and_two_pow_sub_one_eq_mod]

theorem toNat_extractField_lt (word : BitVec width) (shift size : Nat) (inside : size ≤ width) :
    (extractField word shift size).toNat < 2 ^ size := by
  rw [extractField, toNat_and_fieldMask _ _ inside]
  exact Nat.mod_lt _ (Nat.two_pow_pos size)

end Nd100x.Library
