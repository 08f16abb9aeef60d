import Nd100x.Machine.Decimal
import Nd100x.Library.WordBits
import Mathlib.Tactic.Ring

namespace Nd100x

open Library

namespace BcdOperand

variable (op : BcdOperand)

/-- A field that starts in the right byte is shifted by one byte. -/
def skew : Nat := if op.startsInRightByte then 1 else 0

def wordAt (index : Nat) : Word := if inside : index < bcdMaxWords then op.words ⟨index, inside⟩ else 0

def nibbleAt (i : Nat) : Nat :=
  (extractField (op.wordAt ((i + 2 * op.skew) / 4)) ((3 - (i + 2 * op.skew) % 4) * 4) 4).toNat

def byteAt (i : Nat) : Nat :=
  (extractField (op.wordAt ((i + op.skew) / 2)) ((1 - (i + op.skew) % 2) * 8) 8).toNat

/-- The fields of a word are numbered from its left end. -/
def withField (index shift size val : Nat) : BcdOperand :=
  { op with words := fun k =>
      if k.val = index then insertField (op.words k) (BitVec.ofNat 16 val) shift size
      else op.words k }

def withNibble (i val : Nat) : BcdOperand :=
  op.withField ((i + 2 * op.skew) / 4) ((3 - (i + 2 * op.skew) % 4) * 4) 4 val

def withByte (i val : Nat) : BcdOperand :=
  op.withField ((i + op.skew) / 2) ((1 - (i + op.skew) % 2) * 8) 8 val

section Frame

variable (index shift size i val : Nat)

@[simp] theorem withNibble_skew : (op.withNibble i val).skew = op.skew := rfl
@[simp] theorem withNibble_byteAlignedNibbles :
    (op.withNibble i val).byteAlignedNibbles = op.byteAlignedNibbles := rfl
@[simp] theorem withByte_skew : (op.withByte i val).skew = op.skew := rfl

end Frame

theorem skew_le_one : op.skew ≤ 1 := by
  unfold skew
  split <;> omega

theorem fieldLength_le : op.fieldLength ≤ 31 := by
  rw [fieldLength, BitVec.toNat_and]
  exact Nat.and_le_right

theorem byteAlignedNibbles_le : op.byteAlignedNibbles ≤ 32 := by
  have bounded := op.fieldLength_le
  unfold byteAlignedNibbles
  omega

theorem nibblePosition_eq (i : Nat) : op.nibblePosition i = ((i + 2 * op.skew : Nat) : Int) := by
  unfold nibblePosition skew
  split <;> simp

theorem bytePosition_eq (i : Int) : op.bytePosition i = i + op.skew := by
  unfold bytePosition skew
  split <;> simp

theorem nibbleShift_eq (p : Nat) : nibbleShift p = (3 - p % 4) * 4 := by
  unfold nibbleShift
  omega

theorem word_eq {index : Nat} (inside : index < bcdMaxWords) :
    op.word index = .ok (op.wordAt index) := by
  have bounds : (0 : Int) ≤ index ∧ (index : Int) < bcdMaxWords := by omega
  rw [word, dif_pos bounds, wordAt, dif_pos inside]
  rfl

theorem word_outside {index : Int} (outside : index < 0 ∨ 10 ≤ index) :
    op.word index = .error .outOfBounds := by
  rw [word, dif_neg]
  rintro ⟨lower, upper⟩
  have : (bcdMaxWords : Int) = 10 := rfl
  omega

theorem putWord_eq {index : Nat} (inside : index < bcdMaxWords) (shift size val : Nat) :
    op.putWord index (insertField (op.wordAt index) (BitVec.ofNat 16 val) shift size) =
      .ok (op.withField index shift size val) := by
  have bounds : (0 : Int) ≤ index ∧ (index : Int) < bcdMaxWords := by omega
  rw [putWord, dif_pos bounds, withField, wordAt, dif_pos inside]
  congr 2
  funext k
  by_cases here : k.val = index
  · have same : k = ⟨index, inside⟩ := Fin.ext here
    subst same
    simp
  · have apart : k ≠ ⟨(index : Int).toNat, by omega⟩ := by
      intro same
      apply here
      simpa using congrArg Fin.val same
    rw [Function.update_of_ne apart, if_neg here]

section Accessors

variable {op} {i : Nat}

theorem getNibble_eq (inside : i + 2 * op.skew < 40) : op.getNibble i = .ok (op.nibbleAt i) := by
  have word : (i + 2 * op.skew) / 4 < bcdMaxWords := by
    have : bcdMaxWords = 10 := rfl
    omega
  have index : ((i + 2 * op.skew : Nat) : Int) / 4 = ((i + 2 * op.skew) / 4 : Nat) := by omega
  simp only [getNibble, nibblePosition_eq, index, word_eq _ word, nibbleShift_eq]
  rfl

theorem setNibble_eq (inside : i + 2 * op.skew < 40) (val : Nat) :
    op.setNibble i val = .ok (op.withNibble i val) := by
  have word : (i + 2 * op.skew) / 4 < bcdMaxWords := by
    have : bcdMaxWords = 10 := rfl
    omega
  have index : ((i + 2 * op.skew : Nat) : Int) / 4 = ((i + 2 * op.skew) / 4 : Nat) := by omega
  simp only [setNibble, nibblePosition_eq, index, word_eq _ word, nibbleShift_eq]
  exact putWord_eq op word _ 4 val

theorem byteShift_cases (p : Nat) : (1 - p % 2) * 8 = if (p : Int) % 2 = 0 then 8 else 0 := by
  split <;> omega

theorem getByte_eq (inside : i + op.skew < 20) : op.getByte i = .ok (op.byteAt i) := by
  have word : (i + op.skew) / 2 < bcdMaxWords := by
    have : bcdMaxWords = 10 := rfl
    omega
  have index : ((i : Int) + op.skew) / 2 = ((i + op.skew) / 2 : Nat) := by omega
  simp only [getByte, bytePosition_eq, index, word_eq _ word, byteAt, byteShift_cases]
  change Except.ok _ = Except.ok _
  congr 2
  push_cast
  split
  · apply BitVec.eq_of_getLsbD_eq
    intro bit below
    simp only [extractField, BitVec.getLsbD_and, BitVec.getLsbD_ushiftRight, getLsbD_fieldMask]
    by_cases low : bit < 8
    · simp [low, below]
    · simp [low, BitVec.getLsbD_of_ge _ (8 + bit) (by omega : 16 ≤ 8 + bit)]
  · simp only [extractField, BitVec.ushiftRight_zero]
    rfl

theorem insertField_left (w v : Word) :
    (w &&& 0x00FF) ||| (v <<< 8) = insertField w v 8 8 := by
  change (w &&& fieldMask 16 8) ||| (v <<< 8) = _
  apply BitVec.eq_of_getLsbD_eq
  intro bit below
  simp only [insertField, BitVec.getLsbD_or, BitVec.getLsbD_and, BitVec.getLsbD_not,
    BitVec.getLsbD_shiftLeft, getLsbD_fieldMask]
  by_cases low : bit < 8
  · simp [low, below]
  · have small : bit - 8 < 8 ∧ bit - 8 < 16 := by omega
    simp [low, small, below]

theorem insertField_right {w : Word} {val : Nat} (small : val < 256) :
    (w &&& 0xFF00) ||| BitVec.ofNat 16 val = insertField w (BitVec.ofNat 16 val) 0 8 := by
  have kept : BitVec.ofNat 16 val &&& fieldMask 16 8 = BitVec.ofNat 16 val := by
    apply BitVec.eq_of_toNat_eq
    rw [toNat_and_fieldMask _ _ (by decide), BitVec.toNat_ofNat]
    omega
  rw [insertField, kept, BitVec.shiftLeft_zero, BitVec.shiftLeft_zero]
  rfl

theorem setByte_eq (inside : i + op.skew < 20) {val : Nat} (small : val < 256) :
    op.setByte i val = .ok (op.withByte i val) := by
  have word : (i + op.skew) / 2 < bcdMaxWords := by
    have : bcdMaxWords = 10 := rfl
    omega
  have index : ((i : Int) + op.skew) / 2 = ((i + op.skew) / 2 : Nat) := by omega
  rw [setByte, bytePosition_eq]
  simp only [index, word_eq _ word, withByte, byteShift_cases]
  rw [← putWord_eq op word]
  change op.putWord _ _ = _
  congr 1
  push_cast
  split
  · exact insertField_left _ _
  · exact insertField_right small

theorem getByte_outside {i : Int} (outside : i + op.skew < 0 ∨ 20 ≤ i + op.skew) :
    op.getByte i = .error .outOfBounds := by
  have far : (i + op.skew) / 2 < 0 ∨ 10 ≤ (i + op.skew) / 2 := by omega
  simp only [getByte, bytePosition_eq, word_outside op far]
  rfl

theorem setByte_outside {i : Int} (outside : i + op.skew < 0 ∨ 20 ≤ i + op.skew) (val : Nat) :
    op.setByte i val = .error .outOfBounds := by
  have far : (i + op.skew) / 2 < 0 ∨ 10 ≤ (i + op.skew) / 2 := by omega
  simp only [setByte, bytePosition_eq, word_outside op far]
  rfl

end Accessors

theorem nibbleAt_lt (i : Nat) : op.nibbleAt i < 16 :=
  toNat_extractField_lt _ _ 4 (by decide)

theorem wordAt_withField_same {index : Nat} (inside : index < bcdMaxWords) (shift size val : Nat) :
    (op.withField index shift size val).wordAt index =
      insertField (op.wordAt index) (BitVec.ofNat 16 val) shift size := by
  rw [wordAt, dif_pos inside, wordAt, dif_pos inside, withField]
  exact if_pos rfl

theorem wordAt_withField_other {index other : Nat} (apart : other ≠ index) (shift size val : Nat) :
    (op.withField index shift size val).wordAt other = op.wordAt other := by
  unfold wordAt withField
  by_cases inside : other < bcdMaxWords
  · simp only [inside, dif_pos, if_neg apart]
  · simp only [inside, dif_neg, not_false_eq_true]

/-- A nibble of the words, which are numbered from the left end of the first one. -/
def rawNibble (p : Nat) : Nat := (extractField (op.wordAt (p / 4)) ((3 - p % 4) * 4) 4).toNat

theorem nibbleAt_eq (i : Nat) : op.nibbleAt i = op.rawNibble (i + 2 * op.skew) := rfl

theorem rawNibble_withNibble {i : Nat} (inside : i + 2 * op.skew < 40) (p val : Nat) :
    (op.withNibble i val).rawNibble p = if p = i + 2 * op.skew then val % 16 else op.rawNibble p := by
  have word : (i + 2 * op.skew) / 4 < bcdMaxWords := by
    have : bcdMaxWords = 10 := rfl
    omega
  unfold rawNibble
  by_cases same : p = i + 2 * op.skew
  · subst same
    rw [if_pos rfl, withNibble, wordAt_withField_same op word,
      extractField_insertField_same _ _ _ _ (by omega), toNat_and_fieldMask _ _ (by decide),
      BitVec.toNat_ofNat]
    omega
  · rw [if_neg same]
    by_cases sameWord : p / 4 = (i + 2 * op.skew) / 4
    · rw [sameWord, withNibble, wordAt_withField_same op word,
        extractField_insertField_other _ _ _ _ _ (by omega)]
    · rw [withNibble, wordAt_withField_other op sameWord]

theorem nibbleAt_withNibble {i : Nat} (inside : i + 2 * op.skew < 40) (j val : Nat) :
    (op.withNibble i val).nibbleAt j = if j = i then val % 16 else op.nibbleAt j := by
  rw [nibbleAt_eq, withNibble_skew, rawNibble_withNibble op inside, nibbleAt_eq]
  simp only [Nat.add_right_cancel_iff]

theorem byteAt_withByte {i : Nat} (inside : i + op.skew < 20) (j val : Nat) :
    (op.withByte i val).byteAt j = if j = i then val % 256 else op.byteAt j := by
  have word : (i + op.skew) / 2 < bcdMaxWords := by
    have : bcdMaxWords = 10 := rfl
    omega
  unfold byteAt
  rw [withByte_skew]
  by_cases same : j = i
  · subst same
    rw [if_pos rfl, withByte, wordAt_withField_same op word,
      extractField_insertField_same _ _ _ _ (by omega), toNat_and_fieldMask _ _ (by decide),
      BitVec.toNat_ofNat]
    omega
  · rw [if_neg same]
    by_cases sameWord : (j + op.skew) / 2 = (i + op.skew) / 2
    · rw [sameWord, withByte, wordAt_withField_same op word,
        extractField_insertField_other _ _ _ _ _ (by omega)]
    · rw [withByte, wordAt_withField_other op sameWord]

end BcdOperand

end Nd100x
