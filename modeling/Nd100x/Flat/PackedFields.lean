import Nd100x.Flat.Decimal
import Nd100x.Proof.DecimalArithmetic

namespace Nd100x

open Library

namespace Space

variable (space : Space) (f : FlatState)

/-- All words that a packed field can reach, also the one that the word count leaves out. -/
def packedField (d1 d2 : Word) : BcdOperand where
  addr := d1
  d2 := d2
  isAscii := false
  words := fun i => space.readWord f (d1 + BitVec.ofNat 16 i)

variable {space f} {d1 d2 : Word}

/-- The loaded words are the words of the field. -/
theorem operand_words {i : Fin bcdMaxWords} (inside : i.val < (space.packedField f d1 d2).memWords) :
    (space.operand f d1 d2 false).words i = (space.packedField f d1 d2).words i :=
  if_pos inside

theorem operand_rawNibble {p : Nat} (inside : p < 4 * (space.packedField f d1 d2).memWords) :
    (space.operand f d1 d2 false).rawNibble p = (space.packedField f d1 d2).rawNibble p := by
  unfold BcdOperand.rawNibble
  rw [BcdOperand.wordAt_congr (space.packedField f d1 d2).memWords (fun i below => operand_words below) (by omega)]

theorem operand_nibbleAt (buffered : (space.packedField f d1 d2).Buffered) {j : Nat}
    (inside : j < (space.packedField f d1 d2).byteAlignedNibbles) :
    (space.operand f d1 d2 false).nibbleAt j = (space.packedField f d1 d2).nibbleAt j := by
  have whole : (space.packedField f d1 d2).byteAlignedNibbles + 2 * (space.packedField f d1 d2).skew ≤
      4 * (space.packedField f d1 d2).memWords := buffered
  exact operand_rawNibble (show j + 2 * (space.packedField f d1 d2).skew < _ by omega)

end Space

namespace BcdOperand

/-- Two operands of one descriptor word hold the same nibbles. -/
structure SameNibbles (first second : BcdOperand) : Prop where
  d2 : first.d2 = second.d2
  nibbles : ∀ j < second.byteAlignedNibbles, first.nibbleAt j = second.nibbleAt j

namespace SameNibbles

variable {first second : BcdOperand} (same : SameNibbles first second)

include same

theorem fieldLength : first.fieldLength = second.fieldLength := by
  rw [BcdOperand.fieldLength, same.d2, BcdOperand.fieldLength]

theorem byteAlignedNibbles : first.byteAlignedNibbles = second.byteAlignedNibbles := by
  rw [BcdOperand.byteAlignedNibbles, same.fieldLength, BcdOperand.byteAlignedNibbles]

theorem decimalPoint : first.decimalPoint = second.decimalPoint := by
  rw [BcdOperand.decimalPoint, same.d2, BcdOperand.decimalPoint]

theorem unsignedRequested : first.unsignedRequested = second.unsignedRequested := by
  rw [BcdOperand.unsignedRequested, same.d2, BcdOperand.unsignedRequested]

theorem roundingOn : first.roundingOn = second.roundingOn := by
  rw [BcdOperand.roundingOn, same.d2, BcdOperand.roundingOn]

theorem magnitudeNibbles : first.magnitudeNibbles = second.magnitudeNibbles := by
  rw [BcdOperand.magnitudeNibbles, same.fieldLength, same.byteAlignedNibbles, BcdOperand.magnitudeNibbles]

theorem magnitudeDigits : first.magnitudeDigits = second.magnitudeDigits := by
  rw [BcdOperand.magnitudeDigits, same.magnitudeNibbles, BcdOperand.magnitudeDigits]
  apply List.map_congr_left
  intro j member
  rw [List.mem_range, BcdOperand.magnitudeNibbles] at member
  apply same.nibbles
  split at member <;> omega

theorem decimal (decimal : second.Decimal) : first.Decimal := by
  intro j inside
  rw [same.magnitudeNibbles] at inside
  have place := inside
  rw [BcdOperand.magnitudeNibbles] at place
  rw [same.nibbles j (by split at place <;> omega)]
  exact decimal j inside

theorem magnitude : first.magnitude = second.magnitude := by
  rw [BcdOperand.magnitude, same.magnitudeDigits, BcdOperand.magnitude]

theorem negative : first.negative = second.negative := by
  unfold BcdOperand.negative
  rw [same.fieldLength, same.byteAlignedNibbles]
  by_cases empty : second.fieldLength = 0
  · simp [empty]
  · have aligned := second.byteAlignedNibbles_pos empty
    rw [same.nibbles _ (by omega)]

theorem value : first.value = second.value := by
  rw [BcdOperand.value, BcdOperand.sign, same.negative, same.magnitude, BcdOperand.value, BcdOperand.sign]

theorem rational : first.rational = second.rational := by
  rw [BcdOperand.rational, same.value, same.decimalPoint, BcdOperand.rational]

theorem resultSign (exact : Int) : first.resultSign exact = second.resultSign exact := by
  rw [BcdOperand.resultSign, same.unsignedRequested, same.negative, BcdOperand.resultSign]

theorem significantDigits : first.significantDigits = second.significantDigits := by
  rw [BcdOperand.significantDigits, same.fieldLength, same.byteAlignedNibbles, BcdOperand.significantDigits]
  apply List.map_congr_left
  intro i member
  rw [List.mem_range] at member
  exact same.nibbles _ (by have := second.fieldLength_le_byteAligned; omega)

theorem significand : first.significand = second.significand := by
  rw [BcdOperand.significand, same.significantDigits, BcdOperand.significand]

theorem significantDecimal (decimal : second.SignificantDecimal) : first.SignificantDecimal := by
  intro digit member
  rw [same.significantDigits] at member
  exact decimal digit member

end SameNibbles

end BcdOperand

namespace Space

variable {space : Space} {f g : FlatState} {d1 d2 : Word}

theorem operand_sameNibbles (buffered : (space.packedField f d1 d2).Buffered) :
    BcdOperand.SameNibbles (space.operand f d1 d2 false) (space.packedField f d1 d2) :=
  ⟨rfl, fun _ inside => operand_nibbleAt buffered inside⟩

/-- The words of a field are read where a result is stored, and the other words are kept. -/
structure FieldStored (space : Space) (d1 d2 : Word) (place : Nat → Nat) (result : BcdOperand) (f g : FlatState) :
    Prop where
  stored : ∀ i : Fin bcdMaxWords, i.val < (space.packedField f d1 d2).memWords → g.memory (place i) = result.words i
  kept : ∀ cell, (∀ i < (space.packedField f d1 d2).memWords, cell ≠ place i) → g.memory cell = f.memory cell

/-- A word beyond the stored ones has a place of its own. -/
def Apart (space : Space) (f : FlatState) (d1 : Word) (count : Nat) (place : Nat → Nat) : Prop :=
  ∀ j < bcdMaxWords, count ≤ j → ∀ physical, space.access f .read (d1 + BitVec.ofNat 16 j) true = .word physical →
    ∀ i < count, physical ≠ place i

section Stored

variable {place : Nat → Nat} {result : BcdOperand}

theorem FieldStored.inside (view : space.SameView g f)
    (resident : space.FieldResident f d1 (space.packedField f d1 d2).memWords place)
    (written : space.FieldStored d1 d2 place result f g) {i : Fin bcdMaxWords}
    (below : i.val < (space.packedField f d1 d2).memWords) : (space.packedField g d1 d2).words i = result.words i := by
  have reached := (resident.reached i below).1
  rw [← view.access] at reached
  rw [← written.stored i below]
  exact readWord_word reached

theorem FieldStored.outside (view : space.SameView g f)
    (apart : space.Apart f d1 (space.packedField f d1 d2).memWords place)
    (written : space.FieldStored d1 d2 place result f g) {i : Fin bcdMaxWords}
    (above : (space.packedField f d1 d2).memWords ≤ i.val) :
    (space.packedField g d1 d2).words i = (space.packedField f d1 d2).words i := by
  change space.readWord g _ = space.readWord f _
  rw [readWord, readWord, view.access]
  have alone := apart i i.isLt above
  generalize space.access f .read (d1 + BitVec.ofNat 16 i) true = target at alone ⊢
  cases target with
  | word physical => exact written.kept physical (alone physical rfl)
  | pageFault => rfl
  | violation => rfl
  | nowhere => rfl
  | other => rfl

/-- A packed result is the field of the memory after its words are stored. -/
theorem FieldStored.packed (view : space.SameView g f)
    (resident : space.FieldResident f d1 (space.packedField f d1 d2).memWords place)
    (apart : space.Apart f d1 (space.packedField f d1 d2).memWords place)
    (buffered : (space.packedField f d1 d2).Buffered) (written : space.FieldStored d1 d2 place result f g)
    {m signNibble : Nat} (packed : Packed (space.operand f d1 d2 false) m signNibble result) :
    Packed (space.packedField f d1 d2) m signNibble (space.packedField g d1 d2) := by
  have raw {p : Nat} (inside : p < 4 * (space.packedField f d1 d2).memWords) :
      (space.packedField g d1 d2).rawNibble p = result.rawNibble p := by
    unfold BcdOperand.rawNibble
    rw [BcdOperand.wordAt_congr (space.packedField f d1 d2).memWords
      (fun i below => written.inside view resident below) (by omega)]
  have whole : (space.packedField f d1 d2).byteAlignedNibbles + 2 * (space.packedField f d1 d2).skew ≤
      4 * (space.packedField f d1 d2).memWords := buffered
  have skew : result.skew = (space.packedField f d1 d2).skew := packed.same.skew
  have nibble {j : Nat} (inside : j < (space.packedField f d1 d2).byteAlignedNibbles) :
      (space.packedField g d1 d2).nibbleAt j = result.nibbleAt j := by
    rw [BcdOperand.nibbleAt_eq, BcdOperand.nibbleAt_eq, skew]
    exact raw (show j + 2 * (space.packedField f d1 d2).skew < _ by omega)
  have longer := (space.packedField f d1 d2).fieldLength_le_byteAligned
  refine ⟨⟨rfl, rfl, rfl⟩, fun place below => ?_, fun j high => ?_, fun some => ?_, fun p outside => ?_⟩
  · rw [nibble (by omega)]
    exact packed.digit place below
  · rw [nibble (by omega)]
    exact packed.pad j high
  · have aligned := (space.packedField f d1 d2).byteAlignedNibbles_pos some
    rw [nibble (by omega)]
    exact packed.sign some
  · by_cases inside : p < 4 * (space.packedField f d1 d2).memWords
    · rw [raw inside, packed.kept p outside, operand_rawNibble inside]
    · unfold BcdOperand.rawNibble BcdOperand.wordAt
      by_cases word : p / 4 < bcdMaxWords
      · rw [dif_pos word, dif_pos word]
        congr 2
        exact written.outside view apart (show (space.packedField f d1 d2).memWords ≤ p / 4 by omega)
      · rw [dif_neg word, dif_neg word]

end Stored

end Space

end Nd100x
