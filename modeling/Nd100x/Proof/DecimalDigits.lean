import Nd100x.Proof.DecimalFields

namespace Nd100x

namespace BcdOperand

/-- Two operands with one descriptor differ in their words only. -/
structure SameDescriptor (first second : BcdOperand) : Prop where
  addr : first.addr = second.addr
  d2 : first.d2 = second.d2
  isAscii : first.isAscii = second.isAscii

namespace SameDescriptor

variable {first second third : BcdOperand}

theorem refl (op : BcdOperand) : SameDescriptor op op := ⟨rfl, rfl, rfl⟩

theorem trans (one : SameDescriptor first second) (two : SameDescriptor second third) :
    SameDescriptor first third :=
  ⟨one.addr.trans two.addr, one.d2.trans two.d2, one.isAscii.trans two.isAscii⟩

theorem fieldLength (same : SameDescriptor first second) :
    first.fieldLength = second.fieldLength := by
  unfold BcdOperand.fieldLength
  rw [same.d2]

theorem byteAlignedNibbles (same : SameDescriptor first second) :
    first.byteAlignedNibbles = second.byteAlignedNibbles := by
  unfold BcdOperand.byteAlignedNibbles
  rw [same.fieldLength]

theorem skew (same : SameDescriptor first second) : first.skew = second.skew := by
  unfold BcdOperand.skew BcdOperand.startsInRightByte
  rw [same.d2]

theorem separateSign (same : SameDescriptor first second) :
    first.separateSign = second.separateSign := by
  unfold BcdOperand.separateSign BcdOperand.asciiFormat
  rw [same.d2]

theorem memWords (same : SameDescriptor first second) : first.memWords = second.memWords := by
  unfold BcdOperand.memWords
  rw [same.fieldLength, same.byteAlignedNibbles, same.isAscii]

end SameDescriptor

variable (op : BcdOperand)

theorem withNibble_sameDescriptor (i val : Nat) : SameDescriptor (op.withNibble i val) op :=
  ⟨rfl, rfl, rfl⟩

theorem withByte_sameDescriptor (i val : Nat) : SameDescriptor (op.withByte i val) op :=
  ⟨rfl, rfl, rfl⟩

theorem nibble_inside {i : Nat} (below : i < op.byteAlignedNibbles) : i + 2 * op.skew < 40 := by
  have := op.byteAlignedNibbles_le
  have := op.skew_le_one
  omega

theorem byteAlignedNibbles_pos (nonempty : op.fieldLength ≠ 0) : 2 ≤ op.byteAlignedNibbles := by
  unfold byteAlignedNibbles
  omega

theorem fieldLength_le_byteAligned : op.fieldLength ≤ op.byteAlignedNibbles := by
  unfold byteAlignedNibbles
  omega

/-- The digit of a nibble counts from the least significant end. -/
def fieldDigit (digits : List Nat) (pos : Nat) : Nat :=
  if op.byteAlignedNibbles - 2 - pos < op.fieldLength - 1 then
    digits.reverse.getD (op.byteAlignedNibbles - 2 - pos) 0
  else 0

/-- The loop replaces exactly the nibbles below its start. -/
theorem fillNibbles_raw (digits : List Nat) (count : Nat) :
    ∀ op : BcdOperand, count < op.byteAlignedNibbles →
      ∃ filled, fillNibbles digits count op = .ok filled ∧ SameDescriptor filled op ∧
        ∀ p, filled.rawNibble p =
          if 2 * op.skew ≤ p ∧ p < count + 2 * op.skew then op.fieldDigit digits (p - 2 * op.skew) % 16
          else op.rawNibble p := by
  induction count with
  | zero =>
    intro op _
    exact ⟨op, rfl, .refl op, fun p => by rw [if_neg (by omega)]⟩
  | succ pos ih =>
    intro op below
    have inside := op.nibble_inside (Nat.lt_of_succ_lt below)
    obtain ⟨filled, done, same, read⟩ :=
      ih (op.withNibble pos (op.fieldDigit digits pos))
        (by rw [withNibble_byteAlignedNibbles]; omega)
    refine ⟨filled, ?_, same.trans (op.withNibble_sameDescriptor _ _), ?_⟩
    · simp only [fillNibbles, setNibble_eq inside]
      exact done
    · intro p
      rw [read p, withNibble_skew, rawNibble_withNibble op inside]
      have digit : (op.withNibble pos (op.fieldDigit digits pos)).fieldDigit digits (p - 2 * op.skew) =
          op.fieldDigit digits (p - 2 * op.skew) := rfl
      rw [digit]
      by_cases lower : 2 * op.skew ≤ p ∧ p < pos + 2 * op.skew
      · rw [if_pos lower, if_pos (by omega)]
      · by_cases here : p = pos + 2 * op.skew
        · rw [if_neg lower, if_pos here, if_pos (by omega), here, Nat.add_sub_cancel]
        · rw [if_neg lower, if_neg here, if_neg (by omega)]

theorem fillNibbles_eq (digits : List Nat) (count : Nat) (op : BcdOperand) (below : count < op.byteAlignedNibbles) :
    ∃ filled, fillNibbles digits count op = .ok filled ∧ SameDescriptor filled op ∧
      ∀ j, filled.nibbleAt j =
        if j < count then op.fieldDigit digits j % 16 else op.nibbleAt j := by
  obtain ⟨filled, done, same, read⟩ := fillNibbles_raw digits count op below
  refine ⟨filled, done, same, fun j => ?_⟩
  rw [nibbleAt_eq, same.skew, read, Nat.add_sub_cancel, nibbleAt_eq]
  by_cases lower : j < count
  · rw [if_pos lower, if_pos (by omega)]
  · rw [if_neg lower, if_neg (by omega)]

/-- The sign goes to the last nibble and the digits before it. -/
theorem packMagnitudeToField_eq (digits : List Nat) (outSignNibble : Nat)
    (nonempty : op.fieldLength ≠ 0) :
    ∃ filled, op.packMagnitudeToField digits outSignNibble =
        .ok (filled, (digits.reverse.drop (op.fieldLength - 1)).any (· ≠ 0)) ∧
      SameDescriptor filled op ∧
      filled.nibbleAt (op.byteAlignedNibbles - 1) = outSignNibble % 16 ∧
      ∀ j < op.byteAlignedNibbles - 1, filled.nibbleAt j = op.fieldDigit digits j % 16 := by
  have aligned := op.byteAlignedNibbles_pos nonempty
  have inside := op.nibble_inside (i := op.byteAlignedNibbles - 1) (by omega)
  have cast : ((op.byteAlignedNibbles : Int) - 1) = ((op.byteAlignedNibbles - 1 : Nat) : Int) := by
    omega
  obtain ⟨filled, done, same, read⟩ := fillNibbles_eq digits (op.byteAlignedNibbles - 1)
    (op.withNibble (op.byteAlignedNibbles - 1) outSignNibble)
    (by rw [withNibble_byteAlignedNibbles]; omega)
  refine ⟨filled, ?_, same.trans (op.withNibble_sameDescriptor _ _), ?_, ?_⟩
  · rw [packMagnitudeToField, if_neg nonempty, cast, setNibble_eq inside]
    change (fillNibbles digits (op.byteAlignedNibbles - 1)
      (op.withNibble (op.byteAlignedNibbles - 1) outSignNibble) >>= _) = _
    rw [done]
    rfl
  · rw [read, if_neg (Nat.lt_irrefl _), nibbleAt_withNibble op inside, if_pos rfl]
  · intro j below
    rw [read, if_pos below]
    rfl

/-- Packing never leaves the words of its destination. -/
theorem packMagnitudeToField_total (digits : List Nat) (outSignNibble : Nat) :
    ∃ filled overflow, op.packMagnitudeToField digits outSignNibble = .ok (filled, overflow) := by
  by_cases empty : op.fieldLength = 0
  · exact ⟨op, _, by rw [packMagnitudeToField, if_pos empty]; rfl⟩
  · obtain ⟨filled, done, -⟩ := op.packMagnitudeToField_eq digits outSignNibble empty
    exact ⟨filled, _, done⟩

theorem decodeSign_eq :
    op.decodeSign = .ok (if op.fieldLength ≠ 0 ∧ (op.nibbleAt (op.byteAlignedNibbles - 1) = 0x0B ∨
      op.nibbleAt (op.byteAlignedNibbles - 1) = 0x0D) then -1 else 1) := by
  by_cases empty : op.fieldLength = 0
  · rw [decodeSign, if_pos empty, if_neg (by simp [empty])]
    rfl
  · have aligned := op.byteAlignedNibbles_pos empty
    have inside := op.nibble_inside (i := op.byteAlignedNibbles - 1) (by omega)
    have cast : ((op.byteAlignedNibbles : Int) - 1) =
        ((op.byteAlignedNibbles - 1 : Nat) : Int) := by omega
    rw [decodeSign, if_neg empty, cast, getNibble_eq inside]
    simp only [ne_eq, empty, not_false_eq_true, true_and]
    rfl

end BcdOperand

/-- A loop whose every access is inside collects all values. -/
theorem mapM_ok {A B : Type} (f : A → Except Stop B) (g : A → B) (positions : List A)
    (inside : ∀ i ∈ positions, f i = .ok (g i)) :
    positions.mapM f = .ok (positions.map g) := by
  induction positions with
  | nil => rfl
  | cons i rest ih =>
    rw [List.mapM_cons, inside i (by simp),
      ih fun j member => inside j (List.mem_cons_of_mem _ member)]
    rfl

namespace BcdOperand

variable (op : BcdOperand)

theorem extractMagnitude_total (dstLen : Nat) : ∃ digits, op.extractMagnitude dstLen = .ok digits := by
  have magnitude : (List.range (min (if op.fieldLength = 0 then 0 else op.byteAlignedNibbles - 1)
      dstLen)).mapM (fun (i : Nat) => op.getNibble i) = .ok ((List.range
        (min (if op.fieldLength = 0 then 0 else op.byteAlignedNibbles - 1) dstLen)).map
          op.nibbleAt) := by
    apply mapM_ok
    intro i member
    rw [List.mem_range] at member
    apply getNibble_eq
    by_cases empty : op.fieldLength = 0
    · simp [empty] at member
    · rw [if_neg empty] at member
      exact op.nibble_inside (by omega)
  exact ⟨_, by rw [extractMagnitude, magnitude]; rfl⟩

end BcdOperand

theorem bcdAddSub_total (op1 op2 : BcdOperand) (op2SignFlip : Int) :
    ∃ result, bcdAddSub op1 op2 op2SignFlip = .ok result := by
  unfold bcdAddSub
  rw [op1.decodeSign_eq, op2.decodeSign_eq]
  simp only [bind, Except.bind]
  obtain ⟨a, first⟩ := op1.extractMagnitude_total
    (max (if op1.fieldLength = 0 then 0 else op1.byteAlignedNibbles - 1)
      (if op2.fieldLength = 0 then 0 else op2.byteAlignedNibbles - 1) + 1)
  obtain ⟨b, second⟩ := op2.extractMagnitude_total
    (max (if op1.fieldLength = 0 then 0 else op1.byteAlignedNibbles - 1)
      (if op2.fieldLength = 0 then 0 else op2.byteAlignedNibbles - 1) + 1)
  rw [first, second]
  exact (op1.packMagnitudeToField_total _ _).elim fun filled done =>
    done.elim fun overflow done => ⟨(filled, overflow), done⟩

theorem ite_total {A : Type} (condition : Prop) [Decidable condition] (first second : A) :
    ∃ value, (if condition then pure first else pure second : Except Stop A) = .ok value := by
  by_cases taken : condition
  · exact ⟨first, if_pos taken⟩
  · exact ⟨second, if_neg taken⟩

theorem bcdCompare_total (op1 op2 : BcdOperand) : ∃ order, bcdCompare op1 op2 = .ok order := by
  unfold bcdCompare
  rw [op1.decodeSign_eq, op2.decodeSign_eq]
  simp only [bind, Except.bind]
  obtain ⟨a, first⟩ := op1.extractMagnitude_total
    (2 * (bcdMaxNibbles + 2) - (max op1.decimalPoint op2.decimalPoint - op1.decimalPoint))
  obtain ⟨b, second⟩ := op2.extractMagnitude_total
    (2 * (bcdMaxNibbles + 2) - (max op1.decimalPoint op2.decimalPoint - op2.decimalPoint))
  rw [first, second]
  exact ite_total _ _ _

theorem bcdShde_total (dst src : BcdOperand) : ∃ result, bcdShde dst src = .ok result := by
  unfold bcdShde
  by_cases empty : dst.fieldLength = 0
  · exact ⟨none, by rw [if_pos empty]; rfl⟩
  · rw [if_neg empty, src.decodeSign_eq]
    simp only [bind, Except.bind]
    rw [mapM_ok _ fun i => src.nibbleAt (src.byteAlignedNibbles - src.fieldLength + i)]
    · dsimp only
      generalize bcdShiftDigits _ _ _ = work
      have aligned := dst.byteAlignedNibbles_pos empty
      obtain ⟨filled, done, same, -⟩ :=
        BcdOperand.fillNibbles_eq work (dst.byteAlignedNibbles - 1) dst (by omega)
      have inside := filled.nibble_inside (i := dst.byteAlignedNibbles - 1)
        (by rw [same.byteAlignedNibbles]; omega)
      have cast : ((dst.byteAlignedNibbles : Int) - 1) =
          ((dst.byteAlignedNibbles - 1 : Nat) : Int) := by omega
      rw [done]
      dsimp only
      rw [cast, BcdOperand.setNibble_eq inside]
      exact ⟨_, rfl⟩
    · intro i member
      rw [List.mem_range] at member
      apply BcdOperand.getNibble_eq
      have := src.fieldLength_le_byteAligned
      exact src.nibble_inside (by omega)

end Nd100x
