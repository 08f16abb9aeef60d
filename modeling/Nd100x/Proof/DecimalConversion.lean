import Nd100x.Proof.DecimalDigits
import Mathlib.Data.List.Basic

namespace Nd100x

theorem bcdPositions_eq (first : Nat) (last : Int) :
    bcdPositions first last =
      (List.range' first (min (last - first + 1).toNat bcdMaxNibbles)).map fun (i : Nat) => (i : Int) := by
  rw [bcdPositions, List.range'_eq_map_range, List.map_map]
  rfl

/- The digits of an ASCII source. -/

section Pack

variable (src : BcdOperand) (signByte : Int)

/-- One byte of the source gives a digit and may give the sign. -/
def sourceDigit (i : Nat) (sign : Int) : Option (Nat × Int) :=
  if (i : Int) = signByte ∧ src.embeddedSign then packOverpunch (src.byteAt i)
  else (packDigit (src.byteAt i)).map fun digit => (digit, sign)

def collectDigits : List Nat → Int → Option (List Nat × Int)
  | [], sign => some ([], sign)
  | i :: rest, sign =>
    (sourceDigit src signByte i sign).bind fun decoded =>
      (collectDigits rest decoded.2).map fun tail => (decoded.1 :: tail.1, tail.2)

theorem packDigits_cons (i : Nat) (rest : List Int) (sign : Int) (inside : i + src.skew < 20) :
    packDigits src signByte ((i : Int) :: rest) sign =
      match sourceDigit src signByte i sign with
      | none => .ok none
      | some decoded => (packDigits src signByte rest decoded.2).map
          (Option.map fun tail => (decoded.1 :: tail.1, tail.2)) := by
  have decode : (if (i : Int) = signByte ∧ src.embeddedSign then packOverpunch (src.byteAt i)
      else (packDigit (src.byteAt i)).map fun digit => (digit, sign)) =
      sourceDigit src signByte i sign := rfl
  rw [packDigits, BcdOperand.getByte_eq inside]
  simp only [bind, Except.bind, decode]
  cases decoded : sourceDigit src signByte i sign with
  | none => rfl
  | some pair =>
    simp only [Except.map]
    cases packDigits src signByte rest pair.2 <;> rfl

/-- Inside the words the loop is the pure collection. -/
theorem packDigits_inside (positions : List Nat) (sign : Int)
    (inside : ∀ i ∈ positions, i + src.skew < 20) :
    packDigits src signByte (positions.map fun (i : Nat) => (i : Int)) sign =
      .ok (collectDigits src signByte positions sign) := by
  induction positions generalizing sign with
  | nil => rfl
  | cons i rest ih =>
    rw [List.map_cons, packDigits_cons _ _ _ _ _ (inside i (by simp)), collectDigits]
    cases sourceDigit src signByte i sign with
    | none => rfl
    | some decoded =>
      dsimp only
      rw [ih _ fun j member => inside j (List.mem_cons_of_mem _ member)]
      rfl

/-- The legality of a byte does not depend on the sign found before it. -/
def DigitLegal (i : Nat) : Prop :=
  if (i : Int) = signByte ∧ src.embeddedSign then (packOverpunch (src.byteAt i)).isSome
  else (packDigit (src.byteAt i)).isSome

theorem sourceDigit_isSome (i : Nat) (sign : Int) :
    (sourceDigit src signByte i sign).isSome = true ↔ DigitLegal src signByte i := by
  unfold sourceDigit DigitLegal
  split
  · rfl
  · rw [Option.isSome_map]

/-- A run of positions leaves the words exactly when every byte before the end is legal. -/
theorem packDigits_overrun (count first : Nat) (sign : Int) (start : first + src.skew ≤ 20) :
    packDigits src signByte ((List.range' first count).map fun (i : Nat) => (i : Int)) sign =
        .error .outOfBounds ↔
      20 < first + count + src.skew ∧
        ∀ i, first ≤ i → i + src.skew < 20 → DigitLegal src signByte i := by
  induction count generalizing first sign with
  | zero =>
    constructor
    · intro stopped
      cases stopped
    · rintro ⟨long, -⟩
      omega
  | succ count ih =>
    rw [List.range'_succ, List.map_cons]
    by_cases inside : first + src.skew < 20
    · rw [packDigits_cons _ _ _ _ _ inside]
      have legal := sourceDigit_isSome src signByte first sign
      cases decoded : sourceDigit src signByte first sign with
      | none =>
        rw [decoded] at legal
        constructor
        · intro stopped
          cases stopped
        · rintro ⟨-, all⟩
          exact absurd (legal.mpr (all first le_rfl inside)) (by simp)
      | some pair =>
        rw [decoded] at legal
        have here : DigitLegal src signByte first := legal.mp rfl
        have step := ih (first + 1) pair.2 (by omega)
        dsimp only
        have passed : ((packDigits src signByte
              ((List.range' (first + 1) count).map fun (i : Nat) => (i : Int)) pair.2).map
                (Option.map fun tail => (pair.1 :: tail.1, tail.2)) = .error .outOfBounds) ↔
            packDigits src signByte
              ((List.range' (first + 1) count).map fun (i : Nat) => (i : Int)) pair.2 =
                .error .outOfBounds := by
          cases packDigits src signByte
            ((List.range' (first + 1) count).map fun (i : Nat) => (i : Int)) pair.2 <;>
            simp [Except.map]
        rw [passed, step]
        constructor
        · rintro ⟨long, all⟩
          refine ⟨by omega, fun i lower upper => ?_⟩
          rcases Nat.eq_or_lt_of_le lower with same | later
          · exact same ▸ here
          · exact all i later upper
        · rintro ⟨long, all⟩
          exact ⟨by omega, fun i lower upper => all i (by omega) upper⟩
    · have outside : src.getByte (first : Int) = .error .outOfBounds :=
        BcdOperand.getByte_outside (by omega)
      have stopped : packDigits src signByte
          ((first : Int) :: ((List.range' (first + 1) count).map fun (i : Nat) => (i : Int))) sign =
            .error .outOfBounds := by
        rw [packDigits, outside]
        rfl
      simp only [stopped, true_iff]
      exact ⟨by omega, fun i lower upper => by omega⟩

end Pack

namespace BcdOperand

variable (op : BcdOperand)

/-- The sign byte of the source format. -/
def signByte : Int := (bcdAsciiLayout op.asciiFormat op.fieldLength).1

/-- The first digit byte is 1 only behind a leading sign byte. -/
def firstDigit : Nat := if op.asciiFormat = BcdAscii.separateLeading then 1 else 0

/-- The sign byte takes one of the bytes in the separate formats. -/
def digitCount : Nat := if op.separateSign then op.fieldLength - 1 else op.fieldLength

theorem firstDigit_le_one : op.firstDigit ≤ 1 := by
  unfold firstDigit
  split <;> omega

theorem layout_eq :
    bcdAsciiLayout op.asciiFormat op.fieldLength =
      (op.signByte, (op.firstDigit : Int),
        (if op.asciiFormat = BcdAscii.separateTrailing then (op.fieldLength : Int) - 2
          else op.fieldLength - 1)) := by
  unfold signByte firstDigit bcdAsciiLayout
  by_cases zero : op.asciiFormat = 0
  · simp [zero, BcdAscii.embeddedTrailing, BcdAscii.separateTrailing, BcdAscii.separateLeading]
  by_cases one : op.asciiFormat = 1
  · simp [one, BcdAscii.embeddedTrailing, BcdAscii.separateTrailing, BcdAscii.separateLeading]
  by_cases two : op.asciiFormat = 2
  · simp [two, BcdAscii.embeddedTrailing, BcdAscii.separateTrailing, BcdAscii.separateLeading,
      BcdAscii.embeddedLeading]
  by_cases three : op.asciiFormat = 3
  · simp [three, BcdAscii.embeddedTrailing, BcdAscii.separateTrailing, BcdAscii.separateLeading,
      BcdAscii.embeddedLeading]
  simp [zero, one, two, three, BcdAscii.embeddedTrailing, BcdAscii.separateTrailing,
    BcdAscii.separateLeading, BcdAscii.embeddedLeading]

/-- The visited bytes are consecutive. -/
theorem positions_eq :
    bcdPositions (op.firstDigit : Int)
        (if op.asciiFormat = BcdAscii.separateTrailing then (op.fieldLength : Int) - 2
          else op.fieldLength - 1) =
      (List.range' op.firstDigit op.digitCount).map fun (i : Nat) => (i : Int) := by
  have bounded := op.fieldLength_le
  have size : bcdMaxNibbles = 32 := rfl
  rw [bcdPositions_eq]
  congr 2
  unfold firstDigit digitCount separateSign
  by_cases trailing : op.asciiFormat = BcdAscii.separateTrailing
  · have leading : op.asciiFormat ≠ BcdAscii.separateLeading := by
      rw [trailing]
      decide
    simp only [trailing, if_pos, true_or, decide_true]
    rw [if_neg (by decide)]
    omega
  · by_cases leading : op.asciiFormat = BcdAscii.separateLeading
    · simp only [leading, or_true, decide_true, if_pos]
      rw [if_neg (by decide)]
      omega
    · simp only [trailing, leading, or_self, decide_false, Bool.false_eq_true, if_false]
      omega

end BcdOperand

/-- A separate sign byte is one of two characters. -/
def SignLegal (src : BcdOperand) : Prop :=
  src.asciiFormat = BcdAscii.separateLeading → src.byteAt 0 = 0x2B ∨ src.byteAt 0 = 0x2D

/-- The source leaves its words: an empty field with a trailing sign byte starts before
them, and a long field runs past them unless an illegal byte is found first. -/
def PackOverruns (src : BcdOperand) : Prop :=
  if src.asciiFormat = BcdAscii.separateTrailing then
    (src.fieldLength = 0 ∧ src.skew = 0) ∨ 20 < src.fieldLength + src.skew
  else
    20 < src.fieldLength + src.skew ∧ SignLegal src ∧
      ∀ i, src.firstDigit ≤ i → i + src.skew < 20 → DigitLegal src src.signByte i

/-- A continuation that always returns keeps the error of its first part. -/
theorem except_bind_error {A B : Type} {first : Except Stop A} {next : A → Except Stop B}
    {stop : Stop} (total : ∀ value, ∃ result, next value = .ok result) :
    (first >>= next) = .error stop ↔ first = .error stop := by
  cases first with
  | error found => simp [bind, Except.bind]
  | ok value =>
    obtain ⟨result, done⟩ := total value
    simp [bind, Except.bind, done]

/-- The digits follow the sign, and the destination is filled last. -/
def packTail (dst src : BcdOperand) (sign : Int) : Except Stop BcdConversion := do
  match ← packDigits src src.signByte
      ((List.range' src.firstDigit src.digitCount).map fun (i : Nat) => (i : Int)) sign with
  | none => return .illegal
  | some (digits, sign) =>
    let (field, overflow) ← dst.packMagnitudeToField digits (dst.outSign sign)
    return .stored field overflow

def packAfterSign (dst src : BcdOperand) : Option Int → Except Stop BcdConversion
  | none => .ok .illegal
  | some sign => packTail dst src sign

theorem bcdConvertToPacked_eq (dst src : BcdOperand) :
    bcdConvertToPacked dst src =
      packSeparateSign src src.signByte >>= packAfterSign dst src := by
  unfold bcdConvertToPacked
  rw [src.layout_eq]
  dsimp only
  rw [src.positions_eq]
  congr 1

theorem packTail_overrun (dst src : BcdOperand) (sign : Int) :
    packTail dst src sign = .error .outOfBounds ↔
      20 < src.firstDigit + src.digitCount + src.skew ∧
        ∀ i, src.firstDigit ≤ i → i + src.skew < 20 → DigitLegal src src.signByte i := by
  have start : src.firstDigit + src.skew ≤ 20 := by
    have := src.skew_le_one
    have := src.firstDigit_le_one
    omega
  rw [← packDigits_overrun src src.signByte src.digitCount src.firstDigit sign start]
  apply except_bind_error
  intro collected
  cases collected with
  | none => exact ⟨.illegal, rfl⟩
  | some pair =>
    obtain ⟨filled, overflow, done⟩ :=
      dst.packMagnitudeToField_total pair.1 (dst.outSign pair.2)
    exact ⟨.stored filled overflow, by simp only [done]; rfl⟩

theorem packSeparateSign_plain (src : BcdOperand) (signByte : Int)
    (plain : ¬ src.separateSign = true) : packSeparateSign src signByte = .ok (some 1) := by
  rw [packSeparateSign, if_neg plain]
  rfl

theorem packSeparateSign_read (src : BcdOperand) (i : Nat) (separate : src.separateSign = true)
    (inside : i + src.skew < 20) :
    packSeparateSign src i = .ok (if src.byteAt i = 0x2B then some 1
      else if src.byteAt i = 0x2D then some (-1) else none) := by
  rw [packSeparateSign, if_pos separate, BcdOperand.getByte_eq inside]
  rfl

theorem packSeparateSign_outside (src : BcdOperand) (signByte : Int)
    (separate : src.separateSign = true)
    (outside : signByte + src.skew < 0 ∨ 20 ≤ signByte + src.skew) :
    packSeparateSign src signByte = .error .outOfBounds := by
  rw [packSeparateSign, if_pos separate, BcdOperand.getByte_outside outside]
  rfl

namespace BcdOperand

variable (op : BcdOperand)

theorem signByte_trailing (trailing : op.asciiFormat = BcdAscii.separateTrailing) :
    op.signByte = op.fieldLength - 1 := by
  unfold signByte bcdAsciiLayout
  rw [trailing, if_neg (by decide), if_pos rfl]

theorem signByte_leading (leading : op.asciiFormat = BcdAscii.separateLeading) :
    op.signByte = 0 := by
  unfold signByte bcdAsciiLayout
  rw [leading, if_neg (by decide), if_neg (by decide), if_neg (by decide), if_pos rfl]

theorem separateSign_trailing (trailing : op.asciiFormat = BcdAscii.separateTrailing) :
    op.separateSign = true := by
  simp [separateSign, trailing]

theorem separateSign_leading (leading : op.asciiFormat = BcdAscii.separateLeading) :
    op.separateSign = true := by
  simp [separateSign, leading]

theorem separateSign_plain (trailing : op.asciiFormat ≠ BcdAscii.separateTrailing)
    (leading : op.asciiFormat ≠ BcdAscii.separateLeading) : ¬ op.separateSign = true := by
  simp [separateSign, trailing, leading]

end BcdOperand

theorem illegal_ne_overrun :
    (Except.ok BcdConversion.illegal : Except Stop BcdConversion) ≠ .error .outOfBounds := by
  rintro ⟨⟩

/-- `PACK` uses an index outside the words exactly when its source overruns. -/
theorem bcdConvertToPacked_overruns (dst src : BcdOperand) :
    bcdConvertToPacked dst src = .error .outOfBounds ↔ PackOverruns src := by
  have narrow := src.skew_le_one
  rw [bcdConvertToPacked_eq, PackOverruns]
  by_cases trailing : src.asciiFormat = BcdAscii.separateTrailing
  · rw [if_pos trailing, src.signByte_trailing trailing]
    have separate := src.separateSign_trailing trailing
    by_cases outside : (src.fieldLength = 0 ∧ src.skew = 0) ∨ 20 < src.fieldLength + src.skew
    · rw [packSeparateSign_outside src _ separate (by omega)]
      exact iff_of_true rfl outside
    · refine iff_of_false ?_ outside
      have reached : ∃ found, packSeparateSign src ((src.fieldLength : Int) - 1) = .ok found := by
        rw [packSeparateSign, if_pos separate]
        have lower : 0 ≤ ((src.fieldLength : Int) - 1 + src.skew) / 2 := by omega
        have upper : ((src.fieldLength : Int) - 1 + src.skew) / 2 < bcdMaxWords := by
          have : (bcdMaxWords : Int) = 10 := rfl
          omega
        rw [BcdOperand.getByte, BcdOperand.bytePosition_eq]
        simp only [BcdOperand.word, dif_pos (And.intro lower upper)]
        exact ⟨_, rfl⟩
      obtain ⟨found, read⟩ := reached
      rw [read]
      change ¬ packAfterSign dst src found = _
      cases found with
      | none => exact illegal_ne_overrun
      | some sign =>
        rw [packAfterSign, packTail_overrun]
        rintro ⟨long, -⟩
        simp only [BcdOperand.digitCount, if_pos separate, BcdOperand.firstDigit, trailing] at long
        rw [if_neg (by decide)] at long
        omega
  · rw [if_neg trailing]
    by_cases leading : src.asciiFormat = BcdAscii.separateLeading
    · have separate := src.separateSign_leading leading
      rw [src.signByte_leading leading, ← Int.natCast_zero,
        packSeparateSign_read src 0 separate (by omega), SignLegal]
      have length : src.firstDigit + src.digitCount + src.skew > 20 ↔
          20 < src.fieldLength + src.skew := by
        simp only [BcdOperand.digitCount, if_pos separate, BcdOperand.firstDigit, if_pos leading]
        omega
      simp only [bind, Except.bind, packAfterSign, leading, true_implies]
      by_cases plus : src.byteAt 0 = 0x2B
      · have sign := packTail_overrun dst src 1
        rw [src.signByte_leading leading, ← Int.natCast_zero] at sign
        simp only [plus, if_pos, true_or, true_and, sign, length]
      · by_cases minus : src.byteAt 0 = 0x2D
        · have sign := packTail_overrun dst src (-1)
          rw [src.signByte_leading leading, ← Int.natCast_zero] at sign
          simp only [minus, or_true, true_and]
          rw [if_neg (by decide), if_pos trivial]
          simp only [sign, length]
        · rw [if_neg plus, if_neg minus]
          refine iff_of_false illegal_ne_overrun ?_
          rintro ⟨-, sign, -⟩
          exact sign.elim plus minus
    · have plain := src.separateSign_plain trailing leading
      rw [packSeparateSign_plain src _ plain]
      change packTail dst src 1 = _ ↔ _
      rw [packTail_overrun]
      simp only [BcdOperand.digitCount, if_neg plain, BcdOperand.firstDigit, SignLegal, leading,
        false_implies, true_and, if_false, Nat.zero_add]

/- The digits of a packed source. -/

section Unpack

variable (src : BcdOperand)

def significantNibbles : List Nat :=
  List.range' (src.byteAlignedNibbles - src.fieldLength) (src.fieldLength - 1)

/-- The nibbles of the source, where all of them are legal. -/
def decodeSource : Option (List Nat × Int × Bool) :=
  if src.fieldLength = 0 then some ([], 1, false)
  else
    match unpackSign (src.nibbleAt (src.byteAlignedNibbles - 1)) with
    | none => none
    | some sign =>
      if ∀ i ∈ significantNibbles src, src.nibbleAt i ≤ 9 then
        some ((significantNibbles src).map src.nibbleAt, sign)
      else none

theorem unpackDigits_inside (positions : List Nat)
    (inside : ∀ i ∈ positions, i + 2 * src.skew < 40) :
    unpackDigits src (positions.map fun (i : Nat) => (i : Int)) =
      .ok (if ∀ i ∈ positions, src.nibbleAt i ≤ 9 then some (positions.map src.nibbleAt)
        else none) := by
  induction positions with
  | nil => simp [unpackDigits]
  | cons i rest ih =>
    have later := ih fun j member => inside j (List.mem_cons_of_mem _ member)
    rw [List.map_cons, unpackDigits, BcdOperand.getNibble_eq (inside i (by simp))]
    simp only [bind, Except.bind, later]
    by_cases large : 9 < src.nibbleAt i
    · have refused : ¬ ∀ j ∈ i :: rest, src.nibbleAt j ≤ 9 := fun all => by
        have := all i (by simp)
        omega
      rw [if_pos large, if_neg refused]
      rfl
    · rw [if_neg large]
      by_cases rest9 : ∀ j ∈ rest, src.nibbleAt j ≤ 9
      · have all : ∀ j ∈ i :: rest, src.nibbleAt j ≤ 9 := by
          intro j member
          rcases List.mem_cons.mp member with rfl | member
          · omega
          · exact rest9 j member
        rw [if_pos rest9, if_pos all]
        rfl
      · have refused : ¬ ∀ j ∈ i :: rest, src.nibbleAt j ≤ 9 := fun all =>
          rest9 fun j member => all j (List.mem_cons_of_mem _ member)
        rw [if_neg rest9, if_neg refused]
        rfl

theorem unpackSource_eq : unpackSource src = .ok (decodeSource src) := by
  unfold unpackSource decodeSource
  by_cases empty : src.fieldLength = 0
  · have none : src.byteAlignedNibbles = 0 := by
      unfold BcdOperand.byteAlignedNibbles
      omega
    rw [if_pos empty]
    simp only [none]
    rfl
  · have aligned := src.byteAlignedNibbles_pos empty
    have bounded := src.byteAlignedNibbles_le
    have shorter := src.fieldLength_le_byteAligned
    have size : bcdMaxNibbles = 32 := rfl
    have nonzero : ¬ src.byteAlignedNibbles = 0 := by omega
    have cast : ((src.byteAlignedNibbles : Int) - 1) =
        ((src.byteAlignedNibbles - 1 : Nat) : Int) := by omega
    have pad : ((src.byteAlignedNibbles : Int) - src.fieldLength) =
        ((src.byteAlignedNibbles - src.fieldLength : Nat) : Int) := by omega
    have count : min ((src.byteAlignedNibbles : Int) - 2 -
        ((src.byteAlignedNibbles - src.fieldLength : Nat) : Int) + 1).toNat bcdMaxNibbles =
          src.fieldLength - 1 := by omega
    rw [if_neg empty]
    simp only [nonzero, if_false]
    rw [cast, BcdOperand.getNibble_eq (src.nibble_inside (by omega)), pad, bcdPositions_eq, count]
    simp only [bind, Except.bind]
    cases unpackSign (src.nibbleAt (src.byteAlignedNibbles - 1)) with
    | none => rfl
    | some sign =>
      dsimp only
      rw [unpackDigits_inside]
      · by_cases all : ∀ i ∈ significantNibbles src, src.nibbleAt i ≤ 9
        · rw [if_pos all]
          exact congrArg (fun found => Except.ok (Option.map _ found)) (if_pos all)
        · rw [if_neg all]
          exact congrArg (fun found => Except.ok (Option.map _ found)) (if_neg all)
      · intro i member
        rw [List.mem_range'_1] at member
        exact src.nibble_inside (by omega)

/-- A legal packed source has a sign code and decimal digits. -/
def SourceLegal : Prop :=
  src.fieldLength = 0 ∨
    9 < src.nibbleAt (src.byteAlignedNibbles - 1) ∧
      ∀ i ∈ significantNibbles src, src.nibbleAt i ≤ 9

theorem unpackSign_isSome (nibble : Nat) (small : nibble < 16) :
    (unpackSign nibble).isSome = true ↔ 9 < nibble := by
  revert nibble
  decide

theorem decodeSource_isSome : (decodeSource src).isSome = true ↔ SourceLegal src := by
  unfold decodeSource SourceLegal
  by_cases empty : src.fieldLength = 0
  · simp [empty]
  · rw [if_neg empty]
    have code := unpackSign_isSome _ (src.nibbleAt_lt (src.byteAlignedNibbles - 1))
    cases found : unpackSign (src.nibbleAt (src.byteAlignedNibbles - 1)) with
    | none =>
      rw [found] at code
      simp only [empty, false_or]
      exact iff_of_false (by simp) fun legal => by simpa using code.mpr legal.1
    | some sign =>
      rw [found] at code
      have large := code.mp rfl
      dsimp only
      split <;> simp_all

/-- The digits of a legal source are decimal. -/
theorem decodeSource_digits {digits : List Nat} {sign : Int × Bool}
    (found : decodeSource src = some (digits, sign)) : ∀ digit ∈ digits, digit ≤ 9 := by
  unfold decodeSource at found
  split at found
  · cases found
    simp
  · split at found
    · cases found
    · split at found
      · rename_i all
        cases found
        simpa using all
      · cases found

end Unpack

section FillBytes

variable (value : Int → Nat → Nat) (digits : List Nat)

/-- Every slot writes the byte of its own digit. -/
theorem fillBytes_eq (last : Nat) (slots : List Nat) (dst : BcdOperand)
    (inside : last + dst.skew < 20) (below : ∀ slot ∈ slots, slot ≤ last)
    (small : ∀ slot ∈ slots, value ((last - slot : Nat) : Int) (digits.reverse.getD slot 0) < 256) :
    ∃ filled, fillBytes value digits last slots dst = .ok filled ∧
      BcdOperand.SameDescriptor filled dst ∧
      ∀ j, filled.byteAt j =
        if j ≤ last ∧ last - j ∈ slots then value j (digits.reverse.getD (last - j) 0)
        else dst.byteAt j := by
  induction slots generalizing dst with
  | nil => exact ⟨dst, rfl, .refl dst, fun j => by simp⟩
  | cons slot rest ih =>
    have bound := below slot (by simp)
    have byte := small slot (by simp)
    have position : (last : Int) - slot = ((last - slot : Nat) : Int) := by omega
    have reached : last - slot + dst.skew < 20 := by omega
    obtain ⟨filled, done, same, read⟩ := ih
      (dst.withByte (last - slot) (value ((last - slot : Nat) : Int) (digits.reverse.getD slot 0)))
      inside (fun other member => below other (List.mem_cons_of_mem _ member))
      (fun other member => small other (List.mem_cons_of_mem _ member))
    refine ⟨filled, ?_, same.trans (dst.withByte_sameDescriptor _ _), ?_⟩
    · rw [fillBytes, position, BcdOperand.setByte_eq reached byte]
      exact done
    · intro j
      rw [read j, BcdOperand.byteAt_withByte dst reached, Nat.mod_eq_of_lt byte]
      by_cases later : j ≤ last ∧ last - j ∈ rest
      · rw [if_pos later, if_pos ⟨later.1, List.mem_cons_of_mem _ later.2⟩]
      · rw [if_neg later]
        by_cases here : j = last - slot
        · have sameSlot : last - j = slot := by omega
          rw [if_pos here, if_pos ⟨by omega, by simp [sameSlot]⟩, sameSlot, here]
        · rw [if_neg here, if_neg]
          rintro ⟨lower, member⟩
          rcases List.mem_cons.mp member with found | member
          · omega
          · exact later ⟨lower, member⟩

theorem fillBytes_outside (last : Int) (count : Nat) (dst : BcdOperand)
    (outside : 20 ≤ last + dst.skew) :
    fillBytes value digits last (List.range (count + 1)) dst = .error .outOfBounds := by
  rw [List.range_succ_eq_map, fillBytes]
  have far : (last - (0 : Nat)) + dst.skew < 0 ∨ 20 ≤ (last - (0 : Nat)) + dst.skew := by omega
  simp only [BcdOperand.setByte_outside far]
  rfl

end FillBytes

section ConvertToUnpacked

variable (dst src : BcdOperand)

/-- The last digit byte of a field with at least one byte of digits. -/
def BcdOperand.lastDigit (op : BcdOperand) : Nat := op.firstDigit + op.digitCount - 1

theorem unpackedDigitByte_lt {pos signByte : Int} {unsignedReq : Bool} {sign : Int} {digit : Nat}
    (decimal : digit ≤ 9) : unpackedDigitByte dst pos signByte unsignedReq sign digit < 256 := by
  have plain : 0x30 ||| digit < 256 := by
    interval_cases digit <;> decide
  unfold unpackedDigitByte
  split_ifs <;> omega

theorem getD_le_nine {digits : List Nat} (decimal : ∀ digit ∈ digits, digit ≤ 9) (slot : Nat) :
    digits.reverse.getD slot 0 ≤ 9 := by
  by_cases inside : slot < digits.reverse.length
  · rw [List.getD_eq_getElem _ _ inside]
    exact decimal _ (List.mem_reverse.mp (List.getElem_mem inside))
  · rw [List.getD_eq_default _ _ (Nat.le_of_not_lt inside)]
    omega

/-- The bytes of the unpacked digits. -/
def unpackedByte (unsignedReq : Bool) (sign : Int) (pos : Int) (digit : Nat) : Nat :=
  unpackedDigitByte dst pos dst.signByte unsignedReq sign digit

/-- The loop over the digit bytes, its last byte first. -/
def fillDigits (unsignedReq : Bool) (sign : Int) (digits : List Nat) : Except Stop BcdOperand :=
  fillBytes (unpackedByte dst unsignedReq sign) digits
    (if dst.asciiFormat = BcdAscii.separateTrailing then (dst.fieldLength : Int) - 2
      else dst.fieldLength - 1) (List.range dst.digitCount) dst

theorem digitSpan (nonempty : dst.fieldLength ≠ 0) :
    ((if dst.asciiFormat = BcdAscii.separateTrailing then (dst.fieldLength : Int) - 2
      else dst.fieldLength - 1) - dst.firstDigit + 1) = dst.digitCount := by
  unfold BcdOperand.firstDigit BcdOperand.digitCount
  by_cases trailing : dst.asciiFormat = BcdAscii.separateTrailing
  · have leading : dst.asciiFormat ≠ BcdAscii.separateLeading := by
      rw [trailing]
      decide
    rw [if_pos trailing, if_neg leading, if_pos (dst.separateSign_trailing trailing)]
    omega
  · by_cases leading : dst.asciiFormat = BcdAscii.separateLeading
    · rw [if_neg trailing, if_pos leading, if_pos (dst.separateSign_leading leading)]
      omega
    · rw [if_neg trailing, if_neg leading, if_neg (dst.separateSign_plain trailing leading)]
      omega

theorem bcdConvertToUnpacked_eq :
    bcdConvertToUnpacked dst src =
      match decodeSource src with
      | none => .ok .illegal
      | some (digits, sign, unsignedSrc) =>
        unpackInto dst digits sign (unsignedSrc || dst.unsignedRequested) := by
  rw [bcdConvertToUnpacked, unpackSource_eq]
  cases decodeSource src <;> rfl

theorem unpackInto_eq (nonempty : dst.fieldLength ≠ 0) (digits : List Nat) (sign : Int)
    (unsignedReq : Bool) :
    unpackInto dst digits sign unsignedReq = (do
      let filled ← fillDigits dst unsignedReq sign digits
      let signed ← placeSign dst.signByte unsignedReq sign filled
      return .stored signed (dst.digitCount < digits.length)) := by
  unfold unpackInto
  rw [dst.layout_eq]
  dsimp only
  rw [digitSpan dst nonempty, Int.toNat_natCast]
  have counts : ((dst.digitCount : Int) < digits.length) ↔ dst.digitCount < digits.length :=
    Int.ofNat_lt
  simp only [counts]
  rfl

theorem separateSignByte_lt (unsignedReq : Bool) (sign : Int) :
    separateSignByte unsignedReq sign < 256 := by
  unfold separateSignByte
  split_ifs <;> decide

theorem lastDigit_eq (some : 0 < dst.digitCount) :
    (if dst.asciiFormat = BcdAscii.separateTrailing then (dst.fieldLength : Int) - 2
      else dst.fieldLength - 1) = (dst.lastDigit : Nat) := by
  have nonempty : dst.fieldLength ≠ 0 := by
    intro empty
    unfold BcdOperand.digitCount at some
    rw [empty] at some
    split at some <;> omega
  have span := digitSpan dst nonempty
  unfold BcdOperand.lastDigit
  omega

theorem digitEnd_le (nonempty : dst.fieldLength ≠ 0) :
    dst.firstDigit + dst.digitCount ≤ dst.fieldLength := by
  have span := digitSpan dst nonempty
  split at span <;> omega

theorem lastDigit_lt (some : 0 < dst.digitCount) : dst.lastDigit < dst.fieldLength := by
  have last := lastDigit_eq dst some
  split at last <;> omega

/-- Inside the words the loop writes the digit bytes and nothing else. -/
theorem fillDigits_eq (unsignedReq : Bool) (sign : Int) {digits : List Nat}
    (decimal : ∀ digit ∈ digits, digit ≤ 9) (inside : dst.firstDigit + dst.digitCount + dst.skew ≤ 20) :
    ∃ filled, fillDigits dst unsignedReq sign digits = .ok filled ∧
      BcdOperand.SameDescriptor filled dst ∧
      ∀ j, filled.byteAt j =
        if dst.firstDigit ≤ j ∧ j < dst.firstDigit + dst.digitCount then
          unpackedByte dst unsignedReq sign j (digits.reverse.getD (dst.lastDigit - j) 0)
        else dst.byteAt j := by
  by_cases some : 0 < dst.digitCount
  · have short := lastDigit_lt dst some
    have last : dst.lastDigit = dst.firstDigit + dst.digitCount - 1 := rfl
    obtain ⟨filled, done, same, read⟩ := fillBytes_eq (unpackedByte dst unsignedReq sign) digits
      dst.lastDigit (List.range dst.digitCount) dst (by omega)
      (fun slot member => by rw [List.mem_range] at member; omega)
      (fun slot _ => unpackedDigitByte_lt dst (getD_le_nine decimal slot))
    refine ⟨filled, by rw [fillDigits, lastDigit_eq dst some]; exact done, same, fun j => ?_⟩
    have slot : (j ≤ dst.lastDigit ∧ dst.lastDigit - j ∈ List.range dst.digitCount) ↔
        (dst.firstDigit ≤ j ∧ j < dst.firstDigit + dst.digitCount) := by
      rw [List.mem_range]
      omega
    rw [read j]
    simp only [slot]
  · have none : dst.digitCount = 0 := by omega
    refine ⟨dst, by rw [fillDigits, none]; rfl, .refl dst, fun j => ?_⟩
    rw [if_neg (by omega)]

theorem placeSign_total (unsignedReq : Bool) (sign : Int) {filled : BcdOperand}
    (same : BcdOperand.SameDescriptor filled dst) (inside : dst.fieldLength + dst.skew ≤ 20) :
    ∃ signed, placeSign dst.signByte unsignedReq sign filled = .ok signed := by
  unfold placeSign
  split
  · rename_i separate
    obtain ⟨lower, separate⟩ := separate
    have upper : dst.signByte.toNat + filled.skew < 20 := by
      have narrow := dst.skew_le_one
      rw [same.skew]
      rw [same.separateSign] at separate
      by_cases trailing : dst.asciiFormat = BcdAscii.separateTrailing
      · rw [dst.signByte_trailing trailing] at lower ⊢
        omega
      · have leading : dst.asciiFormat = BcdAscii.separateLeading := by
          simpa [BcdOperand.separateSign, trailing] using separate
        rw [dst.signByte_leading leading, Int.toNat_zero]
        omega
    rw [← Int.toNat_of_nonneg lower,
      BcdOperand.setByte_eq upper (separateSignByte_lt unsignedReq sign)]
    exact ⟨_, rfl⟩
  · exact ⟨filled, rfl⟩

theorem fillDigits_outside (unsignedReq : Bool) (sign : Int) (digits : List Nat)
    (some : 0 < dst.digitCount) (outside : 20 ≤ dst.lastDigit + dst.skew) :
    fillDigits dst unsignedReq sign digits = .error .outOfBounds := by
  obtain ⟨count, size⟩ := Nat.exists_eq_succ_of_ne_zero some.ne'
  rw [fillDigits, lastDigit_eq dst some, size]
  exact fillBytes_outside _ _ _ count dst (by omega)

theorem placeSign_outside (unsignedReq : Bool) (sign : Int) {filled : BcdOperand}
    (same : BcdOperand.SameDescriptor filled dst)
    (trailing : dst.asciiFormat = BcdAscii.separateTrailing) (nonempty : dst.fieldLength ≠ 0)
    (outside : 20 < dst.fieldLength + dst.skew) :
    placeSign dst.signByte unsignedReq sign filled = .error .outOfBounds := by
  have separate := dst.separateSign_trailing trailing
  rw [placeSign, dst.signByte_trailing trailing, if_pos ⟨by omega, by rw [same.separateSign]; exact separate⟩]
  exact BcdOperand.setByte_outside (by rw [same.skew]; omega) _

/-- The last digit byte is written first, and only a trailing sign byte lies behind it. -/
theorem unpackInto_outside (nonempty : dst.fieldLength ≠ 0) {digits : List Nat} (sign : Int)
    (unsignedReq : Bool) (decimal : ∀ digit ∈ digits, digit ≤ 9)
    (outside : 20 < dst.fieldLength + dst.skew) :
    (do
      let filled ← fillDigits dst unsignedReq sign digits
      let signed ← placeSign dst.signByte unsignedReq sign filled
      return BcdConversion.stored signed (dst.digitCount < digits.length)) =
        .error .outOfBounds := by
  have span := digitSpan dst nonempty
  have narrow := dst.skew_le_one
  have first := dst.firstDigit_le_one
  have last : dst.lastDigit = dst.firstDigit + dst.digitCount - 1 := rfl
  by_cases early : 0 < dst.digitCount ∧ 20 ≤ dst.lastDigit + dst.skew
  · rw [fillDigits_outside dst unsignedReq sign digits early.1 early.2]
    rfl
  · have trailing : dst.asciiFormat = BcdAscii.separateTrailing := by
      by_contra other
      rw [if_neg other] at span
      exact early ⟨by omega, by omega⟩
    rw [if_pos trailing] at span
    obtain ⟨filled, done, same, -⟩ :=
      fillDigits_eq dst unsignedReq sign decimal (by omega)
    rw [done]
    change (placeSign dst.signByte unsignedReq sign filled >>= _) = _
    rw [placeSign_outside dst unsignedReq sign same trailing nonempty outside]
    rfl

/-- The destination leaves its words when it is too long and its source is legal. -/
def UnpackOverruns : Prop := 20 < dst.fieldLength + dst.skew ∧ SourceLegal src

theorem bcdConvertToUnpacked_overruns (nonempty : dst.fieldLength ≠ 0) :
    bcdConvertToUnpacked dst src = .error .outOfBounds ↔ UnpackOverruns dst src := by
  rw [bcdConvertToUnpacked_eq, UnpackOverruns, ← decodeSource_isSome]
  cases found : decodeSource src with
  | none => exact iff_of_false (fun stopped => nomatch stopped) (by simp)
  | some decoded =>
    obtain ⟨digits, sign, unsignedSrc⟩ := decoded
    simp only [Option.isSome_some, and_true]
    rw [unpackInto_eq dst nonempty]
    by_cases inside : dst.fieldLength + dst.skew ≤ 20
    · obtain ⟨filled, done, same, -⟩ := fillDigits_eq dst (unsignedSrc || dst.unsignedRequested)
        sign (decodeSource_digits src found)
        (by have := digitEnd_le dst nonempty; omega)
      obtain ⟨signed, placed⟩ := placeSign_total dst (unsignedSrc || dst.unsignedRequested)
        sign same inside
      rw [done]
      simp only [bind, Except.bind, placed]
      exact iff_of_false (fun stopped => nomatch stopped) (by omega)
    · exact iff_of_true (unpackInto_outside dst nonempty sign _
        (decodeSource_digits src found) (by omega)) (by omega)

end ConvertToUnpacked

end Nd100x
