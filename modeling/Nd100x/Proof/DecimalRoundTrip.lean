import Nd100x.Proof.DecimalConversion

namespace Nd100x

namespace BcdOperand

/-- Two operands of one second descriptor word have one layout. -/
theorem layout_congr {first second : BcdOperand} (same : first.d2 = second.d2) :
    first.signByte = second.signByte ∧ first.firstDigit = second.firstDigit ∧
      first.digitCount = second.digitCount ∧ first.separateSign = second.separateSign ∧
      first.embeddedSign = second.embeddedSign := by
  have format : first.asciiFormat = second.asciiFormat := by rw [asciiFormat, same, asciiFormat]
  have length : first.fieldLength = second.fieldLength := by rw [fieldLength, same, fieldLength]
  refine ⟨?_, ?_, ?_, ?_, ?_⟩
  · rw [signByte, format, length, signByte]
  · rw [firstDigit, format, firstDigit]
  · rw [digitCount, separateSign, format, length, digitCount, separateSign]
  · rw [separateSign, format, separateSign]
  · rw [embeddedSign, format, embeddedSign]

end BcdOperand

section Bytes

/-- A sign is plus or minus one. -/
def IsSign (sign : Int) : Prop := sign = 1 ∨ sign = -1

theorem packDigit_plain {digit : Nat} (decimal : digit ≤ 9) :
    packDigit (0x30 ||| digit) = some digit := by
  interval_cases digit <;> rfl

theorem packOverpunch_plain {digit : Nat} (decimal : digit ≤ 9) :
    packOverpunch (0x30 ||| digit) = some (digit, 1) := by
  interval_cases digit <;> rfl

theorem packOverpunch_plus {digit : Nat} (decimal : digit ≤ 9) :
    packOverpunch (if digit = 0 then 0x7B else 0x40 + digit) = some (digit, 1) := by
  interval_cases digit <;> rfl

theorem packOverpunch_minus {digit : Nat} (decimal : digit ≤ 9) :
    packOverpunch (if digit = 0 then 0x7D else 0x49 + digit) = some (digit, -1) := by
  interval_cases digit <;> rfl

/-- A separate sign byte is read back unless it was written as a zero. -/
theorem separateSignByte_read {sign : Int} (known : IsSign sign) :
    (if separateSignByte false sign = 0x2B then some 1
      else if separateSignByte false sign = 0x2D then some (-1) else none) = some sign := by
  rcases known with rfl | rfl <;> rfl

end Bytes

section Digits

variable (ascii src : BcdOperand) (same : src.d2 = ascii.d2)

include same

/-- The reader of a digit byte undoes its writer. -/
theorem sourceDigit_unpacked {uns : Bool} {sign before : Int} {i digit : Nat}
    (known : IsSign sign) (decimal : digit ≤ 9)
    (byte : src.byteAt i = unpackedByte ascii uns sign i digit) :
    sourceDigit src src.signByte i before =
      some (digit, if (i : Int) = src.signByte ∧ src.embeddedSign then (if uns then 1 else sign)
        else before) := by
  obtain ⟨signByte, -, -, -, embedded⟩ := BcdOperand.layout_congr same
  rw [sourceDigit, byte, unpackedByte, unpackedDigitByte, ← signByte, ← embedded]
  by_cases here : (i : Int) = src.signByte ∧ src.embeddedSign = true
  · rw [if_pos here, if_pos here]
    cases uns with
    | true =>
      rw [if_neg (by simp), packOverpunch_plain decimal]
      rfl
    | false =>
      rw [if_pos ⟨here.1, by simp, here.2⟩]
      rcases known with rfl | rfl
      · rw [if_neg (by decide), packOverpunch_plus decimal]
        rfl
      · rw [if_pos (by decide), packOverpunch_minus decimal]
        rfl
  · rw [if_neg here, if_neg fun taken => here ⟨taken.1, taken.2.2⟩, if_neg here,
      packDigit_plain decimal]
    rfl

/-- Every byte gives its digit, and an embedded sign byte gives the sign. -/
theorem collectDigits_unpacked {uns : Bool} {sign : Int} (known : IsSign sign) (digit : Nat → Nat)
    (decimal : ∀ i, digit i ≤ 9) (positions : List Nat) (before : Int)
    (bytes : ∀ i ∈ positions, src.byteAt i = unpackedByte ascii uns sign i (digit i)) :
    collectDigits src src.signByte positions before =
      some (positions.map digit,
        if src.embeddedSign ∧ ∃ i ∈ positions, (i : Int) = src.signByte
          then (if uns then 1 else sign) else before) := by
  induction positions generalizing before with
  | nil => simp [collectDigits]
  | cons i rest ih =>
    have later := fun before => ih before fun j member =>
      bytes j (List.mem_cons_of_mem _ member)
    rw [collectDigits, sourceDigit_unpacked ascii src same known (decimal i) (bytes i (by simp)),
      Option.bind_some, later]
    simp only [Option.map_some, List.map_cons, List.exists_mem_cons_iff]
    by_cases embedded : src.embeddedSign = true
    · by_cases behind : ∃ j ∈ rest, (j : Int) = src.signByte
      · simp [embedded, behind]
      · by_cases here : (i : Int) = src.signByte
        · simp [embedded, here]
        · simp [embedded, here, behind]
    · simp [embedded]

end Digits

section Unpacked

variable (ascii : BcdOperand)

theorem signByte_outside (separate : ascii.separateSign = true) (nonempty : ascii.fieldLength ≠ 0) :
    ∃ i : Nat, ascii.signByte = i ∧ i < ascii.fieldLength ∧
      ¬ (ascii.firstDigit ≤ i ∧ i < ascii.firstDigit + ascii.digitCount) := by
  have count : ascii.digitCount = ascii.fieldLength - 1 := if_pos separate
  by_cases trailing : ascii.asciiFormat = BcdAscii.separateTrailing
  · refine ⟨ascii.fieldLength - 1, ?_, by omega, ?_⟩
    · rw [ascii.signByte_trailing trailing]
      omega
    · rw [count, BcdOperand.firstDigit, trailing, if_neg (by decide)]
      omega
  · have leading : ascii.asciiFormat = BcdAscii.separateLeading := by
      simpa [BcdOperand.separateSign, trailing] using separate
    refine ⟨0, by rw [ascii.signByte_leading leading]; rfl, by omega, ?_⟩
    rw [BcdOperand.firstDigit, leading, if_pos rfl]
    omega

/-- The bytes that `UPACK` leaves in its field. -/
structure UnpackedField (uns : Bool) (sign : Int) (digits : List Nat) (field : BcdOperand) :
    Prop where
  digit : ∀ j, ascii.firstDigit ≤ j → j < ascii.firstDigit + ascii.digitCount →
    field.byteAt j = unpackedByte ascii uns sign j (digits.reverse.getD (ascii.lastDigit - j) 0)
  sign : ∀ i : Nat, ascii.separateSign = true → ascii.signByte = i →
    field.byteAt i = separateSignByte uns sign

theorem unpackInto_field (nonempty : ascii.fieldLength ≠ 0)
    (inside : ascii.fieldLength + ascii.skew ≤ 20) {digits : List Nat} (sign : Int) (uns : Bool)
    (decimal : ∀ digit ∈ digits, digit ≤ 9) :
    ∃ field, unpackInto ascii digits sign uns =
        .ok (.stored field (ascii.digitCount < digits.length)) ∧
      BcdOperand.SameDescriptor field ascii ∧ UnpackedField ascii uns sign digits field := by
  have span := digitEnd_le ascii nonempty
  obtain ⟨filled, done, same, read⟩ := fillDigits_eq ascii uns sign decimal (by omega)
  rw [unpackInto_eq ascii nonempty, done]
  by_cases separate : ascii.separateSign = true
  · obtain ⟨i, signByte, short, apart⟩ := signByte_outside ascii separate nonempty
    have reached : i + filled.skew < 20 := by
      rw [same.skew]
      omega
    have placed : placeSign ascii.signByte uns sign filled =
        .ok (filled.withByte i (separateSignByte uns sign)) := by
      rw [placeSign, signByte, if_pos ⟨by omega, by rw [same.separateSign]; exact separate⟩,
        BcdOperand.setByte_eq reached (separateSignByte_lt uns sign)]
    refine ⟨filled.withByte i (separateSignByte uns sign), ?_,
      (filled.withByte_sameDescriptor _ _).trans same, fun j lower upper => ?_,
      fun j _ found => ?_⟩
    · simp only [bind, Except.bind, placed]
      rfl
    · rw [BcdOperand.byteAt_withByte filled reached, if_neg (fun here : j = i => apart (here ▸ ⟨lower, upper⟩)),
        read j, if_pos ⟨lower, upper⟩]
    · have here : j = i := by omega
      rw [BcdOperand.byteAt_withByte filled reached, if_pos here,
        Nat.mod_eq_of_lt (separateSignByte_lt uns sign)]
  · have placed : placeSign ascii.signByte uns sign filled = .ok filled := by
      rw [placeSign, if_neg]
      rintro ⟨-, found⟩
      rw [same.separateSign] at found
      exact separate found
    refine ⟨filled, ?_, same, fun j lower upper => ?_, fun j found => absurd found separate⟩
    · simp only [bind, Except.bind, placed]
      rfl
    · rw [read j, if_pos ⟨lower, upper⟩]

end Unpacked

section Packed

variable (packed : BcdOperand)

/-- The digits of a list, counted from its last one, with zeros before them. -/
def digitFromEnd (digits : List Nat) (slot : Nat) : Nat := digits.reverse.getD slot 0

theorem digitFromEnd_past {digits : List Nat} {slot : Nat} (past : digits.length ≤ slot) :
    digitFromEnd digits slot = 0 :=
  List.getD_eq_default _ _ (by simpa using past)

theorem digitFromEnd_map (value : Nat → Nat) (first count slot : Nat) :
    digitFromEnd ((List.range' first count).map value) slot =
      if slot < count then value (first + count - 1 - slot) else 0 := by
  by_cases inside : slot < count
  · rw [if_pos inside, digitFromEnd, List.getD_eq_getElem _ _ (by simpa using inside),
      List.getElem_reverse, List.getElem_map, List.getElem_range']
    simp only [List.length_map, List.length_range', Nat.one_mul]
    congr 1
    omega
  · rw [if_neg inside, digitFromEnd_past (by simpa using inside)]

theorem getElem_digitFromEnd (digits : List Nat) (i : Nat) (inside : i < digits.length) :
    digitFromEnd digits (digits.length - 1 - i) = digits[i] := by
  rw [digitFromEnd, List.getD_eq_getElem _ _ (by simp; omega), List.getElem_reverse]
  congr 1
  omega

/-- Two lists with the same digits from the end are packed alike. -/
theorem drop_any_zero {digits : List Nat} {capacity : Nat}
    (zeros : ∀ slot, capacity ≤ slot → digitFromEnd digits slot = 0) :
    (digits.reverse.drop capacity).any (· ≠ 0) = false := by
  rw [List.any_eq_false]
  intro digit member
  obtain ⟨i, inside, found⟩ := List.mem_iff_getElem.mp member
  have zero := zeros (capacity + i) (by omega)
  rw [List.length_drop] at inside
  rw [List.getElem_drop] at found
  rw [digitFromEnd, List.getD_eq_getElem _ _ (by omega), found] at zero
  simp [zero]

/-- The digit nibbles of a packed source. -/
theorem decodeSource_length {source : BcdOperand} {digits : List Nat} {sign : Int × Bool}
    (found : decodeSource source = some (digits, sign)) :
    digits.length = source.fieldLength - 1 := by
  unfold decodeSource at found
  split at found
  · rename_i empty
    cases found
    simp [empty]
  · split at found
    · cases found
    · split at found
      · cases found
        simp [significantNibbles]
      · cases found

theorem unpackSign_isSign {nibble : Nat} {sign : Int × Bool} (found : unpackSign nibble = some sign) :
    IsSign sign.1 ∧ (sign.2 = true → sign.1 = 1) := by
  unfold unpackSign at found
  split_ifs at found
  all_goals
    cases found
    simp [IsSign]

theorem decodeSource_isSign {source : BcdOperand} {digits : List Nat} {sign : Int × Bool}
    (found : decodeSource source = some (digits, sign)) :
    IsSign sign.1 ∧ (sign.2 = true → sign.1 = 1) := by
  unfold decodeSource at found
  split at found
  · cases found
    simp [IsSign]
  · split at found
    · cases found
    · rename_i code
      split at found
      · cases found
        exact unpackSign_isSign code
      · cases found

theorem unpackSign_outSign {sign : Int} (known : IsSign sign)
    (kept : sign = -1 → packed.unsignedRequested = false) :
    ∃ uns, unpackSign (packed.outSign sign % 16) = some (sign, uns) := by
  unfold BcdOperand.outSign
  by_cases requested : packed.unsignedRequested = true
  · rw [if_pos requested]
    rcases known with rfl | rfl
    · exact ⟨true, rfl⟩
    · exact absurd (kept rfl) (by simp [requested])
  · rw [if_neg requested]
    rcases known with rfl | rfl
    · exact ⟨false, rfl⟩
    · exact ⟨false, rfl⟩

/-- A field that holds the digits and the sign is decoded to them. -/
theorem decodeSource_packed {result : BcdOperand} {digits : List Nat} {sign : Int} {uns : Bool}
    (nonempty : result.fieldLength ≠ 0) (length : digits.length = result.fieldLength - 1)
    (decimal : ∀ digit ∈ digits, digit ≤ 9)
    (code : unpackSign (result.nibbleAt (result.byteAlignedNibbles - 1)) = some (sign, uns))
    (nibbles : ∀ j < result.byteAlignedNibbles - 1,
      result.nibbleAt j = result.fieldDigit digits j % 16) :
    decodeSource result = some (digits, sign, uns) := by
  have aligned := result.byteAlignedNibbles_pos nonempty
  have shorter := result.fieldLength_le_byteAligned
  have values : (significantNibbles result).map result.nibbleAt = digits := by
    apply List.ext_getElem
    · simp [significantNibbles, length]
    · intro i left right
      have inside : i < result.fieldLength - 1 := by omega
      have small := decimal _ (List.getElem_mem right)
      have slot : result.byteAlignedNibbles - 2 -
          (result.byteAlignedNibbles - result.fieldLength + i) = digits.length - 1 - i := by omega
      rw [List.getElem_map]
      simp only [significantNibbles, List.getElem_range', Nat.one_mul]
      rw [nibbles _ (by omega), BcdOperand.fieldDigit, slot, if_pos (by omega)]
      change digitFromEnd digits (digits.length - 1 - i) % 16 = _
      rw [getElem_digitFromEnd digits i right]
      omega
  have all : ∀ i ∈ significantNibbles result, result.nibbleAt i ≤ 9 := by
    intro i member
    apply decimal
    rw [← values]
    exact List.mem_map_of_mem member
  rw [decodeSource, if_neg nonempty, code]
  dsimp only
  rw [if_pos all, values]

/-- Packing a list with the digits of the source gives the source back. -/
theorem packMagnitudeToField_decode {collected digits : List Nat} {sign : Int}
    (agree : ∀ slot, digitFromEnd collected slot = digitFromEnd digits slot)
    (length : digits.length = packed.fieldLength - 1) (decimal : ∀ digit ∈ digits, digit ≤ 9)
    (known : IsSign sign) (kept : sign = -1 → packed.unsignedRequested = false)
    (empty : packed.fieldLength = 0 → sign = 1) :
    ∃ result uns, packed.packMagnitudeToField collected (packed.outSign sign) = .ok (result, false) ∧
      BcdOperand.SameDescriptor result packed ∧ decodeSource result = some (digits, sign, uns) := by
  have zeros : ∀ slot, digits.length ≤ slot → digitFromEnd collected slot = 0 := fun slot past =>
    (agree slot).trans (digitFromEnd_past past)
  by_cases none : packed.fieldLength = 0
  · have nothing : digits = [] := List.eq_nil_of_length_eq_zero (by omega)
    have any : collected.any (· ≠ 0) = false := by
      have all := drop_any_zero zeros
      rwa [nothing, List.length_nil, List.drop_zero, List.any_reverse] at all
    refine ⟨packed, false, ?_, .refl packed, ?_⟩
    · rw [BcdOperand.packMagnitudeToField, if_pos none, any]
      rfl
    · rw [decodeSource, if_pos none, nothing, empty none]
  · obtain ⟨result, done, same, signNibble, nibbles⟩ :=
      packed.packMagnitudeToField_eq collected (packed.outSign sign) none
    obtain ⟨uns, code⟩ := unpackSign_outSign packed known kept
    rw [drop_any_zero fun slot past => zeros slot (by omega)] at done
    refine ⟨result, uns, done, same, ?_⟩
    apply decodeSource_packed (by rw [same.fieldLength]; exact none)
      (by rw [same.fieldLength]; exact length) decimal
    · rw [same.byteAlignedNibbles, signNibble, code]
    · intro j below
      rw [same.byteAlignedNibbles] at below
      have digit : packed.fieldDigit collected j = result.fieldDigit digits j := by
        unfold BcdOperand.fieldDigit
        rw [same.byteAlignedNibbles, same.fieldLength]
        split
        · exact agree _
        · rfl
      rw [nibbles j below, digit]

end Packed

/-- The ASCII field keeps the sign: a separate sign byte is not the unsigned zero, and a
negative sign has a place in the field. -/
structure KeepsSign (ascii : BcdOperand) (uns : Bool) (sign : Int) : Prop where
  separate : ascii.separateSign = true → uns = false
  negative : sign = -1 → uns = false ∧ (ascii.separateSign = true ∨ ascii.embeddedSign = true)

section Repack

variable {ascii src : BcdOperand} {uns : Bool} {sign : Int} {digits : List Nat}

/-- `PACK` finds the sign before the digits or at an embedded sign byte. -/
theorem packSeparateSign_unpacked (same : src.d2 = ascii.d2) (nonempty : ascii.fieldLength ≠ 0)
    (inside : ascii.fieldLength + ascii.skew ≤ 20) (known : IsSign sign)
    (keeps : KeepsSign ascii uns sign) (field : UnpackedField ascii uns sign digits src) :
    packSeparateSign src src.signByte =
      .ok (some (if src.separateSign = true then sign else 1)) := by
  obtain ⟨signByte, -, -, separate, -⟩ := BcdOperand.layout_congr same
  by_cases found : src.separateSign = true
  · rw [separate] at found
    obtain ⟨i, place, short, -⟩ := signByte_outside ascii found nonempty
    have skew : src.skew = ascii.skew := by
      unfold BcdOperand.skew BcdOperand.startsInRightByte
      rw [same]
    rw [signByte, place, packSeparateSign_read src i (by rw [separate]; exact found) (by omega),
      field.sign i found place, keeps.separate found, separateSignByte_read known, separate,
      if_pos found]
  · rw [packSeparateSign_plain src _ found, if_neg found]

theorem signByte_visited (embedded : src.embeddedSign = true) (nonempty : src.fieldLength ≠ 0) :
    ∃ i ∈ List.range' src.firstDigit src.digitCount, (i : Int) = src.signByte := by
  by_cases trailing : src.asciiFormat = BcdAscii.embeddedTrailing
  · refine ⟨src.fieldLength - 1, ?_, ?_⟩
    · rw [List.mem_range'_1, BcdOperand.firstDigit, BcdOperand.digitCount, BcdOperand.separateSign,
        trailing]
      simp [BcdAscii.embeddedTrailing, BcdAscii.separateTrailing, BcdAscii.separateLeading]
      omega
    · rw [BcdOperand.signByte, bcdAsciiLayout, if_pos trailing]
      dsimp only
      omega
  · have leading : src.asciiFormat = BcdAscii.embeddedLeading := by
      simpa [BcdOperand.embeddedSign, trailing] using embedded
    refine ⟨0, ?_, ?_⟩
    · rw [List.mem_range'_1, BcdOperand.firstDigit, BcdOperand.digitCount, BcdOperand.separateSign,
        leading]
      simp [BcdAscii.embeddedLeading, BcdAscii.separateTrailing, BcdAscii.separateLeading]
      omega
    · rw [BcdOperand.signByte, bcdAsciiLayout, leading]
      rfl

/-- The sign that `PACK` ends with is the sign that `UPACK` wrote. -/
theorem repacked_sign (nonempty : src.fieldLength ≠ 0) (same : src.d2 = ascii.d2)
    (known : IsSign sign) (keeps : KeepsSign ascii uns sign) :
    (if src.embeddedSign ∧ ∃ i ∈ List.range' src.firstDigit src.digitCount, (i : Int) = src.signByte
      then (if uns then 1 else sign) else if src.separateSign = true then sign else 1) = sign := by
  obtain ⟨-, -, -, separate, embedded⟩ := BcdOperand.layout_congr same
  by_cases inside : src.embeddedSign = true
  · rw [if_pos ⟨inside, signByte_visited inside nonempty⟩]
    cases uns with
    | false => rfl
    | true =>
      rcases known with rfl | rfl
      · rfl
      · exact absurd (keeps.negative rfl).1 (by decide)
  · rw [if_neg fun found => inside found.1]
    by_cases before : src.separateSign = true
    · rw [if_pos before]
    · rw [if_neg before]
      rcases known with rfl | rfl
      · rfl
      · rcases (keeps.negative rfl).2 with found | found
        · exact absurd (separate.trans found) before
        · exact absurd (embedded.trans found) inside

/-- `PACK` of an unpacked field gives the digits and the sign back. -/
theorem bcdConvertToPacked_unpacked (packed : BcdOperand) (same : src.d2 = ascii.d2)
    (nonempty : ascii.fieldLength ≠ 0) (inside : ascii.fieldLength + ascii.skew ≤ 20)
    (known : IsSign sign) (keeps : KeepsSign ascii uns sign)
    (field : UnpackedField ascii uns sign digits src) (decimal : ∀ digit ∈ digits, digit ≤ 9)
    (fits : digits.length ≤ ascii.digitCount) (length : digits.length = packed.fieldLength - 1)
    (kept : sign = -1 → packed.unsignedRequested = false)
    (empty : packed.fieldLength = 0 → sign = 1) :
    ∃ result uns, bcdConvertToPacked packed src = .ok (.stored result false) ∧
      BcdOperand.SameDescriptor result packed ∧ decodeSource result = some (digits, sign, uns) := by
  obtain ⟨signByte, firstDigit, digitCount, separate, embedded⟩ := BcdOperand.layout_congr same
  have fieldLength : src.fieldLength = ascii.fieldLength := by
    rw [BcdOperand.fieldLength, same, BcdOperand.fieldLength]
  have skew : src.skew = ascii.skew := by
    unfold BcdOperand.skew BcdOperand.startsInRightByte
    rw [same]
  have span := digitEnd_le ascii nonempty
  have last : ascii.lastDigit = ascii.firstDigit + ascii.digitCount - 1 := rfl
  have collected := collectDigits_unpacked ascii src same known
    (fun i => digits.reverse.getD (ascii.lastDigit - i) 0) (fun i => getD_le_nine decimal _)
    (List.range' src.firstDigit src.digitCount) (if src.separateSign = true then sign else 1)
    (fun i member => by
      rw [List.mem_range'_1, firstDigit, digitCount] at member
      exact field.digit i member.1 member.2)
  rw [repacked_sign (by rw [fieldLength]; exact nonempty) same known keeps] at collected
  have agree : ∀ slot, digitFromEnd ((List.range' src.firstDigit src.digitCount).map
      fun i => digits.reverse.getD (ascii.lastDigit - i) 0) slot = digitFromEnd digits slot := by
    intro slot
    rw [digitFromEnd_map, firstDigit, digitCount]
    by_cases reached : slot < ascii.digitCount
    · rw [if_pos reached]
      have place : ascii.lastDigit - (ascii.firstDigit + ascii.digitCount - 1 - slot) = slot := by omega
      rw [place]
      rfl
    · rw [if_neg reached, digitFromEnd_past (by omega)]
  obtain ⟨result, resultUns, packing, descriptor, decoded⟩ :=
    packMagnitudeToField_decode packed agree length decimal known kept empty
  refine ⟨result, resultUns, ?_, descriptor, decoded⟩
  rw [bcdConvertToPacked_eq, packSeparateSign_unpacked same nonempty inside known keeps field]
  change packTail packed src _ = _
  rw [packTail, packDigits_inside, collected]
  · simp only [bind, Except.bind, packing]
    rfl
  · intro i member
    rw [List.mem_range'_1, firstDigit, digitCount] at member
    omega

end Repack

end Nd100x
