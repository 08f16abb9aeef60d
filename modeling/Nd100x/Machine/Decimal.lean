import Nd100x.Machine.Instr

namespace Nd100x

/-- The array bounds of `BcdOperand`. -/
def bcdMaxNibbles : Nat := 32
def bcdMaxWords : Nat := 10

def bcdSignPos : Nat := 0x0C
def bcdSignNeg : Nat := 0x0D
def bcdSignUns : Nat := 0x0F

/- These are the sign formats of an ASCII operand, and every higher number is unsigned. -/
namespace BcdAscii

def embeddedTrailing : Nat := 0
def separateTrailing : Nat := 1
def embeddedLeading : Nat := 2
def separateLeading : Nat := 3

end BcdAscii

inductive BcdError where
  | illegalCode
  | overflow
  deriving DecidableEq, Repr

def BcdError.code : BcdError → Word
  | .illegalCode => 2
  | .overflow => 3

/-- The decoded fields of an operand are read from its second descriptor word. -/
structure BcdOperand where
  addr : Word
  d2 : Word
  isAscii : Bool
  words : Fin bcdMaxWords → Word

namespace BcdOperand

variable (op : BcdOperand)

def startsInRightByte : Bool := op.d2.getLsbD 15
def asciiFormat : Nat := ((op.d2 >>> 11) &&& 7).toNat
def unsignedRequested : Bool := op.d2.getLsbD 13
def roundingOn : Bool := op.d2.getLsbD 10
def decimalPoint : Nat := ((op.d2 >>> 5) &&& 0x1F).toNat
def fieldLength : Nat := (op.d2 &&& 0x1F).toNat

/-- A packed field ends on a byte boundary. -/
def byteAlignedNibbles : Nat := op.fieldLength + op.fieldLength % 2

/-- The skew of a field that starts in the right byte is not counted. -/
def memWords : Nat :=
  if op.fieldLength = 0 then 0
  else
    let len := if op.isAscii then (op.fieldLength + 1) / 2 else (op.byteAlignedNibbles + 3) / 4
    min (max len 1) bcdMaxWords

/-- An index outside the array is reported, where C reads or writes past the struct. -/
def word (index : Int) : Except Stop Word :=
  if inside : 0 ≤ index ∧ index < bcdMaxWords then
    .ok (op.words ⟨index.toNat, by omega⟩)
  else .error .outOfBounds

def putWord (index : Int) (value : Word) : Except Stop BcdOperand :=
  if inside : 0 ≤ index ∧ index < bcdMaxWords then
    .ok { op with words := Function.update op.words ⟨index.toNat, by omega⟩ value }
  else .error .outOfBounds

/-- Nibble 0 is the most significant nibble of the first word. -/
def nibblePosition (i : Int) : Int := i + if op.startsInRightByte then 2 else 0

def nibbleShift (p : Int) : Nat := ((3 - p % 4) * 4).toNat

def getNibble (i : Int) : Except Stop Nat := do
  let p := op.nibblePosition i
  let w ← op.word (p / 4)
  return ((w >>> nibbleShift p) &&& 0x0F).toNat

def setNibble (i : Int) (val : Nat) : Except Stop BcdOperand := do
  let p := op.nibblePosition i
  let w ← op.word (p / 4)
  op.putWord (p / 4) ((w &&& ~~~((0x0F : Word) <<< nibbleShift p)) |||
    ((BitVec.ofNat 16 val &&& 0x0F) <<< nibbleShift p))

/-- Byte 0 is the left byte of the first word. -/
def bytePosition (i : Int) : Int := i + if op.startsInRightByte then 1 else 0

def getByte (i : Int) : Except Stop Nat := do
  let p := op.bytePosition i
  let w ← op.word (p / 2)
  return (if p % 2 = 0 then w >>> 8 else w &&& 0x00FF).toNat

def setByte (i : Int) (val : Nat) : Except Stop BcdOperand := do
  let p := op.bytePosition i
  let w ← op.word (p / 2)
  op.putWord (p / 2) (if p % 2 = 0 then (w &&& 0x00FF) ||| (BitVec.ofNat 16 val <<< 8)
    else (w &&& 0xFF00) ||| BitVec.ofNat 16 val)

/-- An unknown sign nibble counts as a plus. -/
def decodeSign : Except Stop Int := do
  if op.fieldLength = 0 then return 1
  let nibble ← op.getNibble (op.byteAlignedNibbles - 1)
  return if nibble = 0x0B ∨ nibble = 0x0D then -1 else 1

/-- The magnitude is right adjusted in the buffer, most significant digit first. -/
def extractMagnitude (dstLen : Nat) : Except Stop (List Nat) := do
  let digits := min (if op.fieldLength = 0 then 0 else op.byteAlignedNibbles - 1) dstLen
  let magnitude ← (List.range digits).mapM fun (i : Nat) => op.getNibble i
  return List.replicate (dstLen - digits) 0 ++ magnitude

/-- The digits fill the field from the least significant nibble, and the pad is zero. -/
def fillNibbles (digits : List Nat) : Nat → BcdOperand → Except Stop BcdOperand
  | 0, op => .ok op
  | pos + 1, op => do
      let slot := op.byteAlignedNibbles - 2 - pos
      let digit := if slot < op.fieldLength - 1 then digits.reverse.getD slot 0 else 0
      fillNibbles digits pos (← op.setNibble pos digit)

/-- Digits above the capacity of the descriptor are an overflow. -/
def packMagnitudeToField (digits : List Nat) (outSignNibble : Nat) :
    Except Stop (BcdOperand × Bool) := do
  if op.fieldLength = 0 then return (op, digits.any (· ≠ 0))
  let signed ← op.setNibble (op.byteAlignedNibbles - 1) outSignNibble
  let filled ← fillNibbles digits (op.byteAlignedNibbles - 1) signed
  return (filled, (digits.reverse.drop (op.fieldLength - 1)).any (· ≠ 0))

def outSign (sign : Int) : Nat :=
  if op.unsignedRequested then bcdSignUns else if sign < 0 then bcdSignNeg else bcdSignPos

end BcdOperand

/-- The carry runs from the last digit to the first. -/
def bcdAddMagnitude : List Nat → List Nat → List Nat × Nat
  | a :: as, b :: bs =>
    let (rest, carry) := bcdAddMagnitude as bs
    let sum := a + b + carry
    if 10 ≤ sum then ((sum - 10) :: rest, 1) else (sum :: rest, 0)
  | _, _ => ([], 0)

/-- A negative byte wraps, which only a malformed digit can reach. -/
def bcdSubMagnitude : List Nat → List Nat → List Nat × Nat
  | a :: as, b :: bs =>
    let (rest, borrow) := bcdSubMagnitude as bs
    let difference : Int := a - b - borrow
    if difference < 0 then (((difference + 10) % 256).toNat :: rest, 1)
    else (difference.toNat :: rest, 0)
  | _, _ => ([], 0)

def bcdCmpMagnitude : List Nat → List Nat → Int
  | a :: as, b :: bs => if a ≠ b then (if a < b then -1 else 1) else bcdCmpMagnitude as bs
  | _, _ => 0

/-- Equal signs add, and unequal signs subtract the smaller magnitude. -/
def bcdAddSub (op1 op2 : BcdOperand) (op2SignFlip : Int) : Except Stop (BcdOperand × Bool) := do
  let s1 ← op1.decodeSign
  let s2 ← op2.decodeSign
  let effS2 := s2 * op2SignFlip
  let op1Dig := if op1.fieldLength = 0 then 0 else op1.byteAlignedNibbles - 1
  let op2Dig := if op2.fieldLength = 0 then 0 else op2.byteAlignedNibbles - 1
  let cap := max op1Dig op2Dig + 1
  let a ← op1.extractMagnitude cap
  let b ← op2.extractMagnitude cap
  let (magnitude, sign) :=
    if s1 = effS2 then ((bcdAddMagnitude a b).1, s1)
    else if 0 ≤ bcdCmpMagnitude a b then ((bcdSubMagnitude a b).1, s1)
    else ((bcdSubMagnitude b a).1, effS2)
  let resultSign := if magnitude.all (· = 0) then s1 else sign
  op1.packMagnitudeToField magnitude (op1.outSign resultSign)

/-- Both magnitudes are scaled to the larger decimal point. -/
def bcdCompare (op1 op2 : BcdOperand) : Except Stop Int := do
  let s1 ← op1.decodeSign
  let s2 ← op2.decodeSign
  let maxDp := max op1.decimalPoint op2.decimalPoint
  let width := 2 * (bcdMaxNibbles + 2)
  let a := (← op1.extractMagnitude (width - (maxDp - op1.decimalPoint))) ++
    List.replicate (maxDp - op1.decimalPoint) 0
  let b := (← op2.extractMagnitude (width - (maxDp - op2.decimalPoint))) ++
    List.replicate (maxDp - op2.decimalPoint) 0
  let s1 := if a.all (· = 0) then 0 else s1
  let s2 := if b.all (· = 0) then 0 else s2
  if s1 ≠ s2 then return if s1 < s2 then -1 else 1
  return if s1 < 0 then -bcdCmpMagnitude a b else bcdCmpMagnitude a b

/-- The rounding carry stops at the first digit that absorbs it. -/
def bcdRoundUp : List Nat → List Nat × Nat
  | [] => ([], 1)
  | digit :: digits =>
    let (rest, carry) := bcdRoundUp digits
    if carry = 0 then (digit :: rest, 0)
    else ((digit + carry) % 10 :: rest, (digit + carry) / 10)

/-- A positive count shifts right and may round, and a negative count appends zeros. -/
def bcdShiftDigits (digits : List Nat) (count : Int) (roundingOn : Bool) : List Nat :=
  if count = 0 then digits
  else if 0 < count then
    let keep := digits.length - count.toNat
    let kept := digits.take keep
    if roundingOn ∧ count ≤ digits.length ∧ 5 ≤ digits.getD keep 0 then
      let (rounded, carry) := bcdRoundUp kept
      if carry ≠ 0 then carry :: rounded else rounded
    else kept
  else digits ++ List.replicate (min (-count).toNat (2 * bcdMaxNibbles + 4 - digits.length)) 0

/-- An empty destination answers `none`. -/
def bcdShde (dst src : BcdOperand) : Except Stop (Option (BcdOperand × Bool)) := do
  if dst.fieldLength = 0 then return none
  let srcSign ← src.decodeSign
  let srcPad := src.byteAlignedNibbles - src.fieldLength
  let srcDigits := min (src.fieldLength - 1) (bcdMaxNibbles + 2)
  let digits ← (List.range srcDigits).mapM fun (i : Nat) => src.getNibble (srcPad + i : Nat)
  let work := bcdShiftDigits digits ((src.decimalPoint : Int) - dst.decimalPoint) dst.roundingOn
  let overflow := (work.take (work.length - (dst.fieldLength - 1))).any (· ≠ 0)
  let filled ← BcdOperand.fillNibbles work (dst.byteAlignedNibbles - 1) dst
  let signed ← filled.setNibble (dst.byteAlignedNibbles - 1) (dst.outSign srcSign)
  return some (signed, overflow)

/-- The sign byte and the first and the last digit byte of a sign format. -/
def bcdAsciiLayout (format : Nat) (len : Int) : Int × Int × Int :=
  if format = BcdAscii.embeddedTrailing then (len - 1, 0, len - 1)
  else if format = BcdAscii.separateTrailing then (len - 1, 0, len - 2)
  else if format = BcdAscii.embeddedLeading then (0, 0, len - 1)
  else if format = BcdAscii.separateLeading then (0, 1, len - 1)
  else (-1, 0, len - 1)

namespace BcdOperand

variable (op : BcdOperand)

def separateSign : Bool :=
  op.asciiFormat = BcdAscii.separateTrailing ∨ op.asciiFormat = BcdAscii.separateLeading

def embeddedSign : Bool :=
  op.asciiFormat = BcdAscii.embeddedTrailing ∨ op.asciiFormat = BcdAscii.embeddedLeading

end BcdOperand

/-- The digit buffer bounds the number of visited positions. -/
def bcdPositions (first last : Int) : List Int :=
  (List.range (min (last - first + 1).toNat bcdMaxNibbles)).map fun (i : Nat) => first + i

def packDigit (b : Nat) : Option Nat :=
  if b < 0x30 ∨ 0x39 < b then none else some (b &&& 0x0F)

/-- An overpunched byte holds a digit and the sign. -/
def packOverpunch (b : Nat) : Option (Nat × Int) :=
  if b = 0x7B then some (0, 1)
  else if b = 0x7D then some (0, -1)
  else if 0x41 ≤ b ∧ b ≤ 0x49 then some (b - 0x40, 1)
  else if 0x4A ≤ b ∧ b ≤ 0x52 then some (b - 0x49, -1)
  else if 0x30 ≤ b ∧ b ≤ 0x39 then some (b &&& 0x0F, 1)
  else none

/-- The result `none` is an illegal code. -/
def packDigits (src : BcdOperand) (signByte : Int) :
    List Int → Int → Except Stop (Option (List Nat × Int))
  | [], sign => .ok (some ([], sign))
  | i :: rest, sign => do
      let b ← src.getByte i
      let decoded :=
        if i = signByte ∧ src.embeddedSign then packOverpunch b
        else (packDigit b).map fun digit => (digit, sign)
      match decoded with
      | none => return none
      | some (digit, sign) =>
        return (← packDigits src signByte rest sign).map fun tail => (digit :: tail.1, tail.2)

def packSeparateSign (src : BcdOperand) (signByte : Int) : Except Stop (Option Int) := do
  if src.separateSign then
    let b ← src.getByte signByte
    return if b = 0x2B then some 1 else if b = 0x2D then some (-1) else none
  else return some 1

/-- The field is stored unless the source is illegal. -/
inductive BcdConversion where
  | illegal
  | stored (field : BcdOperand) (overflow : Bool)

def bcdConvertToPacked (dst src : BcdOperand) : Except Stop BcdConversion := do
  let (signByte, first, last) := bcdAsciiLayout src.asciiFormat src.fieldLength
  match ← packSeparateSign src signByte with
  | none => return .illegal
  | some sign =>
    match ← packDigits src signByte (bcdPositions first last) sign with
    | none => return .illegal
    | some (digits, sign) =>
      let (field, overflow) ← dst.packMagnitudeToField digits (dst.outSign sign)
      return .stored field overflow

/-- The byte of one digit, overpunched at the sign byte of an embedded format. -/
def unpackedDigitByte (dst : BcdOperand) (pos signByte : Int) (unsignedReq : Bool)
    (sign : Int) (digit : Nat) : Nat :=
  if pos = signByte ∧ ¬ unsignedReq ∧ dst.embeddedSign then
    if sign < 0 then (if digit = 0 then 0x7D else 0x49 + digit)
    else (if digit = 0 then 0x7B else 0x40 + digit)
  else 0x30 ||| digit

/-- The sign and whether it is the unsigned code. -/
def unpackSign (nibble : Nat) : Option (Int × Bool) :=
  if nibble = 0x0A ∨ nibble = 0x0C ∨ nibble = 0x0E then some (1, false)
  else if nibble = 0x0B ∨ nibble = 0x0D then some (-1, false)
  else if nibble = 0x0F then some (1, true)
  else none

def unpackDigits (src : BcdOperand) : List Int → Except Stop (Option (List Nat))
  | [] => .ok (some [])
  | i :: rest => do
      let nibble ← src.getNibble i
      if 9 < nibble then return none
      return (← unpackDigits src rest).map fun tail => nibble :: tail

/-- An empty source is a plus zero without digits. -/
def unpackSource (src : BcdOperand) : Except Stop (Option (List Nat × Int × Bool)) := do
  let m := src.byteAlignedNibbles
  if m = 0 then return some ([], 1, false)
  match unpackSign (← src.getNibble (m - 1)) with
  | none => return none
  | some sign =>
    return (← unpackDigits src (bcdPositions (m - src.fieldLength) (m - 2))).map
      fun digits => (digits, sign)

/-- The digit bytes are filled from the last one. -/
def fillBytes (byteAt : Int → Nat → Nat) (digits : List Nat) (last : Int) :
    List Nat → BcdOperand → Except Stop BcdOperand
  | [], dst => .ok dst
  | slot :: rest, dst => do
      let pos := last - slot
      fillBytes byteAt digits last rest
        (← dst.setByte pos (byteAt pos (digits.reverse.getD slot 0)))

def separateSignByte (unsignedReq : Bool) (sign : Int) : Nat :=
  if unsignedReq then 0x30 else if sign < 0 then 0x2D else 0x2B

def placeSign (signByte : Int) (unsignedReq : Bool) (sign : Int) (dst : BcdOperand) :
    Except Stop BcdOperand :=
  if 0 ≤ signByte ∧ dst.separateSign then
    dst.setByte signByte (separateSignByte unsignedReq sign)
  else .ok dst

/-- The digit bytes are written before the separate sign byte. -/
def unpackInto (dst : BcdOperand) (digits : List Nat) (sign : Int) (unsignedReq : Bool) :
    Except Stop BcdConversion := do
  let (signByte, first, last) := bcdAsciiLayout dst.asciiFormat dst.fieldLength
  let filled ← fillBytes (fun pos => unpackedDigitByte dst pos signByte unsignedReq sign)
    digits last (List.range (last - first + 1).toNat) dst
  let signed ← placeSign signByte unsignedReq sign filled
  return .stored signed (last - first + 1 < digits.length)

def bcdConvertToUnpacked (dst src : BcdOperand) : Except Stop BcdConversion := do
  match ← unpackSource src with
  | none => return .illegal
  | some (digits, sign, unsignedSrc) =>
    unpackInto dst digits sign (unsignedSrc || dst.unsignedRequested)

open Instr

/-- The words are read from the last to the first. -/
def bcdLoadWords (addr : Word) :
    List (Fin bcdMaxWords) → (Fin bcdMaxWords → Word) → Instr (Fin bcdMaxWords → Word)
  | [], words => pure words
  | i :: rest, words => do
      let value ← memRead (addr + BitVec.ofNat 16 i) true
      bcdLoadWords addr rest (Function.update words i value)

/-- A decimal point outside the field is refused. -/
def bcdGetOperand (d1 d2 : Word) (isAscii : Bool) : Instr (Option BcdOperand) := do
  let op : BcdOperand := ⟨d1, d2, isAscii, fun _ => 0⟩
  if op.fieldLength ≤ op.decimalPoint ∧ op.decimalPoint ≠ 0 then return none
  let words ← bcdLoadWords d1 ((List.finRange bcdMaxWords).take op.memWords).reverse op.words
  return some { op with words := words }

def bcdStoreWords (op : BcdOperand) : List (Fin bcdMaxWords) → Instr Unit
  | [] => pure ()
  | i :: rest => do
      memWrite (op.addr + BitVec.ofNat 16 i) (op.words i) true .word
      bcdStoreWords op rest

def bcdStoreOperand (op : BcdOperand) : Instr Unit :=
  bcdStoreWords op ((List.finRange bcdMaxWords).take op.memWords)

def skipReturn : Instr Unit := do
  setReg GenReg.p ((← getReg RegNum.p) + 1)

/-- An illegal code also sets bit 15 of both pointers. -/
def bcdReportError (error : BcdError) : Instr Unit := do
  setReg GenReg.d (((← getReg RegNum.d) &&& ~~~(0x1F : Word)) ||| (error.code &&& 0x1F))
  if error = .illegalCode then
    setReg GenReg.a ((← getReg RegNum.a) ||| 0x8000)
    setReg GenReg.d ((← getReg RegNum.d) ||| 0x8000)

/-- The first operand is addressed by A and D. -/
def firstOperand (isAscii : Bool) : Instr (Option BcdOperand) := do
  bcdGetOperand (← getReg RegNum.a) (← getReg RegNum.d) isAscii

def secondOperand (isAscii : Bool) : Instr (Option BcdOperand) := do
  bcdGetOperand (← getReg RegNum.x) (← getReg RegNum.t) isAscii

/-- The sum is stored also where it overflows. -/
def opcodeAddSub (op2SignFlip : Int) : Instr Unit := do
  let some op1 ← firstOperand false | return
  let some op2 ← secondOperand false | return
  let (result, overflow) ← lift (bcdAddSub op1 op2 op2SignFlip)
  bcdStoreOperand result
  if !overflow then skipReturn

def opcodeAdddAddTwoDecimalOperands : Instr Unit := opcodeAddSub 1

def opcodeSubdSubtractTwoDecimalOperands : Instr Unit := opcodeAddSub (-1)

def opcodeComdCompareTwoDecimalOperands : Instr Unit := do
  let some op2 ← secondOperand false | return
  let some op1 ← firstOperand false | return
  let cmp ← lift (bcdCompare op1 op2)
  setReg GenReg.a (if 0 < cmp then 1 else if cmp < 0 then 0xFFFF else 0)
  skipReturn

def opcodeShdeDecimalShift : Instr Unit := do
  let some op2 ← secondOperand false | return
  let some op1 ← firstOperand false | return
  match ← lift (bcdShde op2 op1) with
  | none => return
  | some (result, overflow) =>
    bcdStoreOperand result
    if !overflow then skipReturn

/-- The register reports follow the store. -/
def finishConversion : BcdConversion → Instr Unit
  | .illegal => bcdReportError .illegalCode
  | .stored field overflow => do
      bcdStoreOperand field
      if overflow then bcdReportError .overflow else skipReturn

def opcodePackConvertToDecimal : Instr Unit := do
  let some op2 ← secondOperand false | return
  let some op1 ← firstOperand true | return
  finishConversion (← lift (bcdConvertToPacked op2 op1))

/-- A refused descriptor is reported as an illegal code. -/
def opcodeUnpackConvertFromDecimal : Instr Unit := do
  let some op1 ← firstOperand false | bcdReportError .illegalCode
  let some op2 ← secondOperand true | bcdReportError .illegalCode
  if op2.fieldLength = 0 then return
  finishConversion (← lift (bcdConvertToUnpacked op2 op1))

end Nd100x
