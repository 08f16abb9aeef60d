import Mathlib.Logic.Function.Iterate
import Nd100x.Machine.Instr

namespace Nd100x

open Instr

/-- The count field is negative for a shift to the right. -/
def shiftIsneg (instr : Word) : Bool := instr.getLsbD 5

/-- A right shift takes the two's complement of the field, from 1 to 32. -/
def shiftOffset (instr : Word) : Nat :=
  if shiftIsneg instr then ((~~~((instr &&& 0x003F) ||| 0xFFC0) + 1) &&& 0x3F).toNat
  else (instr &&& 0x003F).toNat

def shiftType (instr : Word) : BitVec 2 := (instr >>> 9).setWidth 2

section Loop

variable {width : Nat} (isneg : Bool) (shifttype : BitVec 2) (m : Bool)

/-- The bit at the end to which the register moves. -/
def shiftedOut (reg : BitVec width) : Bool :=
  if isneg then reg.getLsbD 0 else reg.getLsbD (width - 1)

/-- Plain shifts keep the sign, `ROT` takes the bit shifted out, and `LIN` the link. -/
def shiftedIn (reg : BitVec width) : Bool :=
  match shifttype.toNat with
  | 0 => isneg && reg.getLsbD (width - 1)
  | 1 => shiftedOut isneg reg
  | 2 => false
  | _ => m

/-- The register moves by one place, and the free place is filled. -/
def shiftPlace (reg : BitVec width) : BitVec width :=
  let fill := (BitVec.ofBool (shiftedIn isneg shifttype m reg)).setWidth width
  if isneg then ((reg >>> 1) &&& (BitVec.allOnes width >>> 1)) ||| (fill <<< (width - 1))
  else ((reg <<< 1) &&& (BitVec.allOnes width <<< 1)) ||| fill

/-- One round of the loop also keeps the bit shifted out. -/
def shiftRound (state : BitVec width × Bool) : BitVec width × Bool :=
  (shiftPlace isneg shifttype m state.1, shiftedOut isneg state.1)

end Loop

/-- The two shift functions of the source differ in the width of the register. -/
def shiftAny {width : Nat} (reg : BitVec width) (instr : Word) : Instr (BitVec width) := do
  let m ← getBit Indicator.shiftOut
  let last := (shiftRound (shiftIsneg instr) (shiftType instr) m)^[shiftOffset instr] (reg, m)
  setBit Indicator.shiftOut last.2
  pure last.1

def shiftReg (reg instr : Word) : Instr Word := shiftAny reg instr

def shiftDoubleReg (reg : BitVec 32) (instr : Word) : Instr (BitVec 32) := shiftAny reg instr

def opcodeShiftGroup (operand : Word) : Instr Unit := do
  match ((operand >>> 7) &&& 3).toNat with
  | 0 => do setReg GenReg.t (← shiftReg (← getReg RegNum.t) operand)
  | 1 => do setReg GenReg.d (← shiftReg (← getReg RegNum.d) operand)
  | 2 => do setReg GenReg.a (← shiftReg (← getReg RegNum.a) operand)
  | _ => do
      let a ← getReg RegNum.a
      let d ← getReg RegNum.d
      let doubleReg ← shiftDoubleReg ((a.setWidth 32 <<< 16) ||| d.setWidth 32) operand
      setReg GenReg.a ((doubleReg >>> 16).setWidth 16)
      setReg GenReg.d (doubleReg.setWidth 16)

/-- The source field of an inter-register instruction is bits 3 to 5. -/
def sourceField (instr : Word) : RegNum := ((instr &&& 0x0038) >>> 3).setWidth 4

/-- The destination field is bits 0 to 2. -/
def destField (instr : Word) : RegNum := (instr &&& 0x0007).setWidth 4

/-- A field of zero selects the operand zero, not the status register. -/
def registerOperand (field : RegNum) : Instr Word := if field ≠ 0 then getReg field else pure 0

/-- A negated low word leaves its carry and its overflow, and static overflow is sticky. -/
def setNegationFlags (lowWord : Word) : Instr Unit := do
  let overflow := lowWord == 0x8000
  setBit Indicator.carry (lowWord == 0)
  setBit Indicator.dynamicOverflow overflow
  if overflow then setBit Indicator.staticOverflow true

/-- The loop of the microcode divides the magnitudes. A quotient of -32768 is valid. -/
def rdivLoop (dividendNegative divisorNegative : Bool) (dividendMag : BitVec 32) (divisorMag : Word) :
    Instr Unit := do
  let quotientMag := dividendMag / divisorMag.setWidth 32
  let remainderMag := dividendMag % divisorMag.setWidth 32
  let quotientNegative := dividendNegative ^^ divisorNegative
  setReg GenReg.a ((if quotientNegative then 0 - quotientMag else quotientMag).setWidth 16)
  setReg GenReg.d ((if dividendNegative then 0 - remainderMag else remainderMag).setWidth 16)
  if (if quotientNegative then 0x8000 < quotientMag else 0x7FFF < quotientMag) then
    setBit Indicator.errorIndicator true

/-- The overflow test on the high word comes before the division. -/
def rdivMagnitudes (dividendNegative divisorNegative : Bool) (dividendMag : BitVec 32)
    (divisorMag : Word) : Instr Unit := do
  let dividendMagHigh : Word := (dividendMag >>> 16).setWidth 16
  if divisorMag = 0 ∨ divisorMag ≤ dividendMagHigh then
    setReg GenReg.a (dividendMagHigh - divisorMag)
    setReg GenReg.d (dividendMag.setWidth 16)
    setBit Indicator.errorIndicator true
  else rdivLoop dividendNegative divisorNegative dividendMag divisorMag

def rdiv (instr : Word) : Instr Unit := do
  let a ← getReg RegNum.a
  let d ← getReg RegNum.d
  let dividend : BitVec 32 := (a.setWidth 32 <<< 16) ||| d.setWidth 32
  let divisor ← registerOperand (sourceField instr)
  let dividendNegative := dividend.slt 0
  let divisorNegative := divisor.slt 0
  if dividendNegative then setNegationFlags d
  let dividendMag := if dividendNegative then 0 - dividend else dividend
  let divisorMag : Word :=
    (if divisorNegative then 0 - divisor.signExtend 32 else divisor.signExtend 32).setWidth 16
  rdivMagnitudes dividendNegative divisorNegative dividendMag divisorMag

/-- The magnitudes are multiplied, and operands of different signs negate the product. -/
def rmpy (instr : Word) : Instr Unit := do
  let sourceValue ← registerOperand (sourceField instr)
  let destValue ← registerOperand (destField instr)
  let sourceNegative := sourceValue.slt 0
  let destNegative := destValue.slt 0
  let absSrc := if sourceNegative then -sourceValue.signExtend 32 else sourceValue.signExtend 32
  let absDst := if destNegative then -destValue.signExtend 32 else destValue.signExtend 32
  let minusCnt := sourceNegative.toNat + destNegative.toNat
  let magnitude := absSrc * absDst
  if minusCnt = 1 then setNegationFlags (magnitude.setWidth 16)
  let result := if minusCnt = 1 then -magnitude else magnitude
  setReg GenReg.a ((result.sshiftRight 16).setWidth 16)
  setReg GenReg.d (result.setWidth 16)

/-- A negative byte fills the high byte with ones. -/
def cpuSignExtend (x : Word) : Word := if x.getLsbD 7 then x ||| 0xFF00 else x

/-- Operands of one sign overflow where the sum has the other sign. -/
def setSumOverflow (overflow : Bool) : Instr Unit := do
  if overflow then
    setBit Indicator.staticOverflow true
    setBit Indicator.dynamicOverflow true
  else setBit Indicator.dynamicOverflow false

def doAdd (a b : Word) (k : Bool) : Instr Word := do
  let tmp : BitVec 32 := a.setWidth 32 + b.setWidth 32 + (BitVec.ofBool k).setWidth 32
  setBit Indicator.carry (tmp >>> 16 != 0)
  let isDiff := a.getLsbD 15 != b.getLsbD 15
  setSumOverflow (!isDiff && a.getLsbD 15 != tmp.getLsbD 15)
  pure (tmp.setWidth 16)

/-- The word at the effective address. -/
def readEffective (operand : Word) : Instr Word := do
  let address ← cpuGetEffectiveAddr operand
  memRead address (← getSystem).useApt

def opcodeAddAddToARegister (operand : Word) : Instr Unit := do
  let effWord ← readEffective operand
  let sum ← doAdd (← getReg RegNum.a) effWord false
  setReg GenReg.a sum

def opcodeSubSubtractFromARegister (operand : Word) : Instr Unit := do
  let effWord ← readEffective operand
  let sum ← doAdd (← getReg RegNum.a) (~~~effWord) true
  setReg GenReg.a sum

/-- The four argument instructions add the sign-extended low byte to one register. -/
def addArgument (r : GenReg) (operand : Word) : Instr Unit := do
  let temp := cpuSignExtend (operand &&& 0xFF)
  let sum ← doAdd (← getReg r.num) temp false
  setReg r sum

def opcodeAabAddArgumentToB (operand : Word) : Instr Unit := addArgument GenReg.b operand

def opcodeAaaAddArgumentToA (operand : Word) : Instr Unit := addArgument GenReg.a operand

def opcodeAatAddArgumentToT (operand : Word) : Instr Unit := addArgument GenReg.t operand

def opcodeAaxAddArgumentToX (operand : Word) : Instr Unit := addArgument GenReg.x operand

/-- A write to register zero is discarded. -/
def setField (field : RegNum) (value : Word) : Instr Unit :=
  if general : field ≠ RegNum.sts then setReg ⟨field, general⟩ value else pure ()

def regopLogical (operand : Word) (sr dr : RegNum) (source destination : Word) : Instr Unit := do
  let chosen := if operand.getLsbD 7 then ~~~source else source
  match ((operand >>> 8) &&& 3).toNat with
  | 0 => do
      let oldDr ← registerOperand dr
      let newSr := if operand.getLsbD 6 then 0 else oldDr
      setField dr chosen
      setField sr newSr
  | 1 => setField dr (destination &&& chosen)
  -- The complement of `REXO` is joined and not exchanged.
  | 2 => setField dr (if operand.getLsbD 7 then destination ||| ~~~source else destination ^^^ source)
  | _ => setField dr (destination ||| chosen)

/-- The sum is computed and flagged for every destination field. -/
def regopArith (operand : Word) (dr : RegNum) (source destination : Word) : Instr Unit := do
  let kept ← registerOperand dr
  let carry ← getBit Indicator.carry
  let tmp ← match ((operand >>> 7) &&& 7).toNat with
    | 0 => doAdd destination source false
    | 1 => doAdd destination (~~~source) false
    | 2 => doAdd destination source true
    | 3 => doAdd destination (~~~source) true
    | 4 => doAdd destination source carry
    | 5 => doAdd destination (~~~source) carry
    | _ => pure kept
  setField dr tmp

def regop (operand : Word) : Instr Unit := do
  let source ← registerOperand (sourceField operand)
  let held ← registerOperand (destField operand)
  let destination := if operand.getLsbD 6 then 0 else held
  if operand.getLsbD 10 then regopArith operand (destField operand) source destination
  else regopLogical operand (sourceField operand) (destField operand) source destination

/-- A product whose absolute value exceeds 32767 sets both overflow indicators. -/
def mpy (operand : Word) : Instr Unit := do
  let a ← getReg RegNum.a
  let mem ← readEffective operand
  setBit Indicator.dynamicOverflow false
  let result : BitVec 32 := a.signExtend 32 * mem.signExtend 32
  if 32767 < (result.toInt.natAbs : Int) then
    setBit Indicator.dynamicOverflow true
    setBit Indicator.staticOverflow true
  setReg GenReg.a (result.setWidth 16)

end Nd100x
