import Nd100x.Machine.State

namespace Nd100x

/-- The sign, the exponent and the mantissa of a number. No product of two mantissas exceeds
64 bits. -/
structure Fp where
  s : Bool
  e : Int
  m : Nat
  deriving DecidableEq, Repr

namespace Fp48

def zero : Fp48 := ⟨0, 0, 0⟩

end Fp48

namespace Fp32

def zero : Fp32 := ⟨0, 0⟩

end Fp32

/-- The exponent field of the T word has the bias 16384. -/
def mkfp48 (w : Fp48) : Fp where
  s := w.t.getLsbD 15
  e := ((w.t &&& 0x7FFF).toNat : Int) - 16384
  m := (w.a.toNat <<< 16) + w.d.toNat

/-- The exponent is not limited to its fifteen bits before the sign is added. -/
def pack48 (f : Fp) : Fp48 where
  t := BitVec.ofInt 16 (f.e + 16384) ||| (if f.s then 0x8000 else 0)
  a := BitVec.ofNat 16 (f.m >>> 16)
  d := BitVec.ofNat 16 f.m

/-- The larger exponent comes first. -/
def byExponent (f1 f2 : Fp) : Fp × Fp := if f1.e < f2.e then (f2, f1) else (f1, f2)

/-- A bit that the alignment shifts out is kept in the last place. -/
def guardBit (scale m : Nat) : Nat := if scale ≠ 0 ∧ ((1 <<< scale) - 1) &&& m ≠ 0 then 1 else 0

/-- A carry out of bit 31 moves the sum down by one place. -/
def carryDown (s : Bool) (e : Int) (m3 : Nat) : Fp :=
  if 0xffffffff < m3 then ⟨s, e + 1, m3 >>> 1⟩ else ⟨s, e, m3⟩

/-- The sum of two mantissas of one sign. -/
def addOrdered (f1 f2 : Fp) : Fp :=
  let scale := (f1.e - f2.e).toNat
  if 31 < scale then f1
  else carryDown f1.s f1.e ((f1.m + f2.m >>> scale) ||| guardBit scale f2.m)

def addCore (f1 f2 : Fp) : Fp := addOrdered (byExponent f1 f2).1 (byExponent f1 f2).2

/-- The mantissa moves up until bit 31 is set. A nonzero mantissa needs 31 places at most. -/
def normalizeUp : Nat → Int → Nat → Int × Nat
  | 0, e, m => (e, m)
  | fuel + 1, e, m => if m.testBit 31 then (e, m) else normalizeUp fuel (e - 1) (m <<< 1)

/-- The larger mantissa comes first. -/
def byMantissa (f1 f2 : Fp) : Fp × Fp := if f1.m < f2.m then (f2, f1) else (f1, f2)

/-- The difference of two mantissas of different signs, where `none` is a zero. -/
def subOrdered (f1 f2 : Fp) : Option Fp :=
  let scale := (f1.e - f2.e).toNat
  if 31 < scale then some f1
  else
    let aligned := byMantissa f1 ⟨f2.s, f1.e, f2.m >>> scale⟩
    let m3 := (aligned.1.m - aligned.2.m) ||| guardBit scale f2.m
    if m3 = 0 then none
    else
      let normal := normalizeUp 32 aligned.1.e m3
      some ⟨aligned.1.s, normal.1, normal.2⟩

def subCore (f1 f2 : Fp) : Option Fp := subOrdered (byExponent f1 f2).1 (byExponent f1 f2).2

def add48 (f1 f2 : Fp) : Fp48 := pack48 (addCore f1 f2)

def sub48 (f1 f2 : Fp) : Fp48 :=
  match subCore f1 f2 with
  | none => Fp48.zero
  | some f => pack48 f

def floatAdd (a b : Fp48) : Fp48 :=
  let f1 := mkfp48 a
  let f2 := mkfp48 b
  if f1.s != f2.s then sub48 f1 f2 else add48 f1 f2

/-- The sign of the second operand is swapped. -/
def floatSub (a b : Fp48) : Fp48 :=
  let f1 := mkfp48 a
  let f2 := { mkfp48 b with s := !(mkfp48 b).s }
  if f1.s != f2.s then sub48 f1 f2 else add48 f1 f2

/-- The product of two normalized mantissas has its first bit at 62 or 63. -/
def normalizeProduct (product : Nat) (e : Int) : Int × Nat :=
  if product.testBit 63 then (e, product) else (e - 1, product <<< 1)

def floatMul (a b : Fp48) : Fp48 :=
  let f1 := mkfp48 a
  let f2 := mkfp48 b
  let normal := normalizeProduct (f1.m * f2.m) (f1.e + f2.e)
  if normal.2 = 0 ∨ normal.1 < -16383 then Fp48.zero
  else pack48 ⟨f1.s != f2.s, normal.1, normal.2 >>> 32⟩

/-- A remainder counts as one in the last place. -/
def ceilQuotient (dividend divisor : Nat) : Nat :=
  if dividend % divisor ≠ 0 then dividend / divisor + 1 else dividend / divisor

/-- A quotient of one and more moves down by one place. -/
def normalizeQuotient (quotient : Nat) (e : Int) : Int × Nat :=
  if 0x100000000 ≤ quotient then (e + 1, quotient >>> 1) else (e, quotient)

/-- The Boolean reports a division by zero. -/
def floatDiv (a b : Fp48) : Fp48 × Bool :=
  let f1 := mkfp48 b
  let f2 := mkfp48 a
  let dividend := f2.m <<< 32
  if f1.m = 0 then (⟨a.t ||| 0x7FFF, 0xFFFF, 0xFFFF⟩, true)
  else
    let normal := normalizeQuotient (ceilQuotient dividend f1.m) (f2.e - f1.e)
    if dividend = 0 ∨ normal.1 < -16383 then (Fp48.zero, false)
    else (pack48 ⟨f1.s != f2.s, normal.1, normal.2⟩, false)

/-- An integer moves up until bit 15 is set. -/
def normalizeWord : Nat → Int → Nat → Int × Nat
  | 0, sh, val => (sh, val)
  | fuel + 1, sh, val =>
    if val.testBit 15 then (sh, val) else normalizeWord fuel (sh - 1) (val <<< 1)

/-- The magnitude of the integer in A, its sign and its exponent with the bias 16384. -/
def nlzParts (scaling : BitVec 8) (a : Word) : Bool × Int × Nat :=
  let val := a.toInt.natAbs
  let sh := 16384 + scaling.toInt
  let (sh, val) := if 32767 < val then (sh + 1, val >>> 1) else (sh, val)
  let (sh, val) := normalizeWord 16 sh val
  (a.slt 0, sh, val)

def floatDoNlz (scaling : BitVec 8) (acc : Fp48) : Fp48 :=
  if acc.a = 0 then ⟨0, 0, 0⟩
  else
    let (s, sh, val) := nlzParts scaling acc.a
    ⟨BitVec.ofInt 16 (sh + if s then 0x8000 else 0), BitVec.ofNat 16 val, 0⟩

section Dnz

/- C leaves the shift of an `int` by 32 places and more undefined. -/
variable (undefinedShl : BitVec 32 → Nat → BitVec 32)

def shlInt (val : BitVec 32) (count : Nat) : BitVec 32 :=
  if count < 32 then val <<< count else undefinedShl val count

/-- The Boolean tells that the error indicator is set. A shift count of zero leaves the value zero. -/
def floatDoDnz (scaling : BitVec 8) (acc : Fp48) : Fp48 × Bool :=
  let sh : Int := ((acc.t &&& 0x7FFF).toNat : Int) - 16384 + scaling.toInt
  let (val, z) : BitVec 32 × Bool :=
    if sh < 0 then (if 32 ≤ -sh then 0 else (acc.a.setWidth 32) >>> (-sh).toNat, false)
    else if 0 < sh then
      let val := shlInt undefinedShl (acc.a.setWidth 32) sh.toNat
      (val, 32767 < val.toInt)
    else (0, false)
  let val := if acc.t &&& 0x8000 ≠ 0 then -val else val
  (⟨0, val.setWidth 16, 0⟩, z)

end Dnz

/- The 32-bit unit keeps 23 bits of the mantissa, whose first bit is not stored. -/

def fp32Bias : Int := 257

def mant23 (w : Fp32) : Nat := (1 <<< 22) ||| ((w.a &&& 0x3F).toNat <<< 16) ||| w.d.toNat

def mkfp32 (w : Fp32) : Fp :=
  if w.a = 0 ∧ w.d = 0 then ⟨false, 0, 0⟩
  else ⟨w.a.getLsbD 15, (((w.a >>> 6) &&& 0x1FF).toNat : Int) - fp32Bias, mant23 w <<< 9⟩

/-- The mantissa moves down until it has 32 bits. -/
def normalizeDown : Nat → Int → Nat → Int × Nat
  | 0, e, m => (e, m)
  | fuel + 1, e, m => if 0xFFFFFFFF < m then normalizeDown fuel (e + 1) (m >>> 1) else (e, m)

/-- An exponent below the field gives zero, and one above it is limited. -/
def packField (s : Bool) (eb : Int) (mant23 : Nat) : Fp32 :=
  if eb ≤ 0 then Fp32.zero
  else
    let field := if 0x1FF < eb then 0x1FF else eb.toNat
    ⟨(if s then (0x8000 : Word) else 0) ||| (BitVec.ofNat 16 (field &&& 0x1FF) <<< 6) |||
      (BitVec.ofNat 16 (mant23 >>> 16) &&& 0x3F), BitVec.ofNat 16 (mant23 &&& 0xFFFF)⟩

def pack32 (f : Fp) : Fp32 :=
  if f.m = 0 then Fp32.zero
  else
    let down := normalizeDown 40 f.e f.m
    let up := normalizeUp 40 down.1 down.2
    packField f.s (up.1 + fp32Bias) (up.2 >>> 9)

/-- The sum or the difference of two numbers, after their zeros are handled. -/
def sum32 (f1 f2 : Fp) : Fp32 :=
  if f1.s != f2.s then
    match subCore f1 f2 with
    | none => Fp32.zero
    | some f => pack32 f
  else pack32 (addCore f1 f2)

def floatAdd32 (a b : Fp32) : Fp32 :=
  let f1 := mkfp32 a
  let f2 := mkfp32 b
  if f1.m = 0 then b else if f2.m = 0 then a else sum32 f1 f2

def floatSub32 (a b : Fp32) : Fp32 :=
  let f1 := mkfp32 a
  let f2 := mkfp32 b
  if f2.m = 0 then a
  else if f1.m = 0 then ⟨b.a ^^^ 0x8000, b.d⟩
  else sum32 f1 { f2 with s := !f2.s }

/-- The exponent of the product is compensated for the first bit of the mantissas. -/
def floatMul32 (a b : Fp32) : Fp32 :=
  let f1 := mkfp32 a
  let f2 := mkfp32 b
  if f1.m = 0 ∨ f2.m = 0 then Fp32.zero
  else
    let normal := normalizeProduct (f1.m * f2.m) (f1.e + f2.e + 1)
    pack32 ⟨f1.s != f2.s, normal.1, normal.2 >>> 32⟩

/-- The Boolean reports a division by zero. -/
def floatDiv32 (a b : Fp32) : Fp32 × Bool :=
  let f1 := mkfp32 b
  let f2 := mkfp32 a
  if f1.m = 0 then (⟨(a.a &&& 0x8000) ||| 0x7FFF, 0xFFFF⟩, true)
  else if f2.m = 0 then (Fp32.zero, false)
  else
    let normal := normalizeQuotient (ceilQuotient (f2.m <<< 32) f1.m) (f2.e - f1.e - 1)
    (pack32 ⟨f1.s != f2.s, normal.1, normal.2⟩, false)

/-- The T register is not written, which tells the 32-bit unit from the 48-bit one. -/
def floatDoNlz32 (scaling : BitVec 8) (acc : Fp32) : Fp32 :=
  if acc.a = 0 then ⟨acc.a, 0⟩
  else
    let (s, sh, val) := nlzParts scaling acc.a
    pack32 ⟨s, sh - 16384 - 1, val <<< 16⟩

/-- The Boolean tells that the error indicator is set. -/
def floatDoDnz32 (scaling : BitVec 8) (acc : Fp32) : Fp32 × Bool :=
  if acc.a = 0 ∧ acc.d = 0 then (⟨acc.a, 0⟩, false)
  else
    let e := (((acc.a >>> 6) &&& 0x1FF).toNat : Int) - fp32Bias
    let shift := 6 - e - scaling.toInt
    let val : Nat :=
      if 0 ≤ shift then if 32 ≤ shift then 0 else mant23 acc >>> shift.toNat
      else if 41 ≤ -shift then 0x7FFFFFFF else mant23 acc <<< (-shift).toNat
    (⟨BitVec.ofInt 16 (if acc.a.getLsbD 15 then -(val : Int) else val), 0⟩, 32767 < val)

/-- The floating point units of the machine. -/
def floatUnits (undefinedShl : BitVec 32 → Nat → BitVec 32) : Fpu where
  floatAdd := floatAdd
  floatSub := floatSub
  floatMul := floatMul
  floatDiv := floatDiv
  floatDoNlz := floatDoNlz
  floatDoDnz := floatDoDnz undefinedShl
  floatAdd32 := floatAdd32
  floatSub32 := floatSub32
  floatMul32 := floatMul32
  floatDiv32 := floatDiv32
  floatDoNlz32 := floatDoNlz32
  floatDoDnz32 := floatDoDnz32

end Nd100x
