import Nd100x.Machine.Instr
import Nd100x.Machine.Decimal

namespace Nd100x

open Instr

/-- The modes with an end in the physical memory. -/
def movewPhysicalSource (displacement : Nat) : Bool := displacement = 6 ∨ displacement = 7 ∨ displacement = 8
def movewPhysicalDestination (displacement : Nat) : Bool := displacement = 2 ∨ displacement = 5 ∨ displacement = 8

/-- A physical address has 24 bits. -/
def movewAddress (isPhysical : Bool) (high low : Word) : Nat :=
  if isPhysical then (low.toNat ||| high.toNat <<< 16) &&& 0xFFFFFF else low.toNat

/-- The modes from 9 on move nothing. -/
def movewWord (displacement source dest : Nat) : Instr Unit :=
  match displacement with
  | 0 => do memWrite (BitVec.ofNat 16 dest) (← memRead (BitVec.ofNat 16 source) false) false .word
  | 1 => do memWrite (BitVec.ofNat 16 dest) (← memRead (BitVec.ofNat 16 source) false) true .word
  | 2 => do physWrite dest (← memRead (BitVec.ofNat 16 source) false)
  | 3 => do memWrite (BitVec.ofNat 16 dest) (← memRead (BitVec.ofNat 16 source) true) false .word
  | 4 => do memWrite (BitVec.ofNat 16 dest) (← memRead (BitVec.ofNat 16 source) true) true .word
  | 5 => do physWrite dest (← memRead (BitVec.ofNat 16 source) true)
  | 6 => do memWrite (BitVec.ofNat 16 dest) (← physRead source) false .word
  | 7 => do memWrite (BitVec.ofNat 16 dest) (← physRead source) true .word
  | 8 => do physWrite dest (← physRead source)
  | _ => pure ()

/-- The loop leaves the addresses after the last word. -/
def movewWords (displacement : Nat) : Nat → Nat → Nat → Instr (Nat × Nat)
  | 0, source, dest => pure (source, dest)
  | cnt + 1, source, dest => do
      movewWord displacement source dest
      movewWords displacement cnt (source + 1) (dest + 1)

/-- The high word of a physical address goes back to its register. -/
def endMovew (displacement source dest : Nat) : Instr Unit := do
  setReg GenReg.l 0
  setReg GenReg.d (BitVec.ofNat 16 source)
  if movewPhysicalSource displacement then setReg GenReg.a (BitVec.ofNat 16 (source >>> 16))
  setReg GenReg.t (BitVec.ofNat 16 dest)
  if movewPhysicalDestination displacement then setReg GenReg.x (BitVec.ofNat 16 (dest >>> 16))

/-- The count is not limited. -/
def doMovew (instr : Word) : Instr Unit := do
  let displacement := (instr &&& 0x00F).toNat
  let source := movewAddress (movewPhysicalSource displacement) (← getReg RegNum.a) (← getReg RegNum.d)
  let dest := movewAddress (movewPhysicalDestination displacement) (← getReg RegNum.x) (← getReg RegNum.t)
  let cnt ← getReg RegNum.l
  let allowed ← if movewPhysicalSource displacement || movewPhysicalDestination displacement then Instr.checkPriv
    else pure true
  if !allowed then return
  let (source, dest) ← movewWords displacement cnt.toNat source dest
  endMovew displacement source dest

/-- The two fields of a byte move. The number of bytes is the smaller length. -/
structure ByteMove where
  source : Word
  dest : Word
  lens : Word
  lend : Word
  sLr : Nat
  dLr : Nat
  sApt : Bool
  dApt : Bool

namespace ByteMove

/-- A and D describe the source, and X and T describe the destination. -/
def ofRegisters (a d x t : Word) : ByteMove where
  source := a
  dest := x
  lens := d &&& 0x0FFF
  lend := t &&& 0x0FFF
  sLr := (d.getLsbD 15).toNat
  dLr := (t.getLsbD 15).toNat
  sApt := d.getLsbD 14
  dApt := t.getLsbD 14

variable (move : ByteMove)

def len : Nat := if move.lens < move.lend then move.lens.toNat else move.lend.toNat

/-- The word of the byte with an index. -/
def addrS (i : Nat) : Word := move.source + BitVec.ofNat 16 ((i + move.sLr) >>> 1)

def addrD (i : Nat) : Word := move.dest + BitVec.ofNat 16 ((i + move.dLr) >>> 1)

/-- Bytes are copied upwards, or downwards where the field moves forward. -/
def descending : Bool :=
  (move.source.toNat <<< 1) + move.sLr < (move.dest.toNat <<< 1) + move.dLr

/-- The test works on word addresses with half the number of bytes. -/
def overlap : Bool :=
  if move.dest < move.source then false
  else move.dest < BitVec.ofNat 16 (move.len / 2) + move.source - 1

/-- The half of the byte behind the destination field. -/
def endHalf : Word := BitVec.ofNat 16 ((move.len + move.dLr) % 2)

/-- A right byte is the low one. -/
def copyByte (i : Nat) : Instr Unit := do
  let word ← memRead (move.addrS i) move.sApt
  let thebyte := if (i + move.sLr) % 2 = 1 then word else (word >>> 8) &&& 0x00FF
  memWrite (move.addrD i) thebyte move.dApt (if (i + move.dLr) % 2 = 1 then .lsb else .msb)

/-- The loop leaves the word addresses of its last byte. -/
def copyBytes : List Nat → Word × Word → Instr (Word × Word)
  | [], last => pure last
  | i :: rest, _ => do
      move.copyByte i
      copyBytes rest (move.addrS i, move.addrD i)

end ByteMove

/-- The registers are read once before the loop. -/
def fetchByteMove : Instr ByteMove := do
  let a ← getReg RegNum.a
  let x ← getReg RegNum.x
  let d ← getReg RegNum.d
  let t ← getReg RegNum.t
  return .ofRegisters a d x t

/-- The end addresses are computed from the last addresses of the loop. -/
def opcodeMovbMoveByte : Instr Unit := do
  let move ← fetchByteMove
  let indices := if move.descending then (List.range move.len).reverse else List.range move.len
  let last ← move.copyBytes indices (0, 0)
  let d ← getReg RegNum.d
  let t ← getReg RegNum.t
  setReg GenReg.d ((d &&& (0x7000 : Word)) ||| (move.endHalf <<< 15))
  setReg GenReg.t ((t &&& (0x7000 : Word)) ||| (move.endHalf <<< 15) ||| (BitVec.ofNat 16 move.len &&& (0x0FFF : Word)))
  setReg GenReg.a (last.1 + BitVec.ofNat 16 ((move.len + move.sLr) >>> 1))
  setReg GenReg.x (last.2 + BitVec.ofNat 16 ((move.len + move.dLr) >>> 1))
  skipReturn

/-- The bytes are copied upwards even where the test reports an overlap. -/
def opcodeMovbfMoveBytesForward : Instr Unit := do
  let move ← fetchByteMove
  let _ ← move.copyBytes (List.range move.len) (0, 0)
  setReg GenReg.a (move.source + BitVec.ofNat 16 ((move.len + move.sLr) >>> 1))
  setReg GenReg.x (move.dest + BitVec.ofNat 16 ((move.len + move.dLr) >>> 1))
  let d ← getReg RegNum.d
  let t ← getReg RegNum.t
  let lens := move.lens - BitVec.ofNat 16 move.len
  let lend := move.lend - BitVec.ofNat 16 move.len
  setReg GenReg.d ((((d &&& (0xEFFF : Word) &&& (0x7FFF : Word)) ||| (move.endHalf <<< 15)) &&& (0xF000 : Word))
    ||| (lens &&& (0x0FFF : Word)))
  setReg GenReg.t ((((t &&& (0xCFFF : Word) &&& (0x7FFF : Word)) ||| (move.endHalf <<< 15)) &&& (0xF000 : Word))
    ||| (lend &&& (0x0FFF : Word)))
  if !move.overlap then skipReturn

end Nd100x
