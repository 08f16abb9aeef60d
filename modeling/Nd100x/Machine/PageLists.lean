import Nd100x.Machine.Instr
import Nd100x.Machine.Decimal

namespace Nd100x

open Instr

/-- The low byte of a bank register selects a bank of 64K words. -/
def bankAddress (bank offset : Word) : Nat := ((bank &&& 0xFF).toNat <<< 16) ||| offset.toNat

def opcodeWglobInitializeGlobalPointers : Instr Unit := do
  if !(← Instr.checkPriv) then return
  let system ← getSystem
  let stbnk ← getReg RegNum.t
  let stsrt ← getReg RegNum.a
  let cmbuk ← getReg RegNum.d
  putSystem { system with stbnk := stbnk, stsrt := stsrt, cmbuk := cmbuk }

def opcodeRglobExamineGlobalPointers : Instr Unit := do
  if !(← Instr.checkPriv) then return
  let system ← getSystem
  setReg GenReg.t system.stbnk
  setReg GenReg.a system.stsrt
  setReg GenReg.d system.cmbuk

/-- The anchor marker of a segment stands in the back link of its first page. -/
def anchorMarker (stsrt b : Word) : Word := ((b - stsrt) >>> 1) ||| 3

/-- The page takes over the back link of the old head, which then points to the page. -/
def insplMarker (system : SystemRegs) (b x oldHead : Word) : Instr Word :=
  if oldHead = 0 then pure (anchorMarker system.stsrt b)
  else do
    let marker ← physRead (bankAddress system.cmbuk (oldHead + 1))
    physWrite (bankAddress system.cmbuk (oldHead + 1)) x
    pure marker

def opcodeInsplInsertPageInPageList : Instr Unit := do
  if !(← Instr.checkPriv) then return
  let system ← getSystem
  let b ← getReg RegNum.b
  let x ← getReg RegNum.x
  let t ← getReg RegNum.t
  let oldHead ← physRead (bankAddress system.stbnk (b + 7))
  physWrite (bankAddress system.stbnk (b + 7)) x
  physWrite (bankAddress system.cmbuk x) oldHead
  let marker ← insplMarker system b x oldHead
  physWrite (bankAddress system.cmbuk (x + 1)) marker
  physWrite (bankAddress system.cmbuk (x + 3)) t

/-- The head slot of a segment is found from its marker. -/
def markerSlot (stsrt marker : Word) : Word := (stsrt + 2 * marker) ||| 7

/-- A back link with a low bit is an anchor marker. -/
def remplBypass (system : SystemRegs) (r1 r2 : Word) : Instr Unit :=
  if r2 &&& 3 ≠ 0 then physWrite (bankAddress system.stbnk (markerSlot system.stsrt r2)) r1
  else physWrite (bankAddress system.cmbuk r2) r1

/-- The successor takes over the back link of the page. -/
def remplInherit (system : SystemRegs) (r1 r2 : Word) : Instr Unit :=
  if r1 ≠ 0 then physWrite (bankAddress system.cmbuk (r1 + 1)) r2 else pure ()

def opcodeRemplRemovePageFromPageList : Instr Unit := do
  if !(← Instr.checkPriv) then return
  let system ← getSystem
  let x ← getReg RegNum.x
  let r1 ← physRead (bankAddress system.cmbuk x)
  let r2 ← physRead (bankAddress system.cmbuk (x + 1))
  remplBypass system r1 r2
  remplInherit system r1 r2
  physWrite (bankAddress system.cmbuk x) 0
  physWrite (bankAddress system.cmbuk (x + 1)) 0

/-- Bit 12 of a status word marks a page that is written in. -/
def nd110WipBit : Nat := 12

/-- The scan reads the head link in its own bank, and all other words in the bank of T. A scan that
runs out of its fuel has no result. -/
def chreentScan (progT : Word) : Nat → Word × Word → Word × Word → Instr Bool
  | 0, _, _ => return false
  | fuel + 1, prev, place => do
      let link ← physRead (bankAddress place.1 place.2)
      if link = 0 then do
        skipReturn
        return true
      else do
        let status ← physRead (bankAddress progT (link + 2))
        if status.getLsbD nd110WipBit then do
          let successor ← physRead (bankAddress progT link)
          physWrite (bankAddress prev.1 prev.2) successor
          setReg GenReg.d prev.1
          setReg GenReg.a prev.2
          setReg GenReg.x link
          return true
        else chreentScan progT fuel (progT, link) (progT, link)

def opcodeChreentPages (fuel : Nat) : Instr Bool := do
  if !(← Instr.checkPriv) then return true
  let progD ← getReg RegNum.d
  let progX ← getReg RegNum.x
  let progT ← getReg RegNum.t
  chreentScan progT fuel (progD, progX) (progD, progX)

/-- The address of a page-table entry in the shadow memory. -/
def entryAddress (word1 : Word) : Word := (word1 ||| (0xFC00 : Word)) <<< 1

/-- The walk ends at a null link. A walk that runs out of its fuel has no result. -/
def nd110EnterPageTable (cmbuk r4Mask : Word) : Nat → Instr Bool
  | 0 => return false
  | fuel + 1 => do
      let x ← getReg RegNum.x
      if x = 0 then return true
      else do
        let word0 ← physRead (bankAddress cmbuk (x + 2))
        setReg GenReg.a (word0 &&& r4Mask)
        let word1 ← physRead (bankAddress cmbuk (x + 3))
        setReg GenReg.b (entryAddress word1)
        let a ← getReg RegNum.a
        memWrite (entryAddress word1) a true .word
        memWrite (entryAddress word1 + 1) (x >>> 2) true .word
        let next ← physRead (bankAddress cmbuk x)
        setReg GenReg.x next
        nd110EnterPageTable cmbuk r4Mask fuel

/-- `ENPT` clears bit 11 of the entries. -/
def opcodeEnptEnterSegmentInPageTables (fuel : Nat) : Instr Bool := do
  if !(← Instr.checkPriv) then return true
  let system ← getSystem
  nd110EnterPageTable system.cmbuk 0xF7FF fuel

/-- A saved entry is cleared only when A is zero. -/
def clptSave (cmbuk x bReg : Word) : Instr Unit := do
  let r3 ← memRead bReg true
  if r3 ≠ 0 then do
    physWrite (bankAddress cmbuk (x + 2)) r3
    let a ← getReg RegNum.a
    if a = 0 then memWrite bReg 0 true .word

def clptWalk (cmbuk : Word) (clearMode : Bool) : Nat → Instr Bool
  | 0 => return false
  | fuel + 1 => do
      let x ← getReg RegNum.x
      if x = 0 then return true
      else do
        let entry ← physRead (bankAddress cmbuk (x + 3))
        setReg GenReg.b (entryAddress entry)
        if clearMode then memWrite (entryAddress entry) 0 true .word
        else clptSave cmbuk x (entryAddress entry)
        let next ← physRead (bankAddress cmbuk x)
        setReg GenReg.x next
        clptWalk cmbuk clearMode fuel

/-- Bit 15 of A selects the clear mode. -/
def opcodeClptClearSegmentFromPageTables (fuel : Nat) : Instr Bool := do
  if !(← Instr.checkPriv) then return true
  let system ← getSystem
  let a ← getReg RegNum.a
  clptWalk system.cmbuk (a.getLsbD 15) fuel

end Nd100x
