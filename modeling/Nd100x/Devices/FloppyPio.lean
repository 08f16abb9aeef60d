import Nd100x.Library.ByteImage
import Mathlib.Tactic.Ring

namespace Nd100x.Devices

/-- There are eight registers. -/
local instance floppyRegisters : NeZero 8 := ⟨by decide⟩

open Nd100x.Library

/-- The first words that an autoload leaves in the buffer. -/
def floppyBoot : List (BitVec 16) :=
  [0xB1, 0x8D, 0x0A, 0x30, 0x30, 0x36, 0x30, 0x30, 0x30, 0x8D, 0x0A, 0xB1, 0x36, 0xB4, 0x33, 0xB1,
    0x36, 0x21, 0x0C, 0x00, 0x00, 0xB3, 0xF1, 0x00, 0xB2, 0x03, 0xD2, 0x40, 0xA8, 0x00, 0xF1, 0xFF,
    0x08, 0x1B, 0x40, 0x1A, 0xA8, 0x02, 0xA8, 0x03, 0xF3, 0x31, 0xA8, 0x1A, 0x48, 0x16, 0xCC, 0x69,
    0xF1, 0x00, 0xF2, 0x03, 0xC3, 0xB0, 0x68, 0x12, 0xB2, 0x03, 0xF3, 0x32, 0xA8, 0x11, 0xCC, 0x4D,
    0x68, 0x0E, 0xB3, 0xFC, 0xF3, 0x00, 0x4C, 0x00, 0x0C, 0x00, 0xCD, 0x07, 0xCC, 0x7D, 0xB3, 0xFC,
    0xD0, 0x05, 0xD0, 0x0D, 0xA8, 0x23, 0x00, 0x00, 0x00, 0x11, 0x00, 0x05, 0x00, 0x02, 0x48, 0x1D,
    0xE8, 0xC3, 0xF2, 0x0D, 0xB8, 0x14, 0xF2, 0x0A, 0xB8, 0x12, 0xF2, 0x45, 0xB8, 0x10, 0xF2, 0x52,
    0xB8, 0x0E, 0xB8, 0x0D, 0xF2, 0x4F, 0xB8, 0x0B, 0xF2, 0x52, 0xB8, 0x09, 0xF2, 0x20, 0xB8, 0x07,
    0xCC, 0x7E, 0xB8, 0x05, 0xF2, 0x20, 0xB8, 0x03, 0xD2, 0x08, 0xA8, 0xC6, 0xE8, 0xC6, 0xFA, 0x9D,
    0xA8, 0xFE, 0xCC, 0x75, 0xE8, 0xC5, 0xCC, 0x62, 0x48, 0x04, 0xF1, 0xFB, 0x08, 0x49, 0xF1, 0x30,
    0xEB, 0x73, 0x48, 0x4E, 0xEB, 0x75, 0x00, 0x00, 0x00, 0x00, 0xEB, 0x72, 0xFA, 0x9D, 0xA8, 0xFE,
    0xFA, 0xA5, 0xA8, 0x0A, 0x08, 0x07, 0xEB, 0x74, 0xFA, 0x45, 0xA8, 0xF2, 0x08, 0x04, 0xF3, 0x33,
    0xA8, 0xCF, 0x00, 0x00, 0x00, 0x00, 0x48, 0x3D, 0xEB, 0x73, 0xEB, 0x72, 0xFA, 0x9D, 0xA8, 0xFE,
    0x48, 0x39, 0xEB, 0x77, 0x48, 0x38, 0xEB, 0x73, 0xEB, 0x72, 0xFA, 0x15, 0xA8, 0xFE, 0xFA, 0x25,
    0xA8, 0x20, 0xF1, 0x20, 0xEB, 0x73, 0xB8, 0x32, 0xF2, 0x21, 0x70, 0x2E, 0xC4, 0x2E, 0xA8, 0x04,
    0xCC, 0x4D, 0x08, 0x16, 0xA8, 0xF9, 0xB8, 0x1D, 0xCC, 0x6B, 0xB8, 0x1B, 0xCC, 0x6F, 0xCC, 0x41,
    0xB8, 0x18, 0xCC, 0x29, 0x09, 0x00, 0xCD, 0x03, 0xCC, 0x87, 0xC0, 0x07, 0xA8, 0xFA, 0xB8, 0x11,
    0xCD, 0x8D, 0xB3, 0x07, 0xEB, 0x70, 0x70, 0x19, 0xC0, 0x05, 0xD2, 0x00, 0xAA, 0x01, 0x00, 0x00,
    0x08, 0xD1, 0xEB, 0x74, 0x08, 0xD0, 0x40, 0x04, 0xA8, 0xBB, 0xF3, 0x34, 0xA8, 0x99, 0x00, 0x00,
    0xEB, 0x70, 0xDD, 0x08, 0xCC, 0x6E, 0xEB, 0x70, 0x70, 0x08, 0xCB, 0x35, 0xCC, 0x62, 0xC0, 0x01,
    0x40, 0x00, 0x01, 0x00, 0x10, 0x00, 0x00, 0x7F, 0x00, 0xFF, 0x10, 0x14, 0xCC, 0x41, 0x50, 0x13,
    0xEB, 0x70, 0x70, 0x12, 0xC4, 0x35, 0xA8, 0xFD, 0x08, 0x0C, 0x68, 0x0F, 0xB1, 0x07, 0x68, 0x0E,
    0xB0, 0x05, 0x60, 0x0C, 0xDC, 0x83, 0xCB, 0x29, 0xA8, 0xF4, 0x48, 0x03, 0x50, 0x02, 0xCC, 0x62,
    0x00, 0x00, 0x00, 0x00, 0x00, 0x0A, 0x00, 0x7F, 0x00, 0x30, 0x00, 0x08, 0x54, 0xD4, 0x00, 0x00,
    0xF1, 0x00, 0x00, 0x00]

def floppyIoDelay : Nat := 300
def floppyFormatData : BitVec 16 := 0xAAFF
def floppyPioIntLevel : Nat := 11

inductive FloppyPioCommand where
  | formatTrack
  | writeData
  | writeDeletedData
  | readId
  | readData
  | seek
  | recalibrate
  | controlReset
  | none
  deriving DecidableEq, Repr

inductive FloppyPioEnd where
  | read
  | recalibrate
  | seek
  deriving DecidableEq, Repr

/-- The bits of the first status register. -/
def floppyInterruptEnabled : BitVec 16 := 0x0002
def floppyDeviceBusy : BitVec 16 := 0x0004
def floppyReadyForTransfer : BitVec 16 := 0x0008
def floppyInclusiveOr : BitVec 16 := 0x0010
def floppyDeletedRecord : BitVec 16 := 0x0020
def floppyReadWriteComplete : BitVec 16 := 0x0040
def floppySeekComplete : BitVec 16 := 0x0080

/-- The bits of the second status register. -/
def floppyDriveNotReady : BitVec 16 := 0x0100
def floppySectorMissing : BitVec 16 := 0x0800

/-- An open file with its position. -/
structure FloppyFile where
  image : ByteImage
  position : Nat

namespace FloppyFile

def seek (file : FloppyFile) (position : Nat) : FloppyFile := { file with position := position }

/-- A file that ends inside a word gives none. -/
def ioReadWord (file : FloppyFile) : Option (BitVec 16) × FloppyFile :=
  match file.image.getByte file.position, file.image.getByte (file.position + 1) with
  | some high, some low => (some (joinHalves high low), { file with position := file.position + 2 })
  | some _, none => (none, { file with position := file.position + 1 })
  | none, _ => (none, file)

/-- A word that was written gives zero. -/
def ioWriteWord (file : FloppyFile) (data : BitVec 16) : Int × FloppyFile :=
  (0, { image := (file.image.putByte file.position ((data >>> 8).setWidth 8)).putByte
          (file.position + 1) (data.setWidth 8)
        position := file.position + 2 })

end FloppyFile

/-- The buffer has 1024 words, and its pointer wraps. -/
structure FloppyPio where
  floppyFile : Option FloppyFile
  dataBuffer : BitVec 10 → BitVec 16
  sector : Nat
  track : Nat
  bufferPointer : BitVec 10
  selectedDrive : Option (BitVec 3)
  bytesPrSector : Nat
  sectorsPrTrack : Nat
  testByte : BitVec 8
  sectorAutoIncrement : Bool
  testmodeByte : Nat
  deletedSector : Nat → Nat → Bool
  status1 : BitVec 16
  control : BitVec 16
  status2 : BitVec 16
  command : FloppyPioCommand
  ioDelays : List (Nat × FloppyPioEnd)
  interrupt : Bool

namespace FloppyPio

def create (file : Option FloppyFile) : FloppyPio where
  floppyFile := file
  dataBuffer := fun _ => 0
  sector := 0
  track := 0
  bufferPointer := 0
  selectedDrive := none
  bytesPrSector := 0
  sectorsPrTrack := 0
  testByte := 0
  sectorAutoIncrement := false
  testmodeByte := 0
  deletedSector := fun _ _ => false
  status1 := 0
  control := 0
  status2 := 0
  command := .none
  ioDelays := []
  interrupt := false

def reset (device : FloppyPio) : FloppyPio :=
  { device with
    status1 := device.status1 ||| floppyReadyForTransfer
    bufferPointer := 0
    testmodeByte := 0
    interrupt := false
    selectedDrive := none }

def testMode (device : FloppyPio) : Bool := device.control.getLsbD 3

def nextPointer (device : FloppyPio) : FloppyPio :=
  { device with bufferPointer := device.bufferPointer + 1 }

def putBuffer (device : FloppyPio) (data : BitVec 16) : FloppyPio :=
  { device with dataBuffer := Function.update device.dataBuffer device.bufferPointer data }

/-- Some bits of the pointer show in the status for the test program. -/
def magic (pointer : BitVec 10) : BitVec 16 :=
  (if pointer.getLsbD 1 ∧ pointer.getLsbD 6 then 0x0200 else 0x0000) |||
    (if pointer.getLsbD 1 ∧ pointer.getLsbD 7 then 0x0400 else 0x0000) |||
    (if pointer.getLsbD 1 ∧ pointer.getLsbD 8 then 0x0800 else 0x0000)

/-- In test mode the bytes of a word come one after the other. -/
def readTestData (device : FloppyPio) : FloppyPio :=
  let word := device.dataBuffer device.bufferPointer
  if 0 < device.testmodeByte then
    { (device.putBuffer ((word &&& 0xFF00) ||| device.testByte.setWidth 16)).nextPointer with
      testmodeByte := 0 }
  else
    { device.putBuffer ((word &&& 0x00FF) ||| (device.testByte.setWidth 16 <<< 8)) with
      testmodeByte := device.testmodeByte + 1 }

/-- Of the eight registers the even ones are read. -/
def read (device : FloppyPio) (register : Fin 8) : BitVec 16 × FloppyPio :=
  if register = 0 then (device.dataBuffer device.bufferPointer, device.nextPointer)
  else if register = 2 then
    let status := if device.status2 = 0 then device.status1 &&& ~~~floppyInclusiveOr
      else device.status1 ||| floppyInclusiveOr
    (status ||| magic device.bufferPointer, { device with status1 := status })
  else if register = 4 then (device.status2, device)
  else if register = 6 then (0, if device.testMode then device.readTestData else device)
  else (0, device)

def addStatus1 (device : FloppyPio) (bits : BitVec 16) : FloppyPio :=
  { device with status1 := device.status1 ||| bits }

def clearStatus1 (device : FloppyPio) (bits : BitVec 16) : FloppyPio :=
  { device with status1 := device.status1 &&& ~~~bits }

def addStatus2 (device : FloppyPio) (bits : BitVec 16) : FloppyPio :=
  { device with status2 := device.status2 ||| bits }

def queueIoDelay (device : FloppyPio) (callback : FloppyPioEnd) : FloppyPio :=
  { device with ioDelays := device.ioDelays ++ [(floppyIoDelay, callback)] }

def setSectorAsDeleted (device : FloppyPio) (sector track : Nat) (deleted : Bool) : FloppyPio :=
  if track < 100 ∧ 0 < sector ∧ sector ≤ 100 then
    { device with deletedSector := fun someTrack place =>
        if someTrack = track ∧ place = sector - 1 then deleted
        else device.deletedSector someTrack place }
  else device

def sectorIsDeleted (device : FloppyPio) (sector track : Nat) : Bool :=
  if track < 100 ∧ 0 < sector ∧ sector ≤ 100 then device.deletedSector track (sector - 1) else false

/-- The sector in the image. -/
def position (device : FloppyPio) : Nat :=
  (device.sector - 1) * device.bytesPrSector +
    device.track * device.bytesPrSector * device.sectorsPrTrack

def transferWordCount (device : FloppyPio) : Nat := device.bytesPrSector / 2

def putFile (device : FloppyPio) (file : FloppyFile) : FloppyPio :=
  { device with floppyFile := some file }

/-- A word whose result is zero ends the command with an error. -/
def writeWords (data : FloppyPio → BitVec 16 × FloppyPio) :
    Nat → FloppyFile → FloppyPio → Bool × FloppyPio
  | 0, file, device => (true, device.putFile file)
  | count + 1, file, device =>
    let taken := data device
    let written := file.ioWriteWord taken.1
    if written.1 = 0 then
      (false, ((taken.2.putFile written.2).addStatus2 floppyDriveNotReady).clearStatus1
        floppyDeviceBusy)
    else writeWords data count written.2 taken.2

def fromBuffer (device : FloppyPio) : BitVec 16 × FloppyPio :=
  (device.dataBuffer device.bufferPointer, device.nextPointer)

def fromFormat (device : FloppyPio) : BitVec 16 × FloppyPio := (floppyFormatData, device)

/-- The sectors of a track are written in turn. -/
def formatSectors : Nat → Nat → FloppyFile → FloppyPio → Bool × FloppyPio
  | 0, _, file, device => (true, device.putFile file)
  | count + 1, sector, file, device =>
    let written := device.writeWords fromFormat device.transferWordCount file
    if written.1 then
      formatSectors count (sector + 1) (written.2.floppyFile.getD file)
        (written.2.setSectorAsDeleted sector device.track false)
    else written

def readWords : Nat → FloppyFile → FloppyPio → Bool × FloppyPio
  | 0, file, device => (true, device.putFile file)
  | count + 1, file, device =>
    match file.ioReadWord with
    | (none, after) =>
      (false, ((device.putFile after).addStatus2 floppyDriveNotReady).clearStatus1
        floppyDeviceBusy)
    | (some word, after) => readWords count after (device.putBuffer word).nextPointer

def finish (done : Bool × FloppyPio) : FloppyPio :=
  if done.1 then done.2.queueIoDelay .read else done.2

def readId (device : FloppyPio) : FloppyPio :=
  let words : BitVec 16 × BitVec 16 :=
    if device.sectorIsDeleted device.sector device.track then (0xFF00, 0xFF02)
    else (BitVec.ofNat 16 (device.track <<< 8), BitVec.ofNat 16 (device.sector <<< 8))
  { device with
    dataBuffer := Function.update (Function.update device.dataBuffer 0 words.1) 1 words.2
    bufferPointer := 0 }.queueIoDelay .read

/-- The commands on a selected drive and a sector of the track. -/
def executeCommand (device : FloppyPio) (file : FloppyFile) : FloppyPioCommand → FloppyPio
  | .formatTrack =>
    let position := 1 * device.bytesPrSector +
      device.track * device.bytesPrSector * device.sectorsPrTrack
    finish (device.formatSectors device.sectorsPrTrack 1 (file.seek position))
  | .writeData =>
    let written := device.writeWords fromBuffer device.transferWordCount
      (file.seek device.position)
    if written.1 then
      (written.2.setSectorAsDeleted device.sector device.track false).queueIoDelay .read
    else written.2
  | .writeDeletedData =>
    finish ((device.setSectorAsDeleted device.sector device.track true).writeWords fromBuffer
      device.transferWordCount (file.seek device.position))
  | .readId => device.readId
  | .readData =>
    let marked :=
      if device.sectorIsDeleted device.sector device.track then
        device.addStatus1 floppyDeletedRecord
      else device
    finish (marked.readWords device.transferWordCount (file.seek device.position))
  | .seek => (device.putFile (file.seek device.position)).queueIoDelay .seek
  | .recalibrate => { device with track := 0, sector := 1 }.queueIoDelay .recalibrate
  | .controlReset => device.clearStatus1 floppyDeviceBusy
  | .none => device

/-- The errors and the completions are cleared, and sector zero stands for the first. -/
def prepare (device : FloppyPio) : FloppyPio :=
  { device with
    status2 := 0
    status1 := device.status1 &&& ~~~(floppyReadyForTransfer ||| floppyReadWriteComplete |||
      floppySeekComplete ||| floppyDeletedRecord)
    sector := if device.sector = 0 then 1 else device.sector }

def executeGo (device : FloppyPio) (command : FloppyPioCommand) : FloppyPio :=
  let ready := device.prepare
  if ready.sectorsPrTrack < ready.sector then
    ((ready.addStatus2 floppySectorMissing).addStatus1 floppyReadyForTransfer).clearStatus1
      floppyDeviceBusy
  else
    match ready.floppyFile, ready.selectedDrive with
    | some file, some _ => ready.executeCommand file command
    | _, _ => (ready.addStatus2 floppyDriveNotReady).clearStatus1 floppyDeviceBusy

def autoload (device : FloppyPio) : FloppyPio :=
  { device.addStatus1 floppyReadyForTransfer with
    track := 0
    sector := 1
    bufferPointer := 0
    dataBuffer := fun place =>
      if place.toNat < floppyBoot.length then floppyBoot.getD place.toNat 0
      else device.dataBuffer place }

def deviceClear (device : FloppyPio) : FloppyPio :=
  { device.addStatus1 floppyReadyForTransfer with
    selectedDrive := none
    bufferPointer := 0
    status2 := 0 }

def clearBufferAddress (device : FloppyPio) : FloppyPio :=
  { device.addStatus1 floppyReadyForTransfer with bufferPointer := 0 }

/-- The highest command bit counts. -/
def commandOf (value : BitVec 16) : FloppyPioCommand :=
  if value.getLsbD 15 then .controlReset
  else if value.getLsbD 14 then .recalibrate
  else if value.getLsbD 13 then .seek
  else if value.getLsbD 12 then .readData
  else if value.getLsbD 11 then .readId
  else if value.getLsbD 10 then .writeDeletedData
  else if value.getLsbD 9 then .writeData
  else if value.getLsbD 8 then .formatTrack
  else .none

/-- The functions of the control word come before its command. -/
def beforeCommand (device : FloppyPio) (value : BitVec 16) : FloppyPio :=
  let loaded := { device with
    control := value
    status1 := if value.getLsbD 1 then device.status1 ||| floppyInterruptEnabled
      else device.status1 &&& ~~~floppyInterruptEnabled }
  let loaded := if value.getLsbD 2 then loaded.autoload else loaded
  let loaded := if value.getLsbD 4 then loaded.deviceClear else loaded
  if value.getLsbD 5 then loaded.clearBufferAddress else loaded

def setInterruptStatus (device : FloppyPio) : FloppyPio :=
  { device with interrupt := device.status1.getLsbD 1 && device.status1.getLsbD 3 }

def writeControlWord (device : FloppyPio) (value : BitVec 16) : FloppyPio :=
  let loaded := device.beforeCommand value
  (if commandOf value = .none then loaded
    else { loaded.addStatus1 floppyDeviceBusy with command := commandOf value }.executeGo
      (commandOf value)).setInterruptStatus

/-- The format is 128, 256 or 512 bytes in a sector. -/
def selectFormat (device : FloppyPio) (format : BitVec 2) : FloppyPio :=
  if format = 2 then { device with bytesPrSector := 256, sectorsPrTrack := 15 }
  else if format = 3 then { device with bytesPrSector := 512, sectorsPrTrack := 8 }
  else { device with bytesPrSector := 128, sectorsPrTrack := 26 }

/-- A difference moves the heads between the first and the last track. -/
def moveTrack (device : FloppyPio) (value : BitVec 16) : FloppyPio :=
  let difference := (value.extractLsb' 8 7).toNat
  { device with
    track := if value.getLsbD 15 then min (device.track + difference) 76
      else device.track - difference }

def writeDriveAddress (device : FloppyPio) (value : BitVec 16) : FloppyPio :=
  if value.getLsbD 0 then
    { device with
      selectedDrive := if value.getLsbD 11 then none else some (value.extractLsb' 8 3) }.selectFormat
        (value.extractLsb' 14 2)
  else device.moveTrack value

def writeSector (device : FloppyPio) (value : BitVec 16) : FloppyPio :=
  if device.testMode then { device with testByte := (value >>> 8).setWidth 8 }
  else
    { device with
      sector := (value.extractLsb' 8 7).toNat
      sectorAutoIncrement := value.getLsbD 15 }

/-- Of the eight registers the odd ones are written. -/
def write (device : FloppyPio) (register : Fin 8) (value : BitVec 16) : FloppyPio :=
  if register = 1 then (device.putBuffer value).nextPointer
  else if register = 3 then device.writeControlWord value
  else if register = 5 then device.writeDriveAddress value
  else if register = 7 then device.writeSector value
  else device

def readEnd (device : FloppyPio) : FloppyPio :=
  { (device.clearStatus1 floppyDeviceBusy).addStatus1
      (floppyReadyForTransfer ||| floppyReadWriteComplete) with
    sector := if device.sectorAutoIncrement ∧ device.sector ≤ device.sectorsPrTrack then
      device.sector + 1 else device.sector }

def seekEnd (device : FloppyPio) : FloppyPio :=
  (device.clearStatus1 floppyDeviceBusy).addStatus1 (floppyReadyForTransfer ||| floppySeekComplete)

/-- A completion interrupts where interrupts are enabled. -/
def fire (device : FloppyPio) (callback : FloppyPioEnd) : FloppyPio :=
  let ended := if callback = .read then device.readEnd else device.seekEnd
  { ended with interrupt := ended.interrupt || ended.status1.getLsbD 1 }

def tick (device : FloppyPio) : FloppyPio :=
  let left := device.ioDelays.map fun delay => (delay.1 - 1, delay.2)
  ((left.filter (·.1 = 0)).map (·.2)).foldl fire { device with
    ioDelays := left.filter (·.1 ≠ 0) }

def ident (device : FloppyPio) (level : Nat) : FloppyPio :=
  if level = floppyPioIntLevel ∧ device.interrupt then
    { device.clearStatus1 floppyInterruptEnabled with interrupt := false }
  else device

end FloppyPio

section Model

/-- The processor uses the registers and takes the identification code, and the device ticks and
is reset. -/
inductive FloppyPioEvent where
  | read (register : Fin 8)
  | write (register : Fin 8) (value : BitVec 16)
  | tick
  | ident (level : Nat)
  | reset
  deriving DecidableEq

namespace FloppyPio

def step (device : FloppyPio) : FloppyPioEvent → FloppyPio
  | .read register => (device.read register).2
  | .write register value => device.write register value
  | .tick => device.tick
  | .ident level => device.ident level
  | .reset => device.reset

/-- The device as the command of a control word finds it. -/
def starting (device : FloppyPio) (value : BitVec 16) : FloppyPio :=
  { (device.beforeCommand value).addStatus1 floppyDeviceBusy with
    command := commandOf value }.prepare

/-- The sector is one of the track, and a drive is selected. -/
def ReachesDrive (device : FloppyPio) : Prop :=
  device.sector ≤ device.sectorsPrTrack ∧ device.floppyFile.isSome ∧ device.selectedDrive.isSome

instance (device : FloppyPio) : Decidable device.ReachesDrive :=
  inferInstanceAs (Decidable (_ ∧ _))

end FloppyPio

def FloppyPioCommand.writesSectors : FloppyPioCommand → Bool
  | .formatTrack | .writeData | .writeDeletedData => true
  | _ => false

def FloppyPioCommand.movesSectors : FloppyPioCommand → Bool
  | .readData => true
  | command => command.writesSectors

end Model

section Purpose

/-- The words of the disc, and the marks of its sectors by track and number. -/
structure SectorStore where
  word : Nat → BitVec 16
  deleted : Nat → Nat → Bool

namespace FloppyPio

/-- The first word of a sector on the present track. -/
def firstWord (device : FloppyPio) (sector : Nat) : Nat :=
  (sector - 1 + device.track * device.sectorsPrTrack) * device.transferWordCount

/-- The first sector of a command and the number of sectors. -/
def sectorsOf (device : FloppyPio) (command : FloppyPioCommand) : Nat × Nat :=
  if command = .formatTrack then (1, device.sectorsPrTrack) else (device.sector, 1)

/-- The word lies in a sector of the command. -/
def Moves (device : FloppyPio) (command : FloppyPioCommand) (place : Nat) : Prop :=
  device.firstWord (device.sectorsOf command).1 ≤ place ∧
    place < device.firstWord (device.sectorsOf command).1 +
      (device.sectorsOf command).2 * device.transferWordCount

instance (device : FloppyPio) (command : FloppyPioCommand) (place : Nat) :
    Decidable (device.Moves command place) := inferInstanceAs (Decidable (_ ∧ _))

/-- The sector is one of the command. -/
def MovesSector (device : FloppyPio) (command : FloppyPioCommand) (track sector : Nat) : Prop :=
  track = device.track ∧ (device.sectorsOf command).1 ≤ sector ∧
    sector < (device.sectorsOf command).1 + (device.sectorsOf command).2

instance (device : FloppyPio) (command : FloppyPioCommand) (track sector : Nat) :
    Decidable (device.MovesSector command track sector) := inferInstanceAs (Decidable (_ ∧ _))

/-- The word for a place: a pattern of the format, or a word of the buffer. -/
def given (device : FloppyPio) (command : FloppyPioCommand) (place : Nat) : BitVec 16 :=
  if command = .formatTrack then floppyFormatData
  else device.dataBuffer
    (device.bufferPointer + BitVec.ofNat 10 (place - device.firstWord device.sector))

end FloppyPio

/-- A command that writes gives its sectors their words and their marks. -/
def SectorStore.after (store : SectorStore) (device : FloppyPio) (command : FloppyPioCommand) :
    SectorStore where
  word place :=
    if command.writesSectors ∧ device.Moves command place then device.given command place
    else store.word place
  deleted track sector :=
    if command.writesSectors ∧ device.MovesSector command track sector then
      command = .writeDeletedData
    else store.deleted track sector

/-- Only a command on the drive changes the store. -/
def SectorStore.next (store : SectorStore) (device : FloppyPio) : FloppyPioEvent → SectorStore
  | .write register value =>
    if register = 3 ∧ (device.starting value).ReachesDrive then
      store.after (device.starting value) (FloppyPio.commandOf value)
    else store
  | _ => store

/-- An open image and any events that are allowed, with the last values of the sectors. -/
inductive FloppyPioRun (allowed : FloppyPio → FloppyPioEvent → Prop) (image : ByteImage) :
    FloppyPio → SectorStore → Prop
  | start : FloppyPioRun allowed image (.create (some ⟨image, 0⟩))
      { word := image.word, deleted := fun _ _ => false }
  | step {device : FloppyPio} {store : SectorStore} {event : FloppyPioEvent}
      (run : FloppyPioRun allowed image device store) (may : allowed device event) :
      FloppyPioRun allowed image (device.step event) (store.next device event)

namespace FloppyPio

def image (device : FloppyPio) : Option ByteImage := device.floppyFile.map FloppyFile.image

/-- The disc has the last values. -/
def Holds (device : FloppyPio) (store : SectorStore) : Prop :=
  (∃ image, device.image = some image ∧ ∀ place, image.word place = store.word place) ∧
    ∀ track sector, device.sectorIsDeleted sector track = store.deleted track sector

def ready (device : FloppyPio) : Bool := device.status1.getLsbD 3

/-- No command starts in this event. -/
def Quiet (event : FloppyPioEvent) : Prop :=
  ∀ value, event = .write 3 value → commandOf value = .none

/-- After the delay, whatever else is done, the device is ready without an error. -/
def EndsReady (device : FloppyPio) : Prop :=
  ∀ events : List FloppyPioEvent, (∀ event ∈ events, Quiet event) →
    floppyIoDelay ≤ events.count .tick →
      (events.foldl step device).ready = true ∧ (events.foldl step device).status2 = 0

/-- The command does what it is for: the sectors have their values, a read has the words of its
sector in the buffer and shows its mark, and the device gets ready. -/
structure Performs (device : FloppyPio) (store : SectorStore) (command : FloppyPioCommand)
    (after : FloppyPio) : Prop where
  holds : after.Holds (store.after device command)
  words : command = .readData → ∀ offset < device.transferWordCount,
    after.dataBuffer (device.bufferPointer + BitVec.ofNat 10 offset) =
      store.word (device.firstWord device.sector + offset)
  deletedRecord : command = .readData →
    after.status1.getLsbD 5 = store.deleted device.track device.sector
  ends : after.EndsReady

/-- No command that writes reaches the drive in this event. -/
def Spares (device : FloppyPio) (event : FloppyPioEvent) : Prop :=
  ∀ value, event = .write 3 value → (commandOf value).writesSectors →
    ¬(device.starting value).ReachesDrive

end FloppyPio

end Purpose

namespace FloppyPio

section Frames

variable {device : FloppyPio} {value : BitVec 16}

@[simp] theorem ready_addStatus1 (bits : BitVec 16) :
    (device.addStatus1 bits).ready = (device.ready || bits.getLsbD 3) :=
  BitVec.getLsbD_or

@[simp] theorem ready_clearStatus1 (bits : BitVec 16) :
    (device.clearStatus1 bits).ready = (device.ready && !bits.getLsbD 3) := by
  simp [ready, clearStatus1]

/-- The format of a track is one of three once a drive address was written. -/
def Formatted (device : FloppyPio) : Prop :=
  (device.bytesPrSector, device.sectorsPrTrack) ∈ [(0, 0), (128, 26), (256, 15), (512, 8)]

/-- Everything that belongs to the disc and to its format. -/
def disc (device : FloppyPio) : Option ByteImage × (Nat → Nat → Bool) × Nat × Nat :=
  (device.image, device.deletedSector, device.bytesPrSector, device.sectorsPrTrack)

/-- What holds after the control bits and is kept by each function holds before the command. -/
theorem beforeCommand_holds {P : FloppyPio → Prop}
    (loaded : P { device with
      control := value
      status1 := if value.getLsbD 1 then device.status1 ||| floppyInterruptEnabled
        else device.status1 &&& ~~~floppyInterruptEnabled })
    (autoload : ∀ device buffer, P device → P { device.addStatus1 floppyReadyForTransfer with
      track := 0
      sector := 1
      bufferPointer := 0
      dataBuffer := buffer })
    (deviceClear : ∀ device, P device → P device.deviceClear)
    (clearBufferAddress : ∀ device, P device → P device.clearBufferAddress) :
    P (device.beforeCommand value) := by
  rw [beforeCommand]
  have booted : ∀ device, P device → P device.autoload := by
    intro device holds
    rw [FloppyPio.autoload]
    exact autoload device _ holds
  have first := iteInduction (motive := P)
    (fun _ : value.getLsbD 2 = true => booted _ loaded) fun _ => loaded
  have second := iteInduction (motive := P)
    (fun _ : value.getLsbD 4 = true => deviceClear _ first) fun _ => first
  exact iteInduction (motive := P) (fun _ => clearBufferAddress _ second) fun _ => second

@[simp] theorem disc_beforeCommand : (device.beforeCommand value).disc = device.disc :=
  beforeCommand_holds (P := fun after => after.disc = device.disc) rfl (fun _ _ same => same)
    (fun _ same => same) fun _ same => same

@[simp] theorem disc_starting : (device.starting value).disc = device.disc :=
  disc_beforeCommand

@[simp] theorem ioDelays_beforeCommand :
    (device.beforeCommand value).ioDelays = device.ioDelays :=
  beforeCommand_holds (P := fun after => after.ioDelays = device.ioDelays) rfl
    (fun _ _ same => same) (fun _ same => same) fun _ same => same

theorem status2_beforeCommand (clean : device.status2 = 0) :
    (device.beforeCommand value).status2 = 0 :=
  beforeCommand_holds (P := fun after => after.status2 = 0) clean (fun _ _ same => same)
    (fun _ _ => rfl) fun _ same => same

theorem ready_beforeCommand (isReady : device.ready = true) :
    (device.beforeCommand value).ready = true := by
  refine beforeCommand_holds (P := fun after => after.ready = true) ?_
    (fun _ _ _ => (ready_addStatus1 _).trans (Bool.or_true _))
    (fun _ _ => (ready_addStatus1 _).trans (Bool.or_true _))
    (fun _ _ => (ready_addStatus1 _).trans (Bool.or_true _))
  rw [ready] at isReady ⊢
  dsimp only
  split_ifs
  · rw [BitVec.getLsbD_or, isReady, Bool.true_or]
  · rw [BitVec.getLsbD_and, isReady]
    decide

@[simp] theorem disc_fire (callback : FloppyPioEnd) :
    (device.fire callback).disc = device.disc := by
  cases callback <;> rfl

@[simp] theorem status2_fire (callback : FloppyPioEnd) :
    (device.fire callback).status2 = device.status2 := by
  cases callback <;> rfl

@[simp] theorem ioDelays_fire (callback : FloppyPioEnd) :
    (device.fire callback).ioDelays = device.ioDelays := by
  cases callback <;> rfl

theorem ready_fire (callback : FloppyPioEnd) : (device.fire callback).ready = true := by
  cases callback
  all_goals exact (ready_addStatus1 _).trans (Bool.or_true _)

theorem fire_frame (callbacks : List FloppyPioEnd) :
    (callbacks.foldl fire device).disc = device.disc ∧
      (callbacks.foldl fire device).status2 = device.status2 ∧
      (callbacks.foldl fire device).ioDelays = device.ioDelays ∧
      ((callbacks.foldl fire device).ready = true ∨ callbacks = [] ∧
        callbacks.foldl fire device = device) := by
  induction callbacks generalizing device with
  | nil => exact ⟨rfl, rfl, rfl, .inr ⟨rfl, rfl⟩⟩
  | cons callback rest ih =>
    obtain ⟨disc, status, delays, last⟩ := @ih (device.fire callback)
    rw [disc_fire] at disc
    rw [status2_fire] at status
    rw [ioDelays_fire] at delays
    refine ⟨disc, status, delays, .inl ?_⟩
    rcases last with last | ⟨_, last⟩
    · exact last
    · exact last ▸ ready_fire callback

/-- The delays after one tick. -/
def ticked (device : FloppyPio) : List (Nat × FloppyPioEnd) :=
  device.ioDelays.map fun delay => (delay.1 - 1, delay.2)

theorem tick_eq : device.tick =
    ((device.ticked.filter (·.1 = 0)).map (·.2)).foldl fire
      { device with ioDelays := device.ticked.filter (·.1 ≠ 0) } := rfl

theorem mem_ticked {left : Nat} {callback : FloppyPioEnd}
    (queued : (left + 1, callback) ∈ device.ioDelays) : (left, callback) ∈ device.ticked :=
  List.mem_map.mpr ⟨_, queued, rfl⟩

@[simp] theorem disc_tick : device.tick.disc = device.disc :=
  (fire_frame _).1

@[simp] theorem status2_tick : device.tick.status2 = device.status2 :=
  (fire_frame _).2.1

theorem ioDelays_tick : device.tick.ioDelays = device.ticked.filter (·.1 ≠ 0) :=
  (fire_frame _).2.2.1

theorem ready_tick (isReady : device.ready = true) : device.tick.ready = true := by
  rcases (@fire_frame { device with ioDelays := device.ticked.filter (·.1 ≠ 0) }
    ((device.ticked.filter (·.1 = 0)).map (·.2))).2.2.2 with last | ⟨_, last⟩
  · exact last
  · rw [tick_eq, last]
    exact isReady

/-- A delay that is due makes the device ready. -/
theorem ready_of_due {callback : FloppyPioEnd} (queued : (1, callback) ∈ device.ioDelays) :
    device.tick.ready = true := by
  have due : callback ∈ (device.ticked.filter (·.1 = 0)).map (·.2) :=
    List.mem_map.mpr ⟨_, List.mem_filter.mpr ⟨mem_ticked queued, rfl⟩, rfl⟩
  rcases (@fire_frame { device with ioDelays := device.ticked.filter (·.1 ≠ 0) }
    ((device.ticked.filter (·.1 = 0)).map (·.2))).2.2.2 with last | ⟨none, _⟩
  · exact last
  · rw [none] at due
    exact absurd due List.not_mem_nil

end Frames

section Quiet

variable {device : FloppyPio}

/-- What a device keeps while no command starts and no time passes. -/
def Keeps (device after : FloppyPio) : Prop :=
  after.ioDelays = device.ioDelays ∧ (device.status2 = 0 → after.status2 = 0) ∧
    (device.ready = true → after.ready = true)

theorem keeps_readTestData : device.Keeps device.readTestData := by
  rw [readTestData]
  by_cases second : 0 < device.testmodeByte
  · rw [if_pos second]
    exact ⟨rfl, id, id⟩
  · rw [if_neg second]
    exact ⟨rfl, id, id⟩

theorem keeps_read (register : Fin 8) : device.Keeps (device.read register).2 := by
  rw [read]
  by_cases data : register = 0
  · rw [if_pos data]
    exact ⟨rfl, id, id⟩
  rw [if_neg data]
  by_cases status : register = 2
  · rw [if_pos status]
    refine ⟨rfl, id, fun isReady => ?_⟩
    rw [ready] at isReady ⊢
    dsimp only
    by_cases clean : device.status2 = 0
    · rw [if_pos clean, BitVec.getLsbD_and, isReady]
      decide
    · rw [if_neg clean, BitVec.getLsbD_or, isReady, Bool.true_or]
  rw [if_neg status]
  by_cases errors : register = 4
  · rw [if_pos errors]
    exact ⟨rfl, id, id⟩
  rw [if_neg errors]
  by_cases testing : register = 6 ∧ device.testMode = true
  · rw [if_pos testing.1]
    dsimp only
    rw [if_pos testing.2]
    exact keeps_readTestData
  · by_cases last : register = 6
    · rw [if_pos last]
      dsimp only
      rw [if_neg fun mode => testing ⟨last, mode⟩]
      exact ⟨rfl, id, id⟩
    · rw [if_neg last]
      exact ⟨rfl, id, id⟩

theorem keeps_writeDriveAddress (value : BitVec 16) :
    device.Keeps (device.writeDriveAddress value) := by
  rw [writeDriveAddress]
  by_cases drive : value.getLsbD 0 = true
  · rw [if_pos drive, selectFormat]
    split_ifs <;> exact ⟨rfl, id, id⟩
  · rw [if_neg drive]
    exact ⟨rfl, id, id⟩

theorem keeps_writeSector (value : BitVec 16) : device.Keeps (device.writeSector value) := by
  rw [writeSector]
  split_ifs <;> exact ⟨rfl, id, id⟩

theorem keeps_step {event : FloppyPioEvent} (quiet : Quiet event) (timeless : event ≠ .tick) :
    device.Keeps (device.step event) := by
  cases event with
  | read register => exact keeps_read register
  | write register value =>
    change device.Keeps (device.write register value)
    rw [write]
    split_ifs with data control
    · exact ⟨rfl, id, id⟩
    · have none := quiet value (by rw [control])
      rw [writeControlWord, if_pos none]
      exact ⟨ioDelays_beforeCommand, status2_beforeCommand, ready_beforeCommand⟩
    · exact keeps_writeDriveAddress value
    · exact keeps_writeSector value
    · exact ⟨rfl, id, id⟩
  | tick => exact absurd rfl timeless
  | ident level =>
    change device.Keeps (device.ident level)
    rw [ident]
    split_ifs
    · refine ⟨rfl, id, fun isReady => ?_⟩
      exact (ready_clearStatus1 floppyInterruptEnabled).trans (by rw [isReady]; decide)
    · exact ⟨rfl, id, id⟩
  | reset =>
    refine ⟨rfl, id, fun isReady => ?_⟩
    exact (ready_addStatus1 floppyReadyForTransfer).trans (by rw [isReady, Bool.true_or])

/-- The device has no error, and it is ready or will be within some ticks. -/
def Ending (device : FloppyPio) (ticks : Nat) : Prop :=
  device.status2 = 0 ∧ (device.ready = true ∨
    ∃ left < ticks, ∃ callback, (left + 1, callback) ∈ device.ioDelays)

theorem Ending.keeps {after : FloppyPio} {ticks : Nat} (ending : device.Ending ticks)
    (keeps : device.Keeps after) : after.Ending ticks := by
  refine ⟨keeps.2.1 ending.1, ending.2.imp keeps.2.2 ?_⟩
  rw [keeps.1]
  exact id

theorem Ending.tick {ticks : Nat} (ending : device.Ending ticks) :
    device.tick.Ending (ticks - 1) := by
  refine ⟨status2_tick.trans ending.1, ?_⟩
  rcases ending.2 with isReady | ⟨_ | left, below, callback, queued⟩
  · exact .inl (ready_tick isReady)
  · exact .inl (ready_of_due queued)
  · refine .inr ⟨left, by omega, callback, ?_⟩
    rw [ioDelays_tick]
    exact List.mem_filter.mpr ⟨mem_ticked queued, rfl⟩

theorem Ending.steps {ticks : Nat} (ending : device.Ending ticks) {events : List FloppyPioEvent}
    (quiet : ∀ event ∈ events, Quiet event) :
    (events.foldl step device).Ending (ticks - events.count .tick) := by
  induction events generalizing device ticks with
  | nil => exact ending
  | cons event rest ih =>
    have later : ∀ event ∈ rest, Quiet event := fun _ inside =>
      quiet _ (List.mem_cons_of_mem _ inside)
    by_cases timed : event = .tick
    · subst timed
      rw [List.count_cons_self, Nat.add_comm, ← Nat.sub_sub]
      exact ih ending.tick later
    · rw [List.count_cons_of_ne timed]
      exact ih (ending.keeps (keeps_step (quiet _ List.mem_cons_self) timed))
        later

theorem Ending.endsReady (ending : device.Ending floppyIoDelay) : device.EndsReady := by
  intro events quiet enough
  have last := ending.steps quiet
  rw [Nat.sub_eq_zero_of_le enough] at last
  exact ⟨last.2.resolve_right fun ⟨_, below, _⟩ => absurd below (Nat.not_lt_zero _), last.1⟩

theorem status2_ticks (count : Nat) :
    ((List.replicate count FloppyPioEvent.tick).foldl step device).status2 = device.status2 := by
  induction count generalizing device with
  | zero => rfl
  | succ count ih =>
    rw [List.replicate_succ, List.foldl_cons, ih]
    exact status2_tick

/-- An error stays while nothing but time happens. -/
theorem not_endsReady (error : device.status2 ≠ 0) : ¬device.EndsReady := by
  intro ends
  have quiet : ∀ event ∈ List.replicate floppyIoDelay FloppyPioEvent.tick, Quiet event := by
    intro event inside value same
    rw [List.eq_of_mem_replicate inside] at same
    cases same
  have last := (ends (List.replicate floppyIoDelay .tick) quiet
    (Nat.le_of_eq List.count_replicate_self.symm)).2
  exact error ((status2_ticks floppyIoDelay).symm.trans last)

end Quiet

section Transfers

variable {device : FloppyPio}

/-- The words go to the buffer from the pointer on, and the other places are kept. -/
def loaded (buffer : BitVec 10 → BitVec 16) (pointer : BitVec 10) (words : Nat → BitVec 16)
    (count : Nat) (place : BitVec 10) : BitVec 16 :=
  if (place - pointer).toNat < count then words (place - pointer).toNat else buffer place

theorem offset_succ {place pointer : BitVec 10} (other : place ≠ pointer) :
    (place - pointer).toNat = (place - (pointer + 1)).toNat + 1 := by
  have apart : place.toNat ≠ pointer.toNat := fun same => other (BitVec.eq_of_toNat_eq same)
  have one : BitVec.toNat (1 : BitVec 10) = 1 := rfl
  rw [BitVec.toNat_sub, BitVec.toNat_sub, BitVec.toNat_add, one]
  omega

theorem loaded_step {buffer : BitVec 10 → BitVec 16} {pointer : BitVec 10}
    {words : Nat → BitVec 16} {count : Nat} (short : count < 1024) :
    loaded (Function.update buffer pointer (words 0)) (pointer + 1)
        (fun offset => words (offset + 1)) count =
      loaded buffer pointer words (count + 1) := by
  funext place
  rw [loaded, loaded]
  by_cases first : place = pointer
  · subst first
    have around : (place - (place + 1)).toNat = 1023 := by bv_omega
    have here : (place - place).toNat = 0 := by rw [BitVec.sub_self]; rfl
    rw [if_neg (by omega), Function.update_self, here, if_pos (Nat.succ_pos count)]
  · rw [offset_succ first, Function.update_of_ne first]
    simp only [Nat.add_lt_add_iff_right]

/-- The words of a file that reaches far enough are read, whatever the pointer of the buffer. -/
theorem readWords_eq {image : ByteImage} {index count : Nat} (short : count ≤ 1024)
    (inside : 2 * (index + count) ≤ image.length) :
    device.readWords count ⟨image, 2 * index⟩ =
      (true, { device with
        floppyFile := some ⟨image, 2 * (index + count)⟩
        dataBuffer := loaded device.dataBuffer device.bufferPointer
          (fun offset => image.word (index + offset)) count
        bufferPointer := device.bufferPointer + BitVec.ofNat 10 count }) := by
  induction count generalizing device index with
  | zero =>
    have none : loaded device.dataBuffer device.bufferPointer
        (fun offset => image.word (index + offset)) 0 = device.dataBuffer := funext fun _ => if_neg (Nat.not_lt_zero _)
    have still : device.bufferPointer + BitVec.ofNat 10 0 = device.bufferPointer :=
      BitVec.add_zero _
    rw [readWords, none, putFile, still]
    rfl
  | succ count ih =>
    have high : image.getByte (2 * index) = some (image.byte (2 * index)) :=
      if_pos (by omega)
    have low : image.getByte (2 * index + 1) = some (image.byte (2 * index + 1)) :=
      if_pos (by omega)
    have taken : FloppyFile.ioReadWord ⟨image, 2 * index⟩ =
        (some (image.word index), ⟨image, 2 * (index + 1)⟩) := by
      rw [FloppyFile.ioReadWord]
      dsimp only
      rw [high, low]
      rfl
    have after := @ih
      (device.putBuffer (image.word index)).nextPointer (index + 1) (by omega) (by omega)
    have words := @loaded_step device.dataBuffer device.bufferPointer
      (fun offset => image.word (index + offset)) count (by omega)
    rw [readWords, taken]
    dsimp only
    rw [after, ← words]
    dsimp only [putBuffer, nextPointer]
    simp only [Nat.add_zero, Nat.add_assoc, Nat.add_comm 1]
    have pointer : device.bufferPointer + 1 + BitVec.ofNat 10 count =
        device.bufferPointer + BitVec.ofNat 10 (count + 1) := by bv_omega
    rw [pointer]

/-- The first word that is written ends a command with an error. -/
theorem writeWords_fails {data : FloppyPio → BitVec 16 × FloppyPio} {file : FloppyFile}
    {count : Nat} (some : 0 < count) :
    (device.writeWords data count file).1 = false ∧
      (device.writeWords data count file).2.status2 ≠ 0 := by
  obtain ⟨count, rfl⟩ := Nat.exists_eq_succ_of_ne_zero some.ne'
  rw [writeWords, FloppyFile.ioWriteWord, if_pos rfl]
  refine ⟨rfl, fun none => ?_⟩
  have bit := congrArg (BitVec.getLsbD · 8) none
  simp [clearStatus1, addStatus2, floppyDriveNotReady] at bit

/-- Whatever is read, the disc and the format are kept. -/
theorem disc_readWords {file : FloppyFile} {count : Nat}
    (open' : device.image = some file.image) :
    (device.readWords count file).2.disc = device.disc := by
  have put (after : FloppyFile) (same : after.image = file.image) :
      (device.putFile after).disc = device.disc := by
    rw [disc, disc, open', ← same]
    rfl
  induction count generalizing device file with
  | zero => exact put file rfl
  | succ count ih =>
    have kept : file.ioReadWord.2.image = file.image := by
      rw [FloppyFile.ioReadWord]
      split <;> rfl
    rw [readWords]
    split
    · rename_i after taken
      rw [taken] at kept
      exact put after kept
    · rename_i word after taken
      rw [taken] at kept
      have sameFile : (device.putBuffer word).nextPointer.image = some after.image :=
        open'.trans (congrArg some kept.symm)
      exact ih sameFile fun other same => by
        rw [disc, disc, sameFile, ← same]
        rfl

theorem disc_finish {done : Bool × FloppyPio} : (finish done).disc = done.2.disc := by
  rw [finish]
  split_ifs <;> rfl

/-- A command that writes no sector keeps the disc and its format. -/
theorem disc_executeCommand {file : FloppyFile} {command : FloppyPioCommand}
    (spares : command.writesSectors = false) (open' : device.floppyFile = some file) :
    (device.executeCommand file command).disc = device.disc := by
  have opened : device.image = some file.image := congrArg (Option.map FloppyFile.image) open'
  cases command with
  | formatTrack | writeData | writeDeletedData => exact absurd spares Bool.noConfusion
  | readId => rfl
  | readData =>
    rw [executeCommand, disc_finish]
    by_cases marked : device.sectorIsDeleted device.sector device.track = true
    · rw [if_pos marked]
      exact @disc_readWords (device.addStatus1 floppyDeletedRecord) _ _ opened
    · rw [if_neg marked]
      exact disc_readWords opened
  | seek =>
    rw [executeCommand, disc, disc, opened]
    rfl
  | recalibrate | controlReset | none => rfl

end Transfers

section Commands

variable {device : FloppyPio} {value : BitVec 16}

/-- A command runs on the open file, or the drive is not reached and the disc is kept. -/
theorem executeGo_cases (device : FloppyPio) (command : FloppyPioCommand) :
    (∃ file, device.prepare.ReachesDrive ∧ device.prepare.floppyFile = some file ∧
      device.executeGo command = device.prepare.executeCommand file command) ∨
    ¬device.prepare.ReachesDrive ∧ (device.executeGo command).disc = device.prepare.disc := by
  rw [executeGo]
  by_cases missing : device.prepare.sectorsPrTrack < device.prepare.sector
  · rw [if_pos missing]
    exact .inr ⟨fun reaches => absurd missing (Nat.not_lt.mpr reaches.1), rfl⟩
  · rw [if_neg missing]
    cases opened : device.prepare.floppyFile with
    | none =>
      refine .inr ⟨fun reaches => ?_, rfl⟩
      have file := reaches.2.1
      rw [opened] at file
      exact Bool.noConfusion file
    | some file =>
      cases selected : device.prepare.selectedDrive with
      | none =>
        refine .inr ⟨fun reaches => ?_, rfl⟩
        have drive := reaches.2.2
        rw [selected] at drive
        exact Bool.noConfusion drive
      | some drive =>
        have reaches : device.prepare.ReachesDrive := by
          rw [ReachesDrive, opened, selected]
          exact ⟨Nat.not_lt.mp missing, rfl, rfl⟩
        exact .inl ⟨file, reaches, rfl, rfl⟩

theorem writeControlWord_eq (commands : commandOf value ≠ .none) :
    device.writeControlWord value =
      ({ (device.beforeCommand value).addStatus1 floppyDeviceBusy with
        command := commandOf value }.executeGo (commandOf value)).setInterruptStatus := by
  rw [writeControlWord, if_neg commands]

/-- A command on a drive that is ready runs on the open file. -/
theorem writeControlWord_reaches (commands : commandOf value ≠ .none)
    (reaches : (device.starting value).ReachesDrive) :
    ∃ file, (device.starting value).floppyFile = some file ∧ device.writeControlWord value =
      ((device.starting value).executeCommand file (commandOf value)).setInterruptStatus := by
  rw [writeControlWord_eq commands]
  rcases executeGo_cases { (device.beforeCommand value).addStatus1 floppyDeviceBusy with
    command := commandOf value } (commandOf value) with ⟨file, _, opened, runs⟩ | ⟨missed, _⟩
  · exact ⟨file, opened, congrArg setInterruptStatus runs⟩
  · exact absurd reaches missed

theorem disc_writeControlWord (spares : Spares device (.write 3 value)) :
    (device.writeControlWord value).disc = device.disc := by
  by_cases commands : commandOf value = .none
  · rw [writeControlWord, if_pos commands]
    exact disc_beforeCommand
  · rw [writeControlWord_eq commands]
    rcases executeGo_cases { (device.beforeCommand value).addStatus1 floppyDeviceBusy with
      command := commandOf value } (commandOf value) with ⟨file, reaches, opened, runs⟩ | ⟨_, kept⟩
    · have reads : (commandOf value).writesSectors = false := by
        by_contra writes
        exact spares value rfl (Bool.of_not_eq_false writes) reaches
      rw [runs]
      exact (disc_executeCommand reads opened).trans disc_starting
    · exact kept.trans disc_starting

theorem disc_read (register : Fin 8) : (device.read register).2.disc = device.disc := by
  rw [read]
  by_cases data : register = 0
  · rw [if_pos data]
    rfl
  rw [if_neg data]
  by_cases status : register = 2
  · rw [if_pos status]
    rfl
  rw [if_neg status]
  by_cases errors : register = 4
  · rw [if_pos errors]
  rw [if_neg errors]
  by_cases last : register = 6
  · rw [if_pos last]
    dsimp only
    by_cases testing : device.testMode = true
    · rw [if_pos testing, readTestData]
      split_ifs <;> rfl
    · rw [if_neg testing]
  · rw [if_neg last]

end Commands

section Runs

variable {image : ByteImage} {device : FloppyPio} {store : SectorStore}

/-- The disc is that of the start, and the format is one of the three. -/
structure Untouched (image : ByteImage) (device : FloppyPio) : Prop where
  image_eq : device.image = some image
  unmarked : device.deletedSector = fun _ _ => false
  formatted : device.Formatted

theorem Untouched.kept {after : FloppyPio} (untouched : Untouched image device)
    (same : after.disc = device.disc) : Untouched image after := by
  have parts := Prod.mk.inj same
  have format := Prod.mk.inj (Prod.mk.inj parts.2).2
  refine ⟨parts.1.trans untouched.image_eq, (Prod.mk.inj parts.2).1.trans untouched.unmarked, ?_⟩
  rw [Formatted, format.1, format.2]
  exact untouched.formatted

theorem Untouched.writeDriveAddress (untouched : Untouched image device) (value : BitVec 16) :
    Untouched image (device.writeDriveAddress value) := by
  rw [FloppyPio.writeDriveAddress]
  by_cases drive : value.getLsbD 0 = true
  · rw [if_pos drive, selectFormat]
    split_ifs
    all_goals exact ⟨untouched.image_eq, untouched.unmarked, by simp [Formatted]⟩
  · rw [if_neg drive]
    exact untouched.kept rfl

theorem Untouched.step {event : FloppyPioEvent} (untouched : Untouched image device)
    (spares : device.Spares event) : Untouched image (device.step event) := by
  cases event with
  | read register => exact untouched.kept (disc_read register)
  | write register value =>
    change Untouched image (device.write register value)
    rw [write]
    by_cases data : register = 1
    · rw [if_pos data]
      exact untouched.kept rfl
    rw [if_neg data]
    by_cases control : register = 3
    · rw [if_pos control]
      exact untouched.kept (disc_writeControlWord (control ▸ spares))
    rw [if_neg control]
    by_cases address : register = 5
    · rw [if_pos address]
      exact untouched.writeDriveAddress value
    rw [if_neg address]
    by_cases sector : register = 7
    · rw [if_pos sector, writeSector]
      split_ifs
      all_goals exact untouched.kept rfl
    · rw [if_neg sector]
      exact untouched
  | tick => exact untouched.kept disc_tick
  | ident level =>
    change Untouched image (device.ident level)
    rw [ident]
    split_ifs
    · exact untouched.kept rfl
    · exact untouched
  | reset => exact untouched.kept rfl

theorem sectorIsDeleted_unmarked (unmarked : device.deletedSector = fun _ _ => false)
    (sector track : Nat) : device.sectorIsDeleted sector track = false := by
  rw [sectorIsDeleted, unmarked]
  exact ite_self _

/-- While no command writes, the disc and the store stay as they were at the start. -/
theorem floppyPioRun_untouched (run : FloppyPioRun Spares image device store) :
    Untouched image device ∧ store = { word := image.word, deleted := fun _ _ => false } := by
  induction run with
  | start => exact ⟨⟨rfl, rfl, by simp [Formatted, create]⟩, rfl⟩
  | @step device store event run may ih =>
    obtain ⟨untouched, rfl⟩ := ih
    refine ⟨untouched.step may, ?_⟩
    cases event with
    | read | tick | ident | reset => rfl
    | write register value =>
      rw [SectorStore.next]
      split_ifs with reaches
      · have reads : (commandOf value).writesSectors = false := by
          by_contra writes
          exact may value (by rw [reaches.1]) (Bool.of_not_eq_false writes) reaches.2
        rw [SectorStore.after, reads]
        simp
      · rfl

end Runs

section Sectors

variable {image : ByteImage} {device : FloppyPio} {store : SectorStore}

/-- The places that an access moves lie inside the image. -/
def Inside (device : FloppyPio) (command : FloppyPioCommand) (image : ByteImage) : Prop :=
  ∀ place, device.Moves command place → 2 * place + 1 < image.length

theorem status2_prepare (device : FloppyPio) : device.prepare.status2 = 0 := rfl

theorem status2_setInterruptStatus : device.setInterruptStatus.status2 = device.status2 := rfl

theorem unseen_prepare (device : FloppyPio) : device.prepare.status1.getLsbD 5 = false := by
  have cleared : (~~~(floppyReadyForTransfer ||| floppyReadWriteComplete ||| floppySeekComplete |||
      floppyDeletedRecord)).getLsbD 5 = false := by decide
  rw [prepare, BitVec.getLsbD_and, cleared, Bool.and_false]

/-- A format of one of the three kinds has sectors of some words, but of fewer than the buffer. -/
theorem Formatted.words (formatted : device.Formatted) (reaches : device.ReachesDrive)
    (numbered : 0 < device.sector) :
    0 < device.sectorsPrTrack ∧ 0 < device.transferWordCount ∧ device.transferWordCount ≤ 1024 ∧
      device.bytesPrSector = 2 * device.transferWordCount := by
  have sectors : 0 < device.sectorsPrTrack := Nat.lt_of_lt_of_le numbered reaches.1
  rw [transferWordCount]
  simp only [Formatted, List.mem_cons, Prod.mk.injEq, List.not_mem_nil, or_false] at formatted
  omega

theorem position_eq (even : device.bytesPrSector = 2 * device.transferWordCount) :
    device.position = 2 * device.firstWord device.sector := by
  rw [position, firstWord, even]
  ring

theorem numbered_starting (value : BitVec 16) : 0 < (device.starting value).sector := by
  change 0 < if (device.beforeCommand value).sector = 0 then 1
    else (device.beforeCommand value).sector
  split_ifs with zero
  · exact Nat.one_pos
  · exact Nat.pos_of_ne_zero zero

/-- A command that writes ends with an error at its first word. -/
theorem executeCommand_fails {file : FloppyFile} {command : FloppyPioCommand}
    (writes : command.writesSectors = true) (sectors : 0 < device.sectorsPrTrack)
    (words : 0 < device.transferWordCount) :
    (device.executeCommand file command).status2 ≠ 0 := by
  cases command with
  | formatTrack =>
    obtain ⟨count, some⟩ := Nat.exists_eq_succ_of_ne_zero sectors.ne'
    obtain ⟨failed, error⟩ := @writeWords_fails device fromFormat (file.seek
      (1 * device.bytesPrSector + device.track * device.bytesPrSector * device.sectorsPrTrack)) _
      words
    have first : device.formatSectors device.sectorsPrTrack 1
        (file.seek (1 * device.bytesPrSector +
          device.track * device.bytesPrSector * device.sectorsPrTrack)) =
        device.writeWords fromFormat device.transferWordCount (file.seek
          (1 * device.bytesPrSector +
            device.track * device.bytesPrSector * device.sectorsPrTrack)) := by
      rw [some] at failed ⊢
      rw [formatSectors, if_neg (by rw [failed]; exact Bool.noConfusion)]
    rw [executeCommand, first, finish, if_neg (by rw [failed]; exact Bool.noConfusion)]
    exact error
  | writeData =>
    obtain ⟨failed, error⟩ := @writeWords_fails device fromBuffer
      (file.seek device.position) _ words
    rw [executeCommand, if_neg (by rw [failed]; exact Bool.noConfusion)]
    exact error
  | writeDeletedData =>
    obtain ⟨failed, error⟩ := @writeWords_fails
      (device.setSectorAsDeleted device.sector device.track true) fromBuffer
      (file.seek device.position) _ words
    rw [executeCommand, finish, if_neg (by rw [failed]; exact Bool.noConfusion)]
    exact error
  | readId | readData | seek | recalibrate | controlReset | none =>
    exact absurd writes Bool.noConfusion

/-- A read of a sector without errors ends in time. -/
theorem executeCommand_reads {file : FloppyFile}
    (unmarked : device.deletedSector = fun _ _ => false)
    (even : device.bytesPrSector = 2 * device.transferWordCount)
    (short : device.transferWordCount ≤ 1024)
    (inside : 2 * (device.firstWord device.sector + device.transferWordCount) ≤ file.image.length) :
    device.executeCommand file .readData =
      { device with
        floppyFile := some
          ⟨file.image, 2 * (device.firstWord device.sector + device.transferWordCount)⟩
        dataBuffer := loaded device.dataBuffer device.bufferPointer
          (fun offset => file.image.word (device.firstWord device.sector + offset))
          device.transferWordCount
        bufferPointer := device.bufferPointer + BitVec.ofNat 10 device.transferWordCount
        ioDelays := device.ioDelays ++ [(floppyIoDelay, .read)] } := by
  rw [executeCommand, if_neg (by rw [sectorIsDeleted_unmarked unmarked]; exact Bool.noConfusion),
    FloppyFile.seek, position_eq even, readWords_eq short inside]
  rfl

theorem executeCommand_performs {file : FloppyFile} (untouched : Untouched file.image device)
    (clean : device.status2 = 0) (unseen : device.status1.getLsbD 5 = false)
    (even : device.bytesPrSector = 2 * device.transferWordCount)
    (short : device.transferWordCount ≤ 1024)
    (inside : 2 * (device.firstWord device.sector + device.transferWordCount) ≤ file.image.length) :
    device.Performs { word := file.image.word, deleted := fun _ _ => false } .readData
      (device.executeCommand file .readData).setInterruptStatus := by
  rw [executeCommand_reads untouched.unmarked even short inside]
  refine ⟨⟨⟨file.image, rfl, fun _ => rfl⟩, fun track sector => ?_⟩, fun _ offset below => ?_,
    fun _ => unseen, ?_⟩
  · exact sectorIsDeleted_unmarked untouched.unmarked sector track
  · have place : (device.bufferPointer + BitVec.ofNat 10 offset - device.bufferPointer).toNat =
        offset := by
      have small : offset < 1024 := Nat.lt_of_lt_of_le below short
      bv_omega
    have taken : loaded device.dataBuffer device.bufferPointer
        (fun offset => file.image.word (device.firstWord device.sector + offset))
        device.transferWordCount (device.bufferPointer + BitVec.ofNat 10 offset) =
          file.image.word (device.firstWord device.sector + offset) := by
      rw [loaded, place, if_pos below]
    exact taken
  · apply Ending.endsReady
    refine ⟨clean, .inr ⟨floppyIoDelay - 1, by decide, .read, ?_⟩⟩
    exact List.mem_append_right _ List.mem_cons_self

/-- The words of a command that reads lie inside the image. -/
theorem Inside.enough {command : FloppyPioCommand} (inside : device.Inside command image)
    (words : 0 < device.transferWordCount) (reads : command.writesSectors = false) :
    2 * (device.firstWord device.sector + device.transferWordCount) ≤ image.length := by
  have one : device.sectorsOf command = (device.sector, 1) := by
    rw [sectorsOf, if_neg]
    rintro rfl
    exact Bool.noConfusion reads
  have last := inside (device.firstWord device.sector + device.transferWordCount - 1)
  rw [Moves, one] at last
  dsimp only at last
  have := last (by omega)
  omega

/-- One track in the smallest format. -/
def oneTrack : ByteImage where
  length := 3328
  byte := fun _ => 0
  blank := fun _ _ => rfl

/-- Drive 0 is selected in the smallest format, and then the first sector. -/
def firstSector : FloppyPio :=
  ((create (some ⟨oneTrack, 0⟩)).step (.write 5 0x0001)).step (.write 7 0x0100)

theorem firstSector_run {allowed : FloppyPio → FloppyPioEvent → Prop}
    (may : ∀ device register value, register ≠ 3 → allowed device (.write register value)) :
    FloppyPioRun allowed oneTrack firstSector
      { word := oneTrack.word, deleted := fun _ _ => false } :=
  (FloppyPioRun.start.step (may _ 5 0x0001 (by decide))).step (may _ 7 0x0100 (by decide))

theorem firstSector_inside {value : BitVec 16}
    (words : (firstSector.starting value).firstWord 1 +
      1 * (firstSector.starting value).transferWordCount = 64)
    (one : (firstSector.starting value).sectorsOf (commandOf value) = (1, 1)) :
    (firstSector.starting value).Inside (commandOf value) oneTrack := by
  rintro place ⟨_, below⟩
  rw [one, words] at below
  change 2 * place + 1 < 3328
  omega

/-- In every run in which no command that writes reaches the drive, a command on sectors inside
the image does what it is for exactly when it is a read. -/
theorem floppyPio_sectors (run : FloppyPioRun Spares image device store) (value : BitVec 16)
    (moves : (commandOf value).movesSectors = true)
    (reaches : (device.starting value).ReachesDrive)
    (inside : (device.starting value).Inside (commandOf value) image) :
    (device.starting value).Performs store (commandOf value) (device.write 3 value) ↔
      (commandOf value).writesSectors = false := by
  obtain ⟨untouched, rfl⟩ := floppyPioRun_untouched run
  have started := untouched.kept (@disc_starting device value)
  obtain ⟨sectors, words, short, even⟩ :=
    started.formatted.words reaches (numbered_starting value)
  have commands : commandOf value ≠ .none := by
    intro none
    rw [none] at moves
    exact Bool.noConfusion moves
  obtain ⟨file, opened, runs⟩ := writeControlWord_reaches commands reaches
  have written : device.write 3 value = device.writeControlWord value := rfl
  have sameImage : file.image = image := by
    have here := started.image_eq
    rw [FloppyPio.image, opened] at here
    exact Option.some.inj here
  subst sameImage
  rw [written, runs]
  constructor
  · intro performs
    by_contra writes
    refine not_endsReady ?_ performs.ends
    rw [status2_setInterruptStatus]
    exact executeCommand_fails (Bool.of_not_eq_false writes) sectors words
  · intro reads
    have read : commandOf value = .readData := by
      cases command : commandOf value <;> rw [command] at reads moves <;> first
        | rfl | exact absurd reads Bool.noConfusion | exact absurd moves Bool.noConfusion
    have enough := inside.enough words reads
    rw [read]
    exact executeCommand_performs started (status2_prepare _) (unseen_prepare _) even short enough

theorem floppyPio_sectors_read :
    (firstSector.starting 0x1000).Performs
      { word := oneTrack.word, deleted := fun _ _ => false } .readData
      (firstSector.write 3 0x1000) :=
  (floppyPio_sectors
    (firstSector_run fun _ _ _ other _ same => absurd (FloppyPioEvent.write.inj same).1 other)
    0x1000 (by decide) (by decide) (firstSector_inside (by decide) (by decide))).mpr rfl

/-- A write of a sector that the drive takes ends with an error and is not ready. -/
theorem floppyPio_write_fails :
    ∃ device store, FloppyPioRun (fun _ _ => True) oneTrack device store ∧
      commandOf 0x0200 = .writeData ∧ (device.starting 0x0200).ReachesDrive ∧
      (device.starting 0x0200).Inside .writeData oneTrack ∧
      ¬(device.starting 0x0200).Performs store .writeData (device.write 3 0x0200) :=
  ⟨firstSector, _, firstSector_run fun _ _ _ _ => trivial, by decide, by decide,
    @firstSector_inside 0x0200 (by decide) (by decide),
    fun performs => not_endsReady (by decide) performs.ends⟩

end Sectors

end FloppyPio

end Nd100x.Devices
