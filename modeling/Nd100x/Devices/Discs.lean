import Nd100x.Devices.Surface

namespace Nd100x.Devices

/-- There are eight registers. -/
local instance discRegisters : NeZero 8 := ⟨by decide⟩

open Nd100x.Hdlc (CoreMemory)
open Nd100x.Library

def drumStatusDva : BitVec 16 := 0o020
def drumStatusErr : BitVec 16 := 0o040
def drumCtrlGoMask : BitVec 16 := 0o7
def drumCtrlGoValue : BitVec 16 := 0o7
def drumCtrlClear : BitVec 16 := 0o4
def drumSectorsPerTrack : Nat := 32
def drumWordsPerSector : Nat := 64
def drumMaxWords : Nat := 65536 * drumWordsPerSector
def drumIntLevel : Nat := 11
def drumIdentCode : BitVec 16 := 0o24
def ioDelayHddSmd : Nat := 10

/-- The core address has 18 bits. -/
structure Drum where
  coreAddress : BitVec 18
  blockAddress : BitVec 16
  wordCount : BitVec 16
  control : BitVec 16
  status : BitVec 16
  interruptEnabled : Bool
  surface : Surface
  surfaceWords : Nat
  backingFile : Option ByteImage
  ioDelays : List Nat
  interrupt : Bool

namespace Drum

/-- An existing image is loaded, and a missing one is written with zeros. -/
def attachBacking (surfaceWords : Nat) : BackingPath → Surface × Option ByteImage
  | .unset => (fun _ => 0, none)
  | .missing => (fun _ => 0, some (ByteImage.empty.putWords (fun _ => 0) surfaceWords 0))
  | .existing image => (image.loadWords surfaceWords 0 fun _ => 0, some image)

/-- The surface has all the blocks that a block address can name. -/
def create (path : BackingPath) : Drum where
  coreAddress := 0
  blockAddress := 0
  wordCount := 0
  control := 0
  status := 0
  interruptEnabled := false
  surface := (attachBacking drumMaxWords path).1
  surfaceWords := drumMaxWords
  backingFile := (attachBacking drumMaxWords path).2
  ioDelays := []
  interrupt := false

def sector (drum : Drum) : Nat := (drum.blockAddress.extractLsb' 11 5).toNat

def track (drum : Drum) : Nat := (drum.blockAddress.extractLsb' 0 11).toNat

def operation (drum : Drum) : DiscOperation := .ofBits (drum.control.extractLsb' 11 2)

def wordOffset (drum : Drum) : Nat :=
  (drum.track * drumSectorsPerTrack + drum.sector) * drumWordsPerSector

def queueIoDelay (drum : Drum) : Drum := { drum with ioDelays := drum.ioDelays ++ [ioDelayHddSmd] }

def putStatus (drum : Drum) (status : BitVec 16) : Drum := { drum with status := status }

/-- The words written go through to the file. -/
def writeThrough (drum : Drum) (surface : Surface) (count offset : Nat) : Drum :=
  { drum with
    surface := surface
    backingFile := drum.backingFile.map (·.putWords surface count offset) }

/-- A transfer past the end of the surface moves nothing. -/
def executeGo (drum : Drum) (memory : CoreMemory) : CoreMemory × Drum :=
  let core := drum.coreAddress.toNat
  let offset := drum.wordOffset
  let count := drum.wordCount.toNat
  let active := drum.putStatus ((drum.status &&& ~~~drumStatusErr) ||| drumStatusDva)
  if drum.surfaceWords < offset ∨ drum.surfaceWords - offset < count then
    (memory, (active.putStatus (active.status ||| drumStatusErr)).queueIoDelay)
  else
    match drum.operation with
    | .read => (storeWords drum.surface count core offset memory, active.queueIoDelay)
    | .write =>
      (memory, (active.writeThrough (fetchWords memory count core offset drum.surface) count
        offset).queueIoDelay)
    | .verify => (memory, active.queueIoDelay)
    | .compare =>
      if wordsDiffer memory drum.surface count core offset then
        (memory, (active.putStatus (active.status ||| drumStatusErr)).queueIoDelay)
      else (memory, active.queueIoDelay)

def loadControl (drum : Drum) (value : BitVec 16) : Drum :=
  { drum with
    control := value
    coreAddress := (drum.coreAddress &&& 0x0FFFF) |||
      ((value.extractLsb' 5 2).setWidth 18 <<< 16) }

def starts (value : BitVec 16) : Bool := value &&& drumCtrlGoMask = drumCtrlGoValue

/-- Of the eight registers the odd ones are written. -/
def write (drum : Drum) (memory : CoreMemory) (register : Fin 8) (value : BitVec 16) :
    CoreMemory × Drum :=
  if register = 1 then
    (memory, { drum with coreAddress := (drum.coreAddress &&& 0x30000) ||| value.setWidth 18 })
  else if register = 3 then (memory, { drum with blockAddress := value })
  else if register = 7 then (memory, { drum with wordCount := value })
  else if register = 5 then
    if starts value then
      { drum.loadControl value with interruptEnabled := true }.executeGo memory
    else if value = drumCtrlClear then
      (memory, { drum.loadControl value with
        status := drum.status &&& ~~~drumStatusDva
        interruptEnabled := false })
    else (memory, drum.loadControl value)
  else (memory, drum)

def read (drum : Drum) (register : Fin 8) : BitVec 16 :=
  if register = 4 then drum.status
  else if register = 0 then drum.coreAddress.setWidth 16
  else 0

/-- The end of an operation tells whether to interrupt. -/
def drumEnd (drum : Drum) : Bool × Drum :=
  (drum.interruptEnabled, drum.putStatus (drum.status &&& ~~~drumStatusDva))

def fire (drum : Drum) : Drum :=
  { drum.drumEnd.2 with interrupt := drum.interrupt || drum.drumEnd.1 }

def tick (drum : Drum) : Drum :=
  let left := drum.ioDelays.map (· - 1)
  Nat.repeat fire (left.countP (· = 0)) { drum with ioDelays := left.filter (· ≠ 0) }

/-- The answer clears the interrupt of its level. -/
def ident (drum : Drum) (level : Nat) : BitVec 16 × Drum :=
  if level = drumIntLevel ∧ drum.interrupt then (drumIdentCode, { drum with interrupt := false })
  else (0, drum)

def reset (drum : Drum) : Drum :=
  { drum with
    coreAddress := 0
    blockAddress := 0
    wordCount := 0
    control := 0
    status := 0
    interruptEnabled := false
    interrupt := false }

/-- The whole surface is written before the file is closed. -/
def destroy (drum : Drum) : Option ByteImage :=
  drum.backingFile.map (·.putWords drum.surface drum.surfaceWords 0)

end Drum

def cdcWordsPerSector : Nat := 256
def cdcSectorBytes : Nat := cdcWordsPerSector * 2
def cdcDefaultSectors : Nat := 512
def cdcTestmodeBlock : BitVec 16 := 0o125252
def cdcIntLevel : Nat := 11
def cdcIdentCode : BitVec 16 := 0o1

/-- The bits of the status word that the card sets and clears. -/
def cdcActive : BitVec 16 := 0x0004
def cdcReadyForTransfer : BitVec 16 := 0x0008
def cdcErrorOr : BitVec 16 := 0x0010
def cdcAddressMismatch : BitVec 16 := 0x0100
def cdcCompareError : BitVec 16 := 0x0400
def cdcTransferComplete : BitVec 16 := 0x1000
def cdcTransferOn : BitVec 16 := 0x2000
def cdcOnCylinder : BitVec 16 := 0x4000

/-- Write protect, time out, hardware error, address mismatch, parity, compare and memory error
with their sum. -/
def cdcErrors : BitVec 16 := 0x0FF0

structure Cdc where
  coreAddrLow : BitVec 16
  rcaReadPhase : Bool
  blockAddress : BitVec 16
  wordCount : BitVec 16
  control : BitVec 16
  status : BitVec 16
  sectorCounter : BitVec 16
  interruptEnabled : Bool
  surface : Surface
  surfaceSectors : Nat
  backingFile : Option ByteImage
  ioDelays : List Nat
  interrupt : Bool

/-- A pattern of words that does not come from the surface. -/
def cdcTestWords : Surface := fun index => if index % 2 = 1 then 0o052525 else 0o125252

namespace Cdc

def surfaceWords (cdc : Cdc) : Nat := cdc.surfaceSectors * cdcWordsPerSector

/-- The surface grows to hold the whole file. -/
def sectorsFor (image : ByteImage) : Nat :=
  max cdcDefaultSectors ((image.length + cdcSectorBytes - 1) / cdcSectorBytes)

/-- An existing image is loaded, and a missing one is written with zeros. -/
def attachBacking : BackingPath → Nat × Surface × Option ByteImage
  | .unset => (cdcDefaultSectors, fun _ => 0, none)
  | .missing =>
    (cdcDefaultSectors, fun _ => 0,
      some (ByteImage.empty.putWords (fun _ => 0) (cdcDefaultSectors * cdcWordsPerSector) 0))
  | .existing image =>
    (sectorsFor image, image.loadWords (sectorsFor image * cdcWordsPerSector) 0 fun _ => 0,
      some image)

def create (path : BackingPath) : Cdc where
  coreAddrLow := 0
  rcaReadPhase := false
  blockAddress := 0
  wordCount := 0
  control := 0
  status := cdcOnCylinder
  sectorCounter := 0
  interruptEnabled := false
  surface := (attachBacking path).2.1
  surfaceSectors := (attachBacking path).1
  backingFile := (attachBacking path).2.2
  ioDelays := []
  interrupt := false

def testMode (cdc : Cdc) : Bool := cdc.control.getLsbD 3

def operation (cdc : Cdc) : DiscOperation := .ofBits (cdc.control.extractLsb' 11 2)

/-- The control word gives bits 16 and 17 of the core address. -/
def effectiveCore (cdc : Cdc) : Nat :=
  (cdc.coreAddrLow.setWidth 18 ||| ((cdc.control.extractLsb' 5 2).setWidth 18 <<< 16)).toNat

/-- The block address is the number of a sector. -/
def lbaToSector (lba : BitVec 16) : Nat := lba.toNat

def wordOffset (cdc : Cdc) : Nat := lbaToSector cdc.blockAddress * cdcWordsPerSector

def queueIoDelay (cdc : Cdc) : Cdc := { cdc with ioDelays := cdc.ioDelays ++ [ioDelayHddSmd] }

def putStatus (cdc : Cdc) (status : BitVec 16) : Cdc := { cdc with status := status }

def addError (cdc : Cdc) (bit : BitVec 16) : Cdc :=
  cdc.putStatus (cdc.status ||| (bit ||| cdcErrorOr))

/-- The words written go through to the file. -/
def writeThrough (cdc : Cdc) (surface : Surface) (count offset : Nat) : Cdc :=
  { cdc with
    surface := surface
    backingFile := cdc.backingFile.map (·.putWords surface count offset) }

/-- The errors and the completion are cleared, and the transfer is on. -/
def activate (cdc : Cdc) : Cdc :=
  { cdc with
    sectorCounter := BitVec.ofNat 16 (lbaToSector cdc.blockAddress)
    status := (cdc.status &&& ~~~(cdcErrors ||| cdcTransferComplete)) |||
      (cdcActive ||| cdcTransferOn) }

/-- A test read gives a pattern for one block address and touches no surface. -/
def executeTest (cdc : Cdc) (memory : CoreMemory) : CoreMemory × Cdc :=
  if cdc.blockAddress = cdcTestmodeBlock then
    (storeWords cdcTestWords cdc.wordCount.toNat cdc.effectiveCore 0 memory, cdc.queueIoDelay)
  else (memory, (cdc.addError cdcAddressMismatch).queueIoDelay)

def executeGo (cdc : Cdc) (memory : CoreMemory) : CoreMemory × Cdc :=
  let core := cdc.effectiveCore
  let offset := cdc.wordOffset
  let count := cdc.wordCount.toNat
  let active := cdc.activate
  if cdc.testMode ∧ cdc.operation = .read then active.executeTest memory
  else if cdc.surfaceWords < offset ∨ cdc.surfaceWords - offset < count then
    (memory, (active.addError cdcAddressMismatch).queueIoDelay)
  else
    match cdc.operation with
    | .read => (storeWords cdc.surface count core offset memory, active.queueIoDelay)
    | .write =>
      (memory, (active.writeThrough (fetchWords memory count core offset cdc.surface) count
        offset).queueIoDelay)
    | .verify => (memory, active.queueIoDelay)
    | .compare =>
      if wordsDiffer memory cdc.surface count core offset then
        (memory, (active.addError cdcCompareError).queueIoDelay)
      else (memory, active.queueIoDelay)

def deviceClear (cdc : Cdc) : Cdc :=
  { cdc with
    status := cdc.status &&& ~~~(cdcActive ||| cdcErrors ||| cdcTransferOn)
    interruptEnabled := false
    rcaReadPhase := false }

/-- Of the eight registers the odd ones are written. -/
def write (cdc : Cdc) (memory : CoreMemory) (register : Fin 8) (value : BitVec 16) :
    CoreMemory × Cdc :=
  if register = 1 then (memory, { cdc with coreAddrLow := value, rcaReadPhase := false })
  else if register = 3 then (memory, { cdc with blockAddress := value })
  else if register = 7 then (memory, { cdc with wordCount := value })
  else if register = 5 then
    if value.getLsbD 2 then
      { cdc with control := value, interruptEnabled := true }.executeGo memory
    else if value.getLsbD 4 then (memory, { cdc with control := value }.deviceClear)
    else (memory, { cdc with control := value })
  else (memory, cdc)

/-- The core address is read in two parts, and a status read starts again with the low one. -/
def read (cdc : Cdc) (register : Fin 8) : BitVec 16 × Cdc :=
  if register = 4 then (cdc.status, { cdc with rcaReadPhase := false })
  else if register = 0 then
    if cdc.rcaReadPhase then
      (BitVec.ofNat 16 (cdc.effectiveCore >>> 16), { cdc with rcaReadPhase := false })
    else (BitVec.ofNat 16 cdc.effectiveCore, { cdc with rcaReadPhase := true })
  else if register = 2 then (cdc.sectorCounter, cdc)
  else if register = 6 then (if cdc.testMode then cdc.blockAddress else cdc.status, cdc)
  else (0, cdc)

/-- The completion interrupts whether interrupts are enabled or not. -/
def cdcEnd (cdc : Cdc) : Cdc :=
  { cdc with
    status := (cdc.status &&& ~~~(cdcActive ||| cdcTransferOn)) |||
      (cdcTransferComplete ||| cdcReadyForTransfer)
    interrupt := true }

def tick (cdc : Cdc) : Cdc :=
  let left := cdc.ioDelays.map (· - 1)
  Nat.repeat cdcEnd (left.countP (· = 0)) { cdc with ioDelays := left.filter (· ≠ 0) }

def ident (cdc : Cdc) (level : Nat) : BitVec 16 × Cdc :=
  if level = cdcIntLevel ∧ cdc.interrupt then
    (cdcIdentCode, { cdc with interruptEnabled := false, interrupt := false })
  else (0, cdc)

def reset (cdc : Cdc) : Cdc :=
  { cdc with
    coreAddrLow := 0
    rcaReadPhase := false
    blockAddress := 0
    wordCount := 0
    control := 0
    status := cdcOnCylinder
    sectorCounter := 0
    interruptEnabled := false
    interrupt := false }

/-- The whole surface is written before the file is closed. -/
def destroy (cdc : Cdc) : Option ByteImage :=
  cdc.backingFile.map (·.putWords cdc.surface cdc.surfaceWords 0)

/-- The ports of the controller on the older channel. -/
inductive IotPort where
  | disc
  | dct
  | other
  deriving DecidableEq, Repr

/-- What an access on the older channel answers: whether it is taken, the register A and whether
to skip. -/
structure IotAnswer where
  taken : Bool
  regA : BitVec 16
  skip : Bool

/-- Bit 0 activates, bit 1 asks whether to skip and bit 2 prepares the interrupt. The control port
has no control word, and its modus register is the word count. -/
def iotOp (cdc : Cdc) (memory : CoreMemory) (port : IotPort) (func : BitVec 3) (regA : BitVec 16)
    (skip : Bool) : IotAnswer × CoreMemory × Cdc :=
  match port with
  | .disc =>
    let prepared := if func.getLsbD 2 then { cdc with interruptEnabled := true } else cdc
    let skips := if func.getLsbD 1 then !prepared.status.getLsbD 2 else skip
    (⟨true, regA, skips⟩, if func.getLsbD 0 then prepared.executeGo memory else (memory, prepared))
  | .dct =>
    if func = 0 then (⟨true, regA, skip⟩, cdc.write memory 1 regA)
    else if func = 1 then (⟨true, regA, skip⟩, cdc.write memory 3 regA)
    else if func = 2 then (⟨true, regA, skip⟩, cdc.write memory 7 regA)
    else if func = 3 then (⟨true, (cdc.read 6).1, skip⟩, memory, (cdc.read 6).2)
    else if func = 4 then (⟨true, (cdc.read 4).1, !cdc.status.getLsbD 4⟩, memory, (cdc.read 4).2)
    else if func = 5 then (⟨true, (cdc.read 0).1, skip⟩, memory, (cdc.read 0).2)
    else if func = 6 then (⟨true, (cdc.read 2).1, skip⟩, memory, (cdc.read 2).2)
    else (⟨true, regA, skip⟩, memory, cdc.reset)
  | .other => (⟨false, regA, skip⟩, memory, cdc)

end Cdc

end Nd100x.Devices
