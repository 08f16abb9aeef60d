import Nd100x.Devices.MountedDrive
import Nd100x.Library.KeyedArray

namespace Nd100x.Smd

open Nd100x.Devices
open Nd100x.Library

section Geometry

inductive DiskType where
  | unknown
  | disk38Mb
  | disk75Mb
  | disk150Mb
  | disk288Mb
  | disk474Mb
  | disk515Mb
  | disk825Mb
  | dt135
  | dt285
  | dt300
  | dt450
  | dt460
  | dt310
  | dt470
  | dt290
  deriving DecidableEq, Repr

structure Geometry where
  headsPrCylinder : Nat
  sectorsPrTrack : Nat
  maxCylinders : Nat

/-- A sector has 1024 bytes on every drive. -/
def bytesPrSector : Nat := 1024

/-- A drive of no type has no sectors. -/
def DiskType.geometry : DiskType → Geometry
  | .unknown => ⟨0, 0, 0⟩
  | .disk38Mb => ⟨5, 18, 411⟩
  | .disk75Mb => ⟨5, 18, 823⟩
  | .disk150Mb => ⟨10, 18, 823⟩
  | .disk288Mb => ⟨19, 18, 823⟩
  | .disk474Mb => ⟨20, 24, 842⟩
  | .disk515Mb => ⟨24, 26, 711⟩
  | .disk825Mb => ⟨16, 44, 1024⟩
  | .dt135 => ⟨10, 17, 823⟩
  | .dt285 => ⟨24, 17, 711⟩
  | .dt300 => ⟨24, 18, 711⟩
  | .dt450 => ⟨24, 26, 711⟩
  | .dt460 => ⟨24, 27, 711⟩
  | .dt310 => ⟨10, 26, 1217⟩
  | .dt470 => ⟨19, 31, 760⟩
  | .dt290 => ⟨10, 35, 823⟩

structure Layout where
  type : DiskType
  isDefault : Bool

/-- These are the layouts of the operating system. -/
def smdLayouts : List Layout :=
  [⟨.disk38Mb, true⟩, ⟨.disk75Mb, true⟩, ⟨.dt135, false⟩, ⟨.disk150Mb, true⟩, ⟨.disk288Mb, true⟩,
    ⟨.dt285, false⟩, ⟨.dt300, false⟩, ⟨.dt450, true⟩, ⟨.dt460, false⟩, ⟨.dt310, false⟩,
    ⟨.dt470, false⟩, ⟨.dt290, false⟩]

def Layout.size (layout : Layout) : Nat :=
  layout.type.geometry.maxCylinders * layout.type.geometry.headsPrCylinder *
    layout.type.geometry.sectorsPrTrack * 1024

/-- The largest default layout that fits in the file. -/
def largestDefault (fileSize : Nat) : DiskType :=
  (smdLayouts.foldl (fun best layout =>
    if layout.isDefault ∧ layout.size ≤ fileSize ∧ best.2 < layout.size then
      (layout.type, layout.size)
    else best) (.disk75Mb, 0)).1

/-- The old windows come first, then a layout of the same length. -/
def smdDiskTypeForSize (fileSize : Nat) : DiskType :=
  if 0x1000000 < fileSize ∧ fileSize ≤ 0x2000000 then .disk150Mb
  else if 0x9600000 ≤ fileSize ∧ fileSize ≤ 0x9601000 then .disk150Mb
  else if 0x12000000 ≤ fileSize ∧ fileSize ≤ 0x12001000 then .disk288Mb
  else if 0x33900000 ≤ fileSize then .disk825Mb
  else
    match smdLayouts.find? fun layout =>
      layout.size ≤ fileSize ∧ fileSize ≤ layout.size + 4096 with
    | some layout => layout.type
    | none => largestDefault fileSize

end Geometry

section Drive

/-- One track whose address fields are not the natural ones. -/
structure SmdTrackFormat where
  cylinder : Nat
  head : Nat
  field : List (BitVec 16 × BitVec 16)

structure DiskInfo where
  diskUnitNotReady : Bool
  onCylinder : Bool
  armCylinder : Nat
  formattedTracks : List SmdTrackFormat
  diskIsWriteProtected : Bool
  diskType : DiskType
  diskFileSize : Nat

def smdMaxSectorsPerTrack : Nat := 64
def ioDelayHddSmd : Nat := 10

namespace DiskInfo

def headsPrCylinder (disk : DiskInfo) : Nat := disk.diskType.geometry.headsPrCylinder
def sectorsPrTrack (disk : DiskInfo) : Nat := disk.diskType.geometry.sectorsPrTrack
def maxCylinders (disk : DiskInfo) : Nat := disk.diskType.geometry.maxCylinders

def convertToLogicalBlock (disk : DiskInfo) (cylinder head sector : Nat) : Nat :=
  if cylinder = 0 ∧ head = 0 ∧ sector = 0 then 0
  else (cylinder * disk.headsPrCylinder + head) * disk.sectorsPrTrack + sector

end DiskInfo

end Drive

section Timing

def smdMsToTicks (msX10 : Nat) : Nat := msX10 * 5275 / 100

def smdTicksPerRev : Nat := smdMsToTicks 167
def smdSeekOneTrackTicks : Nat := smdMsToTicks 60
def smdSeekAverageTicks : Nat := smdMsToTicks 300
def smdSeekFullStrokeTicks : Nat := smdMsToTicks 550

namespace DiskInfo

/-- Two straight lines through one track, a third of the stroke and the full stroke. -/
def seekTicks (disk : DiskInfo) (target : Nat) : Nat :=
  let distance := (disk.armCylinder - target) + (target - disk.armCylinder)
  let full := disk.maxCylinders - 1
  let third := full / 3
  if distance = 0 then 0
  else if full < 3 ∨ third < 2 then smdSeekOneTrackTicks
  else if distance ≤ third then
    smdSeekOneTrackTicks +
      (smdSeekAverageTicks - smdSeekOneTrackTicks) * (distance - 1) / (third - 1)
  else
    smdSeekAverageTicks +
      (smdSeekFullStrokeTicks - smdSeekAverageTicks) * (min distance full - third) / (full - third)

def sectorTicks (disk : DiskInfo) : Nat := smdTicksPerRev / max disk.sectorsPrTrack 1

/-- Sector zero passes the head at every multiple of a revolution. -/
def rotationWait (disk : DiskInfo) (instrCounter sector : Nat) : Nat :=
  let rev := disk.sectorTicks * max disk.sectorsPrTrack 1
  (sector * disk.sectorTicks + rev - instrCounter % rev) % rev

/-- The seek, the wait for the first sector, and the sectors. -/
def transferTicks (disk : DiskInfo) (instrCounter cylinder sector words : Nat) : Nat :=
  let seek := disk.seekTicks cylinder
  max (seek + disk.rotationWait (instrCounter + seek) sector +
    (words + 511) / 512 * disk.sectorTicks) ioDelayHddSmd

/-- Formatting starts at sector zero and takes a revolution for each track. -/
def formatTicks (disk : DiskInfo) (instrCounter cylinder tracks : Nat) : Nat :=
  let seek := disk.seekTicks cylinder
  max (seek + disk.rotationWait (instrCounter + seek) 0 +
    tracks * (disk.sectorTicks * disk.sectorsPrTrack)) ioDelayHddSmd

def moveArm (disk : DiskInfo) (cylinder : Nat) : DiskInfo := { disk with armCylinder := cylinder }

end DiskInfo

end Timing

section AddressFields

def SmdTrackFormat.track (format : SmdTrackFormat) : Nat × Nat := (format.cylinder, format.head)

def naturalField (cylinder head sector : Nat) : BitVec 16 × BitVec 16 :=
  (BitVec.ofNat 16 cylinder, BitVec.ofNat 16 (head <<< 8 ||| sector))

/-- The two words of a sector. -/
def fieldOf (words : List (BitVec 16)) (sector : Nat) : BitVec 16 × BitVec 16 :=
  (words.getD (2 * sector) 0, words.getD (2 * sector + 1) 0)

namespace DiskInfo

def findTrackFormat (disk : DiskInfo) (cylinder head : Nat) : Option Nat :=
  findKey SmdTrackFormat.track disk.formattedTracks (cylinder, head)

/-- A track with the natural fields is forgotten, and the last track takes its place. -/
def storeTrackFormat (disk : DiskInfo) (cylinder head : Nat) (words : List (BitVec 16))
    (sectors : Nat) : DiskInfo :=
  let natural := (List.range sectors).all fun sector =>
    fieldOf words sector = naturalField cylinder head sector
  let format (old : List (BitVec 16 × BitVec 16)) : SmdTrackFormat :=
    { cylinder := cylinder
      head := head
      field := (List.range smdMaxSectorsPerTrack).map fun sector =>
        if sector < sectors then fieldOf words sector else old.getD sector (0, 0) }
  match disk.findTrackFormat cylinder head with
  | some place =>
    { disk with formattedTracks :=
        if natural then swapRemove disk.formattedTracks place
        else disk.formattedTracks.modify place fun old => format old.field }
  | none =>
    if natural then disk
    else { disk with formattedTracks := disk.formattedTracks ++ [format []] }

def addressFieldFound (disk : DiskInfo) (cylinder head sector : Nat) : Bool :=
  match disk.findTrackFormat cylinder head with
  | none => true
  | some place =>
    (((disk.formattedTracks[place]?).map SmdTrackFormat.field).getD [] |>.take
      (min disk.sectorsPrTrack smdMaxSectorsPerTrack)).contains
        (naturalField cylinder head sector)

/-- The next sector is on the track, on the next head or on the next cylinder. -/
def nextSector (disk : DiskInfo) (cylinder head sector : Nat) : Nat × Nat × Nat :=
  if sector + 1 < disk.sectorsPrTrack then (cylinder, head, sector + 1)
  else if head + 1 < disk.headsPrCylinder then (cylinder, head + 1, 0)
  else (cylinder + 1, 0, 0)

/-- Every sector of a transfer finds its address on the track. -/
def addressFieldsFound (disk : DiskInfo) : Nat → Nat × Nat × Nat → Bool
  | 0, _ => true
  | count + 1, (cylinder, head, sector) =>
    disk.addressFieldFound cylinder head sector &&
      disk.addressFieldsFound count (disk.nextSector cylinder head sector)

end DiskInfo

end AddressFields

end Nd100x.Smd

namespace Nd100x.Smd

/-- There are eight registers. -/
local instance smdRegisters : NeZero 8 := ⟨by decide⟩

open Nd100x.Devices
open Nd100x.Hdlc (CoreMemory)
open Nd100x.Library

section Registers

inductive DeviceOperation where
  | readTransfer
  | writeTransfer
  | readParityTransfer
  | compareTransfer
  | initiateSeek
  | writeFormat
  | seekCompleteSearch
  | returnToZeroSeek
  | runEccOperation
  | selectRelease
  | undefined
  deriving DecidableEq, Repr

/-- The device operations are M0 to M9 of the control word. -/
def DeviceOperation.ofBits (code : BitVec 4) : DeviceOperation :=
  [.readTransfer, .writeTransfer, .readParityTransfer, .compareTransfer, .initiateSeek, .writeFormat,
    .seekCompleteSearch, .returnToZeroSeek, .runEccOperation, .selectRelease].getD code.toNat
    .undefined

def DeviceOperation.isTransfer (operation : DeviceOperation) : Bool :=
  operation = .readTransfer || operation = .writeTransfer || operation = .readParityTransfer ||
    operation = .compareTransfer

inductive DiskError where
  | addressMismatch
  | readError
  | writeError
  | comparerError
  | driveNotSelected
  | illegalWhileActive
  | writeProtectError
  | timeout
  deriving DecidableEq, Repr

inductive SmdEnd where
  | read
  | seek
  | returnToZero
  | timeout
  | search
  deriving DecidableEq, Repr

structure SmdStatusRegister where
  interruptEnabled : Bool
  errorInterruptEnabled : Bool
  active : Bool
  readyForTransfer : Bool
  hardwareError : Bool
  illegalLoad : Bool
  timeOut : Bool
  hardwareError2 : Bool
  addressMismatch : Bool
  crcError : Bool
  comparerError : Bool
  abnormalCompletion : Bool
  diskUnitNotReady : Bool
  registerMultiplexBit : Bool
  deriving DecidableEq, Repr

/-- The cards of 10 and 15 MHz load their wide registers by two accesses. -/
structure ControllerRegs where
  hasFlipFlops : Bool
  marWcFlipFlop : Bool
  selectedUnit : BitVec 3
  selectedDisk : Option (Fin 4)
  blockAddressI : BitVec 16
  blockAddressII : BitVec 16
  coreAddress : BitVec 16
  coreAddressHiBits : BitVec 8
  wordCounter : BitVec 16
  wordCounterHI : BitVec 8
  eccControl : BitVec 16
  eccCount : BitVec 16
  seekIssuedMask : BitVec 8

namespace ControllerRegs

def core (regs : ControllerRegs) : Nat :=
  regs.coreAddressHiBits.toNat <<< 16 ||| regs.coreAddress.toNat

def words (regs : ControllerRegs) : Nat :=
  regs.wordCounterHI.toNat <<< 16 ||| regs.wordCounter.toNat

def incrementCoreAddress (regs : ControllerRegs) : ControllerRegs :=
  { regs with
    coreAddress := BitVec.ofNat 16 (regs.core + 1)
    coreAddressHiBits := BitVec.ofNat 8 ((regs.core + 1) >>> 16) }

def decrementWordCounter (regs : ControllerRegs) : ControllerRegs :=
  { regs with
    wordCounter := BitVec.ofNat 16 (regs.words - 1)
    wordCounterHI := BitVec.ofNat 8 ((regs.words - 1) >>> 16) }

/-- The registers step with every word. -/
def counted (regs : ControllerRegs) : Nat → ControllerRegs
  | 0 => regs
  | count + 1 => counted regs.incrementCoreAddress.decrementWordCounter count

def clearFlipFlops (regs : ControllerRegs) : ControllerRegs := { regs with marWcFlipFlop := false }

/-- A card has four drives, and the units above them have no disk. -/
def setSelectedUnit (regs : ControllerRegs) (unit : BitVec 3) : ControllerRegs :=
  { regs with
    selectedUnit := unit
    selectedDisk := if below : unit.toNat < 4 then some ⟨unit.toNat, below⟩ else none }

end ControllerRegs

/-- The controller with the memory and the images that it reaches. -/
structure SmdData where
  statusRegister : SmdStatusRegister
  controlRegister : BitVec 16
  seekComplete : BitVec 8
  seekError : Bool
  searchTicks : Nat
  regs : ControllerRegs
  disks : Fin 4 → DiskInfo
  interrupt : Bool
  ioDelays : List (Nat × SmdEnd × Fin 4)
  memory : CoreMemory
  drives : MountedDrives

end Registers

section LongMode

def smdLongSectorWords : Nat := 516

def eccPolynomial : BitVec 56 := 0x8222F0804BDA23

/-- One bit enters the shift register. -/
def eccShift (reg : BitVec 56) (bit : Bool) : BitVec 56 :=
  if bit ^^ reg.getLsbD 55 then (reg <<< 1) ^^^ eccPolynomial else reg <<< 1

def eccWord (reg : BitVec 56) (word : BitVec 16) : BitVec 56 :=
  (List.range 16).foldl (fun reg bit => eccShift reg (word.getLsbD (15 - bit))) reg

/-- The pattern of a sector and the byte at the end of the record. -/
def smdLongExtraWord (buffer : List (BitVec 8)) (sectorIndex place : Nat) : BitVec 16 :=
  let reg := (List.range 512).foldl (fun reg word =>
    eccWord reg (ioBufferReadWord buffer (sectorIndex * 512 + word))) 0
  (reg ++ (0xFF : BitVec 8)).extractLsb' (48 - 16 * place) 16

/-- In long mode four extra words follow the words of each sector. -/
def smdStreamWord (buffer : List (BitVec 8)) (longMode : Bool) (index : Nat) : BitVec 16 :=
  if longMode then
    if index % smdLongSectorWords < 512 then
      ioBufferReadWord buffer
        (index / smdLongSectorWords * 512 + index % smdLongSectorWords)
    else smdLongExtraWord buffer (index / smdLongSectorWords) (index % smdLongSectorWords - 512)
  else ioBufferReadWord buffer index

/-- The extra words have no place in a file. -/
def smdStreamPlace (longMode : Bool) (index : Nat) : Option Nat :=
  if longMode then
    if index % smdLongSectorWords < 512 then
      some (index / smdLongSectorWords * 512 + index % smdLongSectorWords)
    else none
  else some index

end LongMode

def smdTestPatternWord (index : Nat) : BitVec 16 := if index % 2 = 1 then 0o125252 else 0o052525

def smdTimeoutTicks : Nat := 263750
def smdMaxUnits : Nat := 4

namespace SmdData

section Status

def testMode (card : SmdData) : Bool := card.controlRegister.getLsbD 3

def operation (card : SmdData) : DeviceOperation :=
  .ofBits (card.controlRegister.extractLsb' 11 4)

def putStatus (card : SmdData) (status : SmdStatusRegister) : SmdData :=
  { card with statusRegister := status }

def putRegs (card : SmdData) (regs : ControllerRegs) : SmdData := { card with regs := regs }

def putDisk (card : SmdData) (unit : Fin 4) (disk : DiskInfo) : SmdData :=
  { card with disks := Function.update card.disks unit disk }

def queueIoDelay (card : SmdData) (ticks : Nat) (callback : SmdEnd) (unit : Fin 4) : SmdData :=
  { card with ioDelays := card.ioDelays ++ [(ticks, callback, unit)] }

/-- Every error is an abnormal completion. -/
def handleError (card : SmdData) (error : DiskError) : SmdData :=
  let status := { card.statusRegister with abnormalCompletion := true }
  card.putStatus (match error with
    | .addressMismatch => { status with addressMismatch := true }
    | .comparerError => { status with comparerError := true }
    | .illegalWhileActive => { status with illegalLoad := true }
    | .timeout => { status with timeOut := true }
    | .readError | .writeError | .driveNotSelected | .writeProtectError =>
      { status with diskUnitNotReady := true })

def clearErrors (card : SmdData) : SmdData :=
  { card with
    statusRegister := { card.statusRegister with
      hardwareError := false
      hardwareError2 := false
      illegalLoad := false
      timeOut := false
      comparerError := false
      crcError := false
      addressMismatch := false
      abnormalCompletion := false }
    seekError := false }

/-- An operation that ends at once has finished all the same. -/
def finishOperation (card : SmdData) : SmdData :=
  { card with
    statusRegister := { card.statusRegister with active := false, readyForTransfer := true }
    regs := card.regs.clearFlipFlops
    interrupt := card.interrupt || card.statusRegister.interruptEnabled }

def failOperation (card : SmdData) (error : DiskError) : SmdData :=
  (card.handleError error).finishOperation

def unitAttached (card : SmdData) (unit : Fin 4) : Bool :=
  0 < (machineBlockDiskInfo smdMaxUnits card.drives unit).1

/-- A register is not loaded while the controller is active or the heads move. -/
def loadIsIllegal (card : SmdData) : Bool :=
  card.statusRegister.active ||
    match card.regs.selectedDisk with
    | some unit => card.unitAttached unit && !(card.disks unit).onCylinder
    | none => false

end Status

section Operations

def blockSector (card : SmdData) : Nat := (card.regs.blockAddressI.extractLsb' 0 8).toNat
def blockHead (card : SmdData) : Nat := (card.regs.blockAddressI.extractLsb' 8 8).toNat
def blockCylinder (card : SmdData) : Nat := card.regs.blockAddressII.toNat

def logicalBlock (card : SmdData) (disk : DiskInfo) : Nat :=
  disk.convertToLogicalBlock card.blockCylinder card.blockHead card.blockSector

def addressIsIllegal (card : SmdData) (disk : DiskInfo) : Bool :=
  let position := card.logicalBlock disk * bytesPrSector
  let maxPosition := disk.convertToLogicalBlock disk.maxCylinders disk.headsPrCylinder
    disk.sectorsPrTrack * bytesPrSector
  (maxPosition < position ∨ disk.maxCylinders ≤ card.blockCylinder ∨
    disk.headsPrCylinder ≤ card.blockHead ∨ disk.sectorsPrTrack ≤ card.blockSector : Bool) &&
    !card.testMode

def longMode (card : SmdData) : Bool :=
  card.regs.eccControl.getLsbD 2 && card.operation.isTransfer && !card.testMode

/-- A sector that a transfer begins is moved whole. -/
def blockCount (card : SmdData) : Nat :=
  let words := if card.longMode then smdLongSectorWords else bytesPrSector / 2
  (card.regs.words + words - 1) / words

/-- The status bits of one operation are cleared, and the type of the drive follows its image. -/
def prepare (preset : Fin 4 → DiskType) (card : SmdData) (unit : Fin 4) : SmdData :=
  let info := machineBlockDiskInfo smdMaxUnits card.drives card.regs.selectedUnit.toNat
  let disk : DiskInfo := { card.disks unit with
    diskFileSize := info.1
    diskIsWriteProtected := info.2 }
  { card.putDisk unit
      (if disk.diskType = .unknown then
        { disk with diskType :=
            if preset unit = .unknown then smdDiskTypeForSize disk.diskFileSize else preset unit }
      else disk) with
    statusRegister := { card.statusRegister with
      illegalLoad := false
      abnormalCompletion := false
      timeOut := false } }

/-- A transfer takes the condition of a seek that came to its end. -/
def consumeSeek (card : SmdData) (unit : Fin 4) : SmdData :=
  if card.operation.isTransfer then
    { card with seekComplete := card.seekComplete &&& ~~~BitVec.twoPow 8 unit.val }
  else card

/-- A transfer moves the arm and ends an outstanding seek. -/
def startTransfer (card : SmdData) (unit : Fin 4) : SmdData :=
  if card.operation.isTransfer then
    let moved := if card.testMode then card
      else card.putDisk unit ((card.disks unit).moveArm card.blockCylinder)
    moved.putRegs { card.regs with
      seekIssuedMask := card.regs.seekIssuedMask &&& ~~~BitVec.twoPow 8 unit.val }
  else card

/-- The time that a transfer takes. -/
def operationTicks (card : SmdData) (instrCounter : Nat) (unit : Fin 4) : Nat :=
  if card.operation.isTransfer && !card.testMode then
    (card.disks unit).transferTicks instrCounter card.blockCylinder card.blockSector card.regs.words
  else ioDelayHddSmd

/-- A long transfer ends with a data error. -/
def transferEnds (card : SmdData) (ticks words : Nat) (unit : Fin 4) : SmdData :=
  let status := { card.statusRegister with
    crcError := card.statusRegister.crcError || card.longMode }
  ((card.putRegs (card.regs.counted words)).putStatus status).queueIoDelay ticks .read unit

def readTest (card : SmdData) (ticks : Nat) (unit : Fin 4) : SmdData :=
  let count := card.regs.words
  { card with
    memory := storeWords smdTestPatternWord count card.regs.core 0 card.memory
    regs := card.regs.counted count
    statusRegister := { card.statusRegister with crcError := true }
    ioDelays := card.ioDelays ++ [(ticks, .read, unit)] }

def compareTest (card : SmdData) (ticks : Nat) (unit : Fin 4) : SmdData :=
  let count := card.regs.words
  let equal := equalWords card.memory smdTestPatternWord count card.regs.core 0
  let compared := card.putRegs (card.regs.counted equal)
  if equal < count then
    let failed := compared.handleError .comparerError
    (failed.putStatus { failed.statusRegister with crcError := true }).finishOperation
  else
    (compared.putStatus { compared.statusRegister with crcError := true }).queueIoDelay ticks .read
      unit

/-- The blocks of a transfer come from the image of the unit. -/
def readBlocks (card : SmdData) (unit : Fin 4) : Int × List (BitVec 8) :=
  machineBlockRead smdMaxUnits card.drives bytesPrSector card.blockCount
    (card.logicalBlock (card.disks unit) % 2 ^ 32) unit

def readTransfer (card : SmdData) (ticks : Nat) (unit : Fin 4) : SmdData :=
  let read := card.readBlocks unit
  if read.1 ≠ card.blockCount then card.failOperation .readError
  else
    { card with
      memory := storeWords (smdStreamWord read.2 card.longMode) card.regs.words card.regs.core 0
        card.memory }.transferEnds ticks card.regs.words unit

def readParityTransfer (card : SmdData) (ticks : Nat) (unit : Fin 4) : SmdData :=
  let read := card.readBlocks unit
  if read.1 ≠ card.blockCount then card.failOperation .readError
  else card.transferEnds ticks card.regs.words unit

/-- The rest of the last block is zero. -/
def writeBuffer (card : SmdData) : List (BitVec 8) :=
  fetchBuffer card.memory (smdStreamPlace card.longMode) card.regs.words card.regs.core 0
    (List.replicate (card.blockCount * bytesPrSector) 0)

def writeTransfer (card : SmdData) (ticks : Nat) (unit : Fin 4) : SmdData :=
  let written := machineBlockWrite smdMaxUnits card.drives bytesPrSector card.writeBuffer
    card.blockCount (card.logicalBlock (card.disks unit) % 2 ^ 32) unit
  let counted := card.putRegs (card.regs.counted card.regs.words)
  if written.1 ≠ card.blockCount then
    { counted with drives := written.2 }.failOperation .writeError
  else { counted with drives := written.2 }.queueIoDelay ticks .read unit

/-- The first word that differs ends a compare. -/
def compareTransfer (card : SmdData) (ticks : Nat) (unit : Fin 4) : SmdData :=
  let read := card.readBlocks unit
  if read.1 ≠ card.blockCount then card.failOperation .readError
  else
    let equal := equalWords card.memory (smdStreamWord read.2 card.longMode) card.regs.words
      card.regs.core 0
    if equal < card.regs.words then
      (card.putRegs (card.regs.counted equal)).failOperation .comparerError
    else card.transferEnds ticks equal unit

/-- A seek ends for the controller as soon as the drive has the cylinder. -/
def initiateSeek (card : SmdData) (unit : Fin 4) : SmdData :=
  let disk := card.disks unit
  if disk.maxCylinders ≤ card.blockCylinder then
    { card with seekError := true }.failOperation .addressMismatch
  else
    let ticks := disk.seekTicks card.blockCylinder
    let moving := card.putDisk unit { disk.moveArm card.blockCylinder with onCylinder := false }
    ({ moving with
      seekError := false
      regs := { card.regs with
        seekIssuedMask := card.regs.seekIssuedMask ||| BitVec.twoPow 8 unit.val } }.queueIoDelay
      (if ticks = 0 then ioDelayHddSmd else ticks) .seek unit).finishOperation

/-- The fields of a number of tracks come from memory. -/
def storeTracks (memory : CoreMemory) (disk : DiskInfo) : Nat → Nat × Nat → Nat → DiskInfo
  | 0, _, _ => disk
  | tracks + 1, (cylinder, head), core =>
    let words := (List.range (2 * disk.sectorsPrTrack)).map fun word =>
      memory.dmaRead (core + word)
    storeTracks memory (disk.storeTrackFormat cylinder head words disk.sectorsPrTrack) tracks
      (if head + 1 < disk.headsPrCylinder then (cylinder, head + 1) else (cylinder + 1, 0))
      (core + 2 * disk.sectorsPrTrack)

/-- The word count is a whole number of tracks. -/
def writeFormat (card : SmdData) (instrCounter : Nat) (unit : Fin 4) : SmdData :=
  let disk := card.disks unit
  let words := 2 * disk.sectorsPrTrack
  if words = 0 ∨ card.regs.words = 0 ∨ card.regs.words % words ≠ 0 then
    card.failOperation .timeout
  else
    let tracks := card.regs.words / words
    let stored :=
      if disk.sectorsPrTrack ≤ smdMaxSectorsPerTrack then
        storeTracks card.memory disk tracks (card.blockCylinder, card.blockHead) card.regs.core
      else disk
    (card.putDisk unit (stored.moveArm card.blockCylinder)).queueIoDelay
      (disk.formatTicks instrCounter card.blockCylinder tracks) .read unit

def seekCompleteSearch (card : SmdData) (unit : Fin 4) : SmdData :=
  if card.regs.seekIssuedMask = 0 then card.queueIoDelay smdTimeoutTicks .timeout unit
  else { card with seekError := false, searchTicks := 0 }.queueIoDelay 2 .search unit

def returnToZeroSeek (card : SmdData) (unit : Fin 4) : SmdData :=
  let disk := card.disks unit
  let ticks := disk.seekTicks 0
  let moving := card.putDisk unit { disk.moveArm 0 with onCylinder := false }
  ({ moving with
    seekError := false
    regs := { card.regs with
      seekIssuedMask := card.regs.seekIssuedMask ||| BitVec.twoPow 8 unit.val } }.queueIoDelay
    (if ticks = 0 then ioDelayHddSmd else ticks) .returnToZero unit).finishOperation

def executeOperation (card : SmdData) (instrCounter ticks : Nat) (unit : Fin 4) : SmdData :=
  match card.operation with
  | .readTransfer => if card.testMode then card.readTest ticks unit else card.readTransfer ticks unit
  | .writeTransfer => card.writeTransfer ticks unit
  | .readParityTransfer => card.readParityTransfer ticks unit
  | .compareTransfer =>
    if card.testMode then card.compareTest ticks unit else card.compareTransfer ticks unit
  | .initiateSeek => card.initiateSeek unit
  | .writeFormat => card.writeFormat instrCounter unit
  | .seekCompleteSearch => card.seekCompleteSearch unit
  | .returnToZeroSeek => card.returnToZeroSeek unit
  | .runEccOperation => card.finishOperation
  | .selectRelease => (card.putRegs { card.regs with selectedDisk := none }).finishOperation
  | .undefined => card

/-- The address fields of every sector are found before a word moves. -/
def executeAddressed (card : SmdData) (instrCounter : Nat) (unit : Fin 4) : SmdData :=
  let disk := card.disks unit
  let ticks := card.operationTicks instrCounter unit
  let started := card.startTransfer unit
  if card.operation.isTransfer && !card.testMode &&
      !disk.addressFieldsFound ((card.regs.words + 511) / 512)
        (card.blockCylinder, card.blockHead, card.blockSector) then
    (started.handleError .addressMismatch).queueIoDelay ticks .read unit
  else started.executeOperation instrCounter ticks unit

def executeGo (preset : Fin 4 → DiskType) (card : SmdData) (instrCounter : Nat) : SmdData :=
  match card.regs.selectedDisk with
  | none => card
  | some unit =>
    let ready := (card.prepare preset unit).consumeSeek unit
    let disk := ready.disks unit
    if ready.addressIsIllegal disk then
      { ready with seekError := true }.failOperation .addressMismatch
    else if disk.diskIsWriteProtected ∧
        (ready.operation = .writeTransfer ∨ ready.operation = .writeFormat) then
      (ready.putDisk unit { disk with diskUnitNotReady := true }).failOperation .writeProtectError
    else ready.executeAddressed instrCounter unit

end Operations

section Writes

variable (preset : Fin 4 → DiskType)

/-- The fields of the control word, and the unit that it selects. -/
def loadControlWord (card : SmdData) (value : BitVec 16) : SmdData :=
  let regs :=
    if card.regs.hasFlipFlops then card.regs
    else { card.regs with coreAddressHiBits := (value.extractLsb' 5 2).setWidth 8 }
  { card with
    controlRegister := value
    statusRegister := { card.statusRegister with
      active := value.getLsbD 2
      registerMultiplexBit := value.getLsbD 15
      readyForTransfer := true
      interruptEnabled := value.getLsbD 0
      errorInterruptEnabled := value.getLsbD 1 }
    interrupt := card.interrupt && value.getLsbD 0
    regs := regs.setSelectedUnit (value.extractLsb' 7 3) }

def deviceClear (card : SmdData) : SmdData :=
  let ready := match card.regs.selectedDisk with
    | some unit => card.putDisk unit { card.disks unit with diskUnitNotReady := false }
    | none => card
  { ready with
    statusRegister := { card.statusRegister with active := false, readyForTransfer := false }
    regs := { card.regs.clearFlipFlops with
      seekIssuedMask := 0
      coreAddress := 0
      coreAddressHiBits := 0
      blockAddressI := 0
      blockAddressII := 0
      wordCounter := 0
      wordCounterHI := 0 } }.clearErrors

/-- The unit has no drive or no pack. -/
def notSpecified (card : SmdData) : SmdData :=
  (card.putStatus { card.statusRegister with
    diskUnitNotReady := true
    hardwareError2 := true }).failOperation .driveNotSelected

/-- The drive is ready and the operation starts. -/
def goes (card : SmdData) (unit : Fin 4) : SmdData :=
  (card.putDisk unit { card.disks unit with diskUnitNotReady := false }).putStatus
    { card.statusRegister with readyForTransfer := false }

def activate (card : SmdData) (instrCounter : Nat) : SmdData :=
  match card.regs.selectedDisk with
  | none => card.notSpecified
  | some unit =>
    if card.unitAttached unit then (card.goes unit).executeGo preset instrCounter
    else card.notSpecified

def writeControlWord (card : SmdData) (instrCounter : Nat) (value : BitVec 16) : SmdData :=
  if card.statusRegister.active ∧ ¬value.getLsbD 4 then card.handleError .illegalWhileActive
  else
    let loaded := card.loadControlWord value
    let cleared := if value.getLsbD 4 then loaded.deviceClear else loaded
    if cleared.statusRegister.active then cleared.activate preset instrCounter
    else
      { cleared with interrupt := cleared.statusRegister.interruptEnabled &&
          (cleared.testMode || cleared.statusRegister.readyForTransfer) }

/-- Of a pair of accesses the first loads all the bits. -/
def loadMemoryAddress (card : SmdData) (value : BitVec 16) : SmdData :=
  let regs := card.regs
  card.putRegs
    (if regs.hasFlipFlops then
      { regs with
        coreAddress := value
        coreAddressHiBits := if regs.marWcFlipFlop then regs.coreAddressHiBits
          else value.setWidth 8
        marWcFlipFlop := !regs.marWcFlipFlop }
    else { regs with coreAddress := value })

def loadWordCounter (card : SmdData) (value : BitVec 16) : SmdData :=
  let regs := card.regs
  card.putRegs
    (if regs.hasFlipFlops then
      { regs with
        wordCounter := value
        wordCounterHI := if regs.marWcFlipFlop then regs.wordCounterHI else value.setWidth 8
        marWcFlipFlop := !regs.marWcFlipFlop }
    else { regs with wordCounter := value })

def loadEccControl (card : SmdData) (value : BitVec 16) : SmdData :=
  { card with
    regs := { card.regs with
      eccControl := value
      eccCount := if value.getLsbD 0 then 0 else card.regs.eccCount }
    statusRegister := { card.statusRegister with
      hardwareError2 := card.statusRegister.hardwareError2 || value.getLsbD 1 } }

/-- The registers are stepped by hand in a maintenance mode. -/
def countMemoryAddress (card : SmdData) : SmdData :=
  if card.testMode ∧ card.controlRegister.getLsbD 10 then
    card.putRegs { card.regs with
      coreAddress := card.regs.coreAddress + 1
      wordCounter := card.regs.wordCounter - 1 }
  else card

/-- Of the eight registers the odd ones are written, and some have a second one behind them. -/
def write (card : SmdData) (instrCounter : Nat) (register : Fin 8) (value : BitVec 16) : SmdData :=
  let multiplexed := card.controlRegister.getLsbD 15
  if register = 5 then card.writeControlWord preset instrCounter value
  else if register = 1 ∧ multiplexed then card.countMemoryAddress
  else if (register = 1 ∨ register = 3 ∨ register = 7) ∧ card.loadIsIllegal then
    card.handleError .illegalWhileActive
  else if register = 1 then card.loadMemoryAddress value
  else if register = 3 then
    card.putRegs (if multiplexed then { card.regs with blockAddressII := value }
      else { card.regs with blockAddressI := value })
  else if register = 7 then
    if multiplexed then card.loadEccControl value else card.loadWordCounter value
  else card

end Writes

end SmdData

end Nd100x.Smd
