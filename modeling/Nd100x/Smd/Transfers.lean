import Nd100x.Smd.Controller

namespace Nd100x.Smd

attribute [local instance] smdRegisters

open Nd100x.Devices
open Nd100x.Hdlc (CoreMemory)
open Nd100x.Library

section Purpose

/-- A transfer moves words between memory and consecutive blocks of a unit. -/
structure TransferRequest where
  operation : DeviceOperation
  unit : Fin 4
  block : Nat
  core : Nat
  words : Nat

namespace SmdData

/-- The words of the image of a unit. -/
def word (card : SmdData) (unit : Fin 4) (place : Nat) : BitVec 16 :=
  ((card.drives unit).map (MountedDrive.word · place)).getD 0

end SmdData

namespace TransferRequest

/-- A block has 512 words, and the last one may be used in part. -/
def blocks (request : TransferRequest) : Nat := (request.words + 511) / 512

/-- The word of the unit at an offset of the transfer. -/
def diskWord (request : TransferRequest) (card : SmdData) (offset : Nat) : BitVec 16 :=
  card.word request.unit (request.block * 512 + offset)

def coreWord (request : TransferRequest) (card : SmdData) (offset : Nat) : BitVec 16 :=
  card.memory.dmaRead (request.core + offset)

def Differs (request : TransferRequest) (card : SmdData) : Prop :=
  ∃ offset < request.words, request.coreWord card offset ≠ request.diskWord card offset

/-- Only a read changes memory, and only the words of the transfer. -/
def memoryAfter (request : TransferRequest) (card : SmdData) (address : Nat) : BitVec 16 :=
  if request.operation = .readTransfer ∧ request.core ≤ address ∧
      address < request.core + request.words ∧ address < card.memory.size then
    request.diskWord card (address - request.core)
  else card.memory.words address

/-- Only a write changes an image, and only the blocks of the transfer. -/
def wordAfter (request : TransferRequest) (card : SmdData) (unit : Fin 4) (place : Nat) :
    BitVec 16 :=
  if request.operation = .writeTransfer ∧ unit = request.unit ∧ request.block * 512 ≤ place ∧
      place < (request.block + request.blocks) * 512 then
    if place < request.block * 512 + request.words then
      request.coreWord card (place - request.block * 512)
    else 0
  else card.word unit place

/-- The words that were done: all of them, or in a compare those before the first that differs. -/
def Done (request : TransferRequest) (card : SmdData) (done : Nat) : Prop :=
  done ≤ request.words ∧
    (request.operation = .compareTransfer →
      ∀ offset < done, request.coreWord card offset = request.diskWord card offset) ∧
    (done < request.words → request.operation = .compareTransfer ∧
      request.coreWord card done ≠ request.diskWord card done)

/-- The words have moved, and the registers show how many. -/
structure Moves (request : TransferRequest) (before after : SmdData) : Prop where
  size : after.memory.size = before.memory.size
  memory : ∀ address, after.memory.words address = request.memoryAfter before address
  images : ∀ unit place, after.word unit place = request.wordAfter before unit place
  registers : ∃ done, request.Done before done ∧
    after.regs.core = (request.core + done) % 2 ^ 24 ∧ after.regs.words = request.words - done

/-- The words have moved, and a compare shows whether some word differs. -/
structure Performs (request : TransferRequest) (before after : SmdData) : Prop
    extends Moves request before after where
  comparer : request.operation = .compareTransfer →
    (after.statusRegister.comparerError = true ↔ request.Differs before)

end TransferRequest

namespace DiskInfo

/-- The track of a block. -/
def track (disk : DiskInfo) (block : Nat) : Nat × Nat :=
  (block / disk.sectorsPrTrack / disk.headsPrCylinder,
    block / disk.sectorsPrTrack % disk.headsPrCylinder)

def blocks (disk : DiskInfo) : Nat :=
  disk.maxCylinders * disk.headsPrCylinder * disk.sectorsPrTrack

end DiskInfo

namespace SmdData

variable (preset : Fin 4 → DiskType)

/-- The controller as a control word that starts an operation leaves it to the operation. -/
def going (card : SmdData) (value : BitVec 16) (unit : Fin 4) : SmdData :=
  ((card.loadControlWord value).goes unit).prepare preset unit

def request (card : SmdData) (value : BitVec 16) (unit : Fin 4) : TransferRequest where
  operation := (card.going preset value unit).operation
  unit := unit
  block := (card.going preset value unit).logicalBlock ((card.going preset value unit).disks unit)
  core := (card.going preset value unit).regs.core
  words := (card.going preset value unit).regs.words

/-- A control word starts a transfer of blocks of the disc outside test and long mode. -/
structure Starts (card : SmdData) (value : BitVec 16) (unit : Fin 4) (drive : MountedDrive) :
    Prop where
  idle : card.statusRegister.active = false
  go : value.getLsbD 2 = true
  normal : value.getLsbD 3 = false
  kept : value.getLsbD 4 = false
  short : (card.going preset value unit).regs.eccControl.getLsbD 2 = false
  selects : (value.extractLsb' 7 3).toNat = unit
  transfers : (card.request preset value unit).operation ∈
    [DeviceOperation.readTransfer, .writeTransfer, .compareTransfer]
  mounted : card.drives unit = some drive
  attached : 0 < drive.dataSize
  serves : drive.Serves ((card.request preset value unit).block * 1024)
    ((card.request preset value unit).blocks * 1024)
  writable : (card.request preset value unit).operation = .writeTransfer →
    (machineBlockDiskInfo smdMaxUnits card.drives unit).2 = false
  cylinder : (card.going preset value unit).blockCylinder <
    ((card.going preset value unit).disks unit).maxCylinders
  head : (card.going preset value unit).blockHead <
    ((card.going preset value unit).disks unit).headsPrCylinder
  sector : (card.going preset value unit).blockSector <
    ((card.going preset value unit).disks unit).sectorsPrTrack
  insideDisc : (card.request preset value unit).block + (card.request preset value unit).blocks ≤
    ((card.going preset value unit).disks unit).blocks
  insideCore : (card.request preset value unit).core + (card.request preset value unit).words ≤
    2 ^ 24
  natural : ∀ block, (card.request preset value unit).block ≤ block →
    block < (card.request preset value unit).block + (card.request preset value unit).blocks →
      ∀ format ∈ (card.disks unit).formattedTracks,
        format.track ≠ ((card.going preset value unit).disks unit).track block

end SmdData

end Purpose

section Registers

variable {regs : ControllerRegs}

theorem joined (high : BitVec 8) (low : BitVec 16) :
    high.toNat <<< 16 ||| low.toNat = high.toNat * 65536 + low.toNat := by
  rw [← Nat.shiftLeft_add_eq_or_of_lt low.isLt, Nat.shiftLeft_eq]

theorem core_increment : regs.incrementCoreAddress.core = (regs.core + 1) % 2 ^ 24 := by
  rw [ControllerRegs.core, joined, ControllerRegs.incrementCoreAddress]
  dsimp only
  rw [BitVec.toNat_ofNat, BitVec.toNat_ofNat, Nat.shiftRight_eq_div_pow]
  omega

theorem words_decrement (some : 0 < regs.words) :
    regs.decrementWordCounter.words = regs.words - 1 := by
  have below : regs.words < 2 ^ 24 := by
    rw [ControllerRegs.words, joined]
    have high := regs.wordCounterHI.isLt
    have low := regs.wordCounter.isLt
    omega
  rw [ControllerRegs.words, joined, ControllerRegs.decrementWordCounter]
  dsimp only
  rw [BitVec.toNat_ofNat, BitVec.toNat_ofNat, Nat.shiftRight_eq_div_pow]
  omega

theorem core_lt : regs.core < 2 ^ 24 := by
  rw [ControllerRegs.core, joined]
  have high := regs.coreAddressHiBits.isLt
  have low := regs.coreAddress.isLt
  omega

theorem words_increment : regs.incrementCoreAddress.words = regs.words := rfl

theorem core_decrement : regs.decrementWordCounter.core = regs.core := rfl

/-- The registers after a number of words. -/
theorem counted_eq {count : Nat} (enough : count ≤ regs.words) :
    (regs.counted count).core = (regs.core + count) % 2 ^ 24 ∧
      (regs.counted count).words = regs.words - count := by
  induction count generalizing regs with
  | zero =>
    rw [ControllerRegs.counted, Nat.add_zero, Nat.sub_zero, Nat.mod_eq_of_lt core_lt]
    exact ⟨rfl, rfl⟩
  | succ count ih =>
    have left : 0 < regs.incrementCoreAddress.words := by
      rw [words_increment]
      exact Nat.lt_of_lt_of_le (Nat.succ_pos _) enough
    have words := words_decrement left
    have core : regs.incrementCoreAddress.decrementWordCounter.core = (regs.core + 1) % 2 ^ 24 :=
      core_decrement.trans core_increment
    rw [words_increment] at words
    obtain ⟨coreAfter, wordsAfter⟩ := ih
      (words.symm ▸ Nat.le_sub_one_of_lt enough)
    rw [ControllerRegs.counted, coreAfter, wordsAfter, core, words, Nat.mod_add_mod,
      Nat.add_assoc, Nat.add_comm 1 count, Nat.sub_sub, Nat.add_comm 1 count]
    exact ⟨rfl, rfl⟩

end Registers

section Geometry

variable {disk : DiskInfo}

theorem convertToLogicalBlock_eq (cylinder head sector : Nat) :
    disk.convertToLogicalBlock cylinder head sector =
      (cylinder * disk.headsPrCylinder + head) * disk.sectorsPrTrack + sector := by
  rw [DiskInfo.convertToLogicalBlock]
  split_ifs with zero
  · obtain ⟨rfl, rfl, rfl⟩ := zero
    simp
  · rfl

theorem blocks_lt (type : DiskType) :
    type.geometry.maxCylinders * type.geometry.headsPrCylinder * type.geometry.sectorsPrTrack <
      2 ^ 32 := by
  cases type <;> decide

theorem track_convert {cylinder head sector : Nat} (heads : head < disk.headsPrCylinder)
    (sectors : sector < disk.sectorsPrTrack) :
    disk.track (disk.convertToLogicalBlock cylinder head sector) = (cylinder, head) := by
  have tracks : disk.convertToLogicalBlock cylinder head sector / disk.sectorsPrTrack =
      cylinder * disk.headsPrCylinder + head := by
    rw [convertToLogicalBlock_eq, Nat.mul_comm, Nat.mul_add_div (by omega),
      Nat.div_eq_of_lt sectors, Nat.add_zero]
  rw [DiskInfo.track, tracks, Nat.mul_comm cylinder, Nat.mul_add_div (by omega),
    Nat.div_eq_of_lt heads, Nat.add_zero, Nat.mul_add_mod, Nat.mod_eq_of_lt heads]

/-- The next sector has the next block. -/
theorem convert_nextSector {cylinder head sector : Nat} (heads : head < disk.headsPrCylinder)
    (sectors : sector < disk.sectorsPrTrack) :
    let next := disk.nextSector cylinder head sector
    next.2.1 < disk.headsPrCylinder ∧ next.2.2 < disk.sectorsPrTrack ∧
      disk.convertToLogicalBlock next.1 next.2.1 next.2.2 =
        disk.convertToLogicalBlock cylinder head sector + 1 := by
  simp only [convertToLogicalBlock_eq, DiskInfo.nextSector]
  split_ifs with sameTrack sameCylinder
  · exact ⟨heads, sameTrack, rfl⟩
  · have last : sector + 1 = disk.sectorsPrTrack := by omega
    refine ⟨sameCylinder, by dsimp only; omega, ?_⟩
    dsimp only
    rw [Nat.add_assoc, last]
    ring
  · have last : sector + 1 = disk.sectorsPrTrack := by omega
    have lastHead : disk.headsPrCylinder = head + 1 := by omega
    refine ⟨by dsimp only; omega, by dsimp only; omega, ?_⟩
    dsimp only
    rw [Nat.add_assoc, last, lastHead]
    ring

/-- On natural tracks every address is found. -/
theorem addressFieldsFound_natural {cylinder head sector count : Nat}
    (heads : head < disk.headsPrCylinder) (sectors : sector < disk.sectorsPrTrack)
    (natural : ∀ block, disk.convertToLogicalBlock cylinder head sector ≤ block →
      block < disk.convertToLogicalBlock cylinder head sector + count →
        ∀ format ∈ disk.formattedTracks, format.track ≠ disk.track block) :
    disk.addressFieldsFound count (cylinder, head, sector) = true := by
  induction count generalizing cylinder head sector with
  | zero => rfl
  | succ count ih =>
    have none : disk.findTrackFormat cylinder head = none := by
      rw [DiskInfo.findTrackFormat, findKey_eq_none]
      intro format inside
      have apart := natural _ (Nat.le_refl _) (by omega) format inside
      rwa [track_convert heads sectors] at apart
    obtain ⟨nextHeads, nextSectors, next⟩ :=
      @convert_nextSector disk cylinder head sector heads sectors
    have found : disk.addressFieldFound cylinder head sector = true := by
      rw [DiskInfo.addressFieldFound, none]
    rw [DiskInfo.addressFieldsFound, found, Bool.true_and]
    generalize disk.nextSector cylinder head sector = after at nextHeads nextSectors next ⊢
    obtain ⟨nextCylinder, nextHead, nextSector⟩ := after
    refine ih nextHeads nextSectors fun block after before => ?_
    rw [next] at after before
    exact natural block (by omega) (by omega)

end Geometry

section Start

variable {preset : Fin 4 → DiskType} {card : SmdData} {value : BitVec 16} {unit : Fin 4}
  {drive : MountedDrive}

namespace SmdData

/-- All that a transfer goes by. -/
structure Carries (ready : SmdData) (request : TransferRequest) (card : SmdData) : Prop where
  operation : ready.operation = request.operation
  normal : ready.testMode = false
  short : ready.longMode = false
  core : ready.regs.core = request.core
  words : ready.regs.words = request.words
  block : ready.logicalBlock (ready.disks request.unit) = request.block
  memory : ready.memory = card.memory
  drives : ready.drives = card.drives
  comparer : ready.statusRegister.comparerError = card.statusRegister.comparerError

theorem going_disk (unit : Fin 4) :
    ((card.going preset value unit).disks unit).formattedTracks =
      (card.disks unit).formattedTracks := by
  rw [going, prepare]
  dsimp only [putDisk]
  rw [Function.update_self]
  split_ifs
  all_goals
    dsimp only [goes, putStatus, putDisk]
    rw [Function.update_self]
    rfl

theorem going_protected (unit : Fin 4) :
    ((card.going preset value unit).disks unit).diskIsWriteProtected =
      (machineBlockDiskInfo smdMaxUnits card.drives
        (card.loadControlWord value).regs.selectedUnit.toNat).2 := by
  rw [going, prepare]
  dsimp only [putDisk]
  rw [Function.update_self]
  split_ifs <;> rfl

theorem selected (selects : (value.extractLsb' 7 3).toNat = unit) :
    (card.loadControlWord value).regs.selectedDisk = some unit := by
  have below : (value.extractLsb' 7 3).toNat < 4 := selects ▸ unit.isLt
  rw [loadControlWord]
  dsimp only [ControllerRegs.setSelectedUnit]
  rw [dif_pos below]
  exact congrArg some (Fin.ext selects)

theorem Starts.info (starts : Starts preset card value unit drive) :
    (machineBlockDiskInfo smdMaxUnits card.drives unit).1 = drive.dataSize := by
  rw [machineBlockDiskInfo, smdMaxUnits, if_neg (Nat.not_le.mpr unit.isLt), starts.mounted]

/-- The address of the transfer is legal. -/
theorem Starts.legal (starts : Starts preset card value unit drive) :
    (card.going preset value unit).addressIsIllegal ((card.going preset value unit).disks unit) =
      false := by
  have position : (card.going preset value unit).logicalBlock
      ((card.going preset value unit).disks unit) * bytesPrSector ≤
        ((card.going preset value unit).disks unit).convertToLogicalBlock
          ((card.going preset value unit).disks unit).maxCylinders
          ((card.going preset value unit).disks unit).headsPrCylinder
          ((card.going preset value unit).disks unit).sectorsPrTrack * bytesPrSector := by
    refine Nat.mul_le_mul_right _ ?_
    rw [logicalBlock, convertToLogicalBlock_eq, convertToLogicalBlock_eq]
    refine Nat.add_le_add (Nat.mul_le_mul_right _ (Nat.add_le_add (Nat.mul_le_mul_right _ ?_) ?_)) ?_
    · exact starts.cylinder.le
    · exact starts.head.le
    · exact starts.sector.le
  have outside : ¬(((card.going preset value unit).disks unit).convertToLogicalBlock
          ((card.going preset value unit).disks unit).maxCylinders
          ((card.going preset value unit).disks unit).headsPrCylinder
          ((card.going preset value unit).disks unit).sectorsPrTrack * bytesPrSector <
        (card.going preset value unit).logicalBlock
          ((card.going preset value unit).disks unit) * bytesPrSector ∨
      ((card.going preset value unit).disks unit).maxCylinders ≤
        (card.going preset value unit).blockCylinder ∨
      ((card.going preset value unit).disks unit).headsPrCylinder ≤
        (card.going preset value unit).blockHead ∨
      ((card.going preset value unit).disks unit).sectorsPrTrack ≤
        (card.going preset value unit).blockSector) := by
    rintro (past | past | past | past)
    · exact absurd past (Nat.not_lt.mpr position)
    · exact absurd past (Nat.not_le.mpr starts.cylinder)
    · exact absurd past (Nat.not_le.mpr starts.head)
    · exact absurd past (Nat.not_le.mpr starts.sector)
  rw [addressIsIllegal, decide_eq_false outside, Bool.false_and]

theorem Starts.isTransfer (starts : Starts preset card value unit drive) :
    (card.request preset value unit).operation.isTransfer = true := by
  have cases_ := starts.transfers
  simp only [List.mem_cons, List.not_mem_nil, or_false] at cases_
  rcases cases_ with read | write | compare
  · rw [read]; rfl
  · rw [write]; rfl
  · rw [compare]; rfl

/-- The address fields of every sector are found. -/
theorem Starts.found (starts : Starts preset card value unit drive) :
    ((card.going preset value unit).disks unit).addressFieldsFound
      (((card.going preset value unit).regs.words + 511) / 512)
      ((card.going preset value unit).blockCylinder, (card.going preset value unit).blockHead,
        (card.going preset value unit).blockSector) = true := by
  refine addressFieldsFound_natural starts.head starts.sector fun block after before => ?_
  rw [going_disk]
  exact starts.natural block after before

theorem Starts.unprotected (starts : Starts preset card value unit drive) :
    ¬(((card.going preset value unit).disks unit).diskIsWriteProtected = true ∧
      ((card.going preset value unit).operation = .writeTransfer ∨
        (card.going preset value unit).operation = .writeFormat)) := by
  rintro ⟨isProtected, write | format⟩
  · have units : (card.loadControlWord value).regs.selectedUnit.toNat = unit := starts.selects
    rw [going_protected, units, starts.writable write] at isProtected
    exact Bool.false_ne_true isProtected
  · have transfers := starts.transfers
    change (card.going preset value unit).operation ∈ _ at transfers
    rw [format] at transfers
    exact absurd transfers (by decide)

/-- The words move once the addresses are found. -/
theorem executeAddressed_found {ready : SmdData} (transfer : ready.operation.isTransfer = true)
    (normal : ready.testMode = false)
    (found : (ready.disks unit).addressFieldsFound ((ready.regs.words + 511) / 512)
      (ready.blockCylinder, ready.blockHead, ready.blockSector) = true) (instrCounter : Nat) :
    ready.executeAddressed instrCounter unit =
      (ready.startTransfer unit).executeOperation instrCounter
        (ready.operationTicks instrCounter unit) unit := by
  rw [executeAddressed, transfer, normal, found, if_neg (by decide)]

theorem startTransfer_eq {ready : SmdData} (transfer : ready.operation.isTransfer = true)
    (normal : ready.testMode = false) :
    ready.startTransfer unit =
      (ready.putDisk unit ((ready.disks unit).moveArm ready.blockCylinder)).putRegs
        { ready.regs with
          seekIssuedMask := ready.regs.seekIssuedMask &&& ~~~BitVec.twoPow 8 unit.val } := by
  rw [startTransfer, if_pos transfer, normal, if_neg Bool.false_ne_true]

theorem Carries.startTransfer {ready : SmdData} {request : TransferRequest}
    (carries : ready.Carries request card) (transfer : request.operation.isTransfer = true) :
    (ready.startTransfer request.unit).Carries request card := by
  rw [startTransfer_eq (carries.operation.symm ▸ transfer) carries.normal]
  refine ⟨carries.operation, carries.normal, carries.short, carries.core, carries.words, ?_,
    carries.memory, carries.drives, carries.comparer⟩
  have block := carries.block
  dsimp only [putRegs, putDisk]
  rw [Function.update_self]
  exact block

/-- A control word that starts a transfer runs its operation with these registers. -/
theorem write_starts (starts : Starts preset card value unit drive) (instrCounter : Nat) :
    ∃ (ticks : Nat) (ready : SmdData), card.write preset instrCounter 5 value =
      ready.executeOperation instrCounter ticks unit ∧
      ready.Carries (card.request preset value unit) card := by
  have loaded : card.write preset instrCounter 5 value =
      (card.loadControlWord value).activate preset instrCounter := by
    have passes : ¬(card.statusRegister.active = true ∧ ¬value.getLsbD 4 = true) := by
      rw [starts.idle]
      exact fun both => Bool.false_ne_true both.1
    have goes : (card.loadControlWord value).statusRegister.active = true := starts.go
    rw [write, if_pos rfl, writeControlWord, if_neg passes, starts.kept]
    dsimp only
    rw [if_neg Bool.false_ne_true, if_pos goes]
  have attached : (card.loadControlWord value).unitAttached unit = true := by
    rw [unitAttached]
    exact decide_eq_true (starts.info.symm ▸ starts.attached)
  have transfer : (card.going preset value unit).operation.isTransfer = true := starts.isTransfer
  have executes : (card.loadControlWord value).activate preset instrCounter =
      ((card.going preset value unit).consumeSeek unit).executeAddressed instrCounter unit := by
    have selects : ((card.loadControlWord value).goes unit).regs.selectedDisk = some unit :=
      selected starts.selects
    have legal : ((card.going preset value unit).consumeSeek unit).addressIsIllegal
        (((card.going preset value unit).consumeSeek unit).disks unit) = false := by
      rw [consumeSeek, if_pos transfer]
      exact starts.legal
    have writable : ¬((((card.going preset value unit).consumeSeek unit).disks
          unit).diskIsWriteProtected = true ∧
        (((card.going preset value unit).consumeSeek unit).operation = .writeTransfer ∨
          ((card.going preset value unit).consumeSeek unit).operation = .writeFormat)) := by
      rw [consumeSeek, if_pos transfer]
      exact starts.unprotected
    have ready : ((card.loadControlWord value).goes unit).prepare preset unit =
        card.going preset value unit := rfl
    rw [activate, selected starts.selects]
    dsimp only
    rw [if_pos attached, executeGo, selects]
    dsimp only
    rw [ready, legal, if_neg Bool.false_ne_true, if_neg writable]
  have normal : (card.going preset value unit).testMode = false := starts.normal
  obtain ⟨condition, consumed⟩ : ∃ condition, (card.going preset value unit).consumeSeek unit =
      { card.going preset value unit with seekComplete := condition } :=
    ⟨_, by rw [consumeSeek, if_pos transfer]⟩
  have moves := executes.trans (congrArg (executeAddressed · instrCounter unit) consumed)
  have found := @executeAddressed_found unit
    { card.going preset value unit with seekComplete := condition } transfer normal starts.found
    instrCounter
  have short : (card.going preset value unit).longMode = false := by
    rw [longMode, starts.short, Bool.false_and, Bool.false_and]
  have carries : SmdData.Carries { card.going preset value unit with seekComplete := condition }
      (card.request preset value unit) card := ⟨rfl, normal, short, rfl, rfl, rfl, rfl, rfl, rfl⟩
  exact ⟨_, _, loaded.trans (moves.trans found), carries.startTransfer transfer⟩

end SmdData

end Start

section Operations

variable {preset : Fin 4 → DiskType} {card ready : SmdData} {request : TransferRequest}
  {drive : MountedDrive}

namespace SmdData

theorem Carries.blockCount (carries : ready.Carries request card) :
    ready.blockCount = request.blocks := by
  rw [SmdData.blockCount, carries.short, carries.words, TransferRequest.blocks]
  rfl

/-- The blocks of the transfer lie on the drive of the unit. -/
structure OnDrive (card : SmdData) (request : TransferRequest) (drive : MountedDrive) : Prop where
  mounted : card.drives request.unit = some drive
  small : request.block < 2 ^ 32
  serves : drive.Serves (request.block * 1024) (request.blocks * 1024)

theorem OnDrive.diskWord (onDrive : card.OnDrive request drive) (offset : Nat) :
    request.diskWord card offset = drive.word (request.block * 512 + offset) := by
  rw [TransferRequest.diskWord, SmdData.word, onDrive.mounted]
  rfl

/-- Without words there is no block to read. -/
theorem Carries.readBlocks_none (carries : ready.Carries request card) (none : request.words = 0) :
    (ready.readBlocks request.unit).1 ≠ ready.blockCount := by
  have blocks : ready.blockCount = 0 := by
    rw [carries.blockCount, TransferRequest.blocks, none]
  rw [SmdData.readBlocks, machineBlockRead, blocks, if_pos (.inl rfl)]
  decide

theorem Carries.readBlocks (carries : ready.Carries request card)
    (onDrive : card.OnDrive request drive) (some : 0 < request.words) :
    ready.readBlocks request.unit = ((request.blocks : Int),
      range drive.byte (2 * (request.block * 512)) (2 * (request.blocks * 512))) := by
  have blocks : 0 < request.blocks := Nat.div_pos (by omega) (by decide)
  have start : request.block * bytesPrSector = 2 * (request.block * 512) := by
    rw [bytesPrSector]
    omega
  have length : request.blocks * bytesPrSector = 2 * (request.blocks * 512) := by
    rw [bytesPrSector]
    omega
  have serves : drive.Serves (request.block * bytesPrSector) (request.blocks * bytesPrSector) :=
    onDrive.serves
  have read := machineBlockRead_serves onDrive.mounted request.unit.isLt blocks
    (show 0 < bytesPrSector by decide) serves
  rw [start, length] at read
  rw [SmdData.readBlocks, carries.blockCount, carries.block, carries.drives,
    Nat.mod_eq_of_lt onDrive.small]
  exact read

/-- The words that the disk gives are those of its blocks. -/
theorem Carries.streamWord (carries : ready.Carries request card)
    (onDrive : card.OnDrive request drive) {offset : Nat} (below : offset < request.words) :
    smdStreamWord (ready.readBlocks request.unit).2 ready.longMode offset =
      request.diskWord card offset := by
  have inside : offset < request.blocks * 512 := by
    rw [TransferRequest.blocks]
    omega
  rw [carries.readBlocks onDrive (by omega), carries.short, smdStreamWord,
    if_neg Bool.false_ne_true, ioBufferReadWord_range inside, onDrive.diskWord]

/-- The words have moved, and the comparer error of an earlier transfer is still there. -/
structure Yields (request : TransferRequest) (card after : SmdData) : Prop
    extends request.Moves card after where
  latched : request.operation = .compareTransfer →
    (after.statusRegister.comparerError = true ↔
      card.statusRegister.comparerError = true ∨ request.Differs card)

/-- Without words nothing moves. -/
theorem Carries.fails (carries : ready.Carries request card) (none : request.words = 0)
    {error : DiskError} (other : error ≠ .comparerError) :
    Yields request card (ready.failOperation error) := by
  have latched : (ready.failOperation error).statusRegister.comparerError =
      ready.statusRegister.comparerError := by
    cases error <;> first | rfl | exact absurd rfl other
  have blocks : request.blocks = 0 := by rw [TransferRequest.blocks, none]
  have regs : (ready.failOperation error).regs.core = ready.regs.core ∧
      (ready.failOperation error).regs.words = ready.regs.words := ⟨rfl, rfl⟩
  have core : request.core < 2 ^ 24 := carries.core ▸ core_lt
  refine ⟨⟨?_, fun address => ?_, fun unit place => ?_, 0, ⟨Nat.zero_le _, ?_, ?_⟩, ?_, ?_⟩,
    fun _ => ?_⟩
  · exact congrArg CoreMemory.size carries.memory
  · rw [TransferRequest.memoryAfter, if_neg (by omega)]
    exact congrFun (congrArg CoreMemory.words carries.memory) address
  · rw [TransferRequest.wordAfter, if_neg (by rw [blocks]; omega)]
    exact congrArg (fun drives : MountedDrives =>
      ((drives unit).map (MountedDrive.word · place)).getD 0) carries.drives
  · exact fun _ offset below => absurd below (Nat.not_lt_zero _)
  · exact fun some => absurd some (by omega)
  · rw [regs.1, carries.core, Nat.add_zero, Nat.mod_eq_of_lt core]
  · rw [regs.2, carries.words]
    rfl
  · rw [latched, carries.comparer]
    exact ⟨.inl, fun either => either.resolve_right fun ⟨_, below, _⟩ => by omega⟩

/-- The registers after all the words. -/
theorem Carries.counted (carries : ready.Carries request card) :
    (ready.regs.counted request.words).core = (request.core + request.words) % 2 ^ 24 ∧
      (ready.regs.counted request.words).words = request.words - request.words := by
  have counted := @counted_eq ready.regs request.words (Nat.le_of_eq carries.words.symm)
  rw [carries.core, carries.words] at counted
  exact counted

theorem all_done (request : TransferRequest) (card : SmdData)
    (moved : request.operation ≠ .compareTransfer) : request.Done card request.words :=
  ⟨Nat.le_refl _, fun compare => absurd compare moved, fun below => absurd below (Nat.lt_irrefl _)⟩

theorem Carries.readTransfer (carries : ready.Carries request card)
    (onDrive : card.OnDrive request drive) (read : request.operation = .readTransfer)
    (insideCore : request.core + request.words ≤ 2 ^ 24) (ticks : Nat) :
    Yields request card (ready.readTransfer ticks request.unit) := by
  have notCompare : request.operation ≠ .compareTransfer := by
    rw [read]
    decide
  rw [SmdData.readTransfer]
  rcases Nat.eq_zero_or_pos request.words with none | some
  · rw [if_pos (carries.readBlocks_none none)]
    exact carries.fails none (by decide)
  · have all : ¬(ready.readBlocks request.unit).1 ≠ ready.blockCount := by
      rw [carries.readBlocks onDrive some, carries.blockCount]
      exact not_not.mpr rfl
    rw [if_neg all]
    refine ⟨⟨?_, fun address => ?_, fun unit place => ?_, request.words,
      all_done request card notCompare, ?_⟩, fun compare => absurd compare notCompare⟩
    · exact storeWords_size.trans (congrArg CoreMemory.size carries.memory)
    · refine (storeWords_words (by rw [carries.core, carries.words]; exact insideCore)
        address).trans ?_
      rw [TransferRequest.memoryAfter, carries.core, carries.words, carries.memory]
      by_cases inside : request.core ≤ address ∧ address < request.core + request.words ∧
          address < card.memory.size
      · rw [if_pos inside, if_pos ⟨read, inside⟩, Nat.zero_add,
          carries.streamWord onDrive (by omega)]
      · rw [if_neg inside, if_neg fun both => inside both.2]
    · rw [TransferRequest.wordAfter, if_neg (by rw [read]; exact fun both => absurd both.1 (by decide))]
      exact congrArg (fun drives : MountedDrives =>
        ((drives unit).map (MountedDrive.word · place)).getD 0) carries.drives
    · rw [carries.words]
      exact carries.counted

/-- The words of memory, and zeros up to the end of the last block. -/
theorem Carries.writeBuffer_words (carries : ready.Carries request card) (index : Nat) :
    ioBufferReadWord ready.writeBuffer index =
      if index < request.words then request.coreWord card index else 0 := by
  have place : smdStreamPlace ready.longMode = some := by
    funext index
    rw [carries.short, smdStreamPlace, if_neg Bool.false_ne_true]
  have enough : request.words ≤ request.blocks * 512 := by
    rw [TransferRequest.blocks]
    omega
  rw [writeBuffer, place, carries.words, carries.core, carries.blockCount, carries.memory,
    fetchBuffer_words (by rw [List.length_replicate, bytesPrSector]; omega), ioBufferReadWord_zeros,
    Nat.zero_add, Nat.sub_zero]
  by_cases inside : index < request.words
  · rw [if_pos inside, if_pos ⟨Nat.zero_le _, inside⟩]
    rfl
  · rw [if_neg inside, if_neg fun both => inside both.2]

theorem Carries.writeBuffer_length (carries : ready.Carries request card) :
    ready.writeBuffer.length = request.blocks * bytesPrSector := by
  rw [writeBuffer, fetchBuffer_length, List.length_replicate, carries.blockCount]

/-- The blocks of the unit have the words, and every other word of an image is kept. -/
theorem Carries.written (carries : ready.Carries request card)
    (onDrive : card.OnDrive request drive) (write : request.operation = .writeTransfer)
    (some : 0 < request.words) :
    ∃ drives : MountedDrives,
      machineBlockWrite smdMaxUnits ready.drives bytesPrSector ready.writeBuffer ready.blockCount
        (ready.logicalBlock (ready.disks request.unit) % 2 ^ 32) request.unit =
          ((ready.blockCount : Int), drives) ∧
      ∀ (unit : Fin 4) place, ((drives unit).map (MountedDrive.word · place)).getD 0 =
        request.wordAfter card unit place := by
  have blocks : 0 < request.blocks := Nat.div_pos (by omega) (by decide)
  have start : request.block * bytesPrSector = 2 * (request.block * 512) := by
    rw [bytesPrSector]
    omega
  have length : request.blocks * bytesPrSector = 2 * (request.blocks * 512) := by
    rw [bytesPrSector]
    omega
  have serves : drive.Serves (request.block * bytesPrSector) (request.blocks * bytesPrSector) :=
    onDrive.serves
  obtain ⟨written, wrote, bytes⟩ := machineBlockWrite_serves onDrive.mounted request.unit.isLt
    blocks carries.writeBuffer_length serves
  rw [start] at bytes
  refine ⟨Function.update card.drives request.unit (Option.some written), ?_,
    fun unit place => ?_⟩
  · rw [carries.blockCount, carries.block, carries.drives, Nat.mod_eq_of_lt onDrive.small]
    exact wrote
  · have word := word_putRange bytes (carries.writeBuffer_length.trans length) place
    rw [carries.writeBuffer_words] at word
    rw [TransferRequest.wordAfter]
    by_cases same : unit = request.unit
    · subst same
      rw [Function.update_self, Option.map_some, Option.getD_some, word]
      by_cases inside : request.block * 512 ≤ place ∧
          place < (request.block + request.blocks) * 512
      · have blocksHave : request.block * 512 ≤ place ∧
            place < request.block * 512 + request.blocks * 512 := by
          rwa [Nat.add_mul] at inside
        have moves : place - request.block * 512 < request.words ↔
            place < request.block * 512 + request.words := by omega
        rw [if_pos blocksHave, if_pos (show _ ∧ _ ∧ _ ∧ _ from ⟨write, rfl, inside⟩),
          if_congr moves rfl rfl]
      · have blocksMiss : ¬(request.block * 512 ≤ place ∧
            place < request.block * 512 + request.blocks * 512) := by
          rwa [Nat.add_mul] at inside
        rw [if_neg blocksMiss, if_neg fun all => inside all.2.2, SmdData.word, onDrive.mounted]
        rfl
    · have apart : (unit : Nat) ≠ request.unit := fun equal => same (Fin.ext equal)
      rw [Function.update_of_ne apart, if_neg fun all => same all.2.1]
      rfl

theorem Carries.writeTransfer (carries : ready.Carries request card)
    (onDrive : card.OnDrive request drive) (write : request.operation = .writeTransfer)
    (ticks : Nat) : Yields request card (ready.writeTransfer ticks request.unit) := by
  have notCompare : request.operation ≠ .compareTransfer := by
    rw [write]
    decide
  rcases Nat.eq_zero_or_pos request.words with none | some
  · have blocks : ready.blockCount = 0 := by
      rw [carries.blockCount, TransferRequest.blocks, none]
    have refused : ready.writeTransfer ticks request.unit = ready.failOperation .writeError := by
      have nothing : 0 = 0 ∨ smdMaxUnits ≤ request.unit.val := .inl rfl
      rw [SmdData.writeTransfer, carries.words, none, blocks, machineBlockWrite, if_pos nothing]
      rfl
    rw [refused]
    exact carries.fails none (by decide)
  · obtain ⟨drives, wrote, images⟩ := carries.written onDrive write some
    rw [SmdData.writeTransfer, wrote]
    dsimp only
    rw [if_neg (not_not.mpr rfl)]
    refine ⟨⟨congrArg CoreMemory.size carries.memory, fun address => ?_, images, request.words,
      all_done request card notCompare, ?_⟩, fun compare => absurd compare notCompare⟩
    · rw [TransferRequest.memoryAfter,
        if_neg (by rw [write]; exact fun both => absurd both.1 (by decide))]
      exact congrFun (congrArg CoreMemory.words carries.memory) address
    · rw [carries.words]
      exact carries.counted

/-- A compare leaves memory and the images as they are. -/
theorem compare_keeps {after : SmdData} (compare : request.operation = .compareTransfer)
    (memory : after.memory = card.memory) (drives : after.drives = card.drives) :
    after.memory.size = card.memory.size ∧
      (∀ address, after.memory.words address = request.memoryAfter card address) ∧
      ∀ unit place, after.word unit place = request.wordAfter card unit place := by
  refine ⟨congrArg CoreMemory.size memory, fun address => ?_, fun unit place => ?_⟩
  · rw [TransferRequest.memoryAfter,
      if_neg (by rw [compare]; exact fun both => absurd both.1 (by decide)), memory]
  · rw [TransferRequest.wordAfter,
      if_neg (by rw [compare]; exact fun both => absurd both.1 (by decide)), SmdData.word, drives]
    rfl

/-- The number of equal words is the number of words done. -/
theorem Carries.compared (carries : ready.Carries request card)
    (onDrive : card.OnDrive request drive) (compare : request.operation = .compareTransfer) :
    request.Done card (equalWords ready.memory
      (smdStreamWord (ready.readBlocks request.unit).2 ready.longMode) request.words request.core 0) := by
  obtain ⟨equal, differs⟩ := @equalWords_spec ready.memory request.words request.core 0
    (smdStreamWord (ready.readBlocks request.unit).2 ready.longMode)
  refine ⟨equalWords_le, fun _ offset below => ?_, fun below => ⟨compare, ?_⟩⟩
  · have same := equal offset below
    rwa [Nat.zero_add, carries.streamWord onDrive (Nat.lt_of_lt_of_le below equalWords_le),
      carries.memory] at same
  · have other := differs below
    rw [Nat.zero_add, carries.streamWord onDrive below] at other
    rw [TransferRequest.coreWord, ← carries.memory]
    exact other

theorem Carries.compareTransfer (carries : ready.Carries request card)
    (onDrive : card.OnDrive request drive) (compare : request.operation = .compareTransfer)
    (ticks : Nat) : Yields request card (ready.compareTransfer ticks request.unit) := by
  rw [SmdData.compareTransfer]
  rcases Nat.eq_zero_or_pos request.words with none | some
  · rw [if_pos (carries.readBlocks_none none)]
    exact carries.fails none (by decide)
  · have all : ¬(ready.readBlocks request.unit).1 ≠ ready.blockCount := by
      rw [carries.readBlocks onDrive some, carries.blockCount]
      exact not_not.mpr rfl
    have done := carries.compared onDrive compare
    rw [if_neg all, carries.words, carries.core]
    generalize equalWords ready.memory
      (smdStreamWord (ready.readBlocks request.unit).2 ready.longMode) request.words request.core 0 =
        equal at done ⊢
    have counted := @counted_eq ready.regs equal (carries.words.symm ▸ done.1)
    rw [carries.core, carries.words] at counted
    dsimp only
    split_ifs with below
    · obtain ⟨size, memory, images⟩ := @compare_keeps card request
        ((ready.putRegs (ready.regs.counted equal)).failOperation .comparerError) compare
        carries.memory carries.drives
      exact ⟨⟨size, memory, images, equal, done, counted⟩, fun _ =>
        ⟨fun _ => .inr ⟨equal, below, (done.2.2 below).2⟩, fun _ => rfl⟩⟩
    · obtain ⟨size, memory, images⟩ := @compare_keeps card request
        (ready.transferEnds ticks equal request.unit) compare carries.memory carries.drives
      refine ⟨⟨size, memory, images, equal, done, counted⟩, fun _ => ?_⟩
      have kept : (ready.transferEnds ticks equal request.unit).statusRegister.comparerError =
          card.statusRegister.comparerError := carries.comparer
      rw [kept]
      refine ⟨.inl, fun either => either.resolve_right ?_⟩
      rintro ⟨offset, inside, differs⟩
      exact differs (done.2.1 compare offset (by omega))

/-- Every transfer moves its words. -/
theorem Carries.executeOperation (carries : ready.Carries request card)
    (onDrive : card.OnDrive request drive)
    (transfers : request.operation ∈
      [DeviceOperation.readTransfer, .writeTransfer, .compareTransfer])
    (insideCore : request.core + request.words ≤ 2 ^ 24) (instrCounter ticks : Nat) :
    Yields request card (ready.executeOperation instrCounter ticks request.unit) := by
  simp only [List.mem_cons, List.not_mem_nil, or_false] at transfers
  rcases transfers with read | write | compare
  · have operation : ready.executeOperation instrCounter ticks request.unit =
        ready.readTransfer ticks request.unit := by
      rw [SmdData.executeOperation, carries.operation, read, carries.normal]
      rfl
    rw [operation]
    exact carries.readTransfer onDrive read insideCore ticks
  · have operation : ready.executeOperation instrCounter ticks request.unit =
        ready.writeTransfer ticks request.unit := by
      rw [SmdData.executeOperation, carries.operation, write]
    rw [operation]
    exact carries.writeTransfer onDrive write ticks
  · have operation : ready.executeOperation instrCounter ticks request.unit =
        ready.compareTransfer ticks request.unit := by
      rw [SmdData.executeOperation, carries.operation, compare, carries.normal]
      rfl
    rw [operation]
    exact carries.compareTransfer onDrive compare ticks

theorem Starts.onDrive {value : BitVec 16} {unit : Fin 4}
    (starts : Starts preset card value unit drive) :
    card.OnDrive (card.request preset value unit) drive := by
  have inside := starts.insideDisc
  have below := blocks_lt ((card.going preset value unit).disks unit).diskType
  exact ⟨starts.mounted, Nat.lt_of_le_of_lt (Nat.le_trans (Nat.le_add_right _ _) inside) below,
    starts.serves⟩

/-- A control word that starts a transfer moves its words. -/
theorem Starts.yields {value : BitVec 16} {unit : Fin 4}
    (starts : Starts preset card value unit drive) (instrCounter : Nat) :
    Yields (card.request preset value unit) card (card.write preset instrCounter 5 value) := by
  obtain ⟨ticks, ready, write, carries⟩ := write_starts starts instrCounter
  rw [write]
  exact carries.executeOperation starts.onDrive starts.transfers starts.insideCore instrCounter ticks

end SmdData

end Operations

section Claims

variable {preset : Fin 4 → DiskType} {card : SmdData} {value : BitVec 16} {unit : Fin 4}
  {drive : MountedDrive}

/-- A drive of zeros. -/
def blankDrive : MountedDrive where
  source := .localFile (some .empty) true
  dataSize := 37877760
  isWriteprotected := false

/-- A controller with one word to move, and a memory of one word. -/
def idleSmd (word : BitVec 16) : SmdData where
  statusRegister := ⟨false, false, false, false, false, false, false, false, false, false, false,
    false, false, false⟩
  controlRegister := 0
  seekComplete := 0
  seekError := false
  searchTicks := 0
  regs := ⟨true, false, 0, none, 0, 0, 0, 0, 1, 0, 0, 0, 0⟩
  disks := fun _ => ⟨false, true, 0, [], false, .disk38Mb, 37877760⟩
  interrupt := false
  ioDelays := []
  memory := ⟨1, fun _ => word⟩
  drives := fun _ => some blankDrive

/-- Memory is changed after a compare that found the difference. -/
def comparedSmd : SmdData :=
  { (idleSmd 1).write (fun _ => .unknown) 0 5 0x1804 with memory := ⟨1, fun _ => 0⟩ }

/-- A transfer does its work exactly when no compare of equal words finds an old comparer error,
and what was written is read back. -/
theorem smd_transfers (starts : card.Starts preset value unit drive) (instrCounter : Nat) :
    ((card.request preset value unit).Performs card (card.write preset instrCounter 5 value) ↔
      ((card.request preset value unit).operation = .compareTransfer →
        card.statusRegister.comparerError = true →
          (card.request preset value unit).Differs card)) ∧
    ∀ (reader : SmdData) (readValue : BitVec 16) (readDrive : MountedDrive) (readCounter : Nat),
      (card.request preset value unit).operation = .writeTransfer →
      reader.drives = (card.write preset instrCounter 5 value).drives →
      reader.Starts preset readValue unit readDrive →
      (reader.request preset readValue unit).operation = .readTransfer →
      (reader.request preset readValue unit).block = (card.request preset value unit).block →
      (reader.request preset readValue unit).words = (card.request preset value unit).words →
      ∀ offset < (card.request preset value unit).words,
        (reader.request preset readValue unit).core + offset < reader.memory.size →
        (reader.write preset readCounter 5 readValue).memory.words
            ((reader.request preset readValue unit).core + offset) =
          (card.request preset value unit).coreWord card offset := by
  have yields := starts.yields instrCounter
  refine ⟨⟨fun performs compare error => ?_, fun clear => ⟨yields.toMoves, fun compare => ?_⟩⟩, ?_⟩
  · exact (performs.comparer compare).mp ((yields.latched compare).mpr (.inl error))
  · rw [yields.latched compare]
    exact ⟨fun either => either.elim (clear compare) id, .inr⟩
  · intro reader readValue readDrive readCounter write drives reads read block words offset below
      inside
    have image := yields.images unit ((card.request preset value unit).block * 512 + offset)
    have blocks : offset < (card.request preset value unit).blocks * 512 := by
      rw [TransferRequest.blocks]
      omega
    rw [TransferRequest.wordAfter, if_pos ⟨write, rfl, by omega, by omega⟩, if_pos (by omega),
      Nat.add_sub_cancel_left] at image
    rw [(reads.yields readCounter).memory, TransferRequest.memoryAfter,
      if_pos ⟨read, by omega, by omega, inside⟩, Nat.add_sub_cancel_left, TransferRequest.diskWord,
      block, ← image, SmdData.word, drives]
    rfl

theorem idleSmd_starts :
    (idleSmd 1).Starts (fun _ => .unknown) 0x0804 0 blankDrive := by
  refine ⟨rfl, by decide, by decide, by decide, rfl, by decide, by decide, rfl, by decide, rfl,
    fun _ => rfl, by decide, by decide, by decide, by decide, by decide, ?_⟩
  exact fun _ _ _ format inside => absurd inside List.not_mem_nil

theorem smd_transfers_write :
    ((idleSmd 1).request (fun _ => .unknown) 0x0804 0).Performs (idleSmd 1)
      ((idleSmd 1).write (fun _ => .unknown) 0 5 0x0804) :=
  (smd_transfers idleSmd_starts 0).1.mpr fun compare => absurd compare (by decide)

set_option maxRecDepth 20000 in
/-- The second compare finds equal words and ends with the comparer error of the first. -/
theorem smd_compare_fails :
    comparedSmd.Starts (fun _ => .unknown) 0x1804 0 blankDrive ∧
      ¬(comparedSmd.request (fun _ => .unknown) 0x1804 0).Performs comparedSmd
        (comparedSmd.write (fun _ => .unknown) 0 5 0x1804) := by
  have starts : comparedSmd.Starts (fun _ => .unknown) 0x1804 0 blankDrive := by
    refine ⟨rfl, by decide, by decide, by decide, rfl, by decide, by decide, rfl, by decide, rfl,
      fun _ => rfl, by decide, by decide, by decide, by decide, by decide, ?_⟩
    exact fun _ _ _ format inside => absurd inside List.not_mem_nil
  refine ⟨starts, fun performs => ?_⟩
  have compare : (comparedSmd.request (fun _ => .unknown) 0x1804 0).operation =
      .compareTransfer := by decide
  have error := ((starts.yields 0).latched compare).mpr (.inl (by decide))
  obtain ⟨offset, below, differs⟩ := (performs.comparer compare).mp error
  have words : (comparedSmd.request (fun _ => .unknown) 0x1804 0).words = 1 := by decide
  have first : offset = 0 := by omega
  subst first
  exact differs (by decide)

end Claims

end Nd100x.Smd
