import Nd100x.Scsi.Disk

namespace Nd100x.Scsi

open Nd100x.Library

namespace DiskOwner

def mounted (owner : DiskOwner) (call : Nat) : Bool :=
  (owner.diskInfo call).elim false fun size => decide (0 < size)

end DiskOwner

/-- A disk transfers the bytes of a command. The positions whose bytes were moved with a mounted
image are recorded. -/
structure DiskRun where
  device : HddDevice
  moved : List Nat

namespace DiskRun

def record (run : DiskRun) (pos : Nat) : List Nat :=
  if run.device.impl.hasMedia.2 then run.moved ++ [pos] else run.moved

def byteIn (run : DiskRun) (pos : Nat) : DiskRun :=
  ⟨(Hdd.getData run.device .data pos).1, run.record pos⟩

def byteOut (run : DiskRun) (pos : Nat) (data : Byte) : DiskRun :=
  ⟨Hdd.putData run.device .data pos data, run.record pos⟩

/-- The bytes move in their order. -/
def after (input : Bool) (data : Nat → Byte) (run : DiskRun) : Nat → DiskRun
  | 0 => run
  | pos + 1 =>
    if input then (after input data run pos).byteIn pos
    else (after input data run pos).byteOut pos (data pos)

/-- The record of the transferred blocks is that of the command. -/
def asked (device : HddDevice) (cdb : Nat → Byte) (identify : Byte) : HddDevice where
  port := { device.port with
    cmdbuf := cdb
    identify := identify
    calls := [] }
  impl := { device.impl with owner := { device.impl.owner with transferred := [] } }

/-- The status that was queued ends the command after its bytes. -/
def perform (device : HddDevice) (cdb : Nat → Byte) (identify : Byte) (data : Nat → Byte) :
    DiskRun × Option Byte :=
  let decoded := Hdd.command (asked device cdb identify)
  (match phaseOf decoded.port.calls with
    | none => ⟨decoded, []⟩
    | some phase => after phase.input data ⟨decoded, []⟩ phase.size,
    statusOf decoded.port.calls)

end DiskRun

/-- These commands move blocks. -/
def MovesBlocks (cdb : Nat → Byte) : Prop :=
  cdb 0 = scRead6 ∨ cdb 0 = scWrite6 ∨ cdb 0 = scRead10 ∨ cdb 0 = scWrite10

def cdbReads (cdb : Nat → Byte) : Bool := decide (cdb 0 = scRead6) || decide (cdb 0 = scRead10)

def cdbShort (cdb : Nat → Byte) : Bool := decide (cdb 0 = scRead6) || decide (cdb 0 = scWrite6)

def cdbLba (cdb : Nat → Byte) : Nat :=
  if cdbShort cdb then getU24be cdb 1 % 2 ^ 21 else getU32be cdb 2

def cdbBlocks (cdb : Nat → Byte) : Nat :=
  if cdbShort cdb then if cdb 4 = 0 then 256 else (cdb 4).toNat else getU16be cdb 7

def cdbLun (cdb : Nat → Byte) (identify : Byte) : Nat :=
  if identify.getLsbD 7 then (identify &&& 0x07).toNat else (cdb 1 >>> 5).toNat

/-- Each block of the command is on the disk, the callback succeeded for it, and all its bytes were
moved. -/
def Transferred (disk : ScsiDiskInfo) (cdb : Nat → Byte) (run : DiskRun) : Prop :=
  ∀ k < cdbBlocks cdb, cdbLba cdb + k ≤ disk.lastLba ∧
    cdbLba cdb + k ∈ run.device.impl.owner.transferred ∧
    ∀ offset < disk.sectorbytes, k * disk.sectorbytes + offset ∈ run.moved

/-- A command ends well only with its blocks, and with a check condition otherwise. -/
def HonestStatus (disk : ScsiDiskInfo) (cdb : Nat → Byte) (result : DiskRun × Option Byte) :
    Prop :=
  (result.2 = some ssGood → Transferred disk cdb result.1) ∧
    (result.2 ≠ some ssGood → result.2 = some ssCheckCondition)

/-- The next calls of the callback for the blocks of the command succeed, and so do the calls for
the information of the image that come with each byte. -/
def CallsSucceed (hdd : ScsiHdd) (cdb : Nat → Byte) : Prop :=
  ∀ k < cdbBlocks cdb, cdbLba cdb + k ≤ hdd.hdinfo.lastLba ∧
    (if cdbReads cdb then hdd.owner.readFails (hdd.owner.reads + k)
      else hdd.owner.writeFails (hdd.owner.writes + k)) = false ∧
    ∀ offset < hdd.hdinfo.sectorbytes,
      hdd.owner.mounted (hdd.owner.infoCalls + (k * hdd.hdinfo.sectorbytes + offset)) = true

/-- A read finds that its first block is off the disk or cannot be read. -/
def FirstRefused (hdd : ScsiHdd) (cdb : Nat → Byte) : Prop :=
  cdbReads cdb = true ∧
    (hdd.hdinfo.lastLba < cdbLba cdb ∨ hdd.owner.readFails hdd.owner.reads = true)

/-- The callback is asked for this block. -/
def answered (fails : Bool) (block : Nat) : List Nat := if fails then [] else [block]

/-- The blocks of this number succeed among those that were asked for from a call on. -/
def passed (fails : Nat → Bool) (start count : Nat) : List Nat :=
  ((List.range count).filter fun k => !fails k).map (start + ·)

theorem mem_passed {fails : Nat → Bool} {start count k : Nat} :
    start + k ∈ passed fails start count ↔ k < count ∧ fails k = false := by
  rw [passed, List.mem_map]
  constructor
  · rintro ⟨j, member, same⟩
    obtain rfl : j = k := Nat.add_left_cancel same
    rw [List.mem_filter, List.mem_range, Bool.not_eq_true'] at member
    exact member
  · rintro ⟨inside, succeeds⟩
    exact ⟨k, List.mem_filter.mpr ⟨List.mem_range.mpr inside, by rw [succeeds]; rfl⟩, rfl⟩

theorem passed_succ (fails : Nat → Bool) (start count : Nat) :
    passed fails start (count + 1) =
      passed fails start count ++ answered (fails count) (start + count) := by
  rw [passed, List.range_succ, List.filter_append, List.map_append, ← passed]
  rcases failed : fails count with _ | _
  · rw [List.filter_cons_of_pos (by rw [failed]; rfl)]
    rfl
  · rw [List.filter_cons_of_neg (by rw [failed]; exact Bool.false_ne_true)]
    rfl

/-- A transfer leaves these fields of the disk. -/
structure DiskKept (before after : ScsiHdd) : Prop where
  diskType : after.diskType = before.diskType
  lba : after.lba = before.lba
  diskInfo : after.owner.diskInfo = before.owner.diskInfo
  readFails : after.owner.readFails = before.owner.readFails
  writeFails : after.owner.writeFails = before.owner.writeFails
  infoCalls : after.owner.infoCalls = before.owner.infoCalls

section Kept

variable {first middle last : ScsiHdd} (hdd : ScsiHdd)

theorem readBlock_kept (lba : Int) : DiskKept hdd (hdd.readBlock lba).1 := by
  rw [ScsiHdd.readBlock]
  split_ifs
  · rw [DiskOwner.readFunc]
    split_ifs <;> exact ⟨rfl, rfl, rfl, rfl, rfl, rfl⟩
  · exact ⟨rfl, rfl, rfl, rfl, rfl, rfl⟩

theorem writeBlock_kept (lba : Int) : DiskKept hdd (hdd.writeBlock lba).1 := by
  rw [ScsiHdd.writeBlock]
  split_ifs
  · rw [DiskOwner.writeFunc]
    split_ifs <;> exact ⟨rfl, rfl, rfl, rfl, rfl, rfl⟩
  · exact ⟨rfl, rfl, rfl, rfl, rfl, rfl⟩

theorem fetchSector_kept (pos : Nat) : DiskKept hdd (hdd.fetchSector pos) := by
  rw [ScsiHdd.fetchSector]
  dsimp only
  split_ifs
  · exact ⟨rfl, rfl, rfl, rfl, rfl, rfl⟩
  all_goals
    have kept := readBlock_kept
      ({ hdd with curLba := hdd.lba + (pos / hdd.hdinfo.sectorbytes : Nat) } : ScsiHdd)
      (hdd.lba + (pos / hdd.hdinfo.sectorbytes : Nat))
    exact ⟨kept.diskType, kept.lba, kept.diskInfo, kept.readFails, kept.writeFails,
      kept.infoCalls⟩

theorem storeByte_kept (pos : Nat) (data : Byte) : DiskKept hdd (hdd.storeByte pos data) := by
  rw [ScsiHdd.storeByte]
  dsimp only
  split_ifs
  · have kept := writeBlock_kept
      ({ hdd with
        sectorData := Function.update hdd.sectorData (pos % hdd.hdinfo.sectorbytes) data
        curLba := hdd.lba + (pos / hdd.hdinfo.sectorbytes : Nat) } : ScsiHdd)
      (hdd.lba + (pos / hdd.hdinfo.sectorbytes : Nat))
    exact ⟨kept.diskType, kept.lba, kept.diskInfo, kept.readFails, kept.writeFails,
      kept.infoCalls⟩
  · exact ⟨rfl, rfl, rfl, rfl, rfl, rfl⟩

end Kept

section Bytes

variable {device : HddDevice}

/-- The byte hooks look at the image for these commands. -/
structure OnImage (device : HddDevice) : Prop where
  sectorBuffer : Hdd.cmd device ≠ scReadSectorBuffer
  readBuffer : Hdd.cmd device ≠ scReadBuffer
  parameter : ∀ pos data hdd, Hdd.putParameter (Hdd.cmd device) pos data hdd = none

theorem getData_image (image : OnImage device) (pos : Nat) :
    (Hdd.getData device .data pos).1 =
      if device.impl.hasMedia.2 then
        device.onImpl fun hdd => hdd.hasMedia.1.fetchSector pos
      else device.onImpl fun hdd => hdd.hasMedia.1 := by
  rw [Hdd.getData, if_neg fun special => image.sectorBuffer special.2,
    if_neg fun special => image.readBuffer special.2]
  dsimp only
  rw [if_pos (rfl : Sbuf.data = Sbuf.data)]
  split_ifs <;> rfl

theorem putData_image (image : OnImage device) (pos : Nat) (data : Byte) :
    Hdd.putData device .data pos data =
      if device.impl.hasMedia.2 then
        device.onImpl fun hdd => hdd.hasMedia.1.storeByte pos data
      else device.onImpl fun hdd => hdd.hasMedia.1 := by
  rw [Hdd.putData, if_pos rfl, image.parameter]
  dsimp only
  split_ifs <;> rfl

/-- Each byte asks once for the information of the image. -/
structure Follows (device : HddDevice) (count : Nat) (run : DiskRun) : Prop where
  cmdbuf : run.device.port.cmdbuf = device.port.cmdbuf
  diskType : run.device.impl.diskType = device.impl.diskType
  lba : run.device.impl.lba = device.impl.lba
  diskInfo : run.device.impl.owner.diskInfo = device.impl.owner.diskInfo
  readFails : run.device.impl.owner.readFails = device.impl.owner.readFails
  writeFails : run.device.impl.owner.writeFails = device.impl.owner.writeFails
  infoCalls : run.device.impl.owner.infoCalls = device.impl.owner.infoCalls + count
  moved : ∀ pos, pos ∈ run.moved ↔
    pos < count ∧ device.impl.owner.mounted (device.impl.owner.infoCalls + pos) = true

theorem Follows.media {run : DiskRun} {count : Nat} (follows : Follows device count run) :
    run.device.impl.hasMedia.2 =
      device.impl.owner.mounted (device.impl.owner.infoCalls + count) := by
  rw [ScsiHdd.hasMedia, DiskOwner.diskInfoFunc, DiskOwner.mounted, follows.diskInfo,
    follows.infoCalls]

theorem Follows.image {run : DiskRun} {count : Nat} (follows : Follows device count run)
    (image : OnImage device) : OnImage run.device := by
  have cmd : Hdd.cmd run.device = Hdd.cmd device := congrFun follows.cmdbuf 0
  exact ⟨cmd ▸ image.sectorBuffer, cmd ▸ image.readBuffer, cmd ▸ image.parameter⟩

theorem Follows.next {run : DiskRun} {count : Nat} (follows : Follows device count run)
    {next : ScsiHdd} (kept : DiskKept run.device.impl.hasMedia.1 next) :
    Follows device (count + 1) ⟨run.device.onImpl fun _ => next, run.record count⟩ where
  cmdbuf := follows.cmdbuf
  diskType := kept.diskType.trans follows.diskType
  lba := kept.lba.trans follows.lba
  diskInfo := kept.diskInfo.trans follows.diskInfo
  readFails := kept.readFails.trans follows.readFails
  writeFails := kept.writeFails.trans follows.writeFails
  infoCalls := kept.infoCalls.trans (congrArg (· + 1) follows.infoCalls)
  moved := by
    intro pos
    rw [DiskRun.record, follows.media]
    split_ifs with mounted
    · rw [List.mem_append, List.mem_singleton, follows.moved]
      constructor
      · rintro (⟨inside, on⟩ | rfl)
        · exact ⟨Nat.lt_succ_of_lt inside, on⟩
        · exact ⟨Nat.lt_succ_self _, mounted⟩
      · rintro ⟨inside, on⟩
        exact (Nat.lt_succ_iff_lt_or_eq.mp inside).imp (⟨·, on⟩) id
    · rw [follows.moved]
      refine ⟨fun inside => ⟨Nat.lt_succ_of_lt inside.1, inside.2⟩, fun inside => ⟨?_, inside.2⟩⟩
      rcases Nat.lt_succ_iff_lt_or_eq.mp inside.1 with before | rfl
      · exact before
      · exact absurd inside.2 mounted

theorem after_follows (image : OnImage device) (input : Bool) (data : Nat → Byte) (count : Nat) :
    Follows device count (DiskRun.after input data ⟨device, []⟩ count) := by
  induction count with
  | zero =>
    refine ⟨rfl, rfl, rfl, rfl, rfl, rfl, rfl, fun pos => ?_⟩
    exact ⟨fun member => absurd member List.not_mem_nil, fun inside => absurd inside.1 (by omega)⟩
  | succ count ih =>
    rw [DiskRun.after]
    have looked : DiskKept (DiskRun.after input data ⟨device, []⟩ count).device.impl.hasMedia.1
        (DiskRun.after input data ⟨device, []⟩ count).device.impl.hasMedia.1 :=
      ⟨rfl, rfl, rfl, rfl, rfl, rfl⟩
    split_ifs
    · rw [DiskRun.byteIn, getData_image (ih.image image)]
      split_ifs
      · exact ih.next (fetchSector_kept _ count)
      · exact ih.next looked
    · rw [DiskRun.byteOut, putData_image (ih.image image)]
      split_ifs
      · exact ih.next (storeByte_kept _ count _)
      · exact ih.next looked

theorem onDisk_block {hdd : ScsiHdd} {block : Nat} (inside : block ≤ hdd.hdinfo.lastLba) :
    hdd.onDisk (block : Int) = true := by
  rw [ScsiHdd.onDisk, decide_eq_true (Int.natCast_nonneg block), Int.toNat_natCast,
    decide_eq_true inside]
  rfl

theorem readBlock_block {hdd : ScsiHdd} {block : Nat} (inside : block ≤ hdd.hdinfo.lastLba) :
    (hdd.readBlock block).1.owner.reads = hdd.owner.reads + 1 ∧
      (hdd.readBlock block).1.owner.transferred =
        hdd.owner.transferred ++ answered (hdd.owner.readFails hdd.owner.reads) block ∧
      (hdd.readBlock block).2 = !hdd.owner.readFails hdd.owner.reads := by
  rw [ScsiHdd.readBlock, if_pos (onDisk_block inside), DiskOwner.readFunc, answered,
    Int.toNat_natCast]
  split_ifs with failed
  · rw [failed, List.append_nil]
    exact ⟨rfl, rfl, rfl⟩
  · rw [Bool.not_eq_true] at failed
    rw [failed]
    exact ⟨rfl, rfl, rfl⟩

theorem writeBlock_block {hdd : ScsiHdd} {block : Nat} (inside : block ≤ hdd.hdinfo.lastLba) :
    (hdd.writeBlock block).1.owner.writes = hdd.owner.writes + 1 ∧
      (hdd.writeBlock block).1.owner.transferred =
        hdd.owner.transferred ++ answered (hdd.owner.writeFails hdd.owner.writes) block := by
  rw [ScsiHdd.writeBlock, if_pos (onDisk_block inside), DiskOwner.writeFunc, answered,
    Int.toNat_natCast]
  split_ifs with failed
  · rw [List.append_nil]
    exact ⟨rfl, rfl⟩
  · exact ⟨rfl, rfl⟩

theorem fetchSector_next {hdd : ScsiHdd} {pos block : Nat}
    (place : hdd.lba + (pos / hdd.hdinfo.sectorbytes : Nat) = block)
    (other : (block : Int) ≠ hdd.curLba) (inside : block ≤ hdd.hdinfo.lastLba) :
    (hdd.fetchSector pos).curLba = block ∧
      (hdd.fetchSector pos).owner.reads = hdd.owner.reads + 1 ∧
      (hdd.fetchSector pos).owner.transferred =
        hdd.owner.transferred ++ answered (hdd.owner.readFails hdd.owner.reads) block := by
  obtain ⟨reads, transferred, -⟩ :=
    @readBlock_block { hdd with curLba := block } block inside
  rw [ScsiHdd.fetchSector]
  dsimp only
  rw [place, if_neg other]
  refine ⟨?_, reads, transferred⟩
  rw [ScsiHdd.readBlock]
  split_ifs <;> rfl

theorem storeByte_inside {hdd : ScsiHdd} {pos : Nat} (data : Byte)
    (open_ : pos % hdd.hdinfo.sectorbytes ≠ hdd.hdinfo.sectorbytes - 1) :
    (hdd.storeByte pos data).owner = hdd.owner := by
  rw [ScsiHdd.storeByte]
  dsimp only
  rw [if_neg]
  exact open_

theorem storeByte_last {hdd : ScsiHdd} {pos block : Nat} (data : Byte)
    (place : hdd.lba + (pos / hdd.hdinfo.sectorbytes : Nat) = block)
    (full : pos % hdd.hdinfo.sectorbytes = hdd.hdinfo.sectorbytes - 1)
    (inside : block ≤ hdd.hdinfo.lastLba) :
    (hdd.storeByte pos data).owner.writes = hdd.owner.writes + 1 ∧
      (hdd.storeByte pos data).owner.transferred =
        hdd.owner.transferred ++ answered (hdd.owner.writeFails hdd.owner.writes) block := by
  have stored := @writeBlock_block { hdd with
      sectorData := Function.update hdd.sectorData (pos % hdd.hdinfo.sectorbytes) data
      curLba := block } block inside
  rw [ScsiHdd.storeByte]
  dsimp only
  rw [if_pos, place]
  · exact stored
  · exact full

theorem sectorbytes_pos (hdd : ScsiHdd) : 0 < hdd.hdinfo.sectorbytes := by
  rw [ScsiHdd.hdinfo]
  cases hdd.diskType <;> exact Nat.succ_pos _

theorem Follows.sectorbytes {run : DiskRun} {count : Nat} (follows : Follows device count run) :
    run.device.impl.hdinfo = device.impl.hdinfo := congrArg scsiDiskSetType follows.diskType

/-- The blocks of the first bytes were read, and the block after them is not held yet. -/
structure HasRead (device : HddDevice) (start calls count : Nat) (run : DiskRun) : Prop where
  curLba : run.device.impl.curLba = (start + count : Nat)
  reads : run.device.impl.owner.reads = calls + (count + 1)
  transferred : run.device.impl.owner.transferred =
    passed (fun k => device.impl.owner.readFails (calls + k)) start (count + 1)

theorem after_hasRead {start calls : Nat} (image : OnImage device)
    (lba : device.impl.lba = (start : Nat)) (first : HasRead device start calls 0 ⟨device, []⟩)
    (data : Nat → Byte) (count : Nat)
    (disk : ∀ k, k * device.impl.hdinfo.sectorbytes < count →
      start + k ≤ device.impl.hdinfo.lastLba)
    (mounted : ∀ pos < count,
      device.impl.owner.mounted (device.impl.owner.infoCalls + pos) = true) :
    HasRead device start calls ((count - 1) / device.impl.hdinfo.sectorbytes)
      (DiskRun.after true data ⟨device, []⟩ count) := by
  induction count with
  | zero =>
    rw [Nat.zero_sub, Nat.zero_div]
    exact first
  | succ count ih =>
    have before := ih
      (fun k inside => disk k (Nat.lt_succ_of_lt inside))
      (fun pos inside => mounted pos (Nat.lt_succ_of_lt inside))
    have follows := after_follows image true data count
    rw [DiskRun.after, if_pos rfl]
    generalize DiskRun.after true data ⟨device, []⟩ count = run at before follows ⊢
    have media : run.device.impl.hasMedia.2 = true :=
      follows.media.trans (mounted count (Nat.lt_succ_self count))
    have place (block : Nat) (here : count / device.impl.hdinfo.sectorbytes = block) :
        run.device.impl.hasMedia.1.lba +
          (count / run.device.impl.hasMedia.1.hdinfo.sectorbytes : Nat) =
            (start + block : Nat) := by
      change run.device.impl.lba + (count / run.device.impl.hdinfo.sectorbytes : Nat) = _
      rw [follows.lba, follows.sectorbytes, lba, here]
      rfl
    rw [DiskRun.byteIn, getData_image (follows.image image), if_pos media, Nat.add_sub_cancel]
    by_cases same : count / device.impl.hdinfo.sectorbytes =
        (count - 1) / device.impl.hdinfo.sectorbytes
    · -- The byte is in the sector that is held.
      have held : run.device.impl.hasMedia.1.fetchSector count =
          run.device.impl.hasMedia.1 := by
        rw [ScsiHdd.fetchSector, if_pos]
        exact (place _ same).trans before.curLba.symm
      rw [same]
      refine ⟨?_, ?_, ?_⟩
      all_goals rw [Device.onImpl_impl, held]
      · exact before.curLba
      · exact before.reads
      · exact before.transferred
    · -- The byte is the first one of its sector.
      have next : count / device.impl.hdinfo.sectorbytes =
          (count - 1) / device.impl.hdinfo.sectorbytes + 1 := by
        rcases count with _ | count
        · exact absurd rfl same
        · rw [Nat.add_sub_cancel] at same ⊢
          rw [Nat.succ_div] at same ⊢
          split_ifs at same ⊢
          · rfl
          · exact absurd rfl same
      rw [next]
      generalize (count - 1) / device.impl.hdinfo.sectorbytes = block at before next
      have inside : start + (block + 1) ≤ run.device.impl.hasMedia.1.hdinfo.lastLba := by
        change _ ≤ run.device.impl.hdinfo.lastLba
        rw [follows.sectorbytes]
        refine disk _ (Nat.lt_succ_of_le ?_)
        rw [← next]
        exact Nat.div_mul_le_self _ _
      have other : ((start + (block + 1) : Nat) : Int) ≠ run.device.impl.curLba := by
        rw [before.curLba]
        omega
      obtain ⟨curLba, reads, transferred⟩ := fetchSector_next (place _ next) other inside
      refine ⟨curLba, reads.trans (congrArg (· + 1) before.reads), transferred.trans ?_⟩
      change run.device.impl.owner.transferred ++
        answered (run.device.impl.owner.readFails run.device.impl.owner.reads) _ = _
      rw [before.transferred, before.reads, follows.readFails, passed_succ _ _ (block + 1)]

theorem last_of_sector {size count : Nat} (positive : 0 < size) :
    size ∣ count + 1 ↔ count % size = size - 1 := by
  obtain ⟨last, rfl⟩ := Nat.exists_eq_succ_of_ne_zero (Nat.ne_of_gt positive)
  rw [Nat.dvd_iff_mod_eq_zero, Nat.succ_mod_succ_eq_zero_iff]
  rfl

/-- The blocks of the first bytes were given to the callback. -/
structure HasStored (device : HddDevice) (start calls count : Nat) (run : DiskRun) : Prop where
  writes : run.device.impl.owner.writes = calls + count
  transferred : run.device.impl.owner.transferred =
    passed (fun k => device.impl.owner.writeFails (calls + k)) start count

theorem after_hasStored {start calls : Nat} (image : OnImage device)
    (lba : device.impl.lba = (start : Nat)) (first : HasStored device start calls 0 ⟨device, []⟩)
    (data : Nat → Byte) (count : Nat)
    (disk : ∀ k, k * device.impl.hdinfo.sectorbytes < count →
      start + k ≤ device.impl.hdinfo.lastLba)
    (mounted : ∀ pos < count,
      device.impl.owner.mounted (device.impl.owner.infoCalls + pos) = true) :
    HasStored device start calls (count / device.impl.hdinfo.sectorbytes)
      (DiskRun.after false data ⟨device, []⟩ count) := by
  have positive := sectorbytes_pos device.impl
  induction count with
  | zero =>
    rw [Nat.zero_div]
    exact first
  | succ count ih =>
    have before := ih
      (fun k inside => disk k (Nat.lt_succ_of_lt inside))
      (fun pos inside => mounted pos (Nat.lt_succ_of_lt inside))
    have follows := after_follows image false data count
    rw [DiskRun.after, if_neg Bool.false_ne_true]
    generalize DiskRun.after false data ⟨device, []⟩ count = run at before follows ⊢
    have media : run.device.impl.hasMedia.2 = true :=
      follows.media.trans (mounted count (Nat.lt_succ_self count))
    have length : run.device.impl.hasMedia.1.hdinfo.sectorbytes =
        device.impl.hdinfo.sectorbytes := congrArg ScsiDiskInfo.sectorbytes follows.sectorbytes
    rw [DiskRun.byteOut, putData_image (follows.image image), if_pos media]
    by_cases full : count % device.impl.hdinfo.sectorbytes =
        device.impl.hdinfo.sectorbytes - 1
    · -- The byte is the last one of its sector.
      have next : (count + 1) / device.impl.hdinfo.sectorbytes =
          count / device.impl.hdinfo.sectorbytes + 1 := by
        rw [Nat.succ_div, if_pos ((last_of_sector positive).mpr full)]
      have place : run.device.impl.hasMedia.1.lba +
          (count / run.device.impl.hasMedia.1.hdinfo.sectorbytes : Nat) =
            (start + count / device.impl.hdinfo.sectorbytes : Nat) := by
        change run.device.impl.lba + _ = _
        rw [length, follows.lba, lba]
        rfl
      have inside : start + count / device.impl.hdinfo.sectorbytes ≤
          run.device.impl.hasMedia.1.hdinfo.lastLba := by
        change _ ≤ run.device.impl.hdinfo.lastLba
        rw [follows.sectorbytes]
        exact disk _ (Nat.lt_succ_of_le (Nat.div_mul_le_self _ _))
      obtain ⟨writes, transferred⟩ :=
        storeByte_last (data count) place (by rw [length]; exact full) inside
      rw [next]
      refine ⟨writes.trans (congrArg (· + 1) before.writes), transferred.trans ?_⟩
      change run.device.impl.owner.transferred ++
        answered (run.device.impl.owner.writeFails run.device.impl.owner.writes) _ = _
      rw [before.transferred, before.writes, follows.writeFails, passed_succ]
    · have same : (count + 1) / device.impl.hdinfo.sectorbytes =
          count / device.impl.hdinfo.sectorbytes := by
        rw [Nat.succ_div, if_neg (full ∘ (last_of_sector positive).mp), Nat.add_zero]
      have owner := @storeByte_inside run.device.impl.hasMedia.1 count (data count)
          (by rw [length]; exact full)
      rw [same]
      refine ⟨?_, ?_⟩
      all_goals rw [Device.onImpl_impl, owner]
      · exact before.writes
      · exact before.transferred

end Bytes

section Commands

variable {device : HddDevice} {cdb : Nat → Byte} {run : DiskRun}

theorem byte_inside {size blocks k offset : Nat} (block : k < blocks) (inside : offset < size) :
    k * size + offset < blocks * size :=
  calc k * size + offset < k * size + size := Nat.add_lt_add_left inside _
    _ = (k + 1) * size := (Nat.succ_mul k size).symm
    _ ≤ blocks * size := Nat.mul_le_mul_right size block

theorem last_block {size blocks : Nat} (positive : 0 < size) (some_ : 0 < blocks) :
    (blocks * size - 1) / size + 1 = blocks := by
  obtain ⟨block, rfl⟩ := Nat.exists_eq_succ_of_ne_zero (Nat.ne_of_gt some_)
  rw [Nat.succ_mul, Nat.add_sub_assoc positive, Nat.mul_comm, Nat.mul_add_div positive,
    Nat.div_eq_of_lt (Nat.sub_lt positive Nat.one_pos), Nat.add_zero]

/-- A transfer that asked for each of its blocks has them when its calls succeed. -/
theorem transferred_iff (fails : Nat → Bool)
    (follows : Follows device (cdbBlocks cdb * device.impl.hdinfo.sectorbytes) run)
    (logs : 0 < cdbBlocks cdb →
      (∀ k < cdbBlocks cdb, cdbLba cdb + k ≤ device.impl.hdinfo.lastLba) →
      (∀ pos < cdbBlocks cdb * device.impl.hdinfo.sectorbytes,
        device.impl.owner.mounted (device.impl.owner.infoCalls + pos) = true) →
      run.device.impl.owner.transferred = passed fails (cdbLba cdb) (cdbBlocks cdb)) :
    Transferred device.impl.hdinfo cdb run ↔
      ∀ k < cdbBlocks cdb, cdbLba cdb + k ≤ device.impl.hdinfo.lastLba ∧ fails k = false ∧
        ∀ offset < device.impl.hdinfo.sectorbytes,
          device.impl.owner.mounted (device.impl.owner.infoCalls +
            (k * device.impl.hdinfo.sectorbytes + offset)) = true := by
  have positive := sectorbytes_pos device.impl
  have logged (mounted : ∀ k < cdbBlocks cdb, ∀ offset < device.impl.hdinfo.sectorbytes,
      device.impl.owner.mounted (device.impl.owner.infoCalls +
        (k * device.impl.hdinfo.sectorbytes + offset)) = true)
      (disk : ∀ k < cdbBlocks cdb, cdbLba cdb + k ≤ device.impl.hdinfo.lastLba) {k : Nat}
      (block : k < cdbBlocks cdb) :
      cdbLba cdb + k ∈ run.device.impl.owner.transferred ↔ fails k = false := by
    rw [logs (Nat.zero_lt_of_lt block) disk fun pos inside => ?_, mem_passed]
    · exact ⟨And.right, fun succeeds => ⟨block, succeeds⟩⟩
    · have here := mounted (pos / device.impl.hdinfo.sectorbytes)
        ((Nat.div_lt_iff_lt_mul positive).mpr inside) (pos % device.impl.hdinfo.sectorbytes)
        (Nat.mod_lt pos positive)
      rw [Nat.div_add_mod'] at here
      exact here
  constructor
  · intro transferred k block
    have mounted (k : Nat) (block : k < cdbBlocks cdb) (offset : Nat)
        (inside : offset < device.impl.hdinfo.sectorbytes) :=
      ((follows.moved _).mp ((transferred k block).2.2 offset inside)).2
    have disk (k : Nat) (block : k < cdbBlocks cdb) := (transferred k block).1
    exact ⟨disk k block, (logged mounted disk block).mp (transferred k block).2.1,
      mounted k block⟩
  · intro succeed k block
    have mounted (k : Nat) (block : k < cdbBlocks cdb) := (succeed k block).2.2
    have disk (k : Nat) (block : k < cdbBlocks cdb) := (succeed k block).1
    exact ⟨disk k block, (logged mounted disk block).mpr (succeed k block).2.1,
      fun offset inside => (follows.moved _).mpr
        ⟨byte_inside block inside, mounted k block offset inside⟩⟩

/-- The signed place of a command is its block when the disk has it. -/
structure Places (hdd : ScsiHdd) (start : Nat) : Prop where
  near : start ≤ hdd.hdinfo.lastLba → hdd.lba = (start : Nat)
  far : hdd.hdinfo.lastLba < start → hdd.onDisk hdd.lba = false

theorem lastLba_small (hdd : ScsiHdd) : hdd.hdinfo.lastLba < 2 ^ 31 := by
  rw [ScsiHdd.hdinfo]
  cases hdd.diskType <;> decide

theorem places_nat {hdd : ScsiHdd} {start : Nat} (lba : hdd.lba = (start : Nat)) :
    Places hdd start where
  near := fun _ => lba
  far := by
    intro far
    rw [lba, ScsiHdd.onDisk, Int.toNat_natCast, decide_eq_false (Nat.not_le.mpr far),
      Bool.and_false]

/-- A place with its sign bit is before the disk, and the others are their numbers. -/
theorem places_signed {hdd : ScsiHdd} {start : Nat} (small : start < 2 ^ 32)
    (lba : hdd.lba = (BitVec.ofNat 32 start).toInt) : Places hdd start := by
  by_cases positive : start < 2 ^ 31
  · refine places_nat (lba.trans ?_)
    rw [BitVec.toInt_eq_toNat_of_lt, BitVec.toNat_ofNat, Nat.mod_eq_of_lt small]
    rw [BitVec.toNat_ofNat, Nat.mod_eq_of_lt small]
    omega
  · have last := lastLba_small hdd
    refine ⟨fun near => absurd near (by omega), fun _ => ?_⟩
    have negative : hdd.lba < 0 := by
      rw [lba, BitVec.toInt_eq_toNat_cond, BitVec.toNat_ofNat, Nat.mod_eq_of_lt small]
      split_ifs <;> omega
    rw [ScsiHdd.onDisk, decide_eq_false (Int.not_le.mpr negative), Bool.false_and]

theorem getU32be_small (buf : Nat → Byte) (start : Nat) : getU32be buf start < 2 ^ 32 := by
  have first := (buf start).isLt
  have second := (buf (start + 1)).isLt
  have third := (buf (start + 2)).isLt
  have fourth := (buf (start + 3)).isLt
  rw [getU32be]
  omega

/-- The first block of a read is held. -/
structure FirstRead (hdd next : ScsiHdd) (start : Nat) : Prop where
  lba : next.lba = (start : Nat)
  curLba : next.curLba = (start : Nat)
  reads : next.owner.reads = hdd.owner.reads + 1
  transferred : next.owner.transferred = hdd.owner.transferred ++ [start]

theorem readFirst_valid {hdd : ScsiHdd} {start : Nat} (places : Places hdd start) :
    (Hdd.readFirst hdd).sectorDataValid = true ↔
      start ≤ hdd.hdinfo.lastLba ∧ hdd.owner.readFails hdd.owner.reads = false := by
  change (hdd.readBlock hdd.lba).2 = true ↔ _
  by_cases near : start ≤ hdd.hdinfo.lastLba
  · rw [places.near near, (readBlock_block near).2.2, Bool.not_eq_true']
    exact ⟨fun succeeds => ⟨near, succeeds⟩, And.right⟩
  · rw [ScsiHdd.readBlock, if_neg (by rw [places.far (Nat.lt_of_not_le near)]; decide)]
    exact ⟨Bool.noConfusion, fun both => absurd both.1 near⟩

theorem readFirst_first {hdd : ScsiHdd} {start : Nat} (places : Places hdd start)
    (near : start ≤ hdd.hdinfo.lastLba)
    (succeeds : hdd.owner.readFails hdd.owner.reads = false) :
    FirstRead hdd (Hdd.readFirst hdd) start := by
  obtain ⟨reads, transferred, -⟩ := readBlock_block near
  have kept := readBlock_kept hdd hdd.lba
  rw [succeeds] at transferred
  have lba := places.near near
  refine ⟨kept.lba.trans lba, lba, ?_, ?_⟩
  · change (hdd.readBlock hdd.lba).1.owner.reads = _
    rw [lba, reads]
  · change (hdd.readBlock hdd.lba).1.owner.transferred = _
    rw [lba, transferred]
    rfl

theorem readFirst_kept (hdd : ScsiHdd) :
    DiskKept hdd (Hdd.readFirst hdd) ∧ (Hdd.readFirst hdd).blocks = hdd.blocks := by
  have kept := readBlock_kept hdd hdd.lba
  refine ⟨⟨kept.diskType, kept.lba, kept.diskInfo, kept.readFails, kept.writeFails,
    kept.infoCalls⟩, ?_⟩
  change (hdd.readBlock hdd.lba).1.blocks = _
  rw [ScsiHdd.readBlock]
  split_ifs <;> rfl

/-- The calls of a command with a data phase. -/
theorem perform_moves {identify : Byte} (input : Bool) {size : Nat} (data : Nat → Byte)
    (calls : (Hdd.command (DiskRun.asked device cdb identify)).port.calls =
      [.push (if input then .dataIn .data size else .dataOut .data size), .push (.status ssGood),
        .push (.message1 smCommandComplete), .push .busFree]) :
    DiskRun.perform device cdb identify data =
      (DiskRun.after input data ⟨Hdd.command (DiskRun.asked device cdb identify), []⟩ size,
        some ssGood) := by
  rw [DiskRun.perform, calls]
  have phase : phaseOf [.push (if input then .dataIn .data size else .dataOut .data size),
      .push (.status ssGood), .push (.message1 smCommandComplete), .push .busFree] =
        if 0 < size then some ⟨input, size, 0⟩ else none := by
    cases input <;> rfl
  have status : statusOf [.push (if input then .dataIn .data size else .dataOut .data size),
      .push (.status ssGood), .push (.message1 smCommandComplete), .push .busFree] =
        some ssGood := by
    cases input <;> rfl
  rw [phase, status]
  split_ifs with some_
  · rfl
  · rw [Nat.eq_zero_of_not_pos some_]
    rfl

theorem honest_good {disk : ScsiDiskInfo} :
    HonestStatus disk cdb (run, some ssGood) ↔ Transferred disk cdb run :=
  ⟨fun honest => honest.1 rfl, fun transferred => ⟨fun _ => transferred, fun other =>
    absurd rfl other⟩⟩

/-- A command that is refused has a check condition and moves nothing. -/
theorem perform_refused {identify : Byte} (data : Nat → Byte)
    (calls : (Hdd.command (DiskRun.asked device cdb identify)).port.calls =
      [.push (.status ssCheckCondition), .push (.message1 smCommandComplete), .push .busFree])
    (disk : ScsiDiskInfo) :
    HonestStatus disk cdb (DiskRun.perform device cdb identify data) := by
  have status : (DiskRun.perform device cdb identify data).2 = some ssCheckCondition := by
    rw [DiskRun.perform]
    dsimp only
    rw [calls]
    rfl
  refine ⟨fun good => ?_, fun _ => status⟩
  rw [status] at good
  exact absurd good (by decide)

theorem image_of_moves {decoded : HddDevice} (moves : MovesBlocks cdb)
    (cmd : decoded.port.cmdbuf = cdb) : OnImage decoded := by
  have code : Hdd.cmd decoded = cdb 0 := congrFun cmd 0
  refine ⟨?_, ?_, ?_⟩
  all_goals
    rw [code]
    rcases moves with same | same | same | same <;>
      · rw [same]
        first | decide | exact fun _ _ _ => rfl

/-- The first block decides about a read, and the others are asked for with their bytes. -/
theorem read_honest_iff {identify : Byte} (data : Nat → Byte) (moves : MovesBlocks cdb)
    (reads : cdbReads cdb = true) (lun : cdbLun cdb identify = 0) (placed next : ScsiHdd)
    (kept : DiskKept placed next)
    (owner : placed.owner = (DiskRun.asked device cdb identify).impl.owner)
    (diskType : placed.diskType = device.impl.diskType) (blocks : next.blocks = cdbBlocks cdb)
    (valid : next.sectorDataValid = true ↔ cdbLba cdb ≤ placed.hdinfo.lastLba ∧
      placed.owner.readFails placed.owner.reads = false)
    (first : next.sectorDataValid = true → FirstRead placed next (cdbLba cdb))
    (decoded : Hdd.command (DiskRun.asked device cdb identify) =
      Hdd.startRead ⟨(DiskRun.asked device cdb identify).port, next⟩) :
    HonestStatus device.impl.hdinfo cdb (DiskRun.perform device cdb identify data) ↔
      cdbLun cdb identify ≠ 0 ∨ FirstRefused device.impl cdb ∨ CallsSucceed device.impl cdb := by
  have info : placed.hdinfo = device.impl.hdinfo := congrArg scsiDiskSetType diskType
  have info_ : next.hdinfo = device.impl.hdinfo :=
    (congrArg scsiDiskSetType kept.diskType).trans info
  rw [owner, info] at valid
  by_cases held : next.sectorDataValid = true
  · obtain ⟨near, succeeds⟩ := valid.mp held
    have first_ := first held
    have parts : (Hdd.command (DiskRun.asked device cdb identify)).impl = next ∧
        (Hdd.command (DiskRun.asked device cdb identify)).port.cmdbuf = cdb ∧
        (Hdd.command (DiskRun.asked device cdb identify)).port.calls =
          [.push (.dataIn .data (cdbBlocks cdb * device.impl.hdinfo.sectorbytes)),
            .push (.status ssGood), .push (.message1 smCommandComplete), .push .busFree] := by
      rw [decoded, Hdd.startRead, if_pos held, ← blocks, ← info_]
      exact ⟨rfl, rfl, rfl⟩
    have calls := parts.2.2
    rw [perform_moves true data calls, honest_good]
    obtain ⟨impl, cmdbuf, -⟩ := parts
    generalize Hdd.command (DiskRun.asked device cdb identify) = decoded_ at impl cmdbuf
    have image := image_of_moves moves cmdbuf
    subst impl
    have follows := after_follows image true data (cdbBlocks cdb * device.impl.hdinfo.sectorbytes)
    rw [← info_] at follows ⊢
    have readFails : decoded_.impl.owner.readFails = device.impl.owner.readFails :=
      kept.readFails.trans ((congrArg DiskOwner.readFails owner).trans rfl)
    have mounted_ : decoded_.impl.owner.mounted = device.impl.owner.mounted := by
      funext call
      rw [DiskOwner.mounted, DiskOwner.mounted, kept.diskInfo, owner]
      rfl
    have infoCalls : decoded_.impl.owner.infoCalls = device.impl.owner.infoCalls :=
      kept.infoCalls.trans ((congrArg DiskOwner.infoCalls owner).trans rfl)
    have start : HasRead decoded_ (cdbLba cdb) device.impl.owner.reads 0 ⟨decoded_, []⟩ := by
      refine ⟨first_.curLba, ?_, ?_⟩
      · exact first_.reads.trans (congrArg (·.reads + 1) owner)
      · rw [passed_succ, readFails]
        change decoded_.impl.owner.transferred = [] ++ answered
          (device.impl.owner.readFails device.impl.owner.reads) (cdbLba cdb)
        have fine : device.impl.owner.readFails device.impl.owner.reads = false := succeeds
        rw [first_.transferred, owner, fine]
        rfl
    rw [transferred_iff (fun k => device.impl.owner.readFails (device.impl.owner.reads + k)) follows
      fun some_ disk mounted => ?_]
    · rw [mounted_, infoCalls, info_]
      have calm : ¬FirstRefused device.impl cdb := by
        rintro ⟨-, far | fails⟩
        · exact absurd near (Nat.not_le.mpr far)
        · exact Bool.noConfusion (fails.symm.trans succeeds)
      rw [or_iff_right (not_not.mpr lun), or_iff_right calm, CallsSucceed, reads]
      rfl
    · have done := (after_hasRead image first_.lba start data _ (fun k inside => disk k
        (Nat.lt_of_mul_lt_mul_right inside)) mounted).transferred
      rw [last_block (sectorbytes_pos _) some_, readFails] at done
      exact done
  · have failed : ¬(cdbLba cdb ≤ device.impl.hdinfo.lastLba ∧
        device.impl.owner.readFails device.impl.owner.reads = false) :=
      fun both => held (valid.mpr both)
    have refused : FirstRefused device.impl cdb := by
      refine ⟨reads, ?_⟩
      by_contra none_
      rw [not_or, Nat.not_lt, Bool.not_eq_true] at none_
      exact failed none_
    refine iff_of_true (perform_refused data ?_ _) (.inr (.inl refused))
    rw [decoded, Hdd.startRead, if_neg held]
    rfl

/-- A write ends well whatever becomes of its blocks. -/
theorem write_honest_iff {identify : Byte} (data : Nat → Byte) (moves : MovesBlocks cdb)
    (writes : cdbReads cdb = false) (lun : cdbLun cdb identify = 0) (placed : ScsiHdd)
    (owner : placed.owner = (DiskRun.asked device cdb identify).impl.owner)
    (diskType : placed.diskType = device.impl.diskType) (blocks : placed.blocks = cdbBlocks cdb)
    (places : Places placed (cdbLba cdb))
    (decoded : Hdd.command (DiskRun.asked device cdb identify) =
      Hdd.startWrite ⟨(DiskRun.asked device cdb identify).port, placed⟩) :
    HonestStatus device.impl.hdinfo cdb (DiskRun.perform device cdb identify data) ↔
      cdbLun cdb identify ≠ 0 ∨ FirstRefused device.impl cdb ∨ CallsSucceed device.impl cdb := by
  have info : placed.hdinfo = device.impl.hdinfo := congrArg scsiDiskSetType diskType
  have parts : (Hdd.command (DiskRun.asked device cdb identify)).impl = placed ∧
      (Hdd.command (DiskRun.asked device cdb identify)).port.cmdbuf = cdb ∧
      (Hdd.command (DiskRun.asked device cdb identify)).port.calls =
        [.push (.dataOut .data (cdbBlocks cdb * device.impl.hdinfo.sectorbytes)),
          .push (.status ssGood), .push (.message1 smCommandComplete), .push .busFree] := by
    rw [decoded, Hdd.startWrite, ← blocks, ← info]
    exact ⟨rfl, rfl, rfl⟩
  have calls := parts.2.2
  rw [perform_moves false data calls, honest_good]
  obtain ⟨impl, cmdbuf, -⟩ := parts
  generalize Hdd.command (DiskRun.asked device cdb identify) = decoded_ at impl cmdbuf
  have image := image_of_moves moves cmdbuf
  subst impl
  have follows := after_follows image false data (cdbBlocks cdb * device.impl.hdinfo.sectorbytes)
  rw [← info] at follows ⊢
  have mounted_ : decoded_.impl.owner.mounted = device.impl.owner.mounted := by
    rw [owner]
    rfl
  have infoCalls : decoded_.impl.owner.infoCalls = device.impl.owner.infoCalls :=
    (congrArg DiskOwner.infoCalls owner).trans rfl
  have writeFails : decoded_.impl.owner.writeFails = device.impl.owner.writeFails :=
    (congrArg DiskOwner.writeFails owner).trans rfl
  have start : HasStored decoded_ (cdbLba cdb) device.impl.owner.writes 0 ⟨decoded_, []⟩ :=
    ⟨(congrArg DiskOwner.writes owner).trans rfl, (congrArg DiskOwner.transferred owner).trans rfl⟩
  rw [transferred_iff (fun k => device.impl.owner.writeFails (device.impl.owner.writes + k))
    follows fun some_ disk mounted => ?_]
  · rw [mounted_, infoCalls, info]
    have calm : ¬FirstRefused device.impl cdb := fun refused =>
      Bool.noConfusion (refused.1.symm.trans writes)
    rw [or_iff_right (not_not.mpr lun), or_iff_right calm, CallsSucceed, writes]
    rfl
  · have done := (after_hasStored image (places.near (disk 0 some_)) start data _
      (fun k inside => disk k (Nat.lt_of_mul_lt_mul_right inside)) mounted).transferred
    rw [Nat.mul_div_cancel _ (sectorbytes_pos _), writeFails] at done
    exact done

theorem command_lun (moves : MovesBlocks cdb) {identify : Byte} (lun : cdbLun cdb identify ≠ 0) :
    Hdd.command (DiskRun.asked device cdb identify) =
      (DiskRun.asked device cdb identify).onPort TargetPort.reportBadLun := by
  have code : Hdd.cmd (DiskRun.asked device cdb identify) = cdb 0 := rfl
  rw [Hdd.command, code]
  rcases moves with same | same | same | same <;>
    · rw [same, if_pos]
      exact ⟨by decide, by decide, by decide, lun⟩

theorem cdbShort_six (same : cdb 0 = scRead6 ∨ cdb 0 = scWrite6) : cdbShort cdb = true := by
  rw [cdbShort]
  rcases same with same | same <;> rw [same] <;> rfl

theorem cdbShort_ten (same : cdb 0 = scRead10 ∨ cdb 0 = scWrite10) : cdbShort cdb = false := by
  rw [cdbShort]
  rcases same with same | same <;> rw [same] <;> rfl

/-- The command is decoded by its code. -/
theorem command_moves {hdd : HddDevice} (lun : Hdd.getLun hdd = 0) :
    (Hdd.cmd hdd = scRead6 → Hdd.command hdd = Hdd.read6 hdd) ∧
      (Hdd.cmd hdd = scWrite6 → Hdd.command hdd = Hdd.write6 hdd) ∧
      (Hdd.cmd hdd = scRead10 → Hdd.command hdd = Hdd.read10 hdd) ∧
      (Hdd.cmd hdd = scWrite10 → Hdd.command hdd = Hdd.write10 hdd) := by
  refine ⟨fun same => ?_, fun same => ?_, fun same => ?_, fun same => ?_⟩
  all_goals rw [Hdd.command, same, if_neg fun refused => refused.2.2.2 lun]
  · rw [if_neg, if_neg, if_neg, if_neg, if_pos] <;> decide
  · rw [if_neg, if_neg, if_neg, if_neg, if_neg, if_pos] <;> decide
  · rw [if_neg, if_neg, if_neg, if_neg, if_neg, if_neg, if_pos] <;> decide
  · rw [if_neg, if_neg, if_neg, if_neg, if_neg, if_neg, if_neg, if_pos] <;> decide

/-- The place and the length of a command are those of its bytes. -/
theorem place_spec (hdd : HddDevice) :
    (cdbShort hdd.port.cmdbuf = true →
        Places (Hdd.place6 hdd hdd.impl) (cdbLba hdd.port.cmdbuf) ∧
          (Hdd.place6 hdd hdd.impl).blocks = cdbBlocks hdd.port.cmdbuf) ∧
      (cdbShort hdd.port.cmdbuf = false →
        Places (Hdd.place10 hdd hdd.impl) (cdbLba hdd.port.cmdbuf) ∧
          (Hdd.place10 hdd hdd.impl).blocks = cdbBlocks hdd.port.cmdbuf) := by
  refine ⟨fun short => ?_, fun long => ?_⟩
  · rw [cdbLba, cdbBlocks, short, if_pos rfl, if_pos rfl]
    exact ⟨places_nat rfl, rfl⟩
  · rw [cdbLba, cdbBlocks, long, if_neg Bool.false_ne_true, if_neg Bool.false_ne_true]
    exact ⟨places_signed (getU32be_small _ 2) rfl, rfl⟩

/-- A short read looks at the size of the disk before it reads. -/
theorem read6_honest_iff {identify : Byte} (data : Nat → Byte) (same : cdb 0 = scRead6)
    (lun : cdbLun cdb identify = 0) :
    HonestStatus device.impl.hdinfo cdb (DiskRun.perform device cdb identify data) ↔
      cdbLun cdb identify ≠ 0 ∨ FirstRefused device.impl cdb ∨ CallsSucceed device.impl cdb := by
  have reads : cdbReads cdb = true := by
    rw [cdbReads, same]
    rfl
  have decoded := (@command_moves (DiskRun.asked device cdb identify) lun).1 same
  obtain ⟨places, blocks⟩ := (place_spec (DiskRun.asked device cdb identify)).1
    (cdbShort_six (.inl same))
  have lba : (Hdd.place6 (DiskRun.asked device cdb identify)
      (DiskRun.asked device cdb identify).impl).lba.toNat = cdbLba cdb := by
    rw [cdbLba, cdbShort, same]
    rfl
  generalize placed_ : Hdd.place6 (DiskRun.asked device cdb identify)
    (DiskRun.asked device cdb identify).impl = placed at places blocks lba
  have owner : placed.owner = (DiskRun.asked device cdb identify).impl.owner := by
    rw [← placed_]
    rfl
  have diskType : placed.diskType = device.impl.diskType := by
    rw [← placed_]
    rfl
  by_cases near : placed.lba.toNat ≤ placed.hdinfo.lastLba
  · obtain ⟨kept, blocks_⟩ := readFirst_kept placed
    have valid := readFirst_valid places
    refine read_honest_iff data (.inl same) reads lun placed _ kept owner diskType
      (blocks_.trans blocks) valid
      (fun held => readFirst_first places (valid.mp held).1 (valid.mp held).2) ?_
    rw [decoded, Hdd.read6, Device.onImpl, Device.onImpl_impl, placed_, if_pos near]
    rfl
  · refine read_honest_iff data (.inl same) reads lun placed
      { placed with sectorDataValid := false } ⟨rfl, rfl, rfl, rfl, rfl, rfl⟩ owner diskType blocks
      ⟨Bool.noConfusion, fun both => absurd (lba.symm ▸ both.1) near⟩ Bool.noConfusion ?_
    rw [decoded, Hdd.read6, Device.onImpl, Device.onImpl_impl, placed_, if_neg near]
    rfl

/-- A transfer is honest when none of its calls fails, or when a read is refused. -/
theorem status_honest_iff (device : HddDevice) (moves : MovesBlocks cdb) (identify : Byte)
    (data : Nat → Byte) :
    HonestStatus device.impl.hdinfo cdb (DiskRun.perform device cdb identify data) ↔
      cdbLun cdb identify ≠ 0 ∨ FirstRefused device.impl cdb ∨ CallsSucceed device.impl cdb := by
  by_cases lun : cdbLun cdb identify = 0
  · obtain ⟨-, write6, read10, write10⟩ :=
      @command_moves (DiskRun.asked device cdb identify) lun
    obtain ⟨short, long⟩ := place_spec (DiskRun.asked device cdb identify)
    rcases id moves with same | same | same | same
    · exact read6_honest_iff data same lun
    · obtain ⟨places, blocks⟩ := short (cdbShort_six (.inr same))
      exact write_honest_iff data moves (by rw [cdbReads, same]; rfl) lun
        (Hdd.place6 (DiskRun.asked device cdb identify) (DiskRun.asked device cdb identify).impl)
        rfl rfl blocks places (write6 same)
    · obtain ⟨places, blocks⟩ := long (cdbShort_ten (.inl same))
      obtain ⟨kept, blocks_⟩ := readFirst_kept (Hdd.place10 (DiskRun.asked device cdb identify)
        (DiskRun.asked device cdb identify).impl)
      have valid := readFirst_valid places
      exact read_honest_iff data moves (by rw [cdbReads, same]; rfl) lun _ _ kept rfl rfl
        (blocks_.trans blocks) valid
        (fun held => readFirst_first places (valid.mp held).1 (valid.mp held).2) (read10 same)
    · obtain ⟨places, blocks⟩ := long (cdbShort_ten (.inr same))
      exact write_honest_iff data moves (by rw [cdbReads, same]; rfl) lun
        (Hdd.place10 (DiskRun.asked device cdb identify) (DiskRun.asked device cdb identify).impl)
        rfl rfl blocks places (write10 same)
  · refine iff_of_true (perform_refused data ?_ _) (.inl lun)
    rw [command_lun moves lun]
    rfl

end Commands

/-- The image of this owner is mounted, and no callback fails. -/
def soundOwner : DiskOwner where
  blocks := fun _ _ => 0
  diskInfo := fun _ => some 132415488
  readFails := fun _ => false
  writeFails := fun _ => false
  infoCalls := 0
  reads := 0
  writes := 0
  transferred := []

/-- A short command for one block. -/
def oneBlock (code : Byte) (high middle low : Byte) (pos : Nat) : Byte :=
  [code, high, middle, low, 1, 0].getD pos 0

/-- The last block of the disk is read. -/
theorem status_honest_last :
    HonestStatus (scsiDiskSetType .micropolis1375Nd) (oneBlock scRead6 0x01 0xF9 0x1F)
      (DiskRun.perform (Hdd.init soundOwner .micropolis1375Nd) (oneBlock scRead6 0x01 0xF9 0x1F) 0x80
        fun _ => 0) := by
  refine (status_honest_iff (Hdd.init soundOwner .micropolis1375Nd) (.inl rfl) 0x80 _).mpr
    (.inr (.inr fun k block => ?_))
  have first : k = 0 := Nat.lt_one_iff.mp block
  subst first
  exact ⟨by decide, rfl, fun _ _ => rfl⟩

/-- A write behind the end of the disk ends well. -/
theorem write_off_disk_ends_good :
    ¬HonestStatus (scsiDiskSetType .micropolis1375Nd) (oneBlock scWrite6 0x1F 0xFF 0xFF)
      (DiskRun.perform (Hdd.init soundOwner .micropolis1375Nd) (oneBlock scWrite6 0x1F 0xFF 0xFF)
        0x80 fun _ => 0) := by
  intro honest
  have good : (DiskRun.perform (Hdd.init soundOwner .micropolis1375Nd)
      (oneBlock scWrite6 0x1F 0xFF 0xFF) 0x80 fun _ => 0).2 = some ssGood := by
    decide
  have inside := (honest.1 good 0 (by decide)).1
  exact absurd inside (by decide)

end Nd100x.Scsi
