import Nd100x.Scsi.DiskHonesty
import Nd100x.Scsi.ModePages

namespace Nd100x.Scsi

def cdbWrites (cdb : Nat → Byte) : Bool :=
  decide (cdb 0 = scWrite6) || decide (cdb 0 = scWrite10)

namespace BusEvent

def request : BusEvent → Option Request
  | .command request => some request
  | .cut request _ => some request
  | .busReset => none

/-- A data phase of this size moves so many bytes before it ends or is cut off. -/
def most : BusEvent → Nat → Nat
  | .command _, size => size
  | .cut _ count, size => min count size
  | .busReset, _ => 0

end BusEvent

namespace Request

variable (request : Request) (disk : ScsiDiskInfo)

def size : Nat := cdbBlocks request.cdb * disk.sectorbytes

def Reads : Prop := request.lun = 0 ∧ cdbReads request.cdb = true

def Writes : Prop := request.lun = 0 ∧ cdbWrites request.cdb = true

instance : Decidable request.Reads := inferInstanceAs (Decidable (_ ∧ _))

instance : Decidable request.Writes := inferInstanceAs (Decidable (_ ∧ _))

/-- The blocks of a READ and a WRITE lie on the disk. -/
def OnDisk : Prop :=
  request.Reads ∨ request.Writes →
    ∀ k < cdbBlocks request.cdb, cdbLba request.cdb + k ≤ disk.lastLba

/-- A WRITE of this many bytes replaces the blocks that were transferred completely. -/
def stored (count : Nat) (blocks : Nat → Nat → Byte) (block offset : Nat) : Byte :=
  if cdbLba request.cdb ≤ block ∧ block < cdbLba request.cdb + count / disk.sectorbytes then
    request.data ((block - cdbLba request.cdb) * disk.sectorbytes + offset)
  else blocks block offset

/-- These bytes of the blocks are for a READ. -/
def wanted (count : Nat) (blocks : Nat → Nat → Byte) : List Byte :=
  (List.range count).map fun pos =>
    blocks (cdbLba request.cdb + pos / disk.sectorbytes) (pos % disk.sectorbytes)

end Request

namespace BusEvent

variable (disk : ScsiDiskInfo)

def OnDisk (event : BusEvent) : Prop := ∀ request ∈ event.request, request.OnDisk disk

/-- A block holds the data of the last WRITE that transferred it completely. -/
def contents (blocks : Nat → Nat → Byte) (event : BusEvent) : Nat → Nat → Byte :=
  match event.request with
  | none => blocks
  | some request =>
    if request.Writes then request.stored disk (event.most (request.size disk)) blocks else blocks

def ReadsBack (blocks : Nat → Nat → Byte) (event : BusEvent) (bytes : List Byte) : Prop :=
  ∀ request ∈ event.request, request.Reads →
    bytes = request.wanted disk (event.most (request.size disk)) blocks

/-- The callbacks succeed for the blocks that a READ moves and for those that a WRITE transfers
completely, and the image is mounted for their bytes. -/
def CallbacksSucceed (owner : DiskOwner) (event : BusEvent) : Prop :=
  ∀ request ∈ event.request,
    (request.Reads → ∀ pos < event.most (request.size disk),
      owner.readFails (owner.reads + pos / disk.sectorbytes) = false ∧
        owner.mounted (owner.infoCalls + pos) = true) ∧
    (request.Writes → ∀ k < event.most (request.size disk) / disk.sectorbytes,
      owner.writeFails (owner.writes + k) = false ∧
        ∀ offset < disk.sectorbytes,
          owner.mounted (owner.infoCalls + (k * disk.sectorbytes + offset)) = true)

end BusEvent

section Bytes

variable {device : HddDevice}

/-- The bytes of a block command move like those of a recorded transfer. -/
theorem moveBytes_device (input : Bool) (size : Nat) (data : Nat → Byte) (count : Nat) :
    (Hdd.moveBytes ⟨input, .data, size⟩ data device count).1 =
      (DiskRun.after input data ⟨device, []⟩ count).device := by
  induction count with
  | zero => rfl
  | succ count ih =>
    rw [Hdd.moveBytes, DiskRun.after]
    dsimp only
    rw [ih]
    cases input <;> rfl

/-- A sector that was read is the block of the image. -/
theorem readBlock_sector {hdd : ScsiHdd} {block : Nat} (inside : block ≤ hdd.hdinfo.lastLba)
    (succeeds : hdd.owner.readFails hdd.owner.reads = false) :
    (hdd.readBlock block).1.sectorData = hdd.owner.blocks block ∧
      (hdd.readBlock block).2 = true := by
  rw [ScsiHdd.readBlock, if_pos (onDisk_block inside), DiskOwner.readFunc,
    if_neg (by rw [succeeds]; exact Bool.false_ne_true), Int.toNat_natCast]
  exact ⟨rfl, rfl⟩

theorem readBlock_blocks (hdd : ScsiHdd) (lba : Int) :
    (hdd.readBlock lba).1.owner.blocks = hdd.owner.blocks := by
  rw [ScsiHdd.readBlock]
  split_ifs
  · rw [DiskOwner.readFunc]
    split_ifs <;> rfl
  · rfl

theorem fetchSector_blocks (hdd : ScsiHdd) (pos : Nat) :
    (hdd.fetchSector pos).owner.blocks = hdd.owner.blocks := by
  rw [ScsiHdd.fetchSector]
  dsimp only
  split_ifs
  · rfl
  all_goals exact readBlock_blocks _ _

/-- The sector that is held is a valid copy of this block. -/
structure Holds (blocks : Nat → Nat → Byte) (block : Nat) (hdd : ScsiHdd) : Prop where
  curLba : hdd.curLba = block
  valid : hdd.sectorDataValid = true
  sector : hdd.sectorData = blocks block

/-- The sector of a position is held after its byte was fetched. -/
theorem fetchSector_holds {hdd : ScsiHdd} {pos block held : Nat} {blocks : Nat → Nat → Byte}
    (holds : Holds blocks held hdd) (image : hdd.owner.blocks = blocks)
    (place : hdd.lba + (pos / hdd.hdinfo.sectorbytes : Nat) = block)
    (inside : block ≤ hdd.hdinfo.lastLba)
    (succeeds : block ≠ held → hdd.owner.readFails hdd.owner.reads = false) :
    Holds blocks block (hdd.fetchSector pos) ∧
      (hdd.fetchSector pos).owner.reads = hdd.owner.reads + if block = held then 0 else 1 := by
  by_cases same : block = held
  · subst same
    have kept : hdd.fetchSector pos = hdd := by
      rw [ScsiHdd.fetchSector]
      exact if_pos (place.trans holds.curLba.symm)
    rw [kept, if_pos rfl]
    exact ⟨holds, rfl⟩
  · have other : (block : Int) ≠ hdd.curLba := by
      rw [holds.curLba]
      exact fun equal => same (Int.natCast_inj.mp equal)
    obtain ⟨curLba, reads, -⟩ := fetchSector_next place other inside
    obtain ⟨sector, valid⟩ :=
      @readBlock_sector { hdd with curLba := block } block inside (succeeds same)
    rw [if_neg same]
    refine ⟨⟨curLba, ?_, ?_⟩, reads⟩
    all_goals
      rw [ScsiHdd.fetchSector]
      dsimp only
      rw [place, if_neg other, valid]
    · exact if_pos rfl ▸ sector.trans (congrFun image block)

theorem getData_sent (image : OnImage device) (media : device.impl.hasMedia.2 = true) (pos : Nat) :
    Hdd.getData device .data pos =
      (device.onImpl fun hdd => hdd.hasMedia.1.fetchSector pos,
        (device.impl.hasMedia.1.fetchSector pos).sectorByte pos) := by
  rw [Hdd.getData, if_neg fun special => image.sectorBuffer special.2,
    if_neg fun special => image.readBuffer special.2]
  dsimp only
  rw [if_pos media, if_pos (rfl : Sbuf.data = Sbuf.data)]
  rfl

/-- The first bytes of a READ were sent. -/
structure HasSent (device : HddDevice) (start count : Nat) (moved : HddDevice × List Byte) :
    Prop where
  holds : Holds device.impl.owner.blocks
    (start + (count - 1) / device.impl.hdinfo.sectorbytes) moved.1.impl
  blocks : moved.1.impl.owner.blocks = device.impl.owner.blocks
  reads : moved.1.impl.owner.reads =
    device.impl.owner.reads + (count - 1) / device.impl.hdinfo.sectorbytes
  bytes : moved.2 = (List.range count).map fun pos =>
    device.impl.owner.blocks (start + pos / device.impl.hdinfo.sectorbytes)
      (pos % device.impl.hdinfo.sectorbytes)

theorem quotient_step (size count : Nat) :
    count / size = (count - 1) / size ∨ count / size = (count - 1) / size + 1 := by
  rcases count with _ | count
  · exact .inl rfl
  · rw [Nat.add_sub_cancel, Nat.succ_div]
    split_ifs
    · exact .inr rfl
    · exact .inl rfl

theorem moveBytes_sends {start size : Nat} (image : OnImage device)
    (lba : device.impl.lba = (start : Nat))
    (first : Holds device.impl.owner.blocks start device.impl)
    (data : Nat → Byte) (count : Nat)
    (disk : ∀ pos < count, start + pos / device.impl.hdinfo.sectorbytes ≤
      device.impl.hdinfo.lastLba)
    (succeed : ∀ pos < count, 0 < pos / device.impl.hdinfo.sectorbytes →
      device.impl.owner.readFails
        (device.impl.owner.reads + (pos / device.impl.hdinfo.sectorbytes - 1)) = false)
    (mounted : ∀ pos < count,
      device.impl.owner.mounted (device.impl.owner.infoCalls + pos) = true) :
    HasSent device start count (Hdd.moveBytes ⟨true, .data, size⟩ data device count) := by
  induction count with
  | zero =>
    refine ⟨?_, rfl, ?_, rfl⟩
    · rw [Nat.zero_sub, Nat.zero_div]
      exact first
    · rw [Nat.zero_sub, Nat.zero_div]
      rfl
  | succ count ih =>
    have before := ih
      (fun pos inside => disk pos (Nat.lt_succ_of_lt inside))
      (fun pos inside => succeed pos (Nat.lt_succ_of_lt inside))
      (fun pos inside => mounted pos (Nat.lt_succ_of_lt inside))
    have follows := after_follows image true data count
    rw [Hdd.moveBytes]
    dsimp only
    rw [if_pos rfl]
    have moved := @moveBytes_device device true size data count
    generalize Hdd.moveBytes ⟨true, .data, size⟩ data device count = now at before moved ⊢
    obtain ⟨now, bytes⟩ := now
    dsimp only at before moved ⊢
    generalize DiskRun.after true data ⟨device, []⟩ count = run at follows moved
    subst moved
    have media : run.device.impl.hasMedia.2 = true :=
      follows.media.trans (mounted count (Nat.lt_succ_self count))
    have info := follows.sectorbytes
    have place : run.device.impl.hasMedia.1.lba +
        (count / run.device.impl.hasMedia.1.hdinfo.sectorbytes : Nat) =
          (start + count / device.impl.hdinfo.sectorbytes : Nat) := by
      change run.device.impl.lba + (count / run.device.impl.hdinfo.sectorbytes : Nat) = _
      rw [follows.lba, info, lba]
      rfl
    have inside : start + count / device.impl.hdinfo.sectorbytes ≤
        run.device.impl.hasMedia.1.hdinfo.lastLba := by
      change _ ≤ run.device.impl.hdinfo.lastLba
      rw [info]
      exact disk count (Nat.lt_succ_self count)
    have step := quotient_step device.impl.hdinfo.sectorbytes count
    obtain ⟨holds, reads⟩ := @fetchSector_holds run.device.impl.hasMedia.1 count _ _ _
      ⟨before.holds.curLba, before.holds.valid, before.holds.sector⟩ before.blocks place inside
      fun other => by
        -- Another block is held only after the first one.
        have next : count / device.impl.hdinfo.sectorbytes =
            (count - 1) / device.impl.hdinfo.sectorbytes + 1 :=
          step.resolve_left fun same => other (congrArg (start + ·) same)
        have fine := succeed count (Nat.lt_succ_self count) (next ▸ Nat.succ_pos _)
        rw [next, Nat.add_sub_cancel] at fine
        change run.device.impl.owner.readFails run.device.impl.owner.reads = false
        rw [follows.readFails, before.reads]
        exact fine
    rw [getData_sent (follows.image image) media]
    refine ⟨?_, (fetchSector_blocks _ count).trans before.blocks, ?_, ?_⟩
    · rw [Nat.add_sub_cancel]
      exact holds
    · rw [Nat.add_sub_cancel]
      refine reads.trans ?_
      change run.device.impl.owner.reads + _ = _
      rw [before.reads]
      split_ifs <;> omega
    · have length := congrArg ScsiDiskInfo.sectorbytes (congrArg scsiDiskSetType
        (fetchSector_kept run.device.impl.hasMedia.1 count).diskType)
      change (run.device.impl.hasMedia.1.fetchSector count).hdinfo.sectorbytes =
        run.device.impl.hdinfo.sectorbytes at length
      have sent : bytes = _ := before.bytes
      dsimp only
      rw [sent, List.range_succ, List.map_append, ScsiHdd.sectorByte, if_pos holds.valid,
        holds.sector, length, info]
      rfl

/-- The first bytes of a WRITE are on the image as far as they fill blocks, and in the sector when
the image was mounted for them. -/
structure HasTaken (device : HddDevice) (start : Nat) (data : Nat → Byte) (count : Nat)
    (hdd : ScsiHdd) : Prop where
  writes : hdd.owner.writes = device.impl.owner.writes + count / device.impl.hdinfo.sectorbytes
  blocks : ∀ block, ∀ offset < device.impl.hdinfo.sectorbytes, hdd.owner.blocks block offset =
    if start ≤ block ∧ block < start + count / device.impl.hdinfo.sectorbytes then
      data ((block - start) * device.impl.hdinfo.sectorbytes + offset)
    else device.impl.owner.blocks block offset
  sector : (∀ offset < count % device.impl.hdinfo.sectorbytes,
      device.impl.owner.mounted (device.impl.owner.infoCalls +
        (count / device.impl.hdinfo.sectorbytes * device.impl.hdinfo.sectorbytes + offset)) =
          true) →
    ∀ offset < count % device.impl.hdinfo.sectorbytes, hdd.sectorData offset =
      data (count / device.impl.hdinfo.sectorbytes * device.impl.hdinfo.sectorbytes + offset)

theorem storeByte_sector {hdd : ScsiHdd} {pos : Nat} (data : Byte)
    (within : pos % hdd.hdinfo.sectorbytes ≠ hdd.hdinfo.sectorbytes - 1) :
    hdd.storeByte pos data = { hdd with
      sectorData := Function.update hdd.sectorData (pos % hdd.hdinfo.sectorbytes) data } := by
  rw [ScsiHdd.storeByte]
  exact if_neg within

theorem writeBlock_blocks {hdd : ScsiHdd} {block : Nat} (inside : block ≤ hdd.hdinfo.lastLba)
    (succeeds : hdd.owner.writeFails hdd.owner.writes = false) :
    (hdd.writeBlock block).1.owner.blocks =
      Function.update hdd.owner.blocks block hdd.sectorData := by
  rw [ScsiHdd.writeBlock, if_pos (onDisk_block inside)]
  dsimp only
  rw [DiskOwner.writeFunc, if_neg (by rw [succeeds]; exact Bool.false_ne_true), Int.toNat_natCast]

/-- The last byte of a sector puts it on the image. -/
theorem storeByte_flushes {hdd : ScsiHdd} {pos block : Nat} (data : Byte)
    (place : hdd.lba + (pos / hdd.hdinfo.sectorbytes : Nat) = block)
    (full : pos % hdd.hdinfo.sectorbytes = hdd.hdinfo.sectorbytes - 1)
    (inside : block ≤ hdd.hdinfo.lastLba)
    (succeeds : hdd.owner.writeFails hdd.owner.writes = false) :
    (hdd.storeByte pos data).owner.blocks = Function.update hdd.owner.blocks block
      (Function.update hdd.sectorData (pos % hdd.hdinfo.sectorbytes) data) := by
  have stored := @writeBlock_blocks { hdd with
      sectorData := Function.update hdd.sectorData (pos % hdd.hdinfo.sectorbytes) data
      curLba := block } block inside succeeds
  rw [ScsiHdd.storeByte]
  dsimp only
  rw [if_pos full, place]
  exact stored

theorem succ_within {size count : Nat} (positive : 0 < size) (within : count % size ≠ size - 1) :
    (count + 1) / size = count / size ∧ (count + 1) % size = count % size + 1 := by
  have same : (count + 1) / size = count / size := by
    rw [Nat.succ_div, if_neg (within ∘ (last_of_sector positive).mp), Nat.add_zero]
  have before := Nat.div_add_mod count size
  have after := Nat.div_add_mod (count + 1) size
  rw [same] at after
  exact ⟨same, by omega⟩

theorem succ_full {size count : Nat} (positive : 0 < size) (full : count % size = size - 1) :
    (count + 1) / size = count / size + 1 ∧ (count + 1) % size = 0 := by
  have whole := (last_of_sector positive).mpr full
  exact ⟨by rw [Nat.succ_div, if_pos whole], Nat.dvd_iff_mod_eq_zero.mp whole⟩

theorem moveBytes_takes {start size : Nat} (image : OnImage device)
    (lba : device.impl.lba = (start : Nat)) (data : Nat → Byte) (limit : Nat)
    (disk : ∀ k < limit / device.impl.hdinfo.sectorbytes,
      start + k ≤ device.impl.hdinfo.lastLba)
    (succeed : ∀ k < limit / device.impl.hdinfo.sectorbytes,
      device.impl.owner.writeFails (device.impl.owner.writes + k) = false ∧
        ∀ offset < device.impl.hdinfo.sectorbytes, device.impl.owner.mounted
          (device.impl.owner.infoCalls + (k * device.impl.hdinfo.sectorbytes + offset)) = true)
    (count : Nat) (within : count ≤ limit) :
    HasTaken device start data count
      (Hdd.moveBytes ⟨false, .data, size⟩ data device count).1.impl := by
  have positive := sectorbytes_pos device.impl
  induction count with
  | zero =>
    rw [Hdd.moveBytes]
    refine ⟨?_, fun block offset inside => ?_, fun _ offset inside => ?_⟩
    · rw [Nat.zero_div]
      rfl
    · rw [Nat.zero_div, if_neg (by omega)]
    · rw [Nat.zero_mod] at inside
      exact absurd inside (Nat.not_lt_zero offset)
  | succ count ih =>
    have before := ih (Nat.le_of_succ_le within)
    have follows := after_follows image false data count
    have moved := @moveBytes_device device false size data
    rw [moved] at before ⊢
    rw [DiskRun.after, if_neg Bool.false_ne_true, DiskRun.byteOut]
    generalize DiskRun.after false data ⟨device, []⟩ count = run at before follows ⊢
    have info : run.device.impl.hasMedia.1.hdinfo = device.impl.hdinfo := follows.sectorbytes
    have here : count / device.impl.hdinfo.sectorbytes * device.impl.hdinfo.sectorbytes +
        count % device.impl.hdinfo.sectorbytes = count := Nat.div_add_mod' _ _
    rw [putData_image (follows.image image), follows.media]
    by_cases full : count % device.impl.hdinfo.sectorbytes =
        device.impl.hdinfo.sectorbytes - 1
    · -- The byte is the last one of its sector, and the sector lies within the limit.
      obtain ⟨next, none_⟩ := succ_full positive full
      have block : count / device.impl.hdinfo.sectorbytes <
          limit / device.impl.hdinfo.sectorbytes := by
        have upper : (count + 1) / device.impl.hdinfo.sectorbytes ≤
            limit / device.impl.hdinfo.sectorbytes := Nat.div_le_div_right within
        rw [next] at upper
        exact Nat.lt_of_succ_le upper
      obtain ⟨fine, mounted⟩ := succeed _ block
      have media := mounted (count % device.impl.hdinfo.sectorbytes) (Nat.mod_lt count positive)
      rw [here] at media
      have place : run.device.impl.hasMedia.1.lba +
          (count / run.device.impl.hasMedia.1.hdinfo.sectorbytes : Nat) =
            (start + count / device.impl.hdinfo.sectorbytes : Nat) := by
        change run.device.impl.lba + _ = _
        rw [info, follows.lba, lba]
        rfl
      have inside : start + count / device.impl.hdinfo.sectorbytes ≤
          run.device.impl.hasMedia.1.hdinfo.lastLba := by
        rw [info]
        exact disk _ block
      have accepted : run.device.impl.hasMedia.1.owner.writeFails
          run.device.impl.hasMedia.1.owner.writes = false := by
        change run.device.impl.owner.writeFails run.device.impl.owner.writes = false
        rw [follows.writeFails, before.writes]
        exact fine
      have last : count % run.device.impl.hasMedia.1.hdinfo.sectorbytes =
          run.device.impl.hasMedia.1.hdinfo.sectorbytes - 1 := by
        rw [info]
        exact full
      have blocks := storeByte_flushes (data count) place last inside accepted
      obtain ⟨writes, -⟩ := storeByte_last (data count) place last inside
      rw [if_pos media]
      refine ⟨?_, fun block offset low => ?_, fun _ offset low => ?_⟩
      · rw [next]
        exact writes.trans (congrArg (· + 1) before.writes)
      · rw [Device.onImpl_impl, blocks, info, next]
        change Function.update run.device.impl.owner.blocks _ (Function.update
          run.device.impl.sectorData _ _) block offset = _
        by_cases now : block = start + count / device.impl.hdinfo.sectorbytes
        · rw [now, Function.update_self, if_pos ⟨Nat.le_add_right _ _, Nat.lt_succ_self _⟩,
            Nat.add_sub_cancel_left]
          by_cases ends : offset = count % device.impl.hdinfo.sectorbytes
          · rw [ends, Function.update_self, here]
          · rw [Function.update_of_ne ends]
            exact before.sector
              (fun pos early => mounted pos (early.trans (Nat.mod_lt _ positive)))
              offset (by omega)
        · rw [Function.update_of_ne now, before.blocks block offset low]
          refine if_congr (and_congr_right fun _ => ?_) rfl rfl
          omega
      · rw [none_] at low
        exact absurd low (Nat.not_lt_zero offset)
    · obtain ⟨same, more⟩ := succ_within positive full
      have open_ : count % run.device.impl.hasMedia.1.hdinfo.sectorbytes ≠
          run.device.impl.hasMedia.1.hdinfo.sectorbytes - 1 := by
        rw [info]
        exact full
      split_ifs with media
      · rw [Device.onImpl_impl, storeByte_sector (data count) open_]
        refine ⟨?_, ?_, fun mounted offset low => ?_⟩
        · rw [same]
          exact before.writes
        · rw [same]
          exact before.blocks
        · rw [same, more] at mounted
          rw [more] at low
          rw [same, info]
          dsimp only
          rcases Nat.lt_succ_iff_lt_or_eq.mp low with earlier | rfl
          · rw [Function.update_of_ne (Nat.ne_of_lt earlier)]
            exact before.sector (fun pos early => mounted pos (Nat.lt_succ_of_lt early)) offset
              earlier
          · rw [Function.update_self, here]
      · refine ⟨?_, ?_, fun mounted offset low => ?_⟩
        · rw [same]
          exact before.writes
        · rw [same]
          exact before.blocks
        · rw [same, more] at mounted
          have here_ := mounted (count % device.impl.hdinfo.sectorbytes) (Nat.lt_succ_self _)
          rw [here] at here_
          exact absurd here_ media

end Bytes

section Image

variable {first middle last : ScsiHdd} {hdd : HddDevice}

/-- The disk stays the same, and so does its image. -/
structure SameImage (before after : ScsiHdd) : Prop where
  diskType : after.diskType = before.diskType
  blocks : after.owner.blocks = before.owner.blocks
  diskInfo : after.owner.diskInfo = before.owner.diskInfo
  readFails : after.owner.readFails = before.owner.readFails
  writeFails : after.owner.writeFails = before.owner.writeFails

theorem SameImage.refl (hdd : ScsiHdd) : SameImage hdd hdd := ⟨rfl, rfl, rfl, rfl, rfl⟩

theorem SameImage.trans (before : SameImage first middle) (after : SameImage middle last) :
    SameImage first last where
  diskType := after.diskType.trans before.diskType
  blocks := after.blocks.trans before.blocks
  diskInfo := after.diskInfo.trans before.diskInfo
  readFails := after.readFails.trans before.readFails
  writeFails := after.writeFails.trans before.writeFails

theorem DiskKept.sameImage (kept : DiskKept first last)
    (blocks : last.owner.blocks = first.owner.blocks) : SameImage first last :=
  ⟨kept.diskType, blocks, kept.diskInfo, kept.readFails, kept.writeFails⟩

/-- A byte for the host leaves the image. -/
theorem getData_sameImage (hdd : HddDevice) (id : Sbuf) (pos : Nat) :
    SameImage hdd.impl (Hdd.getData hdd id pos).1.impl := by
  rw [Hdd.getData]
  dsimp only
  split_ifs
  any_goals exact ⟨rfl, rfl, rfl, rfl, rfl⟩
  have kept := (fetchSector_kept hdd.impl.hasMedia.1 pos).sameImage (fetchSector_blocks _ pos)
  exact ⟨kept.diskType, kept.blocks, kept.diskInfo, kept.readFails, kept.writeFails⟩

/-- These commands take parameters from the host. -/
def TakesParameter (command : Byte) : Prop :=
  ∀ pos data hdd, ∃ next, Hdd.putParameter command pos data hdd = some next

theorem putParameter_sameImage {command data : Byte} {pos : Nat} {before after : ScsiHdd}
    (taken : Hdd.putParameter command pos data before = some after) : SameImage before after := by
  rw [Hdd.putParameter] at taken
  split_ifs at taken
  all_goals rw [← Option.some.inj taken]
  any_goals exact ⟨rfl, rfl, rfl, rfl, rfl⟩
  -- The last byte of a parameter list changes the mode pages.
  obtain ⟨current, applied⟩ := applyModeSelect_kept
    { before with modeSelectData := Function.update before.modeSelectData pos data }
  rw [applied]
  exact ⟨rfl, rfl, rfl, rfl, rfl⟩

theorem putData_sameImage (takes : TakesParameter (Hdd.cmd hdd)) (pos : Nat) (data : Byte) :
    SameImage hdd.impl (Hdd.putData hdd .data pos data).impl ∧
      Hdd.cmd (Hdd.putData hdd .data pos data) = Hdd.cmd hdd := by
  obtain ⟨next, taken⟩ := takes pos data hdd.impl
  rw [Hdd.putData, if_pos rfl, taken]
  exact ⟨putParameter_sameImage taken, rfl⟩

/-- Only the data phase of a WRITE reaches the image. -/
def Transfer.Spares (hdd : HddDevice) (transfer : Transfer) : Prop :=
  transfer.input = true ∨ transfer.id = .data ∧ TakesParameter (Hdd.cmd hdd)

theorem moveBytes_sameImage {transfer : Transfer} (spares : transfer.Spares hdd)
    (data : Nat → Byte) (count : Nat) :
    SameImage hdd.impl (Hdd.moveBytes transfer data hdd count).1.impl := by
  rcases spares with input | ⟨id, takes⟩
  · induction count with
    | zero => exact SameImage.refl _
    | succ count ih =>
      rw [Hdd.moveBytes]
      dsimp only
      rw [if_pos input]
      exact ih.trans (getData_sameImage _ _ _)
  · suffices SameImage hdd.impl (Hdd.moveBytes transfer data hdd count).1.impl ∧
        (transfer.input = false →
          Hdd.cmd (Hdd.moveBytes transfer data hdd count).1 = Hdd.cmd hdd) from this.1
    induction count with
    | zero => exact ⟨SameImage.refl _, fun _ => rfl⟩
    | succ count ih =>
      obtain ⟨kept, code⟩ := ih
      rw [Hdd.moveBytes]
      dsimp only
      split_ifs with input
      · exact ⟨kept.trans (getData_sameImage _ _ _), fun output =>
          Bool.noConfusion (input.symm.trans output)⟩
      · rw [Bool.not_eq_true] at input
        rw [id]
        have stored := putData_sameImage ((code input).symm ▸ takes) count (data count)
        exact ⟨kept.trans stored.1, fun output => stored.2.trans (code output)⟩

/-- A decoded command leaves the image until its bytes move. -/
structure Decoded (before after : HddDevice) : Prop where
  image : SameImage before.impl after.impl
  spares : ∀ transfer, transferOf after.port.calls = some transfer → transfer.Spares after

variable {next : ScsiHdd}

/-- A status without a data phase may leave sense data behind it. -/
theorem decoded_status (quiet : hdd.port.calls = []) (image : SameImage hdd.impl next)
    (value : Byte) {f : TargetPort → TargetPort} (calls : ∀ port, (f port).calls = port.calls) :
    Decoded hdd ((Hdd.status { hdd with impl := next } value).onPort f) where
  image := image
  spares := by
    intro transfer moves
    rw [Device.onPort_port, calls, Hdd.status, Device.onPort_port,
      Hdd.transferOf_status quiet] at moves
    cases moves

theorem decoded_refused (quiet : hdd.port.calls = []) (key : Byte) (code : BitVec 16) :
    Decoded hdd (hdd.onPort fun port => port.reportCondition key code) where
  image := SameImage.refl _
  spares := by
    intro transfer moves
    rw [Device.onPort_port, TargetPort.reportCondition,
      @Hdd.transferOf_status (hdd.port.setSenseData 0xF0 key code) quiet] at moves
    cases moves

theorem decoded_answer {port : TargetPort} (quiet : port.calls = [])
    (image : SameImage hdd.impl next) (id : Sbuf) (size : Nat) (value : Byte) :
    Decoded hdd (Hdd.status { port := port.dataIn id size, impl := next } value) where
  image := image
  spares := by
    intro transfer moves
    rw [Hdd.transferOf_dataIn quiet moves]
    exact .inl rfl

/-- The answer may lie in the command buffer. -/
theorem decoded_reply (quiet : hdd.port.calls = []) (image : SameImage hdd.impl next)
    (cmdbuf : Nat → Byte) (size : Nat) (value : Byte) :
    Decoded hdd (Hdd.status
      { port := ({ hdd.port with cmdbuf := cmdbuf } : TargetPort).dataIn .main size, impl := next }
      value) :=
  have quiet_ : ({ hdd.port with cmdbuf := cmdbuf } : TargetPort).calls = [] := quiet
  decoded_answer quiet_ image _ _ _

theorem decoded_parameter (quiet : hdd.port.calls = []) (image : SameImage hdd.impl next)
    (takes : TakesParameter (Hdd.cmd hdd)) (size : Nat) (value : Byte) :
    Decoded hdd (Hdd.status { port := hdd.port.dataOut .data size, impl := next } value) where
  image := image
  spares := by
    intro transfer moves
    rw [Hdd.transferOf_dataOut quiet moves]
    exact .inr ⟨rfl, takes⟩

theorem decoded_plain (quiet : hdd.port.calls = []) (image : SameImage hdd.impl next)
    (value : Byte) : Decoded hdd (Hdd.status { hdd with impl := next } value) :=
  decoded_status quiet image value (f := id) fun _ => rfl

theorem takesParameter_of {command : Byte}
    (one : command = scInitDriveParams ∨ command = scModeSelect6 ∨ command = scFormatUnit ∨
      command = scWriteBuffer) : TakesParameter command := by
  intro pos data hdd
  rcases one with same | same | same | same
  all_goals
    rw [same, Hdd.putParameter]
    split_ifs
  all_goals first | exact ⟨_, rfl⟩ | contradiction

theorem readFirst_sameImage (hdd : ScsiHdd) : SameImage hdd (Hdd.readFirst hdd) :=
  (readFirst_kept hdd).1.sameImage (readBlock_blocks hdd hdd.lba)

theorem startRead_decoded (quiet : hdd.port.calls = []) (image : SameImage hdd.impl next) :
    Decoded hdd (Hdd.startRead { hdd with impl := next }) := by
  rw [Hdd.startRead]
  split_ifs
  · exact decoded_answer quiet image _ _ _
  · exact decoded_status quiet image _ fun _ => rfl

theorem decoded_ite {condition : Prop} [Decidable condition] {yes no : HddDevice}
    (taken : condition → Decoded hdd yes) (other : ¬condition → Decoded hdd no) :
    Decoded hdd (if condition then yes else no) := by
  split_ifs with holds
  · exact taken holds
  · exact other holds

theorem inquiry_decoded (quiet : hdd.port.calls = [])
    (looked : SameImage hdd.impl hdd.impl.hasMedia.1) : Decoded hdd (Hdd.inquiry hdd) := by
  rw [Hdd.inquiry]
  refine decoded_ite (fun _ => ?_) fun _ => decoded_plain quiet looked _
  exact decoded_reply quiet looked _ _ _

theorem seek_decoded (quiet : hdd.port.calls = []) : Decoded hdd (Hdd.seek6 hdd) := by
  have placed : SameImage hdd.impl
      { hdd.impl with lba := (getU24be hdd.port.cmdbuf 1 % 2 ^ 21 : Nat) } :=
    ⟨rfl, rfl, rfl, rfl, rfl⟩
  rw [Hdd.seek6]
  refine decoded_ite (fun _ => ?_) fun _ => decoded_plain quiet placed _
  exact decoded_status quiet placed _ fun _ => rfl

theorem modeSelect_decoded (quiet : hdd.port.calls = []) (select : Hdd.cmd hdd = scModeSelect6) :
    Decoded hdd (Hdd.modeSelect hdd) := by
  have asked : SameImage hdd.impl
      { hdd.impl with modeSelectLength := (hdd.port.cmdbuf 4).toNat } := ⟨rfl, rfl, rfl, rfl, rfl⟩
  rw [Hdd.modeSelect]
  split_ifs
  · exact decoded_plain quiet asked _
  · exact decoded_parameter quiet asked (takesParameter_of (.inr (.inl select))) _ _

theorem modeSense_decoded (quiet : hdd.port.calls = []) : Decoded hdd (Hdd.modeSense hdd) := by
  have same := SameImage.refl hdd.impl
  rw [Hdd.modeSense]
  refine decoded_ite (fun _ => decoded_status quiet same _ fun _ => rfl) fun _ => ?_
  exact decoded_reply quiet same _ _ _

theorem formatUnit_decoded (quiet : hdd.port.calls = []) (format : Hdd.cmd hdd = scFormatUnit) :
    Decoded hdd (Hdd.formatUnit hdd) := by
  have saved : SameImage hdd.impl { hdd.impl with modeSaved := hdd.impl.modeCurrent } :=
    ⟨rfl, rfl, rfl, rfl, rfl⟩
  rw [Hdd.formatUnit]
  split_ifs
  · exact decoded_plain quiet saved _
  · exact decoded_parameter quiet saved (takesParameter_of (.inr (.inr (.inl format)))) _ _

theorem diagnostic_decoded (quiet : hdd.port.calls = []) (sends : Bool) :
    Decoded hdd (Hdd.diagnostic hdd sends) := by
  have same := SameImage.refl hdd.impl
  rw [Hdd.diagnostic]
  refine decoded_ite (fun _ => decoded_plain quiet same _) fun _ => ?_
  exact decoded_reply quiet same _ _ _

theorem buffer_decoded (quiet : hdd.port.calls = []) {reads : Bool}
    (writes : reads = false → Hdd.cmd hdd = scWriteBuffer) :
    Decoded hdd (Hdd.buffer hdd reads) := by
  have same := SameImage.refl hdd.impl
  rw [Hdd.buffer]
  refine decoded_ite (fun _ => decoded_status quiet same _ fun _ => rfl) fun _ =>
    decoded_ite (fun _ => decoded_answer quiet same _ _ _) fun out =>
      decoded_ite (fun _ => decoded_status quiet same _ fun _ => rfl) fun _ => ?_
  rw [Bool.not_eq_true] at out
  exact decoded_parameter quiet same (takesParameter_of (.inr (.inr (.inr (writes out))))) _ _

theorem place6_sameImage (hdd : HddDevice) : SameImage hdd.impl (Hdd.place6 hdd hdd.impl) := by
  rw [Hdd.place6]
  exact ⟨rfl, rfl, rfl, rfl, rfl⟩

theorem place10_sameImage (hdd : HddDevice) : SameImage hdd.impl (Hdd.place10 hdd hdd.impl) := by
  rw [Hdd.place10]
  exact ⟨rfl, rfl, rfl, rfl, rfl⟩

theorem unread_sameImage (hdd : ScsiHdd) : SameImage hdd { hdd with sectorDataValid := false } :=
  ⟨rfl, rfl, rfl, rfl, rfl⟩

theorem read6_decoded (quiet : hdd.port.calls = []) : Decoded hdd (Hdd.read6 hdd) := by
  have placed := place6_sameImage hdd
  rw [Hdd.read6, Device.onImpl, Device.onImpl_impl, Device.onImpl_port]
  generalize Hdd.place6 hdd hdd.impl = impl at placed ⊢
  refine startRead_decoded quiet (placed.trans ?_)
  split_ifs
  · exact readFirst_sameImage impl
  · exact unread_sameImage impl

theorem read10_decoded (quiet : hdd.port.calls = []) : Decoded hdd (Hdd.read10 hdd) := by
  have placed := place10_sameImage hdd
  rw [Hdd.read10, Device.onImpl, Device.onImpl_impl, Device.onImpl_port]
  generalize Hdd.place10 hdd hdd.impl = impl at placed ⊢
  exact startRead_decoded quiet (placed.trans (readFirst_sameImage impl))

/-- Every command but a WRITE leaves the image. -/
theorem command_decoded (quiet : hdd.port.calls = [])
    (spared : ¬(Hdd.getLun hdd = 0 ∧ cdbWrites hdd.port.cmdbuf = true)) :
    Decoded hdd (Hdd.command hdd) := by
  have same := SameImage.refl hdd.impl
  have looked : SameImage hdd.impl hdd.impl.hasMedia.1 := ⟨rfl, rfl, rfl, rfl, rfl⟩
  have unwritten (lun : ¬(Hdd.cmd hdd ≠ scRequestSense ∧ Hdd.cmd hdd ≠ scInquiry ∧
      Hdd.cmd hdd ≠ scTestUnitReady ∧ Hdd.getLun hdd ≠ 0))
      (write : Hdd.cmd hdd = scWrite6 ∨ Hdd.cmd hdd = scWrite10) : False := by
    refine spared ⟨?_, ?_⟩
    · by_contra other
      refine lun ⟨?_, ?_, ?_, other⟩ <;> rcases write with code | code <;> rw [code] <;> decide
    · rw [cdbWrites]
      rcases write with code | code
      · rw [decide_eq_true (show hdd.port.cmdbuf 0 = scWrite6 from code), Bool.true_or]
      · rw [decide_eq_true (show hdd.port.cmdbuf 0 = scWrite10 from code), Bool.or_true]
  rw [Hdd.command]
  refine decoded_ite (fun _ => decoded_refused quiet _ _) fun lun => ?_
  refine decoded_ite (fun _ => decoded_plain quiet looked _) fun _ => ?_
  refine decoded_ite (fun _ => decoded_answer quiet same _ _ _) fun _ => ?_
  refine decoded_ite (fun _ => inquiry_decoded quiet looked) fun _ => ?_
  refine decoded_ite (fun _ => decoded_reply quiet same _ _ _) fun _ => ?_
  refine decoded_ite (fun _ => read6_decoded quiet) fun _ => ?_
  refine decoded_ite (fun write => (unwritten lun (.inl write)).elim) fun _ => ?_
  refine decoded_ite (fun _ => read10_decoded quiet) fun _ => ?_
  refine decoded_ite (fun write => (unwritten lun (.inr write)).elim) fun _ => ?_
  refine decoded_ite (fun _ => seek_decoded quiet) fun _ => ?_
  refine decoded_ite (fun _ => decoded_plain quiet same _) fun _ => ?_
  refine decoded_ite (fun params => decoded_parameter quiet same
    (takesParameter_of (.inl params)) _ _) fun _ => ?_
  refine decoded_ite (fun select => modeSelect_decoded quiet select) fun _ => ?_
  refine decoded_ite (fun _ => modeSense_decoded quiet) fun _ => ?_
  refine decoded_ite (fun _ => decoded_plain quiet same _) fun _ => ?_
  refine decoded_ite (fun _ => decoded_ite (fun _ => decoded_plain quiet same _) fun _ =>
    decoded_refused quiet _ _) fun _ => ?_
  refine decoded_ite (fun format => formatUnit_decoded quiet format) fun _ => ?_
  refine decoded_ite (fun _ => diagnostic_decoded quiet false) fun _ => ?_
  refine decoded_ite (fun _ => diagnostic_decoded quiet true) fun _ => ?_
  refine decoded_ite (fun _ => buffer_decoded quiet Bool.noConfusion) fun _ => ?_
  refine decoded_ite (fun code => buffer_decoded quiet fun _ => code) fun _ => ?_
  exact decoded_refused quiet _ _

/-- Every exchange but a WRITE leaves the image. -/
theorem exchange_sameImage {request : Request} (spared : ¬request.Writes) (most : Nat → Nat) :
    SameImage hdd.impl (Hdd.exchange hdd request most).1.impl := by
  obtain ⟨image, spares⟩ := @command_decoded (Hdd.ask hdd request) rfl spared
  rw [Hdd.exchange]
  rcases moves : transferOf (Hdd.command (Hdd.ask hdd request)).port.calls with _ | transfer
  · exact image
  · exact image.trans (moveBytes_sameImage (spares transfer moves) _ _)

end Image

section Commands

variable {hdd : HddDevice} {request : Request}

theorem cdbReads_moves {cdb : Nat → Byte} (reads : cdbReads cdb = true) : MovesBlocks cdb := by
  rw [cdbReads, Bool.or_eq_true, decide_eq_true_eq, decide_eq_true_eq] at reads
  exact reads.elim .inl fun long => .inr (.inr (.inl long))

theorem cdbWrites_moves {cdb : Nat → Byte} (writes : cdbWrites cdb = true) : MovesBlocks cdb := by
  rw [cdbWrites, Bool.or_eq_true, decide_eq_true_eq, decide_eq_true_eq] at writes
  exact writes.elim (fun short => .inr (.inl short)) fun long => .inr (.inr (.inr long))

/-- A READ is decoded to its place and tries its first block when it lies on the disk. -/
structure StartsRead (hdd : HddDevice) (request : Request) (placed next : ScsiHdd) : Prop where
  places : Places placed (cdbLba request.cdb)
  owner : placed.owner = hdd.impl.owner
  diskType : placed.diskType = hdd.impl.diskType
  blocks : next.blocks = cdbBlocks request.cdb
  diskType_ : next.diskType = hdd.impl.diskType
  first : cdbLba request.cdb ≤ hdd.impl.hdinfo.lastLba → next = Hdd.readFirst placed
  decoded : Hdd.command (Hdd.ask hdd request) =
    Hdd.startRead ⟨(Hdd.ask hdd request).port, next⟩

theorem startsRead (reads : request.Reads) : ∃ placed next, StartsRead hdd request placed next := by
  obtain ⟨lun, code⟩ := reads
  obtain ⟨read6, -, read10, -⟩ := @command_moves (Hdd.ask hdd request) lun
  obtain ⟨short, long⟩ := place_spec (Hdd.ask hdd request)
  rw [cdbReads, Bool.or_eq_true, decide_eq_true_eq, decide_eq_true_eq] at code
  rcases code with same | same
  · obtain ⟨places, blocks⟩ := short (cdbShort_six (.inl same))
    have kept := place6_sameImage (Hdd.ask hdd request)
    have lba : (Hdd.place6 (Hdd.ask hdd request) (Hdd.ask hdd request).impl).lba.toNat =
        cdbLba request.cdb := by
      rw [cdbLba, cdbShort_six (.inl same)]
      rfl
    have owner : (Hdd.place6 (Hdd.ask hdd request) (Hdd.ask hdd request).impl).owner =
      hdd.impl.owner := by
        rw [Hdd.place6]
        rfl
    have decoded := read6 same
    rw [Hdd.read6, Device.onImpl, Device.onImpl_impl, Device.onImpl_port] at decoded
    generalize Hdd.place6 (Hdd.ask hdd request) (Hdd.ask hdd request).impl = placed at *
    have info : placed.hdinfo = hdd.impl.hdinfo := congrArg scsiDiskSetType kept.diskType
    refine ⟨placed, _, places, owner, kept.diskType, ?_, ?_, fun near => ?_, decoded⟩
    · split_ifs
      · exact (readFirst_kept placed).2.trans blocks
      · exact blocks
    · split_ifs
      · exact (readFirst_kept placed).1.diskType.trans kept.diskType
      · exact kept.diskType
    · rw [if_pos]
      rw [lba, info]
      exact near
  · obtain ⟨places, blocks⟩ := long (cdbShort_ten (.inl same))
    have kept := place10_sameImage (Hdd.ask hdd request)
    have owner : (Hdd.place10 (Hdd.ask hdd request) (Hdd.ask hdd request).impl).owner =
      hdd.impl.owner := by
        rw [Hdd.place10]
        rfl
    have decoded := read10 same
    rw [Hdd.read10, Device.onImpl, Device.onImpl_impl, Device.onImpl_port] at decoded
    generalize Hdd.place10 (Hdd.ask hdd request) (Hdd.ask hdd request).impl = placed at *
    exact ⟨placed, _, places, owner, kept.diskType, (readFirst_kept placed).2.trans blocks,
      (readFirst_kept placed).1.diskType.trans kept.diskType, fun _ => rfl, decoded⟩

theorem exchange_moves {transfer : Transfer} (most : Nat → Nat)
    (moves : transferOf (Hdd.command (Hdd.ask hdd request)).port.calls = some transfer) :
    Hdd.exchange hdd request most =
      Hdd.moveBytes transfer request.data (Hdd.command (Hdd.ask hdd request))
        (most transfer.size) := by
  rw [Hdd.exchange, moves]

theorem exchange_still (most : Nat → Nat)
    (still : transferOf (Hdd.command (Hdd.ask hdd request)).port.calls = none) :
    Hdd.exchange hdd request most = (Hdd.command (Hdd.ask hdd request), []) := by
  rw [Hdd.exchange, still]

theorem readFirst_holds {hdd : ScsiHdd} {start : Nat} (places : Places hdd start)
    (near : start ≤ hdd.hdinfo.lastLba) (succeeds : hdd.owner.readFails hdd.owner.reads = false) :
    Holds hdd.owner.blocks start (Hdd.readFirst hdd) where
  curLba := (readFirst_first places near succeeds).curLba
  valid := (readFirst_valid places).mpr ⟨near, succeeds⟩
  sector := by
    change (hdd.readBlock hdd.lba).1.sectorData = _
    rw [places.near near]
    exact (readBlock_sector near succeeds).1

/-- A READ sends the blocks of the image. -/
theorem exchange_reads {disk : ScsiDiskInfo} {most : Nat → Nat} (same : hdd.impl.hdinfo = disk)
    (reads : request.Reads) (onDisk : request.OnDisk disk)
    (bounded : most (request.size disk) ≤ request.size disk)
    (succeed : ∀ pos < most (request.size disk),
      hdd.impl.owner.readFails (hdd.impl.owner.reads + pos / disk.sectorbytes) = false ∧
        hdd.impl.owner.mounted (hdd.impl.owner.infoCalls + pos) = true) :
    (Hdd.exchange hdd request most).2 =
      request.wanted disk (most (request.size disk)) hdd.impl.owner.blocks := by
  subst same
  have near (k : Nat) (block : k < cdbBlocks request.cdb) := onDisk (.inl reads) k block
  obtain ⟨placed, next, starts⟩ := @startsRead hdd request reads
  have info : placed.hdinfo = hdd.impl.hdinfo := congrArg scsiDiskSetType starts.diskType
  have info_ : next.hdinfo = hdd.impl.hdinfo := congrArg scsiDiskSetType starts.diskType_
  have positive := sectorbytes_pos hdd.impl
  have decoded := starts.decoded
  rw [Hdd.startRead] at decoded
  dsimp only at decoded
  by_cases empty : most (request.size hdd.impl.hdinfo) = 0
  · -- No byte moves.
    rw [empty]
    rcases moves : transferOf (Hdd.command (Hdd.ask hdd request)).port.calls with _ | transfer
    · rw [exchange_still most moves]
      rfl
    · have sized : transfer.size = request.size hdd.impl.hdinfo := by
        rw [decoded] at moves
        split_ifs at moves
        · have quiet : (Hdd.ask hdd request).port.calls = [] := rfl
          rw [Hdd.transferOf_dataIn quiet moves, Request.size, ← starts.blocks, ← info_]
        · cases moves
      rw [exchange_moves most moves, sized, empty]
      rfl
  · have some_ : 0 < cdbBlocks request.cdb := by
      by_contra none_
      rw [Request.size, Nat.eq_zero_of_not_pos none_, Nat.zero_mul] at bounded empty
      exact empty (Nat.le_zero.mp bounded)
    have first := near 0 some_
    obtain ⟨fine, -⟩ := succeed 0 (Nat.pos_of_ne_zero empty)
    rw [Nat.zero_div, Nat.add_zero] at fine
    have read := starts.first first
    have valid : next.sectorDataValid = true := by
      rw [read, readFirst_valid starts.places, info, starts.owner]
      exact ⟨first, fine⟩
    rw [if_pos valid] at decoded
    have moves : transferOf (Hdd.command (Hdd.ask hdd request)).port.calls =
        some ⟨true, .data, request.size hdd.impl.hdinfo⟩ := by
      rw [decoded, Request.size, ← starts.blocks, ← info_]
      exact if_pos (Nat.mul_pos (starts.blocks ▸ some_) (sectorbytes_pos next))
    have impl : (Hdd.command (Hdd.ask hdd request)).impl = next := by
      rw [decoded]
      rfl
    have image : OnImage (Hdd.command (Hdd.ask hdd request)) := by
      refine image_of_moves (cdbReads_moves reads.2) ?_
      rw [decoded]
      rfl
    rw [exchange_moves most moves]
    dsimp only
    generalize Hdd.command (Hdd.ask hdd request) = started at impl image ⊢
    subst impl
    have succeeds : placed.owner.readFails placed.owner.reads = false := by
      rw [starts.owner]
      exact fine
    have near_ : cdbLba request.cdb ≤ placed.hdinfo.lastLba := by
      rw [info]
      exact first
    have held := readFirst_first starts.places near_ succeeds
    have kept := readFirst_sameImage placed
    have blocks : started.impl.owner.blocks = hdd.impl.owner.blocks := by
      rw [read, kept.blocks, starts.owner]
    have calls : started.impl.owner.reads = hdd.impl.owner.reads + 1 := by
      rw [read, held.reads, starts.owner]
    have fails : started.impl.owner.readFails = hdd.impl.owner.readFails := by
      rw [read, kept.readFails, starts.owner]
    have mounted : ∀ call, started.impl.owner.mounted (started.impl.owner.infoCalls + call) =
        hdd.impl.owner.mounted (hdd.impl.owner.infoCalls + call) := by
      intro call
      rw [DiskOwner.mounted, DiskOwner.mounted, read, kept.diskInfo,
        (readFirst_kept placed).1.infoCalls, starts.owner]
    have sent := @moveBytes_sends started (cdbLba request.cdb) (request.size hdd.impl.hdinfo) image
      (by rw [read]; exact held.lba) ?_ request.data (most (request.size hdd.impl.hdinfo)) ?_ ?_ ?_
    · rw [sent.bytes, blocks, info_]
      rfl
    · rw [read, kept.blocks]
      exact readFirst_holds starts.places near_ succeeds
    · intro pos inside
      rw [info_]
      exact near _ ((Nat.div_lt_iff_lt_mul positive).mpr (inside.trans_le bounded))
    · intro pos inside later
      rw [info_] at later ⊢
      rw [fails, calls, Nat.add_assoc, Nat.add_sub_cancel' later]
      exact (succeed pos inside).1
    · intro pos inside
      rw [mounted]
      exact (succeed pos inside).2

/-- A WRITE is decoded to its place. -/
structure StartsWrite (hdd : HddDevice) (request : Request) (placed : ScsiHdd) : Prop where
  places : Places placed (cdbLba request.cdb)
  owner : placed.owner = hdd.impl.owner
  diskType : placed.diskType = hdd.impl.diskType
  blocks : placed.blocks = cdbBlocks request.cdb
  decoded : Hdd.command (Hdd.ask hdd request) =
    Hdd.startWrite ⟨(Hdd.ask hdd request).port, placed⟩

theorem startsWrite (writes : request.Writes) : ∃ placed, StartsWrite hdd request placed := by
  obtain ⟨lun, code⟩ := writes
  obtain ⟨-, write6, -, write10⟩ := @command_moves (Hdd.ask hdd request) lun
  obtain ⟨short, long⟩ := place_spec (Hdd.ask hdd request)
  rw [cdbWrites, Bool.or_eq_true, decide_eq_true_eq, decide_eq_true_eq] at code
  rcases code with same | same
  · obtain ⟨places, blocks⟩ := short (cdbShort_six (.inr same))
    refine ⟨_, places, ?_, (place6_sameImage (Hdd.ask hdd request)).diskType, blocks, write6 same⟩
    rw [Hdd.place6]
    rfl
  · obtain ⟨places, blocks⟩ := long (cdbShort_ten (.inr same))
    refine ⟨_, places, ?_, (place10_sameImage (Hdd.ask hdd request)).diskType, blocks,
      write10 same⟩
    rw [Hdd.place10]
    rfl

/-- The disk and the callbacks stay the same. -/
structure SameDisk (before after : ScsiHdd) : Prop where
  diskType : after.diskType = before.diskType
  diskInfo : after.owner.diskInfo = before.owner.diskInfo
  readFails : after.owner.readFails = before.owner.readFails
  writeFails : after.owner.writeFails = before.owner.writeFails

theorem SameImage.sameDisk {before after : ScsiHdd} (same : SameImage before after) :
    SameDisk before after := ⟨same.diskType, same.diskInfo, same.readFails, same.writeFails⟩

theorem SameDisk.trans {first middle last : ScsiHdd} (before : SameDisk first middle)
    (after : SameDisk middle last) : SameDisk first last where
  diskType := after.diskType.trans before.diskType
  diskInfo := after.diskInfo.trans before.diskInfo
  readFails := after.readFails.trans before.readFails
  writeFails := after.writeFails.trans before.writeFails

/-- The data phase of a WRITE begins after it was decoded. -/
theorem startsWrite_moves {placed : ScsiHdd} (writes : request.Writes)
    (starts : StartsWrite hdd request placed) (most : Nat → Nat) :
    (cdbBlocks request.cdb = 0 ∧ (Hdd.exchange hdd request most).1.impl = placed) ∨
      0 < cdbBlocks request.cdb ∧ ∃ started : HddDevice, started.impl = placed ∧
        OnImage started ∧ Hdd.exchange hdd request most =
          Hdd.moveBytes ⟨false, .data, request.size hdd.impl.hdinfo⟩ request.data started
            (most (request.size hdd.impl.hdinfo)) := by
  have info : placed.hdinfo = hdd.impl.hdinfo := congrArg scsiDiskSetType starts.diskType
  have decoded := starts.decoded
  rw [Hdd.startWrite] at decoded
  dsimp only at decoded
  rw [starts.blocks, info] at decoded
  rcases Nat.eq_zero_or_pos (cdbBlocks request.cdb) with none_ | some_
  · refine .inl ⟨none_, ?_⟩
    rw [exchange_still most]
    · rw [decoded]
      rfl
    · rw [decoded, none_, Nat.zero_mul]
      rfl
  · refine .inr ⟨some_, Hdd.command (Hdd.ask hdd request), ?_, ?_, exchange_moves most ?_⟩
    · rw [decoded]
      rfl
    · refine image_of_moves (cdbWrites_moves writes.2) ?_
      rw [decoded]
      rfl
    · rw [decoded, Request.size]
      exact if_pos (Nat.mul_pos some_ (sectorbytes_pos hdd.impl))

theorem exchange_sameDisk (request : Request) (most : Nat → Nat) :
    SameDisk hdd.impl (Hdd.exchange hdd request most).1.impl := by
  by_cases writes : request.Writes
  · obtain ⟨placed, starts⟩ := @startsWrite hdd request writes
    have placed_ : SameDisk hdd.impl placed :=
      ⟨starts.diskType, congrArg DiskOwner.diskInfo starts.owner,
        congrArg DiskOwner.readFails starts.owner, congrArg DiskOwner.writeFails starts.owner⟩
    rcases startsWrite_moves writes starts most with
      ⟨-, still⟩ | ⟨-, started, impl, image, moves⟩
    · rw [still]
      exact placed_
    · rw [moves, moveBytes_device]
      have follows := after_follows image false request.data (most (request.size hdd.impl.hdinfo))
      rw [← impl] at placed_
      exact placed_.trans
        ⟨follows.diskType, follows.diskInfo, follows.readFails, follows.writeFails⟩
  · exact (exchange_sameImage writes most).sameDisk

/-- A WRITE stores the blocks that it transfers completely. -/
theorem exchange_writes {disk : ScsiDiskInfo} {most : Nat → Nat} (same : hdd.impl.hdinfo = disk)
    (writes : request.Writes) (onDisk : request.OnDisk disk)
    (bounded : most (request.size disk) ≤ request.size disk)
    (succeed : ∀ k < most (request.size disk) / disk.sectorbytes,
      hdd.impl.owner.writeFails (hdd.impl.owner.writes + k) = false ∧
        ∀ offset < disk.sectorbytes, hdd.impl.owner.mounted
          (hdd.impl.owner.infoCalls + (k * disk.sectorbytes + offset)) = true)
    (block offset : Nat) (inside : offset < disk.sectorbytes) :
    (Hdd.exchange hdd request most).1.impl.owner.blocks block offset =
      request.stored disk (most (request.size disk)) hdd.impl.owner.blocks block offset := by
  subst same
  obtain ⟨placed, starts⟩ := @startsWrite hdd request writes
  have info : placed.hdinfo = hdd.impl.hdinfo := congrArg scsiDiskSetType starts.diskType
  have positive := sectorbytes_pos hdd.impl
  rcases startsWrite_moves writes starts most with
    ⟨none_, still⟩ | ⟨some_, started, impl, image, moves⟩
  · rw [Request.size, none_, Nat.zero_mul] at bounded ⊢
    rw [still, starts.owner, Request.stored, Nat.le_zero.mp bounded, Nat.zero_div,
      if_neg (by omega)]
  · subst impl
    have near (k : Nat) (low : k < most (request.size hdd.impl.hdinfo) /
        hdd.impl.hdinfo.sectorbytes) : k < cdbBlocks request.cdb := by
      have upper := Nat.div_le_div_right (c := hdd.impl.hdinfo.sectorbytes) bounded
      rw [Request.size, Nat.mul_div_cancel _ positive] at upper
      exact low.trans_le upper
    have lba := starts.places.near (by
      rw [info]
      exact onDisk (.inr writes) 0 some_)
    have taken := @moveBytes_takes started (cdbLba request.cdb) (request.size hdd.impl.hdinfo) image
      lba request.data (most (request.size hdd.impl.hdinfo)) ?_ ?_ _ le_rfl
    · rw [moves, taken.blocks block offset (by rw [info]; exact inside), info, starts.owner]
      rfl
    · rw [info]
      exact fun k low => onDisk (.inr writes) k (near k low)
    · rw [info, starts.owner]
      exact succeed

end Commands

section Runs

variable {hdd : HddDevice} {disk : ScsiDiskInfo} {blocks : Nat → Nat → Byte} {event : BusEvent}

/-- The disk has its type, and its image has these contents. -/
structure Stores (disk : ScsiDiskInfo) (blocks : Nat → Nat → Byte) (hdd : HddDevice) : Prop where
  hdinfo : hdd.impl.hdinfo = disk
  blocks : ∀ block, ∀ offset < disk.sectorbytes,
    hdd.impl.owner.blocks block offset = blocks block offset

theorem BusEvent.most_le (event : BusEvent) (size : Nat) : event.most size ≤ size := by
  cases event with
  | command request => exact le_rfl
  | cut request count => exact min_le_right count size
  | busReset => exact Nat.zero_le size

/-- A bus reset does not reach the state of the disk. -/
theorem serve_exchange {request : Request} (asked : request ∈ event.request) :
    (Hdd.serve hdd event).1.impl = (Hdd.exchange hdd request event.most).1.impl ∧
      (Hdd.serve hdd event).2 = (Hdd.exchange hdd request event.most).2 := by
  cases event with
  | command other =>
    obtain rfl := Option.some.inj asked
    exact ⟨rfl, rfl⟩
  | cut other count =>
    obtain rfl := Option.some.inj asked
    exact ⟨rfl, rfl⟩
  | busReset => cases asked

theorem serve_sameDisk (hdd : HddDevice) (event : BusEvent) :
    SameDisk hdd.impl (Hdd.serve hdd event).1.impl := by
  rcases asked : event.request with _ | request
  · cases event with
    | command other => cases asked
    | cut other count => cases asked
    | busReset => exact ⟨rfl, rfl, rfl, rfl⟩
  · rw [(@serve_exchange hdd event request asked).1]
    exact exchange_sameDisk request event.most

/-- The image follows the completely transferred blocks over one event. -/
theorem serve_stores (stores : Stores disk blocks hdd) (onDisk : event.OnDisk disk)
    (succeed : event.CallbacksSucceed disk hdd.impl.owner) :
    Stores disk (event.contents disk blocks) (Hdd.serve hdd event).1 := by
  refine ⟨(congrArg scsiDiskSetType (serve_sameDisk hdd event).diskType).trans stores.hdinfo,
    fun block offset inside => ?_⟩
  rw [BusEvent.contents]
  rcases asked : event.request with _ | request
  · cases event with
    | command other => cases asked
    | cut other count => cases asked
    | busReset => exact stores.blocks block offset inside
  · rw [(@serve_exchange hdd event request asked).1]
    dsimp only
    split_ifs with writes
    · rw [exchange_writes stores.hdinfo writes (onDisk request asked) (event.most_le _)
        ((succeed request asked).2 writes) block offset inside, Request.stored, Request.stored,
        stores.blocks block offset inside]
    · rw [(exchange_sameImage writes event.most).blocks]
      exact stores.blocks block offset inside

theorem serve_reads (stores : Stores disk blocks hdd) (onDisk : event.OnDisk disk)
    (succeed : event.CallbacksSucceed disk hdd.impl.owner) :
    event.ReadsBack disk blocks (Hdd.serve hdd event).2 := by
  intro request asked reads
  rw [(@serve_exchange hdd event request asked).2, exchange_reads stores.hdinfo reads
    (onDisk request asked) (event.most_le _) ((succeed request asked).1 reads)]
  refine List.map_congr_left fun pos _ => ?_
  exact stores.blocks _ _ (Nat.mod_lt pos (stores.hdinfo ▸ sectorbytes_pos hdd.impl))

theorem session_sameDisk (hdd : HddDevice) (events : List BusEvent) :
    SameDisk hdd.impl (Hdd.session hdd events).impl := by
  induction events using List.reverseRecOn with
  | nil => exact ⟨rfl, rfl, rfl, rfl⟩
  | append_singleton events last ih =>
    rw [Hdd.session, List.foldl_append]
    exact ih.trans (serve_sameDisk _ last)

variable {owner : DiskOwner} {diskType : ScsiDiskType}

/-- The image follows a run. -/
theorem session_stores (events : List BusEvent)
    (onDisk : ∀ event ∈ events, event.OnDisk (scsiDiskSetType diskType))
    (succeed : ∀ before event, before ++ [event] <+: events →
      event.CallbacksSucceed (scsiDiskSetType diskType)
        (Hdd.session (Hdd.init owner diskType) before).impl.owner) :
    Stores (scsiDiskSetType diskType)
      (events.foldl (BusEvent.contents (scsiDiskSetType diskType)) owner.blocks)
      (Hdd.session (Hdd.init owner diskType) events) := by
  induction events using List.reverseRecOn with
  | nil => exact ⟨rfl, fun _ _ _ => rfl⟩
  | append_singleton events last ih =>
    have stores := ih
      (fun event member => onDisk event (List.mem_append_left [last] member))
      fun before event inside => succeed before event (inside.trans (List.prefix_append _ _))
    rw [List.foldl_append, Hdd.session, List.foldl_append]
    exact serve_stores stores (onDisk last (List.mem_append_right events
      (List.mem_singleton_self last))) (succeed events last List.prefix_rfl)

/-- Nothing fails in a run of this owner. -/
theorem sound_succeed (diskType : ScsiDiskType) (events : List BusEvent) (event : BusEvent) :
    event.CallbacksSucceed (scsiDiskSetType diskType)
      (Hdd.session (Hdd.init soundOwner diskType) events).impl.owner := by
  have same := session_sameDisk (Hdd.init soundOwner diskType) events
  intro request asked
  have mounted (call : Nat) :
      (Hdd.session (Hdd.init soundOwner diskType) events).impl.owner.mounted call = true := by
    rw [DiskOwner.mounted, same.diskInfo]
    rfl
  refine ⟨fun reads pos inside => ⟨?_, mounted _⟩,
    fun writes k inside => ⟨?_, fun offset low => mounted _⟩⟩
  · rw [same.readFails]
    rfl
  · rw [same.writeFails]
    rfl

/-- One block moves at the start of the disk. -/
def firstBlock (code value : Byte) : Request where
  cdb := oneBlock code 0 0 0
  identify := 0x80
  data := fun _ => value

theorem firstBlock_onDisk {code : Byte} (short : code = scRead6 ∨ code = scWrite6) (value : Byte) :
    (firstBlock code value).OnDisk (scsiDiskSetType .micropolis1375Nd) := by
  intro moves k block
  have shape : cdbBlocks (oneBlock code 0 0 0) = 1 ∧ cdbLba (oneBlock code 0 0 0) = 0 := by
    rcases short with rfl | rfl <;> decide
  change k < cdbBlocks (oneBlock code 0 0 0) at block
  rw [shape.1] at block
  change cdbLba (oneBlock code 0 0 0) + k ≤ _
  rw [shape.2, Nat.lt_one_iff.mp block]
  exact Nat.zero_le _

end Runs

/-- In a run whose callbacks succeed, each READ returns the data of the last WRITE that transferred
its block completely. -/
theorem block_array_reads (owner : DiskOwner) (diskType : ScsiDiskType) (events : List BusEvent)
    (onDisk : ∀ event ∈ events, event.OnDisk (scsiDiskSetType diskType))
    (succeed : ∀ before event, before ++ [event] <+: events →
      event.CallbacksSucceed (scsiDiskSetType diskType)
        (Hdd.session (Hdd.init owner diskType) before).impl.owner) :
    ∀ before event, before ++ [event] <+: events →
      event.ReadsBack (scsiDiskSetType diskType)
        (before.foldl (BusEvent.contents (scsiDiskSetType diskType)) owner.blocks)
        (Hdd.serve (Hdd.session (Hdd.init owner diskType) before) event).2 := by
  intro before event inside
  have earlier : before <+: events := (List.prefix_append before [event]).trans inside
  have stores := session_stores before
    (fun event member => onDisk event (earlier.subset member))
    fun first event_ inside_ => succeed first event_ (inside_.trans earlier)
  exact serve_reads stores
    (onDisk event (inside.subset (List.mem_append_right before (List.mem_singleton_self event))))
    (succeed before event inside)

/-- A block is read after it was written and then partly written. -/
theorem block_array_reads_twice :
    BusEvent.ReadsBack (scsiDiskSetType .micropolis1375Nd)
      ([BusEvent.command (firstBlock scWrite6 0x55), .cut (firstBlock scWrite6 0xAA) 100].foldl
        (BusEvent.contents (scsiDiskSetType .micropolis1375Nd)) soundOwner.blocks)
      (.command (firstBlock scRead6 0))
      (Hdd.serve (Hdd.session (Hdd.init soundOwner .micropolis1375Nd)
        [.command (firstBlock scWrite6 0x55), .cut (firstBlock scWrite6 0xAA) 100])
        (.command (firstBlock scRead6 0))).2 := by
  refine block_array_reads soundOwner .micropolis1375Nd
    [.command (firstBlock scWrite6 0x55), .cut (firstBlock scWrite6 0xAA) 100,
      .command (firstBlock scRead6 0)] ?_ (fun before event _ => sound_succeed _ before event)
    _ _ List.prefix_rfl
  intro event member request asked
  simp only [List.mem_cons, List.not_mem_nil, or_false] at member
  rcases member with rfl | rfl | rfl <;> obtain rfl := Option.some.inj asked
  · exact firstBlock_onDisk (.inr rfl) _
  · exact firstBlock_onDisk (.inr rfl) _
  · exact firstBlock_onDisk (.inl rfl) _

section Refused

variable {hdd : HddDevice}

/-- A refused sector is lost. -/
theorem storeByte_refused {hdd : ScsiHdd} (refuses : ∀ call, hdd.owner.writeFails call = true)
    (pos : Nat) (data : Byte) : (hdd.storeByte pos data).owner.blocks = hdd.owner.blocks := by
  rw [ScsiHdd.storeByte]
  dsimp only
  split_ifs
  · rw [ScsiHdd.writeBlock]
    split_ifs
    · rw [DiskOwner.writeFunc, if_pos (refuses _)]
    · rfl
  · rfl

theorem exchange_refused {request : Request} (writes : request.Writes) (most : Nat → Nat)
    (refuses : ∀ call, hdd.impl.owner.writeFails call = true) :
    (Hdd.exchange hdd request most).1.impl.owner.blocks = hdd.impl.owner.blocks := by
  obtain ⟨placed, starts⟩ := @startsWrite hdd request writes
  rcases startsWrite_moves writes starts most with
    ⟨-, still⟩ | ⟨-, started, impl, image, moves⟩
  · rw [still, starts.owner]
  · rw [moves, ← starts.owner, ← impl, moveBytes_device]
    rw [← starts.owner, ← impl] at refuses
    generalize most (request.size hdd.impl.hdinfo) = count
    induction count with
    | zero => rfl
    | succ count ih =>
      have follows := after_follows image false request.data count
      rw [DiskRun.after, if_neg Bool.false_ne_true, DiskRun.byteOut]
      generalize DiskRun.after false request.data ⟨started, []⟩ count = run at *
      rw [putData_image (follows.image image)]
      split_ifs
      · have refuses_ (call : Nat) : run.device.impl.hasMedia.1.owner.writeFails call = true :=
          (congrFun follows.writeFails call).trans (refuses call)
        exact (storeByte_refused refuses_ _ _).trans ih
      · exact ih

end Refused

/-- The write callback of this owner refuses every block. -/
def refusingOwner : DiskOwner := { soundOwner with writeFails := fun _ => true }

theorem wanted_first {request : Request} {disk : ScsiDiskInfo} {count : Nat} (some_ : 0 < count)
    (blocks : Nat → Nat → Byte) : (request.wanted disk count blocks)[0]? =
      some (blocks (cdbLba request.cdb + 0 / disk.sectorbytes) (0 % disk.sectorbytes)) := by
  rw [Request.wanted, List.getElem?_map, List.getElem?_range some_]
  rfl

/-- A block that was refused is not read, though its WRITE ended well. -/
theorem refused_write_is_not_read :
    ¬BusEvent.ReadsBack (scsiDiskSetType .micropolis1375Nd)
      ([BusEvent.command (firstBlock scWrite6 0x55)].foldl
        (BusEvent.contents (scsiDiskSetType .micropolis1375Nd)) refusingOwner.blocks)
      (.command (firstBlock scRead6 0))
      (Hdd.serve (Hdd.session (Hdd.init refusingOwner .micropolis1375Nd)
        [.command (firstBlock scWrite6 0x55)]) (.command (firstBlock scRead6 0))).2 := by
  intro back
  have same := session_sameDisk (Hdd.init refusingOwner .micropolis1375Nd)
    [.command (firstBlock scWrite6 0x55)]
  have write : (firstBlock scWrite6 0x55).Writes := ⟨rfl, rfl⟩
  have read : (firstBlock scRead6 0).Reads := ⟨rfl, rfl⟩
  have kept : (Hdd.session (Hdd.init refusingOwner .micropolis1375Nd)
      [.command (firstBlock scWrite6 0x55)]).impl.owner.blocks = refusingOwner.blocks := by
    rw [Hdd.session, List.foldl_cons, List.foldl_nil, (serve_exchange rfl).1]
    exact exchange_refused write _ fun _ => rfl
  have whole : id ((firstBlock scRead6 0).size (scsiDiskSetType .micropolis1375Nd)) ≤
      (firstBlock scRead6 0).size (scsiDiskSetType .micropolis1375Nd) := le_rfl
  have sent := exchange_reads (congrArg scsiDiskSetType same.diskType) read
    (firstBlock_onDisk (.inl rfl) 0) whole fun pos _ => by
      rw [DiskOwner.mounted, same.diskInfo, same.readFails]
      exact ⟨rfl, rfl⟩
  have first := congrArg (fun bytes : List Byte => bytes[0]?)
    (sent.symm.trans (back (firstBlock scRead6 0) rfl read))
  rw [wanted_first (by decide), wanted_first (by decide), kept] at first
  exact absurd (Option.some.inj first) (by decide)

end Nd100x.Scsi
