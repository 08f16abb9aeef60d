import Nd100x.Devices.BlockHost
import Nd100x.Devices.Surface
import Nd100x.Library.ByteRange

namespace Nd100x.Devices

open Nd100x.Hdlc (CoreMemory)
open Nd100x.Library

section Model

/-- The bytes of an image that was loaded, or the file that is open for it. A file may refuse a
position. -/
inductive DriveSource where
  | remote (data : Option ByteImage)
  | localFile (file : Option ByteImage) (seeks : Bool)

structure MountedDrive where
  source : DriveSource
  dataSize : Nat
  isWriteprotected : Bool

namespace MountedDrive

/-- The bytes past the end of an image are zero. -/
def byte (drive : MountedDrive) (position : Nat) : BitVec 8 :=
  match drive.source with
  | .remote (some data) => if position < drive.dataSize then data.byte position else 0
  | .localFile (some file) _ => file.byte position
  | _ => 0

/-- Past the end of an image that was loaded there is nothing to read. -/
def readEntryBytes (drive : MountedDrive) (bytes offset : Nat) : Int × List (BitVec 8) :=
  match drive.source with
  | .remote none => (-1, [])
  | .remote (some _) =>
    if drive.dataSize ≤ offset then (0, []) else (1, range drive.byte offset bytes)
  | .localFile none _ => (-1, [])
  | .localFile (some _) seeks => if seeks then (1, range drive.byte offset bytes) else (-1, [])

/-- An image that was loaded does not grow. -/
def writeEntryBytes (drive : MountedDrive) (offset : Nat) (bytes : List (BitVec 8)) :
    Option MountedDrive :=
  match drive.source with
  | .remote none => none
  | .remote (some data) =>
    if drive.dataSize < offset + bytes.length then none
    else some { drive with source := .remote (some (data.putBytes offset bytes)) }
  | .localFile none _ => none
  | .localFile (some file) seeks =>
    if seeks then some { drive with source := .localFile (some (file.putBytes offset bytes)) seeks }
    else none

end MountedDrive

/-- The drives of one kind of controller, as far as they are mounted. -/
abbrev MountedDrives := Nat → Option MountedDrive

def machineBlockRead (maxUnits : Nat) (drives : MountedDrives)
    (blockSizeBytes size blockAddress unit : Nat) : Int × List (BitVec 8) :=
  if size = 0 ∨ maxUnits ≤ unit then (-1, [])
  else
    match drives unit with
    | none => (-1, [])
    | some drive =>
      let read := drive.readEntryBytes (size * blockSizeBytes) (blockAddress * blockSizeBytes)
      if read.1 ≤ 0 then read else (size, read.2)

def machineBlockWrite (maxUnits : Nat) (drives : MountedDrives) (blockSizeBytes : Nat)
    (buffer : List (BitVec 8)) (size blockAddress unit : Nat) : Int × MountedDrives :=
  if size = 0 ∨ maxUnits ≤ unit then (-1, drives)
  else
    match drives unit with
    | none => (-1, drives)
    | some drive =>
      match drive.writeEntryBytes (blockAddress * blockSizeBytes)
        (buffer.take (size * blockSizeBytes)) with
      | none => (-1, drives)
      | some written => (size, Function.update drives unit (some written))

/-- An image that was loaded can always be written. -/
def machineBlockDiskInfo (maxUnits : Nat) (drives : MountedDrives) (unit : Nat) : Nat × Bool :=
  if maxUnits ≤ unit then (0, true)
  else
    match drives unit with
    | none => (0, true)
    | some drive =>
      (drive.dataSize,
        match drive.source with
        | .remote _ => false
        | .localFile _ _ => drive.isWriteprotected)

/-- The words of memory go to places in a buffer. -/
def fetchBuffer (memory : CoreMemory) (place : Nat → Option Nat) :
    (count core pointer : Nat) → List (BitVec 8) → List (BitVec 8)
  | 0, _, _, buffer => buffer
  | count + 1, core, pointer, buffer =>
    fetchBuffer memory place count (core + 1) (pointer + 1)
      ((place pointer).elim buffer fun index =>
        ioBufferWriteWord buffer index (memory.dmaRead core))

/-- The number of words before the first that differs. -/
def equalWords (memory : CoreMemory) (words : Nat → BitVec 16) : (count core pointer : Nat) → Nat
  | 0, _, _ => 0
  | count + 1, core, pointer =>
    if memory.dmaRead core = words pointer then
      equalWords memory words count (core + 1) (pointer + 1) + 1
    else 0

end Model

namespace MountedDrive

/-- The drive has these bytes, and its file takes their position. -/
def Serves (drive : MountedDrive) (offset bytes : Nat) : Prop :=
  match drive.source with
  | .remote (some _) => offset + bytes ≤ drive.dataSize
  | .localFile (some _) seeks => seeks = true
  | _ => False

/-- The words of an image are big-endian. -/
def word (drive : MountedDrive) (index : Nat) : BitVec 16 :=
  joinHalves (drive.byte (2 * index)) (drive.byte (2 * index + 1))

end MountedDrive

section Buffers

variable {buffer : List (BitVec 8)} {index other : Nat} {data : BitVec 16}

theorem ioBufferReadWord_eq :
    ioBufferReadWord buffer index =
      joinHalves (buffer.getD (index * 2) 0) (buffer.getD (index * 2 + 1) 0) := rfl

theorem ioBufferWriteWord_length :
    (ioBufferWriteWord buffer index data).length = buffer.length := by
  rw [ioBufferWriteWord, List.length_set, List.length_set]

theorem getD_set {place position : Nat} {byte : BitVec 8} (inside : place < buffer.length) :
    (buffer.set place byte).getD position 0 =
      if position = place then byte else buffer.getD position 0 := by
  rw [List.getD_eq_getElem?_getD, List.getD_eq_getElem?_getD, List.getElem?_set]
  by_cases same : place = position
  · rw [if_pos same, if_pos (same ▸ inside), if_pos same.symm, Option.getD_some]
  · rw [if_neg same, if_neg (Ne.symm same)]

theorem ioBufferReadWord_write (inside : index * 2 + 1 < buffer.length) :
    ioBufferReadWord (ioBufferWriteWord buffer index data) other =
      if other = index then data else ioBufferReadWord buffer other := by
  rw [ioBufferReadWord_eq, ioBufferReadWord_eq, ioBufferWriteWord,
    getD_set (by rw [List.length_set]; exact inside), getD_set (by omega),
    getD_set (by rw [List.length_set]; exact inside), getD_set (by omega)]
  by_cases same : other = index
  · subst same
    rw [if_neg (by omega), if_pos rfl, if_pos rfl, if_pos rfl, joinHalves_halves]
  · rw [if_neg (by omega), if_neg (by omega), if_neg (by omega), if_neg (by omega), if_neg same]

variable {memory : CoreMemory} {count core pointer : Nat}

theorem fetchBuffer_length {place : Nat → Option Nat} :
    (fetchBuffer memory place count core pointer buffer).length = buffer.length := by
  induction count generalizing core pointer buffer with
  | zero => rfl
  | succ count ih =>
    rw [fetchBuffer, ih]
    cases place pointer with
    | none => rfl
    | some index => exact ioBufferWriteWord_length

/-- The words of memory follow one another in the buffer, and the rest of it is kept. -/
theorem fetchBuffer_words (inside : 2 * (pointer + count) ≤ buffer.length) :
    ioBufferReadWord (fetchBuffer memory some count core pointer buffer) other =
      if pointer ≤ other ∧ other < pointer + count then memory.dmaRead (core + (other - pointer))
      else ioBufferReadWord buffer other := by
  induction count generalizing core pointer buffer with
  | zero => rw [fetchBuffer, if_neg (by omega)]
  | succ count ih =>
    rw [fetchBuffer, Option.elim_some,
      ih (by rw [ioBufferWriteWord_length]; omega),
      ioBufferReadWord_write (by omega)]
    by_cases later : pointer + 1 ≤ other ∧ other < pointer + 1 + count
    · rw [if_pos later, if_pos (by omega)]
      congr 1
      omega
    · rw [if_neg later]
      by_cases first : other = pointer
      · subst first
        rw [if_pos rfl, if_pos (by omega), Nat.sub_self, Nat.add_zero]
      · rw [if_neg first, if_neg (by omega)]

theorem ioBufferReadWord_zeros (length : Nat) :
    ioBufferReadWord (List.replicate length 0) other = 0 := by
  have zero (position : Nat) : (List.replicate length (0 : BitVec 8)).getD position 0 = 0 := by
    rw [List.getD_eq_getElem?_getD, List.getElem?_replicate]
    split_ifs <;> rfl
  rw [ioBufferReadWord_eq, zero, zero]
  decide

theorem equalWords_le {words : Nat → BitVec 16} :
    equalWords memory words count core pointer ≤ count := by
  induction count generalizing core pointer with
  | zero => exact Nat.le_refl 0
  | succ count ih =>
    rw [equalWords]
    split_ifs
    · exact Nat.succ_le_succ ih
    · exact Nat.zero_le _

/-- The words before the place are equal, and a place before the end has different words. -/
theorem equalWords_spec {words : Nat → BitVec 16} :
    (∀ offset < equalWords memory words count core pointer,
      memory.dmaRead (core + offset) = words (pointer + offset)) ∧
    (equalWords memory words count core pointer < count →
      memory.dmaRead (core + equalWords memory words count core pointer) ≠
        words (pointer + equalWords memory words count core pointer)) := by
  induction count generalizing core pointer with
  | zero =>
    exact ⟨fun _ below => absurd below (Nat.not_lt_zero _),
      fun below => absurd below (Nat.lt_irrefl 0)⟩
  | succ count ih =>
    obtain ⟨equal, differs⟩ := @ih (core + 1) (pointer + 1)
    rw [equalWords]
    split_ifs with same
    · refine ⟨fun offset below => ?_, fun below => ?_⟩
      · cases offset with
        | zero => exact same
        | succ offset =>
          have next := equal offset (Nat.lt_of_succ_lt_succ below)
          rwa [Nat.add_assoc, Nat.add_comm 1, Nat.add_assoc pointer, Nat.add_comm 1] at next
      · have next := differs (Nat.lt_of_succ_lt_succ below)
        rwa [Nat.add_assoc, Nat.add_comm 1, Nat.add_assoc pointer, Nat.add_comm 1] at next
    · exact ⟨fun _ below => absurd below (Nat.not_lt_zero _), fun _ => same⟩

end Buffers

section Blocks

variable {drive : MountedDrive} {drives : MountedDrives} {maxUnits unit : Nat}
  {blockSizeBytes size blockAddress : Nat}

theorem ioBufferReadWord_range {first count index : Nat} (inside : index < count) :
    ioBufferReadWord (range drive.byte (2 * first) (2 * count)) index =
      drive.word (first + index) := by
  have each (position : Nat) (below : position < 2 * count) :
      (range drive.byte (2 * first) (2 * count)).getD position 0 =
        drive.byte (2 * first + position) := by
    rw [List.getD_eq_getElem?_getD, List.getElem?_eq_getElem (by rw [range_length]; exact below),
      Option.getD_some, range_getElem]
  rw [ioBufferReadWord_eq, each _ (by omega), each _ (by omega), MountedDrive.word]
  congr 2 <;> omega

/-- A read of blocks that the drive has gives their bytes. -/
theorem machineBlockRead_serves (mounted : drives unit = some drive) (below : unit < maxUnits)
    (blocks : 0 < size) (sized : 0 < blockSizeBytes)
    (serves : drive.Serves (blockAddress * blockSizeBytes) (size * blockSizeBytes)) :
    machineBlockRead maxUnits drives blockSizeBytes size blockAddress unit =
      ((size : Int), range drive.byte (blockAddress * blockSizeBytes) (size * blockSizeBytes)) := by
  have read : drive.readEntryBytes (size * blockSizeBytes) (blockAddress * blockSizeBytes) =
      (1, range drive.byte (blockAddress * blockSizeBytes) (size * blockSizeBytes)) := by
    have bytes : 0 < size * blockSizeBytes := Nat.mul_pos blocks sized
    rw [MountedDrive.Serves] at serves
    rw [MountedDrive.readEntryBytes]
    cases source : drive.source with
    | remote data =>
      cases data with
      | none => rw [source] at serves; exact serves.elim
      | some data =>
        rw [source] at serves
        dsimp only at serves ⊢
        rw [if_neg (by omega)]
    | localFile file seeks =>
      cases file with
      | none => rw [source] at serves; exact serves.elim
      | some file =>
        rw [source] at serves
        dsimp only at serves ⊢
        rw [if_pos serves]
  rw [machineBlockRead, if_neg (by omega), mounted]
  dsimp only
  rw [read]
  rfl

/-- A write of blocks that the drive has puts their bytes in its image. -/
theorem machineBlockWrite_serves {buffer : List (BitVec 8)} (mounted : drives unit = some drive)
    (below : unit < maxUnits) (blocks : 0 < size)
    (length : buffer.length = size * blockSizeBytes)
    (serves : drive.Serves (blockAddress * blockSizeBytes) (size * blockSizeBytes)) :
    ∃ written : MountedDrive,
      machineBlockWrite maxUnits drives blockSizeBytes buffer size blockAddress unit =
        ((size : Int), Function.update drives unit (some written)) ∧
      ∀ position, written.byte position =
        putRange drive.byte (blockAddress * blockSizeBytes) buffer position := by
  have whole : buffer.take (size * blockSizeBytes) = buffer := by rw [← length, List.take_length]
  have wrote : ∃ written : MountedDrive,
      drive.writeEntryBytes (blockAddress * blockSizeBytes) buffer = some written ∧
      ∀ position, written.byte position =
        putRange drive.byte (blockAddress * blockSizeBytes) buffer position := by
    rw [MountedDrive.Serves, ← length] at serves
    rw [MountedDrive.writeEntryBytes]
    cases source : drive.source with
    | remote data =>
      cases data with
      | none => rw [source] at serves; exact serves.elim
      | some data =>
        rw [source] at serves
        dsimp only at serves ⊢
        rw [if_neg (by omega)]
        refine ⟨_, rfl, fun position => ?_⟩
        have before : drive.byte position =
            if position < drive.dataSize then data.byte position else 0 := by
          rw [MountedDrive.byte, source]
        rw [putRange, before]
        dsimp only [MountedDrive.byte, ByteImage.putBytes]
        rw [putRange]
        by_cases inside : position < drive.dataSize
        · rw [if_pos inside, if_pos inside]
        · rw [if_neg inside, if_neg inside, if_neg (by omega),
            List.getElem?_eq_none (by omega), Option.getD_none]
    | localFile file seeks =>
      cases file with
      | none => rw [source] at serves; exact serves.elim
      | some file =>
        rw [source] at serves
        dsimp only at serves ⊢
        rw [if_pos serves]
        refine ⟨_, rfl, fun position => ?_⟩
        have before : drive.byte position = file.byte position := by
          rw [MountedDrive.byte, source]
        rw [putRange, before]
        rfl
  obtain ⟨written, wrote, bytes⟩ := wrote
  refine ⟨written, ?_, bytes⟩
  rw [machineBlockWrite, if_neg (by omega), mounted]
  dsimp only
  rw [whole, wrote]

/-- The words of the blocks are those of the buffer, and every other word is kept. -/
theorem word_putRange {written : MountedDrive} {first count : Nat} {buffer : List (BitVec 8)}
    (bytes : ∀ position, written.byte position = putRange drive.byte (2 * first) buffer position)
    (length : buffer.length = 2 * count) (place : Nat) :
    written.word place =
      if first ≤ place ∧ place < first + count then ioBufferReadWord buffer (place - first)
      else drive.word place := by
  rw [MountedDrive.word, bytes, bytes]
  split_ifs with inside
  · have each (position : Nat) (below : position < buffer.length) :
        putRange drive.byte (2 * first) buffer (2 * first + position) =
          buffer.getD position 0 := by
      rw [putRange_inside below, List.getD_eq_getElem?_getD, List.getElem?_eq_getElem below,
        Option.getD_some]
    have high : 2 * place = 2 * first + (place - first) * 2 := by omega
    rw [high, Nat.add_assoc, each _ (by omega), each _ (by omega), ioBufferReadWord_eq]
  · rw [putRange_outside (by omega), putRange_outside (by omega), MountedDrive.word]

end Blocks

end Nd100x.Devices
