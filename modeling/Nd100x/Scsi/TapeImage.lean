import Nd100x.Machine.State
import Nd100x.Library.ByteRange

namespace Nd100x.Scsi

open Nd100x.Library

abbrev MarkerWord := BitVec 32

/-- The image is reached in blocks of this size. -/
def tapeImageBlockBytes : Nat := 1024

def tapeImageEarlyWarningBytes : Nat := 32768

inductive TapeStatus where
  | ok
  | bom
  | ew
  | filemark
  | filemarkEw
  | eod
  | eodEw
  | eom
  | error
  deriving DecidableEq, Repr

/-- The block callbacks of the controller reach an image. The patterns tell which calls fail, and a
missing callback fails every time. -/
structure BlockCallbacks where
  image : Nat → Byte
  readFails : Nat → Bool
  writeFails : Nat → Bool
  reads : Nat
  writes : Nat
  /-- This is the size of a mounted image with its write protection. -/
  diskInfo : Option (Nat × Bool)
  /-- A read may be served with other bytes than those of the image. -/
  serves : Nat → Option (Nat → Byte) := fun _ => none
  /-- These block numbers were asked for, the last one first. -/
  asked : List Nat := []

namespace BlockCallbacks

/-- The block number has thirty-two bits. -/
def blockStart (block : Nat) : Nat := tapeImageBlockBytes * (block % 2 ^ 32)

def readFunc (owner : BlockCallbacks) (block : Nat) : BlockCallbacks × Option (Nat → Byte) :=
  ({ owner with reads := owner.reads + 1, asked := block % 2 ^ 32 :: owner.asked },
    if owner.readFails owner.reads then none
    else some ((owner.serves owner.reads).getD fun offset => owner.image (blockStart block + offset)))

def writeFunc (owner : BlockCallbacks) (buffer : Nat → Byte) (block : Nat) :
    BlockCallbacks × Bool :=
  if owner.writeFails owner.writes then
    ({ owner with writes := owner.writes + 1, asked := block % 2 ^ 32 :: owner.asked }, false)
  else
    ({ owner with
       writes := owner.writes + 1
       asked := block % 2 ^ 32 :: owner.asked
       image := putRange owner.image (blockStart block) (range buffer 0 tapeImageBlockBytes) }, true)

theorem writeFunc_diskInfo (owner : BlockCallbacks) (buffer : Nat → Byte) (block : Nat) :
    (owner.writeFunc buffer block).1.diskInfo = owner.diskInfo := by
  rw [writeFunc]
  split_ifs <;> rfl

end BlockCallbacks

/-- One block of the image is cached. -/
structure TapeImage where
  owner : BlockCallbacks
  size : Nat
  readOnly : Bool
  pos : Nat
  cache : Nat → Byte
  cacheBlock : Option Nat
  cacheDirty : Bool
  ioError : Bool

def simhTapeMark : MarkerWord := 0x00000000
def simhEraseGap : MarkerWord := 0xFFFFFFFE
def simhEom : MarkerWord := 0xFFFFFFFF

/- These are the marker classes. -/
def simhClassGoodData : MarkerWord := 0x0
def simhClassPrivateMarker : MarkerWord := 0x7
def simhClassReservedMarker : MarkerWord := 0xF

def simhIsHalfGapForward (marker : MarkerWord) : Bool := marker = 0xFFFEFFFF

def simhIsHalfGapReverse (marker : MarkerWord) : Bool :=
  0xFFFF0000 ≤ marker ∧ marker ≤ 0xFFFFFFFD

def simhIsEodForward (marker : MarkerWord) : Bool :=
  marker = simhEraseGap || simhIsHalfGapForward marker || marker = simhEom

def simhIsEodReverse (marker : MarkerWord) : Bool :=
  marker = simhEraseGap || simhIsHalfGapReverse marker || marker = simhEom

def blockLength (marker : MarkerWord) : Nat := (marker &&& 0x0FFFFFFF).toNat

/-- A record has a header, its data, a pad byte for an odd length, and a trailer. -/
def simhRecordBytes (marker : MarkerWord) : Nat :=
  4 + blockLength marker + blockLength marker % 2 + 4

/-- The word is stored with its low byte first. -/
def wordOf (bytes : List Byte) : MarkerWord :=
  bytes.getD 3 0 ++ bytes.getD 2 0 ++ bytes.getD 1 0 ++ bytes.getD 0 0

def wordBytes (word : MarkerWord) : List Byte :=
  [word.setWidth 8, (word >>> 8).setWidth 8, (word >>> 16).setWidth 8, (word >>> 24).setWidth 8]

namespace TapeImage

def flush (ti : TapeImage) : TapeImage × Bool :=
  match ti.cacheDirty, ti.cacheBlock with
  | true, some block =>
    let stored := ti.owner.writeFunc ti.cache block
    if stored.2 then ({ ti with owner := stored.1, cacheDirty := false }, true)
    else ({ ti with owner := stored.1, ioError := true }, false)
  | _, _ => (ti, true)

/-- The block of a position becomes the cached one. -/
def load (ti : TapeImage) (pos : Nat) : TapeImage × Bool :=
  let block := pos / tapeImageBlockBytes
  if ti.cacheBlock = some block then (ti, true)
  else if ti.flush.2 then
    match ti.flush.1.owner.readFunc block with
    | (owner, some cache) =>
      ({ ti.flush.1 with owner := owner, cache := cache, cacheBlock := some block }, true)
    | (owner, none) =>
      ({ ti.flush.1 with owner := owner, cacheBlock := none, ioError := true }, false)
  else (ti.flush.1, false)

/-- So many bytes of a run lie in its first block. -/
def chunk (pos length : Nat) : Nat := min (tapeImageBlockBytes - pos % tapeImageBlockBytes) length

theorem chunk_positive {pos length : Nat} (more : length ≠ 0) : 0 < chunk pos length := by
  have inside : pos % tapeImageBlockBytes < tapeImageBlockBytes := Nat.mod_lt _ (by decide)
  rw [chunk]
  omega

/-- The bytes before a failure are in the buffer. -/
def readBytes (ti : TapeImage) (pos length : Nat) : TapeImage × List Byte × Bool :=
  if length = 0 then (ti, [], true)
  else if (ti.load pos).2 then
    let bytes := range (ti.load pos).1.cache (pos % tapeImageBlockBytes) (chunk pos length)
    let rest := (ti.load pos).1.readBytes (pos + chunk pos length) (length - chunk pos length)
    (rest.1, bytes ++ rest.2.1, rest.2.2)
  else ((ti.load pos).1, [], false)
termination_by length
decreasing_by
  have positive := @chunk_positive pos _ ‹_›
  omega

/-- The bytes go into the cached block. -/
def store (ti : TapeImage) (pos : Nat) (bytes : List Byte) : TapeImage :=
  { ti with
    cache := putRange ti.cache (pos % tapeImageBlockBytes) bytes
    cacheDirty := true }

def writeBytes (ti : TapeImage) (pos : Nat) (bytes : List Byte) : TapeImage × Bool :=
  if bytes.length = 0 then (ti, true)
  else if (ti.load pos).2 then
    ((ti.load pos).1.store pos (bytes.take (chunk pos bytes.length))).writeBytes
      (pos + chunk pos bytes.length) (bytes.drop (chunk pos bytes.length))
  else ((ti.load pos).1, false)
termination_by bytes.length
decreasing_by
  have positive := @chunk_positive pos _ ‹_›
  rw [List.length_drop]
  omega

def writeRepeat (ti : TapeImage) (pos : Nat) (value : Byte) (length : Nat) : TapeImage × Bool :=
  ti.writeBytes pos (List.replicate length value)

def readWord (ti : TapeImage) (pos : Nat) : TapeImage × Option MarkerWord :=
  let read := ti.readBytes pos 4
  (read.1, if read.2.2 then some (wordOf read.2.1) else none)

def writeWord (ti : TapeImage) (pos : Nat) (word : MarkerWord) : TapeImage × Bool :=
  ti.writeBytes pos (wordBytes word)

/-- Only whole blocks of the image are used. -/
def openImage (owner : BlockCallbacks) : TapeImage × Bool :=
  let ti : TapeImage :=
    { owner := owner
      size := 0
      readOnly := false
      pos := 0
      cache := fun _ => 0
      cacheBlock := none
      cacheDirty := false
      ioError := false }
  match owner.diskInfo with
  | none => (ti, false)
  | some (imageSize, writeProtected) =>
    let usable := imageSize - imageSize % tapeImageBlockBytes
    if usable < tapeImageBlockBytes then (ti, false)
    else ({ ti with size := usable, readOnly := writeProtected }, true)

def isEw (ti : TapeImage) : Bool := ti.size ≤ ti.pos + tapeImageEarlyWarningBytes

def isBot (ti : TapeImage) : Bool := ti.pos = 0

def atEod (ti : TapeImage) : TapeImage × TapeStatus × Bool :=
  if ti.size < ti.pos + 4 then (ti, .ok, true)
  else
    match ti.readWord ti.pos with
    | (ti, none) => (ti, .error, false)
    | (ti, some marker) => (ti, .ok, simhIsEodForward marker)

def rewind (ti : TapeImage) (eom : Bool) : TapeImage :=
  { ti with pos := if eom then ti.size else 0 }

def moveTo (ti : TapeImage) (pos : Nat) : TapeImage := { ti with pos := pos }

end TapeImage

/-- Each loop over the tape tells these markers apart. -/
inductive Marker where
  | failed
  | tapeMark
  | endOfData
  | skipped
  | record (good : Bool) (bytes length : Nat)
  deriving DecidableEq, Repr

/-- A record has to fit the room that is left. -/
def classify (endOfData : MarkerWord → Bool) (room : Nat) (marker : MarkerWord) : Marker :=
  if marker = simhTapeMark then .tapeMark
  else if endOfData marker then .endOfData
  else if marker >>> 28 = simhClassPrivateMarker ∨ marker >>> 28 = simhClassReservedMarker then
    .skipped
  else if room < simhRecordBytes marker then .failed
  else .record (marker >>> 28 = simhClassGoodData) (simhRecordBytes marker) (blockLength marker)

theorem classify_record {endOfData : MarkerWord → Bool} {room : Nat} {marker : MarkerWord}
    {good : Bool} {bytes length : Nat}
    (found : classify endOfData room marker = .record good bytes length) :
    0 < bytes ∧ bytes ≤ room := by
  rw [classify] at found
  split_ifs at found with mark ends skipped long
  injection found with _ whole _
  rw [← whole, simhRecordBytes] at *
  omega

namespace TapeImage

/-- The header at a position is read. -/
def markerAt (ti : TapeImage) (at_ : Nat) : TapeImage × Marker :=
  if ti.size < at_ + 4 then (ti, .failed)
  else
    match ti.readWord at_ with
    | (ti, none) => (ti, .failed)
    | (ti, some marker) => (ti, classify simhIsEodForward (ti.size - at_) marker)

/-- The trailer before the position is read. -/
def markerBefore (ti : TapeImage) : TapeImage × Marker :=
  if ti.pos < 4 then (ti, .failed)
  else
    match ti.readWord (ti.pos - 4) with
    | (ti, none) => (ti, .failed)
    | (ti, some marker) => (ti, classify simhIsEodReverse ti.pos marker)

end TapeImage

/-- The tape is where it was. -/
structure SameTape (ti next : TapeImage) : Prop where
  size : next.size = ti.size
  pos : next.pos = ti.pos
  readOnly : next.readOnly = ti.readOnly
  diskInfo : next.owner.diskInfo = ti.owner.diskInfo

namespace SameTape

variable {ti next last : TapeImage}

theorem refl (ti : TapeImage) : SameTape ti ti := ⟨rfl, rfl, rfl, rfl⟩

theorem trans (first : SameTape ti next) (second : SameTape next last) : SameTape ti last :=
  ⟨second.size.trans first.size, second.pos.trans first.pos,
    second.readOnly.trans first.readOnly, second.diskInfo.trans first.diskInfo⟩

theorem flush (ti : TapeImage) : SameTape ti ti.flush.1 := by
  rw [TapeImage.flush]
  split
  · dsimp only
    split_ifs <;> exact ⟨rfl, rfl, rfl, BlockCallbacks.writeFunc_diskInfo _ _ _⟩
  · exact refl ti

theorem load (ti : TapeImage) (pos : Nat) : SameTape ti (ti.load pos).1 := by
  have flushed := flush ti
  rw [TapeImage.load]
  split_ifs
  · exact refl ti
  · split <;> next read =>
      have info := congrArg (fun result => result.1.diskInfo) read
      exact ⟨flushed.size, flushed.pos, flushed.readOnly, info.symm.trans flushed.diskInfo⟩
  · exact flushed

theorem readBytes (ti : TapeImage) (pos length : Nat) : SameTape ti (ti.readBytes pos length).1 := by
  induction ti, pos, length using TapeImage.readBytes.induct with
  | case1 ti pos =>
    rw [TapeImage.readBytes, if_pos rfl]
    exact refl ti
  | case2 ti pos length more loaded ih =>
    rw [TapeImage.readBytes, if_neg more, if_pos loaded]
    exact (load ti pos).trans ih
  | case3 ti pos length more loaded =>
    rw [TapeImage.readBytes, if_neg more, if_neg loaded]
    exact load ti pos

theorem readWord (ti : TapeImage) (pos : Nat) : SameTape ti (ti.readWord pos).1 :=
  readBytes ti pos 4

theorem markerAt (ti : TapeImage) (at_ : Nat) : SameTape ti (ti.markerAt at_).1 := by
  have read := readWord ti at_
  rw [TapeImage.markerAt]
  split_ifs
  · exact refl ti
  · split <;> next found => rw [found] at read; exact read

end SameTape

namespace TapeImage

theorem markerAt_record {ti : TapeImage} {at_ : Nat} {good : Bool} {bytes length : Nat}
    (found : (ti.markerAt at_).2 = .record good bytes length) :
    0 < bytes ∧ at_ + bytes ≤ ti.size := by
  have same := SameTape.readWord ti at_
  rw [markerAt] at found
  split_ifs at found with outside
  split at found
  · cases found
  · next read =>
      have fits := classify_record found
      rw [read] at same
      have size := same.size
      dsimp only at size
      omega

theorem markerAt_inside {ti : TapeImage} {at_ : Nat} {marker : Marker}
    (found : (ti.markerAt at_).2 = marker) (read : marker ≠ .failed) : at_ + 4 ≤ ti.size := by
  by_contra outside
  rw [markerAt, if_pos (by omega)] at found
  exact read found.symm

theorem markerBefore_record {ti : TapeImage} {good : Bool} {bytes length : Nat}
    (found : ti.markerBefore.2 = .record good bytes length) : 0 < bytes ∧ bytes ≤ ti.pos := by
  have same := SameTape.readWord ti (ti.pos - 4)
  rw [markerBefore] at found
  split_ifs at found with outside
  split at found
  · cases found
  · next read =>
      have fits := classify_record found
      rw [read] at same
      have position := same.pos
      dsimp only at position
      omega

theorem markerBefore_inside {ti : TapeImage} {marker : Marker}
    (found : ti.markerBefore.2 = marker) (read : marker ≠ .failed) : 4 ≤ ti.pos := by
  by_contra outside
  rw [markerBefore, if_pos (by omega)] at found
  exact read found.symm

end TapeImage

end Nd100x.Scsi
