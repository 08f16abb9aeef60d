import Nd100x.Scsi.TapeWrites

namespace Nd100x.Scsi

open Nd100x.Library

/-- The calls of the tape image take any arguments. -/
inductive ImageCall where
  | flush
  | dropCache
  | isEw
  | isBot
  | atEod
  | rewind (eom : Bool)
  | blockAddress
  | locate (index : Nat)
  | spaceEod
  | spaceBlocks (count : Nat)
  | spaceBlocksReverse (count : Nat)
  | spaceFilemarks (count : Nat) (sequential : Bool)
  | spaceFilemarksReverse (count : Nat)
  | readBlock (bufSize : Nat)
  | erase
  | writeBlock (bytes : List Byte)
  | writeFilemarks (count : Nat)

/-- The caller has a buffer of this size. -/
def ImageCall.bufSize : ImageCall → Nat
  | readBlock bufSize => bufSize
  | _ => 0

namespace TapeImage

/-- The next access reads the image again. -/
def dropCache (ti : TapeImage) : TapeImage :=
  { ti.flush.1 with
    cacheBlock := none
    cacheDirty := false }

/-- A call returns the bytes that it put into the buffer of the caller. -/
def call (ti : TapeImage) : ImageCall → TapeImage × List Byte
  | .flush => (ti.flush.1, [])
  | .dropCache => (ti.dropCache, [])
  | .isEw | .isBot => (ti, [])
  | .atEod => (ti.atEod.1, [])
  | .rewind eom => (ti.rewind eom, [])
  | .blockAddress => (ti.blockAddress.1, [])
  | .locate index => ((ti.locate index).1, [])
  | .spaceEod => (ti.spaceEod.1, [])
  | .spaceBlocks count => ((ti.spaceBlocks count).1, [])
  | .spaceBlocksReverse count => ((ti.spaceBlocksReverse count).1, [])
  | .spaceFilemarks count sequential => ((ti.spaceFilemarks count sequential).1, [])
  | .spaceFilemarksReverse count => ((ti.spaceFilemarksReverse count).1, [])
  | .readBlock bufSize => ((ti.readBlock bufSize).1, (ti.readBlock bufSize).2.2)
  | .erase => (ti.erase.1, [])
  | .writeBlock bytes => ((ti.writeBlock bytes).1, [])
  | .writeFilemarks count => ((ti.writeFilemarks count).1, [])

end TapeImage

/-- The block lies wholly inside an image of so many bytes. -/
def HoldsBlock (bytes block : Nat) : Prop := tapeImageBlockBytes * (block + 1) ≤ bytes

/-- The tape stays inside its image. Nothing is asked of the bytes on the image, in the cache or from
a read, and any calls of the callbacks may fail. -/
structure Inside (bytes : Nat) (ti : TapeImage) : Prop where
  size : ti.size = bytes
  whole : tapeImageBlockBytes ∣ bytes
  pos : ti.pos ≤ bytes
  cached : ∀ block, ti.cacheBlock = some block → HoldsBlock bytes block
  asked : ∀ block ∈ ti.owner.asked, HoldsBlock bytes block

theorem HoldsBlock.low {bytes block : Nat} (holds : HoldsBlock bytes block) :
    HoldsBlock bytes (block % 2 ^ 32) :=
  Nat.le_trans (Nat.mul_le_mul_left _ (Nat.succ_le_succ (Nat.mod_le _ _))) holds

/-- The block of a place inside the image lies inside it, as the image has whole blocks only. -/
theorem HoldsBlock.place {bytes place : Nat} (whole : tapeImageBlockBytes ∣ bytes)
    (inside : place < bytes) : HoldsBlock bytes (place / tapeImageBlockBytes) := by
  obtain ⟨blocks, rfl⟩ := whole
  exact Nat.mul_le_mul_left _ (Nat.div_lt_of_lt_mul inside)

theorem BlockCallbacks.readFunc_asked (owner : BlockCallbacks) (block : Nat) :
    (owner.readFunc block).1.asked = block % 2 ^ 32 :: owner.asked := rfl

theorem BlockCallbacks.writeFunc_asked (owner : BlockCallbacks) (buffer : Nat → Byte) (block : Nat) :
    (owner.writeFunc buffer block).1.asked = block % 2 ^ 32 :: owner.asked := by
  rw [writeFunc]
  split_ifs <;> rfl

/-- The data of a record lies between its header and its trailer. -/
theorem classify_length {endOfData : MarkerWord → Bool} {room : Nat} {marker : MarkerWord}
    {good : Bool} {extent length : Nat}
    (found : classify endOfData room marker = .record good extent length) : 4 + length ≤ extent := by
  rw [classify] at found
  split_ifs at found with mark ends skipped long
  injection found with _ whole data
  rw [← whole, ← data, simhRecordBytes]
  omega

theorem TapeImage.markerAt_length {ti : TapeImage} {place : Nat} {good : Bool} {extent length : Nat}
    (found : (ti.markerAt place).2 = .record good extent length) : 4 + length ≤ extent := by
  rw [markerAt] at found
  split_ifs at found with outside
  split at found
  · cases found
  · exact classify_length found

theorem readBytes_length (ti : TapeImage) (place length : Nat) :
    (ti.readBytes place length).2.1.length ≤ length := by
  fun_induction TapeImage.readBytes ti place length with
  | case1 | case3 => exact Nat.zero_le _
  | case2 ti place length more loaded first rest ih =>
    have shorter := TapeImage.chunk_le place length
    dsimp only
    rw [List.length_append, range_length]
    exact Nat.le_trans (Nat.add_le_add_left ih _) (by omega)

namespace Inside

variable {bytes : Nat} {ti : TapeImage}

theorem moveTo (inside : Inside bytes ti) {pos : Nat} (place : pos ≤ bytes) :
    Inside bytes (ti.moveTo pos) :=
  ⟨inside.size, inside.whole, place, inside.cached, inside.asked⟩

/-- The callbacks are asked for one more block. -/
theorem asks (inside : Inside bytes ti) {block : Nat} (holds : HoldsBlock bytes block) :
    ∀ other ∈ block % 2 ^ 32 :: ti.owner.asked, HoldsBlock bytes other := by
  intro other member
  rcases List.mem_cons.mp member with same | earlier
  · exact same ▸ holds.low
  · exact inside.asked other earlier

section Cache

theorem flush (inside : Inside bytes ti) : Inside bytes ti.flush.1 := by
  rw [TapeImage.flush]
  split
  · next block dirty cached =>
    have asked := inside.asks (inside.cached block cached)
    rw [← BlockCallbacks.writeFunc_asked _ ti.cache] at asked
    dsimp only
    split_ifs
    · exact ⟨inside.size, inside.whole, inside.pos, inside.cached, asked⟩
    · exact ⟨inside.size, inside.whole, inside.pos, inside.cached, asked⟩
  · exact inside

theorem dropCache (inside : Inside bytes ti) : Inside bytes ti.dropCache := by
  have flushed := inside.flush
  exact ⟨flushed.size, flushed.whole, flushed.pos,
    fun block cached => absurd cached (Option.some_ne_none block).symm, flushed.asked⟩

/-- Only a place inside the image is loaded. -/
theorem load (inside : Inside bytes ti) {place : Nat} (low : place < bytes) :
    Inside bytes (ti.load place).1 := by
  have flushed := inside.flush
  have holds := HoldsBlock.place inside.whole low
  have asked := flushed.asks holds
  rw [TapeImage.load]
  split_ifs
  · exact inside
  · split
    · next owner cache read =>
      rw [← BlockCallbacks.readFunc_asked, read] at asked
      refine ⟨flushed.size, flushed.whole, flushed.pos, fun block cached => ?_, asked⟩
      exact Option.some.inj cached ▸ holds
    · next owner read =>
      rw [← BlockCallbacks.readFunc_asked, read] at asked
      exact ⟨flushed.size, flushed.whole, flushed.pos,
        fun block cached => absurd cached (Option.some_ne_none block).symm, asked⟩
  · exact flushed

theorem readBytes (inside : Inside bytes ti) {place length : Nat} (room : place + length ≤ bytes) :
    Inside bytes (ti.readBytes place length).1 := by
  fun_induction TapeImage.readBytes ti place length with
  | case1 => exact inside
  | case2 ti place length more loaded _ rest ih =>
    have shorter := TapeImage.chunk_le place length
    exact ih (inside.load (by omega)) (by omega)
  | case3 ti place length more => exact inside.load (by omega)

theorem writeBytes (inside : Inside bytes ti) {place : Nat} {written : List Byte}
    (room : place + written.length ≤ bytes) : Inside bytes (ti.writeBytes place written).1 := by
  fun_induction TapeImage.writeBytes ti place written with
  | case1 => exact inside
  | case2 ti place written more loaded ih =>
    have loads := inside.load (show place < bytes by omega)
    have shorter := TapeImage.chunk_le place written.length
    refine ih ⟨loads.size, loads.whole, loads.pos, loads.cached, loads.asked⟩ ?_
    rw [List.length_drop]
    omega
  | case3 ti place written more => exact inside.load (by omega)

end Cache

section Markers

variable {place : Nat}

theorem readWord (inside : Inside bytes ti) (room : place + 4 ≤ bytes) :
    Inside bytes (ti.readWord place).1 :=
  inside.readBytes room

theorem atEod (inside : Inside bytes ti) : Inside bytes ti.atEod.1 := by
  have size := inside.size
  rw [TapeImage.atEod]
  split_ifs with outside
  · exact inside
  · have read := inside.readWord (show ti.pos + 4 ≤ bytes by omega)
    split <;> next found => rw [found] at read; exact read

theorem markerAt (inside : Inside bytes ti) : Inside bytes (ti.markerAt place).1 := by
  have size := inside.size
  rw [TapeImage.markerAt]
  split_ifs with outside
  · exact inside
  · have read := inside.readWord (show place + 4 ≤ bytes by omega)
    split <;> next found => rw [found] at read; exact read

theorem markerBefore (inside : Inside bytes ti) : Inside bytes ti.markerBefore.1 := by
  have place := inside.pos
  rw [TapeImage.markerBefore]
  split_ifs with outside
  · exact inside
  · have read := inside.readWord (show ti.pos - 4 + 4 ≤ bytes by omega)
    split <;> next found => rw [found] at read; exact read

/-- A marker that was read lies before the end of the image. -/
theorem passMarker (inside : Inside bytes ti) {marker : Marker}
    (found : (ti.markerAt ti.pos).2 = marker) (read : marker ≠ .failed) :
    Inside bytes ((ti.markerAt ti.pos).1.moveTo (ti.pos + 4)) :=
  inside.markerAt.moveTo (inside.size ▸ TapeImage.markerAt_inside found read)

theorem passRecord (inside : Inside bytes ti) {good : Bool} {extent length : Nat}
    (found : (ti.markerAt ti.pos).2 = .record good extent length) :
    Inside bytes ((ti.markerAt ti.pos).1.moveTo (ti.pos + extent)) :=
  inside.markerAt.moveTo (inside.size ▸ (TapeImage.markerAt_record found).2)

/-- The motion back only makes the position smaller. -/
theorem passBack (inside : Inside bytes ti) (extent : Nat) :
    Inside bytes (ti.markerBefore.1.moveTo (ti.pos - extent)) :=
  inside.markerBefore.moveTo (Nat.le_trans (Nat.sub_le _ _) inside.pos)

end Markers

section Motions

theorem forward (inside : Inside bytes ti) (motion : Motion) (done : Nat) :
    Inside bytes (ti.forward motion done).1 := by
  fun_induction TapeImage.forward motion ti done with
  | case1 => exact inside
  | case2 | case3 => exact inside.markerAt
  | case4 ti done below found ih =>
    exact ih (inside.passMarker found Marker.noConfusion)
  | case5 ti done below found => exact inside.passMarker found Marker.noConfusion
  | case6 ti done below found next on ih =>
    exact ih (inside.passMarker found Marker.noConfusion)
  | case7 ti done below good extent length found => exact inside.passRecord found
  | case8 ti done below good extent length found next on ih =>
    exact ih (inside.passRecord found)

theorem backward (inside : Inside bytes ti) (motion : Motion) (done : Nat) :
    Inside bytes (ti.backward motion done).1 := by
  fun_induction TapeImage.backward motion ti done with
  | case1 => exact inside
  | case2 | case3 => exact inside.markerBefore
  | case4 ti done above found ih => exact ih (inside.passBack 4)
  | case5 => exact inside.passBack 4
  | case6 ti done above found next on ih =>
    exact ih (inside.passBack 4)
  | case7 ti done above good extent => exact inside.passBack extent
  | case8 ti done above good extent length found next on ih =>
    exact ih (inside.passBack extent)

theorem countRecords (inside : Inside bytes ti) (place records : Nat) :
    Inside bytes (ti.countRecords place records).1 := by
  fun_induction TapeImage.countRecords ti place records with
  | case1 | case2 => exact inside.markerAt
  | case3 ti place records below found ih => exact ih inside.markerAt
  | case4 ti place records below found ih => exact ih inside.markerAt
  | case5 ti place records below good extent length found ih =>
    exact ih inside.markerAt
  | case6 | case7 => exact inside

theorem locateFrom (inside : Inside bytes ti) (index records : Nat) :
    Inside bytes (ti.locateFrom index records).1 := by
  fun_induction TapeImage.locateFrom ti index records with
  | case1 | case2 => exact inside
  | case3 | case4 => exact inside.markerAt
  | case5 ti records below more found ih =>
    exact ih (inside.passMarker found Marker.noConfusion)
  | case6 ti records below more found ih =>
    exact ih (inside.passMarker found Marker.noConfusion)
  | case7 ti records below more good extent length found ih =>
    exact ih (inside.passRecord found)

end Motions

section Transfers

theorem readRecord (inside : Inside bytes ti) {good : Bool} {extent length : Nat}
    (found : (ti.markerAt ti.pos).2 = .record good extent length) :
    Inside bytes ((ti.markerAt ti.pos).1.readBytes (ti.pos + 4) length).1 := by
  have fits := (TapeImage.markerAt_record found).2
  have length := TapeImage.markerAt_length found
  exact inside.markerAt.readBytes (inside.size ▸ by omega)

theorem readBlock (inside : Inside bytes ti) (bufSize : Nat) :
    Inside bytes (ti.readBlock bufSize).1 := by
  fun_induction TapeImage.readBlock ti bufSize with
  | case1 => exact inside
  | case2 | case3 | case6 => exact inside.markerAt
  | case4 ti below found ih =>
    exact ih (inside.passMarker found Marker.noConfusion)
  | case5 ti below found => exact inside.passMarker found Marker.noConfusion
  | case7 ti below extent length found =>
    exact (inside.readRecord found).moveTo (inside.size ▸ (TapeImage.markerAt_record found).2)
  | case8 ti below extent length found => exact inside.readRecord found
  | case9 ti below extent length found ih =>
    exact ih (inside.passRecord found)

theorem erase (inside : Inside bytes ti) : Inside bytes ti.erase.1 := by
  have place := inside.pos
  have written : Inside bytes (ti.writeRepeat ti.pos 0xFF (ti.size - ti.pos)).1 :=
    inside.writeBytes (by rw [List.length_replicate, inside.size]; omega)
  rw [TapeImage.erase]
  dsimp only
  split_ifs
  · exact inside
  · exact written.flush
  · exact written.flush
  · exact written

theorem writeWord (inside : Inside bytes ti) {place : Nat} (room : place + 4 ≤ bytes)
    (word : MarkerWord) : Inside bytes (ti.writeWord place word).1 :=
  inside.writeBytes room

theorem markEnd (inside : Inside bytes ti) : Inside bytes ti.markEnd.1 := by
  have size := inside.size
  rw [TapeImage.markEnd]
  split_ifs with outside
  · exact inside
  · exact inside.writeWord (by omega) simhEom

theorem writePieces (inside : Inside bytes ti) {place : Nat} {pieces : List (List Byte)}
    (room : place + pieces.flatten.length ≤ bytes) :
    Inside bytes (ti.writePieces place pieces).1 := by
  induction pieces generalizing ti place with
  | nil => exact inside
  | cons piece rest ih =>
    rw [List.flatten_cons, List.length_append] at room
    have written : Inside bytes (ti.writeBytes place piece).1 := inside.writeBytes (by omega)
    rw [TapeImage.writePieces]
    split_ifs
    · exact ih written (by omega)
    · exact written

theorem writeBlock (inside : Inside bytes ti) (block : List Byte) :
    Inside bytes (ti.writeBlock block).1 := by
  have size := inside.size
  have length := TapeImage.recordPieces_length block
  rw [TapeImage.writeBlock]
  dsimp only
  split_ifs with protected_ long written marked
  · exact inside
  · exact inside
  · exact ((inside.writePieces (by omega)).moveTo (by omega)).markEnd
  · exact ((inside.writePieces (by omega)).moveTo (by omega)).markEnd
  · exact inside.writePieces (by omega)

theorem writeMarks (inside : Inside bytes ti) {count : Nat} (room : ti.pos + count * 4 ≤ bytes) :
    Inside bytes (ti.writeMarks count).1 := by
  induction count generalizing ti with
  | zero => exact inside
  | succ count ih =>
    have written := inside.writeWord (show ti.pos + 4 ≤ bytes by omega) simhTapeMark
    rw [TapeImage.writeMarks]
    split_ifs
    · refine ih (written.moveTo (by omega)) ?_
      change ti.pos + 4 + count * 4 ≤ bytes
      omega
    · exact written

theorem writeFilemarks (inside : Inside bytes ti) (count : Nat) :
    Inside bytes (ti.writeFilemarks count).1 := by
  have size := inside.size
  rw [TapeImage.writeFilemarks]
  dsimp only
  split_ifs with protected_ long written marked
  · exact inside
  · exact inside
  · exact (inside.writeMarks (by omega)).markEnd
  · exact (inside.writeMarks (by omega)).markEnd
  · exact inside.writeMarks (by omega)

end Transfers

/-- The image is opened with whole blocks. -/
theorem openImage {owner : BlockCallbacks} (fresh : owner.asked = []) :
    Inside (TapeImage.openImage owner).1.size (TapeImage.openImage owner).1 := by
  have asked : ∀ size, ∀ block ∈ owner.asked, HoldsBlock size block := by
    intro size block member
    rw [fresh] at member
    cases member
  have empty : ∀ size block, (none : Option Nat) = some block → HoldsBlock size block :=
    fun _ block cached => absurd cached (Option.some_ne_none block).symm
  rw [TapeImage.openImage]
  split
  · exact ⟨rfl, Nat.dvd_zero _, Nat.le_refl 0, empty 0, asked 0⟩
  · dsimp only
    split_ifs
    · exact ⟨rfl, Nat.dvd_zero _, Nat.le_refl 0, empty 0, asked 0⟩
    · exact ⟨rfl, Nat.dvd_sub_mod _, Nat.zero_le _, empty _, asked _⟩

theorem call (inside : Inside bytes ti) (request : ImageCall) : Inside bytes (ti.call request).1 := by
  cases request with
  | flush => exact inside.flush
  | dropCache => exact inside.dropCache
  | isEw | isBot => exact inside
  | atEod => exact inside.atEod
  | rewind eom =>
    refine inside.moveTo ?_
    split_ifs
    · exact Nat.le_of_eq inside.size
    · exact Nat.zero_le _
  | blockAddress => exact inside.countRecords 0 0
  | locate index => exact (inside.moveTo (Nat.zero_le _)).locateFrom index 0
  | spaceEod => exact inside.forward _ 0
  | spaceBlocks count => exact inside.forward _ 0
  | spaceBlocksReverse count => exact inside.backward _ 0
  | spaceFilemarks count sequential => exact inside.forward _ 0
  | spaceFilemarksReverse count => exact inside.backward _ 0
  | readBlock bufSize => exact inside.readBlock bufSize
  | erase => exact inside.erase
  | writeBlock block => exact inside.writeBlock block
  | writeFilemarks count => exact inside.writeFilemarks count

end Inside

theorem readBlock_length (ti : TapeImage) (bufSize : Nat) :
    (ti.readBlock bufSize).2.2.length ≤ bufSize := by
  fun_induction TapeImage.readBlock ti bufSize with
  | case1 | case2 | case3 | case5 | case6 => exact Nat.zero_le _
  | case4 ti below found ih => exact ih
  | case7 ti below extent length found short read =>
    exact Nat.le_trans (readBytes_length _ _ _) (Nat.not_lt.mp short)
  | case8 ti below extent length found short read =>
    exact Nat.le_trans (readBytes_length _ _ _) (Nat.not_lt.mp short)
  | case9 ti below extent length found ih => exact ih

theorem call_length (ti : TapeImage) (request : ImageCall) :
    (ti.call request).2.length ≤ request.bufSize := by
  cases request with
  | readBlock bufSize => exact readBlock_length ti bufSize
  | _ => exact Nat.le_refl 0

/-- A tape that is opened stands inside its image, and from any place there each call leaves it
inside. -/
theorem image_calls_inside :
    (∀ owner, owner.asked = [] →
      Inside (TapeImage.openImage owner).1.size (TapeImage.openImage owner).1) ∧
    ∀ bytes ti, Inside bytes ti → ∀ request, Inside bytes (ti.call request).1 ∧
      (ti.call request).2.length ≤ request.bufSize :=
  ⟨fun _ fresh => Inside.openImage fresh,
    fun _ ti inside request => ⟨inside.call request, call_length ti request⟩⟩

/-- A record here is longer than the tape, and every second read fails. -/
def tornOwner : BlockCallbacks where
  image := fun _ => 0x05
  readFails := fun call => call % 2 = 1
  writeFails := fun _ => true
  reads := 0
  writes := 0
  diskInfo := some (2048, false)

theorem image_calls_inside_torn :
    Inside 2048 (((TapeImage.openImage tornOwner).1.moveTo 2047).call (.readBlock 512)).1 ∧
      (((TapeImage.openImage tornOwner).1.moveTo 2047).call (.readBlock 512)).2.length ≤ 512 :=
  image_calls_inside.2 2048 _
    ((image_calls_inside.1 tornOwner rfl).moveTo (show 2047 ≤ 2048 by decide)) (.readBlock 512)

end Nd100x.Scsi
