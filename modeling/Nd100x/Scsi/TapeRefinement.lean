import Nd100x.Scsi.TapeWrites

namespace Nd100x.Scsi

open Nd100x.Library

/-- The drive writes blocks of this size. -/
def tdcBlockBytes : Nat := 512

/-- The calls of the image that move or write the tape have counts above zero. -/
inductive TapeOp where
  | writeBlock (bytes : List Byte) (whole : bytes.length = tdcBlockBytes)
  | writeFilemarks (count : Nat) (positive : 0 < count)
  | readBlock (bufSize : Nat)
  | spaceBlocks (count : Nat) (positive : 0 < count)
  | spaceBlocksReverse (count : Nat) (positive : 0 < count)
  | spaceFilemarks (count : Nat) (positive : 0 < count) (sequential : Bool)
  | spaceFilemarksReverse (count : Nat) (positive : 0 < count)
  | spaceEod
  | locate (index : Nat)
  | blockAddress
  | rewind
  | erase

/-- A call returns its status with a count or with the data of a block. -/
structure TapeAnswer where
  status : TapeStatus
  count : Nat
  data : List Byte

namespace TapeImage

def perform (ti : TapeImage) : TapeOp → TapeImage × TapeAnswer
  | .writeBlock bytes _ =>
    let written := ti.writeBlock bytes
    (written.1, ⟨written.2, 0, []⟩)
  | .writeFilemarks count _ =>
    let written := ti.writeFilemarks count
    (written.1, ⟨written.2, 0, []⟩)
  | .readBlock bufSize =>
    let read := ti.readBlock bufSize
    (read.1, ⟨read.2.1, 0, read.2.2⟩)
  | .spaceBlocks count _ =>
    let moved := ti.spaceBlocks count
    (moved.1, ⟨moved.2.1, moved.2.2, []⟩)
  | .spaceBlocksReverse count _ =>
    let moved := ti.spaceBlocksReverse count
    (moved.1, ⟨moved.2.1, moved.2.2, []⟩)
  | .spaceFilemarks count _ sequential =>
    let moved := ti.spaceFilemarks count sequential
    (moved.1, ⟨moved.2.1, moved.2.2, []⟩)
  | .spaceFilemarksReverse count _ =>
    let moved := ti.spaceFilemarksReverse count
    (moved.1, ⟨moved.2.1, moved.2.2, []⟩)
  | .spaceEod => (ti.spaceEod.1, ⟨ti.spaceEod.2, 0, []⟩)
  | .locate index => ((ti.locate index).1, ⟨(ti.locate index).2, 0, []⟩)
  | .blockAddress => (ti.blockAddress.1, ⟨ti.blockAddress.2.1, ti.blockAddress.2.2, []⟩)
  | .rewind => (ti.rewind false, ⟨.ok, 0, []⟩)
  | .erase => (ti.erase.1, ⟨ti.erase.2, 0, []⟩)

/-- A run lists the answers with the new positions. -/
def performAll (ti : TapeImage) : List TapeOp → TapeImage × List (TapeAnswer × Nat)
  | [] => (ti, [])
  | op :: rest =>
    let done := (ti.perform op).1.performAll rest
    (done.1, ((ti.perform op).2, (ti.perform op).1.pos) :: done.2)

end TapeImage

/-- This tape is a list of items with a cursor. -/
structure ItemTape where
  cursor : Cursor TapeItem
  size : Nat
  readOnly : Bool

/-- An item takes this much of the tape. -/
def TapeItem.extent : TapeItem → Nat
  | mark => 4
  | data block => 4 + block.bytes.length + block.bytes.length % 2 + 4

/-- The bytes of one block of the drive make an item. -/
def standardItem (bytes : List Byte) (whole : bytes.length = tdcBlockBytes) : TapeItem :=
  .data {
    bytes := bytes
    nonempty := by
      intro empty
      rw [empty] at whole
      exact absurd whole (by decide)
    short := whole ▸ (by decide : tdcBlockBytes < 2 ^ 28) }

namespace ItemTape

def place (tape : ItemTape) : Nat := (tape.cursor.before.map TapeItem.extent).sum

def earlyWarning (tape : ItemTape) : Bool := tape.size ≤ tape.place + tapeImageEarlyWarningBytes

def moveTo (tape : ItemTape) (cursor : Cursor TapeItem) : ItemTape := { tape with cursor := cursor }

/-- New items replace everything behind the cursor. -/
def write (tape : ItemTape) (items : List TapeItem) : ItemTape × TapeAnswer :=
  if tape.readOnly then (tape, ⟨.error, 0, []⟩)
  else if tape.size ≤ tape.place + (items.map TapeItem.extent).sum then (tape, ⟨.eom, 0, []⟩)
  else
    let next := tape.moveTo (tape.cursor.writeAll items)
    (next, ⟨if next.earlyWarning then .ew else .ok, 0, []⟩)

def read (tape : ItemTape) (bufSize : Nat) : ItemTape × TapeAnswer :=
  match tape.cursor.after with
  | [] => (tape, ⟨TapeImage.eodStatus tape.earlyWarning, 0, []⟩)
  | .mark :: rest =>
    let next := tape.moveTo ⟨.mark :: tape.cursor.before, rest⟩
    (next, ⟨TapeImage.fileMarkStatus next.earlyWarning, 0, []⟩)
  | .data block :: rest =>
    if bufSize < block.bytes.length then (tape, ⟨.error, 0, []⟩)
    else (tape.moveTo ⟨.data block :: tape.cursor.before, rest⟩, ⟨.ok, 0, block.bytes⟩)

/-- A motion ends with a status that tells why it stopped. -/
def space (tape : ItemTape) (status : Cursor.Stop → Bool → TapeStatus)
    (moved : Cursor TapeItem × Cursor.Stop × Nat) : ItemTape × TapeAnswer :=
  let next := tape.moveTo moved.1
  (next, ⟨status moved.2.1 next.earlyWarning, moved.2.2, []⟩)

def locate (tape : ItemTape) (index : Nat) : ItemTape × TapeAnswer :=
  let next := tape.moveTo (Cursor.at_ tape.cursor.items index)
  (next, ⟨if index ≤ tape.cursor.items.length then .ok
    else TapeImage.eodStatus next.earlyWarning, 0, []⟩)

def perform (tape : ItemTape) : TapeOp → ItemTape × TapeAnswer
  | .writeBlock bytes whole => tape.write [standardItem bytes whole]
  | .writeFilemarks count _ => tape.write (List.replicate count .mark)
  | .readBlock bufSize => tape.read bufSize
  | .spaceBlocks count _ =>
    tape.space TapeImage.forwardStatus (tape.cursor.forwardItems TapeItem.isMark count)
  | .spaceBlocksReverse count _ =>
    tape.space TapeImage.reverseStatus (tape.cursor.reverseItems TapeItem.isMark count)
  | .spaceFilemarks count _ sequential =>
    tape.space TapeImage.forwardStatus (tape.cursor.forwardMarks TapeItem.isMark count sequential)
  | .spaceFilemarksReverse count _ =>
    tape.space TapeImage.reverseStatus (tape.cursor.reverseMarks TapeItem.isMark count)
  | .spaceEod =>
    (tape.moveTo (Cursor.at_ tape.cursor.items tape.cursor.items.length), ⟨.ok, 0, []⟩)
  | .locate index => tape.locate index
  | .blockAddress => (tape, ⟨.ok, tape.cursor.before.length % 2 ^ 32, []⟩)
  | .rewind => (tape.moveTo (Cursor.start tape.cursor.items), ⟨.ok, 0, []⟩)
  | .erase =>
    if tape.readOnly then (tape, ⟨.error, 0, []⟩)
    else (tape.moveTo tape.cursor.truncate, ⟨.ok, 0, []⟩)

def performAll (tape : ItemTape) : List TapeOp → ItemTape × List (TapeAnswer × Nat)
  | [] => (tape, [])
  | op :: rest =>
    let done := (tape.perform op).1.performAll rest
    (done.1, ((tape.perform op).2, (tape.perform op).1.place) :: done.2)

end ItemTape

/-- The drive writes blocks of one size only. -/
def TapeItem.Standard : TapeItem → Prop
  | mark => True
  | data block => block.bytes.length = tdcBlockBytes

/-- The image holds the items of the tape, an end marker follows them, and the image stands at the
cursor. -/
structure Represents (ti : TapeImage) (tape : ItemTape) : Prop where
  standing : ti.AtCursor tape.cursor
  size : tape.size = ti.size
  readOnly : tape.readOnly = ti.readOnly
  blocks : tapeImageBlockBytes ∣ ti.size
  standard : ∀ item ∈ tape.cursor.items, item.Standard
  ended : ti.EndFits tape.cursor.items

section Extents

theorem TapeItem.bytes_length (item : TapeItem) : item.bytes.length = item.extent := by
  cases item with
  | mark => rfl
  | data block => exact TapeItem.data_length block

theorem serialize_length (items : List TapeItem) :
    (serialize items).length = (items.map TapeItem.extent).sum := by
  induction items with
  | nil => rfl
  | cons item rest ih =>
    rw [serialize_cons, List.length_append, ih, item.bytes_length,
      List.map_cons, List.sum_cons]

theorem TapeItem.Standard.extent {item : TapeItem} (standard : item.Standard) :
    4 ∣ item.extent := by
  cases item with
  | mark => exact Nat.dvd_refl 4
  | data block =>
    have length : block.bytes.length = 512 := standard
    rw [TapeItem.extent, length]
    decide

/-- The items of the drive stand at multiples of four bytes. -/
theorem serialize_standard {items : List TapeItem} (standard : ∀ item ∈ items, item.Standard) :
    4 ∣ (serialize items).length := by
  rw [serialize_length]
  apply List.dvd_sum
  intro extent member
  obtain ⟨item, within, rfl⟩ := List.mem_map.mp member
  exact (standard item within).extent

end Extents

namespace Represents

variable {ti next : TapeImage} {tape : ItemTape} {cursor : Cursor TapeItem}

theorem place (represents : Represents ti tape) : tape.place = ti.pos := by
  rw [represents.standing.position, serialize_length, List.map_reverse, List.sum_reverse]
  rfl

theorem earlyWarning (represents : Represents ti tape) : tape.earlyWarning = ti.isEw := by
  rw [ItemTape.earlyWarning, TapeImage.isEw, represents.place, represents.size]

/-- A motion over the items keeps them. -/
theorem moved (represents : Represents ti tape) (same : SameReel ti next)
    (standing : next.AtCursor cursor) (items : cursor.items = tape.cursor.items) :
    Represents next (tape.moveTo cursor) where
  standing := standing
  size := represents.size.trans same.size.symm
  readOnly := represents.readOnly.trans same.readOnly.symm
  blocks := same.size ▸ represents.blocks
  standard := fun item member => represents.standard item (items ▸ member)
  ended := by
    have ended := represents.ended
    rw [TapeImage.EndFits, ← same.size] at ended
    rw [TapeImage.EndFits]
    change (serialize cursor.items).length + 4 ≤ _
    rw [items]
    exact ended

/-- The tape may be read without a motion. -/
theorem kept (represents : Represents ti tape) (kept : Kept ti next) : Represents next tape :=
  represents.moved ⟨kept.size, kept.readOnly, kept.diskInfo⟩ (TapeImage.At.kept represents.standing kept) rfl

theorem spaced (represents : Represents ti tape) {status : Cursor.Stop → Bool → TapeStatus}
    {run : TapeImage × TapeStatus × Nat} {items : Cursor TapeItem × Cursor.Stop × Nat}
    (follows : TapeImage.Follows ti run items status) (same : items.1.items = tape.cursor.items) :
    Represents run.1 (tape.space status items).1 ∧
      (⟨run.2.1, run.2.2, []⟩ : TapeAnswer) = (tape.space status items).2 := by
  have moved := represents.moved follows.toSameReel follows.standing same
  refine ⟨moved, ?_⟩
  have answer := follows.status moved.ended
  rw [← moved.earlyWarning] at answer
  rw [answer, follows.done]
  rfl

theorem wrote (represents : Represents ti tape) {items : List TapeItem}
    {written : TapeImage × TapeStatus} (nonempty : items ≠ [])
    (standard : ∀ item ∈ items, item.Standard)
    (protected_ : ti.readOnly = true → written = (ti, .error))
    (full : ti.readOnly = false → ti.size ≤ ti.pos + (serialize items).length →
      written = (ti, .eom))
    (attempt : ti.readOnly = false → ti.pos + (serialize items).length < ti.size →
      Attempt ti written (serialize items)) :
    Represents written.1 (tape.write items).1 ∧
      (⟨written.2, 0, []⟩ : TapeAnswer) = (tape.write items).2 := by
  rw [ItemTape.write, represents.readOnly, represents.size, represents.place, ← serialize_length]
  split_ifs with sealed_ room
  · rw [protected_ sealed_]
    exact ⟨represents, rfl⟩
  · rw [full (Bool.eq_false_iff.mpr sealed_) room]
    exact ⟨represents, rfl⟩
  · obtain ⟨sound, -, recorded, works⟩ :=
      attempt (Bool.eq_false_iff.mpr sealed_) (Nat.lt_of_not_le room)
    have inside := Nat.lt_of_not_le room
    obtain ⟨record, status⟩ := recorded (works represents.standing.working)
    have standing := record.at_ represents.standing
      (represents.standing.position ▸ Nat.le_of_lt inside)
    have behind : tape.cursor.writeAll items = ⟨items.reverse ++ tape.cursor.before, []⟩ := by
      rw [← tape.cursor.before_writeAll, ← Cursor.after_writeAll nonempty]
    have every : ∀ item ∈ tape.cursor.before.reverse ++ items, item.Standard := by
      intro item member
      rcases List.mem_append.mp member with old | new
      · exact represents.standard item (List.mem_append_left _ old)
      · exact standard item new
    have next : Represents written.1 (tape.moveTo ⟨items.reverse ++ tape.cursor.before, []⟩) := by
      have whole : (items.reverse ++ tape.cursor.before).reverse ++ [] =
          tape.cursor.before.reverse ++ items := by
        rw [List.reverse_append, List.reverse_reverse, List.append_nil]
      refine ⟨?_, represents.size.trans sound.size.symm,
        represents.readOnly.trans sound.readOnly.symm, sound.size ▸ represents.blocks, ?_, ?_⟩
      · change written.1.At (items.reverse ++ tape.cursor.before).reverse []
        rw [List.reverse_append, List.reverse_reverse]
        exact standing
      · change ∀ item ∈ (items.reverse ++ tape.cursor.before).reverse ++ [], item.Standard
        rw [whole]
        exact every
      · change (serialize ((items.reverse ++ tape.cursor.before).reverse ++ [])).length + 4 ≤ _
        obtain ⟨units, extent⟩ := serialize_standard every
        obtain ⟨count, blocks⟩ := represents.blocks
        have size : tapeImageBlockBytes = 1024 := rfl
        rw [size] at blocks
        have place := represents.standing.position
        rw [whole, sound.size]
        rw [serialize_append, List.length_append] at extent ⊢
        omega
    rw [behind]
    refine ⟨next, ?_⟩
    rw [status, TapeImage.writtenStatus, ← next.earlyWarning]

theorem read (represents : Represents ti tape) (bufSize : Nat) :
    Represents (ti.readBlock bufSize).1 (tape.read bufSize).1 ∧
      (⟨(ti.readBlock bufSize).2.1, 0, (ti.readBlock bufSize).2.2⟩ : TapeAnswer) =
        (tape.read bufSize).2 := by
  have standing := represents.standing
  have ended := represents.ended
  rcases cursor : tape.cursor with ⟨before, after⟩
  rw [cursor] at standing ended
  have items : tape.cursor.items = before.reverse ++ after := congrArg Cursor.items cursor
  have behind : tape.cursor.before = before := congrArg Cursor.before cursor
  have ahead : tape.cursor.after = after := congrArg Cursor.after cursor
  rw [ItemTape.read, ahead, behind]
  cases after with
  | nil =>
    obtain ⟨moved, same, -, status⟩ := @TapeImage.At.readBlock_end _ _ bufSize standing
    have fits : ti.EndFits before.reverse := by
      have whole : (⟨before, []⟩ : Cursor TapeItem).items = before.reverse := List.append_nil _
      rwa [whole] at ended
    have next := represents.moved same moved items.symm
    have same_ : tape.moveTo ⟨before, []⟩ = tape := by
      rw [← cursor]
      rfl
    rw [same_] at next
    rw [status fits, ← next.earlyWarning]
    exact ⟨next, rfl⟩
  | cons item rest =>
    have shifted : (⟨item :: before, rest⟩ : Cursor TapeItem).items = tape.cursor.items := by
      rw [items]
      change (item :: before).reverse ++ rest = _
      rw [List.reverse_cons, List.append_assoc, List.singleton_append]
    cases item with
    | mark =>
      obtain ⟨moved, same, status⟩ :=
        @TapeImage.At.readBlock_mark _ _ _ bufSize standing
      rw [← List.reverse_cons] at moved
      have next : Represents _ (tape.moveTo ⟨.mark :: before, rest⟩) :=
        represents.moved same moved shifted
      rw [status, ← next.earlyWarning]
      exact ⟨next, rfl⟩
    | data block =>
      dsimp only
      split_ifs with long
      · obtain ⟨moved, same, status⟩ := TapeImage.At.readBlock_long standing long
        have next := represents.moved same moved items.symm
        have same_ : tape.moveTo ⟨before, .data block :: rest⟩ = tape := by
          rw [← cursor]
          rfl
        rw [same_] at next
        rw [status]
        exact ⟨next, rfl⟩
      · obtain ⟨moved, same, status⟩ :=
          TapeImage.At.readBlock_data standing (Nat.le_of_not_lt long)
        rw [← List.reverse_cons] at moved
        rw [status]
        exact ⟨represents.moved same moved shifted, rfl⟩

theorem atIndex (represents : Represents ti tape) {index : Nat} (same : SameReel ti next)
    (standing : next.At (tape.cursor.items.take index) (tape.cursor.items.drop index)) :
    Represents next (tape.moveTo (Cursor.at_ tape.cursor.items index)) := by
  refine represents.moved same ?_ (Cursor.items_at _ _)
  change next.At (tape.cursor.items.take index).reverse.reverse _
  rwa [List.reverse_reverse]

theorem located (represents : Represents ti tape) (index : Nat) :
    Represents (ti.locate index).1 (tape.locate index).1 ∧
      (⟨(ti.locate index).2, 0, []⟩ : TapeAnswer) = (tape.locate index).2 := by
  obtain ⟨moved, same, status⟩ := represents.standing.toHolds.locate index
  have next := represents.atIndex same moved
  refine ⟨next, ?_⟩
  rw [status represents.ended, ← next.earlyWarning]
  rfl

theorem erased (represents : Represents ti tape) :
    Represents ti.erase.1 (tape.perform .erase).1 ∧
      (⟨ti.erase.2, 0, []⟩ : TapeAnswer) = (tape.perform .erase).2 := by
  rw [ItemTape.perform, represents.readOnly]
  split_ifs with sealed_
  · rw [TapeImage.erase, if_pos sealed_]
    exact ⟨represents, rfl⟩
  · have standing := represents.standing
    have place := standing.position
    have fits := represents.ended
    have before : (serialize tape.cursor.items).length =
        (serialize tape.cursor.before.reverse).length + (serialize tape.cursor.after).length := by
      rw [Cursor.items, serialize_append, List.length_append]
    rw [TapeImage.EndFits, before] at fits
    obtain ⟨same, sound, -, -, works⟩ := TapeImage.erase_spec standing.coherent
      (Bool.eq_false_iff.mpr sealed_) (by omega)
    refine ⟨⟨standing.erased (Bool.eq_false_iff.mpr sealed_), ?_, ?_, ?_, ?_, ?_⟩, ?_⟩
    · exact represents.size.trans same.size.symm
    · exact represents.readOnly.trans same.readOnly.symm
    · exact same.size ▸ represents.blocks
    · intro item member
      refine represents.standard item (List.mem_append_left _ ?_)
      exact (List.append_nil tape.cursor.before.reverse) ▸ member
    · change (serialize (tape.cursor.before.reverse ++ [])).length + 4 ≤ _
      rw [List.append_nil, same.size]
      omega
    · rw [works standing.working]

/-- A call answers as the tape of items does. -/
theorem perform (represents : Represents ti tape) (op : TapeOp) :
    Represents (ti.perform op).1 (tape.perform op).1 ∧ (ti.perform op).2 = (tape.perform op).2 := by
  have standing := represents.standing
  cases op with
  | writeBlock bytes whole =>
    have length : (serialize [standardItem bytes whole]).length =
        4 + bytes.length + bytes.length % 2 + 4 := by
      rw [serialize_length, List.map_cons, List.map_nil, List.sum_singleton]
      rfl
    have same : (TapeImage.recordPieces bytes).flatten =
        serialize [standardItem bytes whole] := (List.append_nil _).symm
    refine represents.wrote (List.cons_ne_nil _ _) ?_ ?_ ?_ ?_
    · intro item member
      rw [List.mem_singleton.mp member]
      exact whole
    · intro sealed_
      rw [TapeImage.writeBlock, if_pos sealed_]
    · intro writable full
      rw [TapeImage.writeBlock, if_neg (by rw [writable]; exact Bool.false_ne_true),
        if_pos (length ▸ full)]
    · intro writable room
      exact same ▸ TapeImage.writeBlock_spec standing.coherent writable (length ▸ room)
  | writeFilemarks count positive =>
    have length : (serialize (List.replicate count .mark)).length = count * 4 := by
      rw [serialize_length, List.map_replicate, List.sum_replicate]
      rfl
    refine represents.wrote ?_ ?_ ?_ ?_ ?_
    · intro empty
      rw [List.replicate_eq_nil_iff] at empty
      exact absurd empty (Nat.ne_of_gt positive)
    · intro item member
      rw [List.eq_of_mem_replicate member]
      exact trivial
    · intro sealed_
      rw [TapeImage.writeFilemarks, if_pos sealed_]
    · intro writable full
      rw [TapeImage.writeFilemarks, if_neg (by rw [writable]; exact Bool.false_ne_true),
        if_pos (length ▸ full)]
    · intro writable room
      exact TapeImage.writeFilemarks_spec standing.coherent writable (length ▸ room)
  | readBlock bufSize => exact represents.read bufSize
  | spaceBlocks count _ =>
    exact represents.spaced (TapeImage.forward_blocks standing) (Cursor.spaceItems_items _ _ _)
  | spaceBlocksReverse count _ =>
    exact represents.spaced (TapeImage.backward_blocks standing) (Cursor.reverseItems_items _)
  | spaceFilemarks count _ sequential =>
    exact represents.spaced (TapeImage.forward_marks standing) (Cursor.spaceMarks_items _ _ _)
  | spaceFilemarksReverse count _ =>
    exact represents.spaced (TapeImage.backward_marks standing) (Cursor.reverseMarks_items _)
  | spaceEod =>
    obtain ⟨moved, same, status⟩ := TapeImage.At.spaceEod standing
    refine ⟨represents.atIndex same ?_, ?_⟩
    · rw [List.take_length, List.drop_length]
      exact moved
    · rw [TapeImage.perform, status represents.ended]
      rfl
  | locate index => exact represents.located index
  | blockAddress =>
    obtain ⟨kept, counted⟩ := TapeImage.At.blockAddress standing
    refine ⟨represents.kept kept, ?_⟩
    rw [TapeImage.perform, counted, List.length_reverse]
    rfl
  | rewind =>
    have whole : ti.Holds ([] ++ tape.cursor.items) := standing.toHolds
    have start : (ti.moveTo 0).At [] tape.cursor.items := whole.moveTo rfl
    exact ⟨represents.moved ⟨rfl, rfl, rfl⟩ start rfl, rfl⟩
  | erase => exact represents.erased

end Represents

end Nd100x.Scsi
