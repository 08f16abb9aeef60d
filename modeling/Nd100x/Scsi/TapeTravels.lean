import Nd100x.Scsi.TapeRefinement

namespace Nd100x.Scsi

open Nd100x.Library

/-- A call returns these statuses in two variants, one of them within the early warning. -/
def TapeOp.variants : TapeOp → TapeStatus → Bool
  | .writeBlock _ _, .ok | .writeBlock _ _, .ew => true
  | .writeFilemarks _ _, .ok | .writeFilemarks _ _, .ew => true
  | _, .filemark | _, .filemarkEw | _, .eod | _, .eodEw => true
  | _, _ => false

def TapeStatus.warned : TapeStatus → Bool
  | ew | filemarkEw | eodEw => true
  | _ => false

section Runs

variable {ti : TapeImage} {tape : ItemTape}

/-- Every run answers as the tape of items does. -/
theorem Represents.performAll (represents : Represents ti tape) (ops : List TapeOp) :
    Represents (ti.performAll ops).1 (tape.performAll ops).1 ∧
      (ti.performAll ops).2 = (tape.performAll ops).2 := by
  induction ops generalizing ti tape with
  | nil => exact ⟨represents, rfl⟩
  | cons op rest ih =>
    obtain ⟨next, answer⟩ := represents.perform op
    obtain ⟨last, answers⟩ := ih next
    refine ⟨last, ?_⟩
    rw [TapeImage.performAll, ItemTape.performAll, answer, answers, next.place]

/-- The address of a located block is its index. -/
theorem Represents.locate_address (represents : Represents ti tape) {index : Nat}
    (inside : index ≤ tape.cursor.items.length) (short : index < 2 ^ 32) :
    (ti.locate index).2 = .ok ∧ (ti.locate index).1.blockAddress.2 = (.ok, index) := by
  obtain ⟨moved, -, status⟩ := represents.standing.toHolds.locate index
  obtain ⟨-, counted⟩ := moved.blockAddress
  refine ⟨?_, ?_⟩
  · rw [status represents.ended]
    exact if_pos inside
  · rw [counted]
    change (TapeStatus.ok, (tape.cursor.items.take index).length % 2 ^ 32) = _
    rw [List.length_take_of_le inside, Nat.mod_eq_of_lt short]

/-- Enough was counted when the status of a motion is plain. -/
theorem space_ok {status : Cursor.Stop → Bool → TapeStatus}
    (stops : ∀ stop earlyWarning, status stop earlyWarning = .ok → stop = .counted)
    {moved : Cursor TapeItem × Cursor.Stop × Nat}
    (good : (tape.space status moved).2.status = .ok) :
    moved = (moved.1, .counted, moved.2.2) := by
  rw [← stops _ _ good]

theorem forwardStatus_ok {stop : Cursor.Stop} {earlyWarning : Bool}
    (good : TapeImage.forwardStatus stop earlyWarning = .ok) : stop = .counted := by
  cases stop with
  | counted => rfl
  | mark => cases earlyWarning <;> exact absurd good (by decide)
  | ended => cases earlyWarning <;> exact absurd good (by decide)

/-- A motion back from the end of a counted motion. -/
theorem space_back {forward back : Cursor TapeItem × Cursor.Stop × Nat}
    {cursor : Cursor TapeItem} {count : Nat} (returned : back = (cursor, .counted, count)) :
    (tape.space TapeImage.forwardStatus forward).1.space TapeImage.reverseStatus back =
      (tape.moveTo cursor, ⟨.ok, count, []⟩) := by
  rw [returned]
  rfl

/-- Blocks spaced forward and in reverse lead back to the start. -/
theorem Represents.blocks_return (represents : Represents ti tape) {count : Nat}
    (positive : 0 < count) (good : (ti.spaceBlocks count).2.1 = .ok) :
    ((ti.spaceBlocks count).1.spaceBlocksReverse count).2 = (.ok, count) ∧
      ((ti.spaceBlocks count).1.spaceBlocksReverse count).1.pos = ti.pos := by
  obtain ⟨moved, answer⟩ := represents.perform (.spaceBlocks count positive)
  have status : (tape.perform (.spaceBlocks count positive)).2.status = .ok :=
    (congrArg TapeAnswer.status answer).symm.trans good
  have enough := space_ok (fun _ _ => forwardStatus_ok) status
  have total := (Cursor.spaceItems_counted enough).1
  have back := Cursor.forwardItems_reverse enough
  rw [total] at back
  obtain ⟨returned, reply⟩ := moved.perform (.spaceBlocksReverse count positive)
  have whole : (tape.perform (.spaceBlocks count positive)).1.perform
      (.spaceBlocksReverse count positive) = (tape, ⟨.ok, count, []⟩) := space_back back
  rw [whole] at returned reply
  refine ⟨?_, returned.place.symm.trans represents.place⟩
  exact Prod.ext (congrArg TapeAnswer.status reply) (congrArg TapeAnswer.count reply)

/-- Marks spaced forward and in reverse lead to the first of the marks. -/
theorem Represents.marks_return (represents : Represents ti tape) {count : Nat}
    (positive : 0 < count) (good : (ti.spaceFilemarks count false).2.1 = .ok) :
    ((ti.spaceFilemarks count false).1.spaceFilemarksReverse count).2 = (.ok, count) ∧
      Represents ((ti.spaceFilemarks count false).1.spaceFilemarksReverse count).1
        (tape.moveTo (Cursor.toMark TapeItem.isMark tape.cursor)) := by
  obtain ⟨moved, answer⟩ := represents.perform (.spaceFilemarks count positive false)
  have status : (tape.perform (.spaceFilemarks count positive false)).2.status = .ok :=
    (congrArg TapeAnswer.status answer).symm.trans good
  have enough := space_ok (fun _ _ => forwardStatus_ok) status
  have total := (Cursor.spaceMarks_counted enough).1
  have back := Cursor.forwardMarks_reverse enough
  rw [total] at back
  obtain ⟨returned, reply⟩ := moved.perform (.spaceFilemarksReverse count positive)
  have whole : (tape.perform (.spaceFilemarks count positive false)).1.perform
      (.spaceFilemarksReverse count positive) =
        (tape.moveTo (Cursor.toMark TapeItem.isMark tape.cursor), ⟨.ok, count, []⟩) :=
    space_back back
  rw [whole] at returned reply
  refine ⟨?_, returned⟩
  exact Prod.ext (congrArg TapeAnswer.status reply) (congrArg TapeAnswer.count reply)

/-- The next mark stands at the cursor when no item lies before it. -/
theorem toMark_place {ahead : TapeItem} {rest : List TapeItem}
    (next : tape.cursor.after = ahead :: rest) :
    (tape.moveTo (Cursor.toMark TapeItem.isMark tape.cursor)).place = tape.place ↔
      ahead.isMark = true := by
  rcases tape with ⟨⟨before, after⟩, size, readOnly⟩
  change after = _ at next
  subst next
  cases ahead with
  | mark => simp [ItemTape.place, ItemTape.moveTo, Cursor.toMark]
  | data block =>
    have more : 0 < (TapeItem.data block).extent := by
      rw [TapeItem.extent]
      omega
    simp only [ItemTape.place, ItemTape.moveTo, Cursor.toMark, TapeItem.isMark_data, Bool.not_false,
      List.takeWhile_cons_of_pos, List.reverse_cons, List.map_append, List.sum_append,
      List.map_cons, List.map_nil, List.sum_singleton]
    constructor
    · intro same
      omega
    · exact fun mark => Bool.noConfusion mark

/-- The status of a call tells whether the tape is within its early warning. -/
def WarnedAs (op : TapeOp) (status : TapeStatus) (earlyWarning : Bool) : Prop :=
  (op.variants status = true → status.warned = earlyWarning) ∧
    (status.warned = true → op.variants status = true)

theorem WarnedAs.plain {op : TapeOp} {status : TapeStatus} {earlyWarning : Bool}
    (single : op.variants status = false) (quiet : status.warned = false) :
    WarnedAs op status earlyWarning :=
  ⟨fun double => Bool.noConfusion (single.symm.trans double),
    fun warned => Bool.noConfusion (quiet.symm.trans warned)⟩

theorem WarnedAs.write {op : TapeOp} (blank : op.variants .error = false)
    (full : op.variants .eom = false)
    (near : op.variants .ew = true) (items : List TapeItem) :
    WarnedAs op (tape.write items).2.status (tape.write items).1.earlyWarning := by
  rw [ItemTape.write]
  split_ifs
  · exact .plain blank rfl
  · exact .plain full rfl
  · dsimp only
    rcases (tape.moveTo (tape.cursor.writeAll items)).earlyWarning with _ | _
    · exact ⟨fun _ => rfl, fun warned => Bool.noConfusion warned⟩
    · exact ⟨fun _ => rfl, fun _ => near⟩

theorem WarnedAs.space {op : TapeOp} (good : op.variants .ok = false)
    (start : op.variants .bom = false)
    (marks : ∀ earlyWarning, op.variants (TapeImage.fileMarkStatus earlyWarning) = true)
    (ends : ∀ earlyWarning, op.variants (TapeImage.eodStatus earlyWarning) = true)
    (earlyWarning : Bool) (stop : Cursor.Stop) :
    WarnedAs op (TapeImage.forwardStatus stop earlyWarning) earlyWarning ∧
      WarnedAs op (TapeImage.reverseStatus stop earlyWarning) earlyWarning := by
  have mark : WarnedAs op (TapeImage.fileMarkStatus earlyWarning) earlyWarning :=
    ⟨fun _ => by cases earlyWarning <;> rfl, fun _ => marks earlyWarning⟩
  cases stop with
  | counted => exact ⟨.plain good rfl, .plain good rfl⟩
  | mark => exact ⟨mark, mark⟩
  | ended =>
    exact ⟨⟨fun _ => by cases earlyWarning <;> rfl, fun _ => ends earlyWarning⟩, .plain start rfl⟩

theorem WarnedAs.read {bufSize : Nat} :
    WarnedAs (.readBlock bufSize) (tape.read bufSize).2.status
      (tape.read bufSize).1.earlyWarning := by
  rw [ItemTape.read]
  rcases tape.cursor.after with _ | ⟨_ | block, rest⟩
  · dsimp only
    rcases tape.earlyWarning with _ | _
    · exact ⟨fun _ => rfl, fun _ => rfl⟩
    · exact ⟨fun _ => rfl, fun _ => rfl⟩
  · dsimp only
    rcases (tape.moveTo ⟨.mark :: tape.cursor.before, rest⟩).earlyWarning with _ | _
    · exact ⟨fun _ => rfl, fun _ => rfl⟩
    · exact ⟨fun _ => rfl, fun _ => rfl⟩
  · dsimp only
    split_ifs
    · exact .plain rfl rfl
    · exact .plain rfl rfl

theorem WarnedAs.locate {index : Nat} :
    WarnedAs (.locate index) (tape.locate index).2.status
      (tape.locate index).1.earlyWarning := by
  rw [ItemTape.locate]
  dsimp only
  split_ifs
  · exact .plain rfl rfl
  · rcases (tape.moveTo (Cursor.at_ tape.cursor.items index)).earlyWarning with _ | _
    · exact ⟨fun _ => rfl, fun _ => rfl⟩
    · exact ⟨fun _ => rfl, fun _ => rfl⟩

theorem ItemTape.warned (tape : ItemTape) (op : TapeOp) :
    WarnedAs op (tape.perform op).2.status (tape.perform op).1.earlyWarning := by
  cases op with
  | writeBlock bytes whole => exact .write rfl rfl rfl _
  | writeFilemarks count positive => exact .write rfl rfl rfl _
  | readBlock bufSize => exact .read
  | spaceBlocks count positive =>
    exact (WarnedAs.space rfl rfl (by rintro (_ | _) <;> rfl) (by rintro (_ | _) <;> rfl) _ _).1
  | spaceBlocksReverse count positive =>
    exact (WarnedAs.space rfl rfl (by rintro (_ | _) <;> rfl) (by rintro (_ | _) <;> rfl) _ _).2
  | spaceFilemarks count positive sequential =>
    exact (WarnedAs.space rfl rfl (by rintro (_ | _) <;> rfl) (by rintro (_ | _) <;> rfl) _ _).1
  | spaceFilemarksReverse count positive =>
    exact (WarnedAs.space rfl rfl (by rintro (_ | _) <;> rfl) (by rintro (_ | _) <;> rfl) _ _).2
  | spaceEod => exact .plain rfl rfl
  | locate index => exact .locate
  | blockAddress => exact .plain rfl rfl
  | rewind => exact .plain rfl rfl
  | erase =>
    rw [ItemTape.perform]
    split_ifs
    · exact .plain rfl rfl
    · exact .plain rfl rfl

end Runs

/-- A mounted image serialises its items, and an end marker follows them. Its blocks are reached by
numbers of thirty-two bits. -/
structure Serialises (owner : BlockCallbacks) (items : List TapeItem) (bytes : Nat)
    (writeProtected : Bool) : Prop where
  info : owner.diskInfo = some (bytes, writeProtected)
  addressed : bytes ≤ 2 ^ 42
  reads : ∀ call, owner.readFails call = false
  writes : ∀ call, owner.writeFails call = false
  faithful : ∀ call, owner.serves call = none
  standard : ∀ item ∈ items, item.Standard
  stored : range owner.image 0 (serialize items).length = serialize items
  ended : simhIsEodForward (wordOf (range owner.image (serialize items).length 4)) = true
  inside : (serialize items).length + 4 ≤ bytes - bytes % tapeImageBlockBytes

/-- An image that was just opened stands before its first item. -/
theorem openImage_represents {owner : BlockCallbacks} {items : List TapeItem} {bytes : Nat}
    {writeProtected : Bool} (serialises : Serialises owner items bytes writeProtected) :
    (TapeImage.openImage owner).2 = true ∧ Represents (TapeImage.openImage owner).1
      ⟨Cursor.start items, bytes - bytes % tapeImageBlockBytes, writeProtected⟩ := by
  have size : tapeImageBlockBytes = 1024 := rfl
  have bound := serialises.addressed
  have inside := serialises.inside
  have room : ¬ bytes - bytes % tapeImageBlockBytes < tapeImageBlockBytes := by
    rw [size] at inside ⊢
    omega
  simp only [TapeImage.openImage, serialises.info, if_neg room]
  have content : TapeImage.content { (TapeImage.openImage owner).1 with
      owner := owner
      cacheBlock := none } = owner.image := by
    funext place
    simp [TapeImage.content]
  refine ⟨trivial, ⟨⟨⟨⟨serialises.faithful, ?_, ?_, ?_⟩, ⟨serialises.reads, serialises.writes⟩,
    ?_, ?_, ?_⟩, rfl⟩, rfl, rfl, ?_, serialises.standard, inside⟩⟩
  · exact Nat.le_trans (Nat.sub_le _ _) bound
  · exact fun block cached => absurd cached (Option.some_ne_none block).symm
  · exact fun _ => content
  · exact Nat.le_trans (Nat.le_add_right _ 4) inside
  · exact serialises.stored
  · exact fun _ => serialises.ended
  · exact Nat.dvd_sub_mod bytes

/-- The travels of an image lead where those of its items lead. -/
structure Travels (ti : TapeImage) (tape : ItemTape) : Prop where
  address : ∀ index, index ≤ tape.cursor.items.length → index < 2 ^ 32 →
    (ti.locate index).2 = .ok ∧ (ti.locate index).1.blockAddress.2 = (.ok, index)
  blocks : ∀ count, 0 < count → (ti.spaceBlocks count).2.1 = .ok →
    ((ti.spaceBlocks count).1.spaceBlocksReverse count).2 = (.ok, count) ∧
      ((ti.spaceBlocks count).1.spaceBlocksReverse count).1.pos = ti.pos
  marks : ∀ count, 0 < count → (ti.spaceFilemarks count false).2.1 = .ok →
    ((ti.spaceFilemarks count false).1.spaceFilemarksReverse count).2 = (.ok, count) ∧
      Represents ((ti.spaceFilemarks count false).1.spaceFilemarksReverse count).1
        (tape.moveTo (Cursor.toMark TapeItem.isMark tape.cursor)) ∧
      (((ti.spaceFilemarks count false).1.spaceFilemarksReverse count).1.pos = ti.pos ↔
        tape.cursor.after.head? = some .mark)
  warning : ∀ op, WarnedAs op (ti.perform op).2.status
    (decide ((ti.perform op).1.size ≤ (ti.perform op).1.pos + tapeImageEarlyWarningBytes))

theorem Represents.travels {ti : TapeImage} {tape : ItemTape} (represents : Represents ti tape) :
    Travels ti tape where
  address := fun _ inside short => represents.locate_address inside short
  blocks := fun _ positive good => represents.blocks_return positive good
  marks := by
    intro count positive good
    obtain ⟨answer, returned⟩ := represents.marks_return positive good
    refine ⟨answer, returned, ?_⟩
    rw [← returned.place, ← represents.place]
    obtain ⟨-, reply⟩ := represents.perform (.spaceFilemarks count positive false)
    rcases ahead : tape.cursor.after with _ | ⟨item, rest⟩
    · have status : (tape.perform (.spaceFilemarks count positive false)).2.status = .ok :=
        (congrArg TapeAnswer.status reply).symm.trans good
      have enough := space_ok (fun _ _ => forwardStatus_ok) status
      rw [Cursor.forwardMarks, ahead] at enough
      cases enough
    · rw [toMark_place ahead]
      cases item with
      | mark => simp
      | data block => simp
  warning := by
    intro op
    obtain ⟨next, answer⟩ := represents.perform op
    have warned := tape.warned op
    rw [next.earlyWarning, ← answer] at warned
    exact warned

/-- An image refines the tape of its items over every run. -/
theorem image_refines_itemTape {ti : TapeImage} {tape : ItemTape} (represents : Represents ti tape)
    (ops : List TapeOp) :
    (ti.performAll ops).2 = (tape.performAll ops).2 ∧
      Represents (ti.performAll ops).1 (tape.performAll ops).1 ∧
      Travels (ti.performAll ops).1 (tape.performAll ops).1 := by
  obtain ⟨last, answers⟩ := represents.performAll ops
  exact ⟨answers, last, last.travels⟩

theorem standardItem_extent {bytes : List Byte} (whole : bytes.length = tdcBlockBytes) :
    (standardItem bytes whole).extent = 520 := by
  rw [standardItem, TapeItem.extent, whole]
  rfl

/-- The items are recorded on an image of erased blocks. -/
def recordedOwner (items : List TapeItem) (bytes : Nat) : BlockCallbacks where
  image := putRange (fun _ => 0xFF) 0 (serialize items)
  readFails := fun _ => false
  writeFails := fun _ => false
  reads := 0
  writes := 0
  diskInfo := some (bytes, false)

theorem recordedOwner_serialises {items : List TapeItem} {bytes : Nat} (addressed : bytes ≤ 2 ^ 42)
    (standard : ∀ item ∈ items, item.Standard)
    (inside : (serialize items).length + 4 ≤ bytes - bytes % tapeImageBlockBytes) :
    Serialises (recordedOwner items bytes) items bytes false where
  info := rfl
  addressed := addressed
  reads := fun _ => rfl
  writes := fun _ => rfl
  faithful := fun _ => rfl
  standard := standard
  stored := by
    change range (putRange (fun _ => 0xFF) 0 (serialize items)) 0 _ = _
    rw [range_putRange]
  ended := by
    have behind : range (recordedOwner items bytes).image (serialize items).length 4 =
        range (fun _ => (0xFF : Byte)) (serialize items).length 4 :=
      range_putRange_apart (.inr (Nat.le_of_eq (Nat.zero_add _)))
    have blank : range (fun _ => (0xFF : Byte)) (serialize items).length 4 = wordBytes simhEom := rfl
    rw [behind, blank, wordOf_wordBytes]
    decide
  inside := inside

/-- One block lies before the mark of this tape. -/
def markedItems : List TapeItem :=
  [standardItem (List.replicate tdcBlockBytes 0) List.length_replicate, .mark]

theorem markedItems_serialises : Serialises (recordedOwner markedItems 1024) markedItems 1024 false := by
  have length : (serialize markedItems).length = 524 := by
    rw [serialize_length, markedItems, List.map_cons, standardItem_extent]
    rfl
  refine recordedOwner_serialises (by decide) ?_ (by rw [length]; decide)
  intro item member
  rcases List.mem_cons.mp member with data | mark
  · rw [data, standardItem, TapeItem.Standard, List.length_replicate]
  · rw [List.mem_singleton.mp mark]
    exact trivial

theorem image_refines_itemTape_marked :
    ((TapeImage.openImage (recordedOwner markedItems 1024)).1.performAll [.locate 2, .erase]).2 =
        ((⟨Cursor.start markedItems, 1024, false⟩ : ItemTape).performAll [.locate 2, .erase]).2 :=
  (image_refines_itemTape (openImage_represents markedItems_serialises).2 [.locate 2, .erase]).1

/-- The motion back over a mark ends before it, while the motion forward started at the block. -/
theorem marked_not_returned :
    Represents (TapeImage.openImage (recordedOwner markedItems 1024)).1 ⟨Cursor.start markedItems, 1024, false⟩ ∧
      ((TapeImage.openImage (recordedOwner markedItems 1024)).1.spaceFilemarks 1 false).2 = (.ok, 1) ∧
      (((TapeImage.openImage (recordedOwner markedItems 1024)).1.spaceFilemarks 1 false).1.spaceFilemarksReverse 1).2 =
        (.ok, 1) ∧
      (((TapeImage.openImage (recordedOwner markedItems 1024)).1.spaceFilemarks 1 false).1.spaceFilemarksReverse 1).1.pos ≠
        (TapeImage.openImage (recordedOwner markedItems 1024)).1.pos := by
  have represents : Represents (TapeImage.openImage (recordedOwner markedItems 1024)).1
      ⟨Cursor.start markedItems, 1024, false⟩ := (openImage_represents markedItems_serialises).2
  have reached : ((⟨Cursor.start markedItems, 1024, false⟩ : ItemTape).perform
      (.spaceFilemarks 1 Nat.one_pos false)).2 = ⟨.ok, 1, []⟩ := rfl
  obtain ⟨-, answer⟩ := represents.perform (.spaceFilemarks 1 Nat.one_pos false)
  rw [reached] at answer
  have good : ((TapeImage.openImage (recordedOwner markedItems 1024)).1.spaceFilemarks 1 false).2.1 = .ok :=
    congrArg TapeAnswer.status answer
  obtain ⟨reply, returned⟩ := represents.marks_return Nat.one_pos good
  refine ⟨represents, Prod.ext good (congrArg TapeAnswer.count answer), reply, ?_⟩
  rw [← returned.place, ← represents.place]
  intro same
  exact Bool.noConfusion ((toMark_place rfl).mp same)

end Nd100x.Scsi
