import Nd100x.Scsi.TapeContent
import Nd100x.Library.ItemCursor

namespace Nd100x.Scsi

open Nd100x.Library

/-- The length of a block has to fit its header. -/
structure TapeBlock where
  bytes : List Byte
  nonempty : bytes ≠ []
  short : bytes.length < 2 ^ 28

inductive TapeItem where
  | mark
  | data (block : TapeBlock)

namespace TapeItem

def isMark : TapeItem → Bool
  | mark => true
  | data _ => false

@[simp] theorem isMark_mark : mark.isMark = true := rfl

@[simp] theorem isMark_data (block : TapeBlock) : (data block).isMark = false := rfl

/-- This is the header and the trailer of an item. -/
def word : TapeItem → MarkerWord
  | mark => simhTapeMark
  | data block => BitVec.ofNat 32 block.bytes.length

def bytes : TapeItem → List Byte
  | mark => wordBytes simhTapeMark
  | data block => (TapeImage.recordPieces block.bytes).flatten

def marker (item : TapeItem) : Marker :=
  match item with
  | mark => .tapeMark
  | data block => .record true item.bytes.length block.bytes.length

end TapeItem

def serialize (items : List TapeItem) : List Byte := items.flatMap TapeItem.bytes

section Words

@[simp] theorem wordBytes_length (word : MarkerWord) : (wordBytes word).length = 4 := rfl

theorem wordOf_wordBytes (word : MarkerWord) : wordOf (wordBytes word) = word := by
  apply BitVec.eq_of_getLsbD_eq
  intro k inside
  change BitVec.getLsbD (w := 8 + 8 + 8 + 8) ((word >>> 24).setWidth 8 ++
    (word >>> 16).setWidth 8 ++ (word >>> 8).setWidth 8 ++ word.setWidth 8) k = word.getLsbD k
  simp only [BitVec.getLsbD_append, BitVec.getLsbD_setWidth, BitVec.getLsbD_ushiftRight]
  split_ifs <;> grind

variable {length : Nat}

theorem blockLength_ofNat (short : length < 2 ^ 28) :
    blockLength (BitVec.ofNat 32 length) = length := by
  have mask : (0x0FFFFFFF : MarkerWord).toNat = 2 ^ 28 - 1 := rfl
  rw [blockLength, BitVec.toNat_and, mask, Nat.and_two_pow_sub_one_eq_mod, BitVec.toNat_ofNat]
  omega

theorem class_ofNat (short : length < 2 ^ 28) :
    BitVec.ofNat 32 length >>> 28 = simhClassGoodData := by
  apply BitVec.eq_of_toNat_eq
  rw [BitVec.toNat_ushiftRight, BitVec.toNat_ofNat, Nat.shiftRight_eq_div_pow]
  change _ = 0
  omega

/-- The header and the trailer of a block are markers of good data. -/
theorem classify_block {endOfData : MarkerWord → Bool} {room : Nat} (positive : 0 < length)
    (short : length < 2 ^ 28) (going : endOfData (BitVec.ofNat 32 length) = false)
    (fits : 4 + length + length % 2 + 4 ≤ room) :
    classify endOfData room (BitVec.ofNat 32 length) =
      .record true (4 + length + length % 2 + 4) length := by
  have bytes : simhRecordBytes (BitVec.ofNat 32 length) = 4 + length + length % 2 + 4 := by
    rw [simhRecordBytes, blockLength_ofNat short]
  have occupied : BitVec.ofNat 32 length ≠ simhTapeMark := by
    intro same
    have value := congrArg BitVec.toNat same
    rw [BitVec.toNat_ofNat] at value
    change _ = 0 at value
    omega
  have good := class_ofNat short
  have kept : ¬ (BitVec.ofNat 32 length >>> 28 = simhClassPrivateMarker ∨
      BitVec.ofNat 32 length >>> 28 = simhClassReservedMarker) := by
    rw [good]
    decide
  rw [classify, if_neg occupied, going, if_neg Bool.false_ne_true, if_neg kept, bytes,
    if_neg (by omega), blockLength_ofNat short, good, decide_eq_true rfl]

theorem eodForward_ofNat (short : length < 2 ^ 28) :
    simhIsEodForward (BitVec.ofNat 32 length) = false := by
  have other (marker : MarkerWord) (high : 2 ^ 28 ≤ marker.toNat) :
      BitVec.ofNat 32 length ≠ marker := by
    intro same
    have value := congrArg BitVec.toNat same
    rw [BitVec.toNat_ofNat] at value
    omega
  simp only [simhIsEodForward, simhIsHalfGapForward, Bool.or_eq_false_iff, decide_eq_false_iff_not]
  exact ⟨⟨other _ (by decide), other _ (by decide)⟩, other _ (by decide)⟩

theorem eodReverse_ofNat (short : length < 2 ^ 28) :
    simhIsEodReverse (BitVec.ofNat 32 length) = false := by
  have value : (BitVec.ofNat 32 length).toNat = length := by
    rw [BitVec.toNat_ofNat]
    omega
  have other (marker : MarkerWord) (high : 2 ^ 28 ≤ marker.toNat) :
      BitVec.ofNat 32 length ≠ marker := by
    intro same
    rw [same] at value
    omega
  have below : ¬ (0xFFFF0000 : MarkerWord) ≤ BitVec.ofNat 32 length := by
    rw [BitVec.le_def, value]
    change ¬ 0xFFFF0000 ≤ length
    omega
  simp only [simhIsEodReverse, simhIsHalfGapReverse, Bool.or_eq_false_iff, decide_eq_false_iff_not]
  exact ⟨⟨other _ (by decide), fun gap => below gap.1⟩, other _ (by decide)⟩

end Words

section Bytes

theorem TapeItem.data_length (block : TapeBlock) : (TapeItem.data block).bytes.length =
    4 + block.bytes.length + block.bytes.length % 2 + 4 := by
  simp only [TapeItem.bytes, TapeImage.recordPieces, List.flatten_cons, List.flatten_nil,
    List.length_append, wordBytes_length, List.length_replicate, List.length_nil]
  omega

theorem serialize_append (first second : List TapeItem) :
    serialize (first ++ second) = serialize first ++ serialize second := List.flatMap_append

theorem serialize_cons (item : TapeItem) (rest : List TapeItem) :
    serialize (item :: rest) = item.bytes ++ serialize rest := rfl

/-- Every item starts and ends with its marker. -/
theorem TapeItem.bytes_marker (item : TapeItem) :
    (∃ back, item.bytes = wordBytes item.word ++ back) ∧
      ∃ front, item.bytes = front ++ wordBytes item.word := by
  cases item with
  | mark => exact ⟨⟨[], rfl⟩, [], rfl⟩
  | data block =>
    refine ⟨⟨_, rfl⟩, wordBytes (BitVec.ofNat 32 block.bytes.length) ++ block.bytes ++
      List.replicate (block.bytes.length % 2) 0, ?_⟩
    simp only [TapeItem.bytes, TapeImage.recordPieces, List.flatten_cons, List.flatten_nil,
      List.append_nil, List.append_assoc, TapeItem.word]

theorem TapeItem.bytes_positive (item : TapeItem) : 4 ≤ item.bytes.length := by
  obtain ⟨⟨back, bytes⟩, -⟩ := item.bytes_marker
  rw [bytes, List.length_append, wordBytes_length]
  exact Nat.le_add_right 4 _

theorem TapeItem.classify_forward (item : TapeItem) {room : Nat} (fits : item.bytes.length ≤ room) :
    classify simhIsEodForward room item.word = item.marker := by
  cases item with
  | mark => rw [TapeItem.word, classify, if_pos rfl, TapeItem.marker]
  | data block =>
    rw [TapeItem.data_length] at fits
    rw [TapeItem.word, TapeItem.marker, TapeItem.data_length]
    exact classify_block (List.length_pos_of_ne_nil block.nonempty) block.short
      (eodForward_ofNat block.short) fits

theorem TapeItem.classify_reverse (item : TapeItem) {room : Nat} (fits : item.bytes.length ≤ room) :
    classify simhIsEodReverse room item.word = item.marker := by
  cases item with
  | mark => rw [TapeItem.word, classify, if_pos rfl, TapeItem.marker]
  | data block =>
    rw [TapeItem.data_length] at fits
    rw [TapeItem.word, TapeItem.marker, TapeItem.data_length]
    exact classify_block (List.length_pos_of_ne_nil block.nonempty) block.short
      (eodReverse_ofNat block.short) fits

end Bytes

namespace TapeImage

/-- The tape holds the items, and an end marker follows when there is room for one. -/
structure Holds (ti : TapeImage) (items : List TapeItem) : Prop where
  coherent : ti.Coherent
  working : ti.Working
  inside : (serialize items).length ≤ ti.size
  stored : range ti.content 0 (serialize items).length = serialize items
  ended : (serialize items).length + 4 ≤ ti.size →
    simhIsEodForward (wordOf (range ti.content (serialize items).length 4)) = true

/-- The tape stands between two of its items. -/
structure At (ti : TapeImage) (before after : List TapeItem) : Prop extends
    Holds ti (before ++ after) where
  position : ti.pos = (serialize before).length

section Markers

variable {ti next : TapeImage} {items before after : List TapeItem} {item : TapeItem}

theorem Holds.kept (holds : ti.Holds items) (kept : Kept ti next) : next.Holds items where
  coherent := kept.coherent
  working := kept.working holds.working
  inside := kept.size ▸ holds.inside
  stored := kept.content ▸ holds.stored
  ended := kept.content ▸ kept.size ▸ holds.ended

theorem At.kept (standing : ti.At before after) (kept : Kept ti next) : next.At before after :=
  ⟨standing.toHolds.kept kept, kept.pos.trans standing.position⟩

/-- The tape moves to another place between two items. -/
theorem Holds.moveTo (holds : ti.Holds (before ++ after)) {pos : Nat}
    (place : pos = (serialize before).length) : (ti.moveTo pos).At before after :=
  ⟨⟨holds.coherent.moveTo pos, ⟨holds.working.reads, holds.working.writes⟩, holds.inside, holds.stored, holds.ended⟩, place⟩

theorem readWord_spec (coherent : ti.Coherent) (working : ti.Working) {pos : Nat}
    (inside : pos + 4 ≤ ti.size) : Kept ti (ti.readWord pos).1 ∧
      (ti.readWord pos).2 = some (wordOf (range ti.content pos 4)) := by
  obtain ⟨kept, bytes, works⟩ := TapeImage.readBytes_spec coherent inside
  have read := works working
  refine ⟨kept, ?_⟩
  rw [readWord]
  dsimp only
  rw [if_pos read, bytes read]

theorem markerAt_spec (coherent : ti.Coherent) (working : ti.Working) {pos : Nat}
    (inside : pos + 4 ≤ ti.size) : Kept ti (ti.markerAt pos).1 ∧
      (ti.markerAt pos).2 =
        classify simhIsEodForward (ti.size - pos) (wordOf (range ti.content pos 4)) := by
  obtain ⟨kept, read⟩ := readWord_spec coherent working inside
  have size := kept.size
  rw [markerAt, if_neg (by omega)]
  rcases found : ti.readWord pos with ⟨next, word⟩
  rw [found] at kept read size
  cases read
  refine ⟨kept, ?_⟩
  dsimp only at size ⊢
  rw [size]

theorem markerBefore_spec (coherent : ti.Coherent) (working : ti.Working) (high : 4 ≤ ti.pos)
    (inside : ti.pos ≤ ti.size) : Kept ti ti.markerBefore.1 ∧
      ti.markerBefore.2 =
        classify simhIsEodReverse ti.pos (wordOf (range ti.content (ti.pos - 4) 4)) := by
  obtain ⟨kept, read⟩ := @readWord_spec _ coherent working (ti.pos - 4) (by omega)
  have place := kept.pos
  rw [markerBefore, if_neg (by omega)]
  rcases found : ti.readWord (ti.pos - 4) with ⟨next, word⟩
  rw [found] at kept read place
  cases read
  refine ⟨kept, ?_⟩
  dsimp only at place ⊢
  rw [place]

theorem Holds.stored_item (holds : ti.Holds (before ++ item :: after)) :
    range ti.content (serialize before).length item.bytes.length = item.bytes := by
  have stored := holds.stored
  rw [serialize_append, serialize_cons] at stored
  have piece := (range_pieces _ _ stored).2.1
  rwa [Nat.zero_add] at piece

theorem Holds.item_inside (holds : ti.Holds (before ++ item :: after)) :
    (serialize before).length + item.bytes.length ≤ ti.size := by
  have inside := holds.inside
  rw [serialize_append, serialize_cons, List.length_append, List.length_append] at inside
  omega

/-- The next item is found by its header. -/
theorem Holds.markerAt_item (holds : ti.Holds (before ++ item :: after)) :
    Kept ti (ti.markerAt (serialize before).length).1 ∧
      (ti.markerAt (serialize before).length).2 = item.marker := by
  have inside := holds.item_inside
  have positive := item.bytes_positive
  obtain ⟨kept, marker⟩ := @markerAt_spec _ holds.coherent holds.working
      ((serialize before).length) (by omega)
  refine ⟨kept, ?_⟩
  obtain ⟨⟨back, bytes⟩, -⟩ := item.bytes_marker
  have stored := holds.stored_item
  rw [bytes, ← List.nil_append (_ ++ back)] at stored
  have header := (range_pieces _ _ stored).2.1
  rw [List.length_nil, Nat.add_zero, wordBytes_length] at header
  rw [marker, header, wordOf_wordBytes]
  exact item.classify_forward (by omega)

/-- The previous item is found by its trailer. -/
theorem At.markerBefore_item (standing : ti.At (before ++ [item]) after) :
    Kept ti ti.markerBefore.1 ∧ ti.markerBefore.2 = item.marker := by
  have holds := standing.toHolds
  rw [List.append_assoc, List.singleton_append] at holds
  have inside := holds.item_inside
  have positive := item.bytes_positive
  have place := standing.position
  rw [serialize_append, List.length_append, serialize_cons] at place
  have whole : (item.bytes ++ serialize []).length = item.bytes.length := by
    rw [serialize, List.flatMap_nil, List.append_nil]
  rw [whole] at place
  obtain ⟨kept, marker⟩ := markerBefore_spec holds.coherent holds.working (by omega) (by omega)
  refine ⟨kept, ?_⟩
  obtain ⟨-, front, bytes⟩ := item.bytes_marker
  have stored := holds.stored_item
  have lengths := congrArg List.length bytes
  rw [List.length_append, wordBytes_length] at lengths
  rw [bytes, ← List.append_nil (wordBytes item.word)] at stored
  have trailer := (range_pieces _ _ stored).2.1
  have position : ti.pos - 4 = (serialize before).length + front.length := by omega
  rw [wordBytes_length] at trailer
  rw [marker, position, trailer, wordOf_wordBytes]
  exact item.classify_reverse (by omega)

/-- The end marker follows the last item. -/
theorem Holds.markerAt_end (holds : ti.Holds items) :
    Kept ti (ti.markerAt (serialize items).length).1 ∧
      (ti.markerAt (serialize items).length).2 =
        if (serialize items).length + 4 ≤ ti.size then .endOfData else .failed := by
  split_ifs with fits
  · obtain ⟨kept, marker⟩ := markerAt_spec holds.coherent holds.working fits
    have ended := holds.ended fits
    refine ⟨kept, ?_⟩
    have other : wordOf (range ti.content (serialize items).length 4) ≠ simhTapeMark := by
      intro same
      rw [same] at ended
      exact absurd ended (by decide)
    rw [marker, classify, if_neg other, if_pos ended]
  · rw [markerAt, if_pos (by omega)]
    exact ⟨Kept.refl holds.coherent, rfl⟩

end Markers

end TapeImage

end Nd100x.Scsi
