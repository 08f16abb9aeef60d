import Nd100x.Scsi.TapeRuns

namespace Nd100x.Scsi

open Nd100x.Library

namespace TapeImage

section Places

variable {ti : TapeImage} {before after items : List TapeItem}

theorem At.spaceEod (standing : ti.At before after) :
    ti.spaceEod.1.At (before ++ after) [] ∧ SameReel ti ti.spaceEod.1 ∧
      (ti.EndFits (before ++ after) → ti.spaceEod.2 = .ok) := by
  have run (done : Nat) : ∃ next status, next.At (before ++ after) [] ∧ SameReel ti next ∧
      ti.forward eodMotion done = (next, status, done) ∧
      (ti.EndFits (before ++ after) → status = .ok) := by
    induction after generalizing ti before done with
    | nil =>
      rw [List.append_nil]
      obtain ⟨next, status, moved, same, stopped, ended⟩ := standing.forward_end eodMotion done
      exact ⟨next, status, moved, same, stopped, ended⟩
    | cons item rest ih =>
      have step : ∃ next, next.At (before ++ [item]) rest ∧ SameReel ti next ∧
          ti.forward eodMotion done = next.forward eodMotion done := by
        cases item with
        | mark => exact standing.forward_mark eodMotion done
        | data block => exact standing.forward_data eodMotion done
      obtain ⟨next, moved, same, going⟩ := step
      obtain ⟨last, status, stands, later, stopped, ended⟩ := ih moved done
      rw [List.append_assoc, List.singleton_append] at stands ended
      rw [EndFits, same.size] at ended
      exact ⟨last, status, stands, same.trans later, going.trans stopped, ended⟩
  obtain ⟨next, status, moved, same, stopped, ended⟩ := run 0
  rw [TapeImage.spaceEod, stopped]
  exact ⟨moved, same, ended⟩

/-- The items between a place and the position are counted. -/
theorem At.countRecords {lead passed : List TapeItem} (standing : ti.At (lead ++ passed) after)
    (records : Nat) :
    Kept ti (ti.countRecords (serialize lead).length records).1 ∧
      (ti.countRecords (serialize lead).length records).2 = (.ok, records + passed.length) := by
  induction passed generalizing ti lead records with
  | nil =>
    rw [List.append_nil] at standing
    have place := standing.position
    rw [TapeImage.countRecords, if_neg (by omega), if_pos place.symm]
    exact ⟨Kept.refl standing.coherent, rfl⟩
  | cons item rest ih =>
    have holds := standing.toHolds
    rw [List.append_assoc, List.cons_append] at holds
    obtain ⟨kept, marker⟩ := holds.markerAt_item
    have early : (serialize lead).length < ti.pos := by
      have positive := item.bytes_positive
      rw [standing.position, serialize_append, List.length_append, serialize_cons,
        List.length_append]
      omega
    have next := standing.kept kept
    rw [List.append_cons] at next
    have place : (serialize (lead ++ [item])).length =
        (serialize lead).length + item.bytes.length := by
      rw [serialize_append, List.length_append, serialize_cons]
      simp [serialize]
    obtain ⟨later, counted⟩ := ih next (records + 1)
    rw [place] at later counted
    have sum : records + 1 + rest.length = records + (item :: rest).length := by
      rw [List.length_cons]
      omega
    rw [sum] at counted
    have step : ti.countRecords (serialize lead).length records =
        (ti.markerAt (serialize lead).length).1.countRecords
          ((serialize lead).length + item.bytes.length) (records + 1) := by
      rw [TapeImage.countRecords, if_pos early]
      cases item with
      | mark =>
        split
        case h_4 => rfl
        all_goals next found => cases found.symm.trans marker
      | data block =>
        split
        case h_5 good bytes length found =>
          cases found.symm.trans marker
          rfl
        all_goals next found => cases found.symm.trans marker
    rw [step]
    exact ⟨kept.trans later, counted⟩

theorem At.blockAddress (standing : ti.At before after) : Kept ti ti.blockAddress.1 ∧
    ti.blockAddress.2 = (.ok, before.length % 2 ^ 32) := by
  obtain ⟨kept, counted⟩ := @At.countRecords _ _ [] _ standing 0
  have same : (ti.countRecords 0 0).2 = (.ok, before.length) := by
    rw [Nat.zero_add] at counted
    exact counted
  refine ⟨kept, ?_⟩
  rw [TapeImage.blockAddress]
  dsimp only
  rw [same]

/-- One round of a search goes over the next item. -/
theorem At.locate_next {item : TapeItem} {rest : List TapeItem}
    (standing : ti.At before (item :: rest)) {index records : Nat} (other : records ≠ index) :
    ∃ next, next.At (before ++ [item]) rest ∧ SameReel ti next ∧
      ti.locateFrom index records = next.locateFrom index (records + 1) := by
  obtain ⟨moved, same, marker⟩ := standing.moveNext
  refine ⟨_, moved, same, ?_⟩
  rw [locateFrom, if_neg (Nat.not_le.mpr standing.below), if_neg other]
  cases item with
  | mark =>
    split
    case h_4 => rfl
    all_goals next found => cases found.symm.trans marker
  | data block =>
    split
    case h_5 good bytes length found =>
      cases found.symm.trans marker
      rfl
    all_goals next found => cases found.symm.trans marker

/-- The end of the data stops a search. -/
theorem At.locate_end (standing : ti.At before []) {index records : Nat} (other : records ≠ index) :
    ∃ next status, next.At before [] ∧ SameReel ti next ∧
      ti.locateFrom index records = (next, status) ∧
      (ti.EndFits before → status = eodStatus next.isEw) := by
  obtain ⟨kept, marker⟩ := standing.toHolds.markerAt_end
  rw [List.append_nil, ← standing.position] at kept marker
  have moved := standing.kept kept
  have same : SameReel ti (ti.markerAt ti.pos).1 := ⟨kept.size, kept.readOnly, kept.diskInfo⟩
  rw [EndFits, ← standing.position]
  by_cases last : ti.size ≤ ti.pos
  · refine ⟨ti, .eom, standing, SameReel.refl ti, ?_, fun fits => by omega⟩
    rw [locateFrom, if_pos last]
  · by_cases fits : ti.pos + 4 ≤ ti.size
    · rw [if_pos fits] at marker
      refine ⟨_, _, moved, same, ?_, fun _ => rfl⟩
      rw [locateFrom, if_neg last, if_neg other]
      split
      case h_2 => rfl
      all_goals next found => cases found.symm.trans marker
    · rw [if_neg fits] at marker
      refine ⟨_, .error, moved, same, ?_, fun room => absurd room fits⟩
      rw [locateFrom, if_neg last, if_neg other]
      split
      case h_1 => rfl
      all_goals next found => cases found.symm.trans marker

theorem At.locateFrom {index records : Nat} (standing : ti.At before after)
    (counted : records = before.length) (ahead : records ≤ index) :
    (ti.locateFrom index records).1.At ((before ++ after).take index)
        ((before ++ after).drop index) ∧
      SameReel ti (ti.locateFrom index records).1 ∧
      (ti.EndFits (before ++ after) → (ti.locateFrom index records).2 =
        if index ≤ (before ++ after).length then .ok
        else eodStatus (ti.locateFrom index records).1.isEw) := by
  induction after generalizing ti before records with
  | nil =>
    rw [List.append_nil]
    by_cases here : records = index
    · have all : index = before.length := here.symm.trans counted
      have result : (ti.locateFrom index records).1 = ti := by
        rw [TapeImage.locateFrom]
        split_ifs <;> rfl
      rw [result, all, List.take_length, List.drop_length, if_pos (Nat.le_refl _)]
      refine ⟨standing, SameReel.refl ti, fun fits => ?_⟩
      have place := standing.position
      rw [EndFits] at fits
      rw [TapeImage.locateFrom, if_neg (by omega), if_pos counted]
    · obtain ⟨next, status, moved, same, stopped, ended⟩ := standing.locate_end here
      have beyond : before.length ≤ index := by omega
      rw [stopped, List.take_of_length_le beyond, List.drop_eq_nil_of_le beyond,
        if_neg (by omega)]
      exact ⟨moved, same, ended⟩
  | cons item rest ih =>
    by_cases here : records = index
    · have all : index = before.length := here.symm.trans counted
      have found : ti.locateFrom index records = (ti, .ok) := by
        rw [TapeImage.locateFrom, if_neg (Nat.not_le.mpr standing.below), if_pos here]
      rw [found, all, List.take_left, List.drop_left, List.length_append,
        if_pos (Nat.le_add_right _ _)]
      exact ⟨standing, SameReel.refl ti, fun _ => rfl⟩
    · obtain ⟨next, moved, same, going⟩ := standing.locate_next here
      have more := @ih _ _ (records + 1) moved (by simp [counted])
        (by omega)
      rw [List.append_assoc, List.singleton_append, EndFits, same.size] at more
      rw [going]
      exact ⟨more.1, same.trans more.2.1, more.2.2⟩

theorem Holds.locate (holds : ti.Holds items) (index : Nat) :
    (ti.locate index).1.At (items.take index) (items.drop index) ∧
      SameReel ti (ti.locate index).1 ∧
      (ti.EndFits items → (ti.locate index).2 =
        if index ≤ items.length then .ok else eodStatus (ti.locate index).1.isEw) := by
  have start : (ti.moveTo 0).At [] items := TapeImage.Holds.moveTo (show ti.Holds ([] ++ items) from holds) rfl
  obtain ⟨moved, same, status⟩ := @At.locateFrom _ _ _ index _ start rfl (Nat.zero_le _)
  exact ⟨moved, ⟨same.size, same.readOnly, same.diskInfo⟩, status⟩

end Places

section Read

variable {ti : TapeImage} {before rest : List TapeItem} {bufSize : Nat}

theorem At.readBlock_mark (standing : ti.At before (.mark :: rest)) :
    (ti.readBlock bufSize).1.At (before ++ [.mark]) rest ∧ SameReel ti (ti.readBlock bufSize).1 ∧
      (ti.readBlock bufSize).2 = (fileMarkStatus (ti.readBlock bufSize).1.isEw, []) := by
  obtain ⟨moved, same, marker⟩ := standing.moveNext
  have run : ti.readBlock bufSize =
      ((ti.markerAt ti.pos).1.moveTo (ti.pos + 4),
        fileMarkStatus ((ti.markerAt ti.pos).1.moveTo (ti.pos + 4)).isEw, []) := by
    rw [readBlock, if_neg (Nat.not_le.mpr standing.below)]
    split
    case h_4 => rfl
    all_goals next found => cases found.symm.trans marker
  rw [run]
  exact ⟨moved, same, rfl⟩

theorem At.readBlock_end (standing : ti.At before []) :
    (ti.readBlock bufSize).1.At before [] ∧ SameReel ti (ti.readBlock bufSize).1 ∧
      (ti.readBlock bufSize).2.1 ≠ .ok ∧
      (ti.EndFits before →
        (ti.readBlock bufSize).2 = (eodStatus (ti.readBlock bufSize).1.isEw, [])) := by
  obtain ⟨kept, marker⟩ := standing.toHolds.markerAt_end
  rw [List.append_nil, ← standing.position] at kept marker
  have moved := standing.kept kept
  have same : SameReel ti (ti.markerAt ti.pos).1 := ⟨kept.size, kept.readOnly, kept.diskInfo⟩
  rw [EndFits, ← standing.position]
  by_cases last : ti.size ≤ ti.pos
  · rw [readBlock, if_pos last]
    exact ⟨standing, SameReel.refl ti, TapeStatus.noConfusion, fun fits => by omega⟩
  · by_cases fits : ti.pos + 4 ≤ ti.size
    · rw [if_pos fits] at marker
      have run : ti.readBlock bufSize =
          ((ti.markerAt ti.pos).1, eodStatus (ti.markerAt ti.pos).1.isEw, []) := by
        rw [readBlock, if_neg last]
        split
        case h_2 => rfl
        all_goals next found => cases found.symm.trans marker
      rw [run]
      refine ⟨moved, same, ?_, fun _ => rfl⟩
      rw [eodStatus]
      split_ifs <;> exact TapeStatus.noConfusion
    · rw [if_neg fits] at marker
      have run : ti.readBlock bufSize = ((ti.markerAt ti.pos).1, .error, []) := by
        rw [readBlock, if_neg last]
        split
        case h_1 => rfl
        all_goals next found => cases found.symm.trans marker
      rw [run]
      exact ⟨moved, same, TapeStatus.noConfusion, fun room => absurd room fits⟩

/-- The bytes of a block lie between its header and its trailer. -/
theorem Holds.stored_block {block : TapeBlock} (holds : ti.Holds (before ++ .data block :: rest)) :
    range ti.content ((serialize before).length + 4) block.bytes.length = block.bytes := by
  have stored := holds.stored_item
  exact (range_pieces _ _ stored).2.1

/-- A block that is too long for the buffer is not read. -/
theorem At.readBlock_long {block : TapeBlock} (standing : ti.At before (.data block :: rest))
    (long : bufSize < block.bytes.length) :
    (ti.readBlock bufSize).1.At before (.data block :: rest) ∧
      SameReel ti (ti.readBlock bufSize).1 ∧ (ti.readBlock bufSize).2 = (.error, []) := by
  obtain ⟨kept, marker⟩ := standing.toHolds.markerAt_item
  rw [← standing.position] at kept marker
  have run : ti.readBlock bufSize = ((ti.markerAt ti.pos).1, .error, []) := by
    rw [readBlock, if_neg (Nat.not_le.mpr standing.below)]
    split
    case h_5 bytes length found =>
      cases found.symm.trans marker
      rw [if_pos long]
    all_goals next found => cases found.symm.trans marker
  rw [run]
  exact ⟨standing.kept kept, ⟨kept.size, kept.readOnly, kept.diskInfo⟩, rfl⟩

theorem At.readBlock_data {block : TapeBlock} (standing : ti.At before (.data block :: rest))
    (short : block.bytes.length ≤ bufSize) :
    (ti.readBlock bufSize).1.At (before ++ [.data block]) rest ∧
      SameReel ti (ti.readBlock bufSize).1 ∧
      (ti.readBlock bufSize).2 = (.ok, block.bytes) := by
  obtain ⟨kept, marker⟩ := standing.toHolds.markerAt_item
  rw [← standing.position] at kept marker
  have holds := standing.toHolds.kept kept
  have inside := holds.item_inside
  rw [TapeItem.data_length] at inside
  have place := standing.position
  obtain ⟨read, bytes, works⟩ := @TapeImage.readBytes_spec _ (ti.pos + 4) block.bytes.length
      holds.coherent (by omega)
  have ok := works holds.working
  have run : ti.readBlock bufSize =
      (((ti.markerAt ti.pos).1.readBytes (ti.pos + 4) block.bytes.length).1.moveTo
          (ti.pos + (TapeItem.data block).bytes.length), .ok,
        ((ti.markerAt ti.pos).1.readBytes (ti.pos + 4) block.bytes.length).2.1) := by
    rw [readBlock, if_neg (Nat.not_le.mpr standing.below)]
    split
    case h_5 bytes length found =>
      cases found.symm.trans marker
      rw [if_neg (Nat.not_lt.mpr short)]
      dsimp only
      rw [if_pos ok]
    all_goals next found => cases found.symm.trans marker
  have later := holds.kept read
  rw [List.append_cons] at later
  have content := holds.stored_block
  rw [← place] at content
  rw [run, bytes ok, content]
  refine ⟨later.moveTo ?_, ⟨read.size.trans kept.size, read.readOnly.trans kept.readOnly,
    read.diskInfo.trans kept.diskInfo⟩, rfl⟩
  rw [place, serialize_append, List.length_append, serialize_cons]
  simp [serialize]

end Read

end TapeImage

end Nd100x.Scsi
