import Nd100x.Scsi.TapeItems

namespace Nd100x.Scsi

open Nd100x.Library

/-- The tape has the same length and protection. -/
structure SameReel (ti next : TapeImage) : Prop where
  size : next.size = ti.size
  readOnly : next.readOnly = ti.readOnly
  diskInfo : next.owner.diskInfo = ti.owner.diskInfo

theorem SameReel.refl (ti : TapeImage) : SameReel ti ti := ⟨rfl, rfl, rfl⟩

theorem SameReel.trans {ti next last : TapeImage} (first : SameReel ti next)
    (second : SameReel next last) : SameReel ti last :=
  ⟨second.size.trans first.size, second.readOnly.trans first.readOnly,
    second.diskInfo.trans first.diskInfo⟩

namespace TapeImage

/-- The end marker of the items has room on the tape. -/
def EndFits (ti : TapeImage) (items : List TapeItem) : Prop :=
  (serialize items).length + 4 ≤ ti.size

section Forward

variable {ti next : TapeImage} {before after rest : List TapeItem} {item : TapeItem}

/-- The tape stands at the cursor. -/
def AtCursor (ti : TapeImage) (cursor : Cursor TapeItem) : Prop :=
  ti.At cursor.before.reverse cursor.after

theorem At.moveNext (standing : ti.At before (item :: rest)) :
    ((ti.markerAt ti.pos).1.moveTo (ti.pos + item.bytes.length)).At (before ++ [item]) rest ∧
      SameReel ti ((ti.markerAt ti.pos).1.moveTo (ti.pos + item.bytes.length)) ∧
      (ti.markerAt ti.pos).2 = item.marker := by
  obtain ⟨kept, marker⟩ := standing.toHolds.markerAt_item
  rw [← standing.position] at kept marker
  have holds := standing.toHolds.kept kept
  have moved : before ++ item :: rest = before ++ [item] ++ rest := List.append_cons _ _ _
  rw [moved] at holds
  refine ⟨holds.moveTo ?_, ⟨kept.size, kept.readOnly, kept.diskInfo⟩, marker⟩
  rw [serialize_append, List.length_append, standing.position, serialize_cons]
  simp [serialize]

theorem At.below (standing : ti.At before (item :: rest)) : ti.pos < ti.size := by
  have inside := standing.toHolds.item_inside
  have positive := item.bytes_positive
  rw [standing.position]
  omega

/-- One round of a forward loop over a mark. -/
theorem At.forward_mark (standing : ti.At before (.mark :: rest)) (motion : Motion) (done : Nat) :
    ∃ next, next.At (before ++ [.mark]) rest ∧ SameReel ti next ∧ ti.forward motion done =
      match (motion.mark done).2 with
      | some status => (next, status next.isEw, (motion.mark done).1)
      | none => next.forward motion (motion.mark done).1 := by
  obtain ⟨moved, same, marker⟩ := standing.moveNext
  refine ⟨_, moved, same, ?_⟩
  rw [forward, if_neg (Nat.not_le.mpr standing.below)]
  split
  case h_4 => rfl
  all_goals next found => cases found.symm.trans marker

theorem At.forward_data {block : TapeBlock} (standing : ti.At before (.data block :: rest))
    (motion : Motion) (done : Nat) :
    ∃ next, next.At (before ++ [.data block]) rest ∧ SameReel ti next ∧ ti.forward motion done =
      match (motion.record true done).2 with
      | some status => (next, status next.isEw, (motion.record true done).1)
      | none => next.forward motion (motion.record true done).1 := by
  obtain ⟨moved, same, marker⟩ := standing.moveNext
  refine ⟨_, moved, same, ?_⟩
  rw [forward, if_neg (Nat.not_le.mpr standing.below)]
  split
  case h_5 good bytes length found =>
    cases found.symm.trans marker
    rfl
  all_goals next found => cases found.symm.trans marker

/-- A forward loop stops behind the last item. -/
theorem At.forward_end (standing : ti.At before []) (motion : Motion) (done : Nat) :
    ∃ next status, next.At before [] ∧ SameReel ti next ∧
      ti.forward motion done = (next, status, done) ∧
      (ti.EndFits before → status = motion.ended next.isEw) := by
  obtain ⟨kept, marker⟩ := standing.toHolds.markerAt_end
  rw [List.append_nil, ← standing.position] at kept marker
  have moved := standing.kept kept
  have same : SameReel ti (ti.markerAt ti.pos).1 := ⟨kept.size, kept.readOnly, kept.diskInfo⟩
  rw [EndFits, ← standing.position]
  by_cases last : ti.size ≤ ti.pos
  · refine ⟨ti, .eom, standing, SameReel.refl ti, ?_, fun fits => by omega⟩
    rw [forward, if_pos last]
  · by_cases fits : ti.pos + 4 ≤ ti.size
    · rw [if_pos fits] at marker
      refine ⟨_, _, moved, same, ?_, fun _ => rfl⟩
      rw [forward, if_neg last]
      split
      case h_2 => rfl
      all_goals next found => cases found.symm.trans marker
    · rw [if_neg fits] at marker
      refine ⟨_, .error, moved, same, ?_, fun room => absurd room fits⟩
      rw [forward, if_neg last]
      split
      case h_1 => rfl
      all_goals next found => cases found.symm.trans marker

end Forward

section Backward

variable {ti next : TapeImage} {before after : List TapeItem} {item : TapeItem}

theorem At.moveBack (standing : ti.At (before ++ [item]) after) :
    (ti.markerBefore.1.moveTo (ti.pos - item.bytes.length)).At before (item :: after) ∧
      SameReel ti (ti.markerBefore.1.moveTo (ti.pos - item.bytes.length)) ∧
      ti.markerBefore.2 = item.marker := by
  obtain ⟨kept, marker⟩ := standing.markerBefore_item
  have holds := standing.toHolds.kept kept
  rw [List.append_assoc, List.singleton_append] at holds
  refine ⟨holds.moveTo ?_, ⟨kept.size, kept.readOnly, kept.diskInfo⟩, marker⟩
  rw [standing.position, serialize_append, List.length_append, serialize_cons]
  simp [serialize]

theorem At.above (standing : ti.At (before ++ [item]) after) : ti.pos ≠ 0 := by
  have place := standing.position
  have positive := item.bytes_positive
  rw [serialize_append, List.length_append, serialize_cons, List.length_append] at place
  omega

/-- One round of a backward loop over a mark. -/
theorem At.backward_mark (standing : ti.At (before ++ [.mark]) after) (motion : Motion)
    (done : Nat) :
    ∃ next, next.At before (.mark :: after) ∧ SameReel ti next ∧ ti.backward motion done =
      match (motion.mark done).2 with
      | some status => (next, status next.isEw, (motion.mark done).1)
      | none => next.backward motion (motion.mark done).1 := by
  obtain ⟨moved, same, marker⟩ := standing.moveBack
  refine ⟨_, moved, same, ?_⟩
  rw [backward, if_neg standing.above]
  split
  case h_4 => rfl
  all_goals next found => cases found.symm.trans marker

theorem At.backward_data {block : TapeBlock} (standing : ti.At (before ++ [.data block]) after)
    (motion : Motion) (done : Nat) :
    ∃ next, next.At before (.data block :: after) ∧ SameReel ti next ∧ ti.backward motion done =
      match (motion.record true done).2 with
      | some status => (next, status next.isEw, (motion.record true done).1)
      | none => next.backward motion (motion.record true done).1 := by
  obtain ⟨moved, same, marker⟩ := standing.moveBack
  refine ⟨_, moved, same, ?_⟩
  rw [backward, if_neg standing.above]
  split
  case h_5 good bytes length found =>
    cases found.symm.trans marker
    rfl
  all_goals next found => cases found.symm.trans marker

/-- A backward loop stops at the start of the tape. -/
theorem At.backward_start (standing : ti.At [] after) (motion : Motion) (done : Nat) :
    ti.backward motion done = (ti, .bom, done) := by
  have start : ti.pos = 0 := standing.position
  rw [backward, if_pos start]

end Backward

section Space

variable {ti : TapeImage}

/-- A motion over the bytes follows the motion over the items. -/
structure Follows (ti : TapeImage) (moved : TapeImage × TapeStatus × Nat)
    (items : Cursor TapeItem × Cursor.Stop × Nat) (status : Cursor.Stop → Bool → TapeStatus) : Prop extends
    SameReel ti moved.1 where
  standing : moved.1.AtCursor items.1
  done : moved.2.2 = items.2.2
  status : moved.1.EndFits items.1.items → moved.2.1 = status items.2.1 moved.1.isEw

/-- The status of a forward motion tells why it stopped. -/
def forwardStatus : Cursor.Stop → Bool → TapeStatus
  | .counted, _ => .ok
  | .mark, earlyWarning => fileMarkStatus earlyWarning
  | .ended, earlyWarning => eodStatus earlyWarning

def reverseStatus : Cursor.Stop → Bool → TapeStatus
  | .counted, _ => .ok
  | .mark, earlyWarning => fileMarkStatus earlyWarning
  | .ended, _ => .bom

section Rounds

variable {next : TapeImage} {moved : TapeImage × TapeStatus × Nat}
  {items : Cursor TapeItem × Cursor.Stop × Nat} {status : Cursor.Stop → Bool → TapeStatus}

theorem Follows.after (same : SameReel ti next) (follows : Follows next moved items status) :
    Follows ti moved items status :=
  ⟨same.trans follows.toSameReel, follows.standing, follows.done, follows.status⟩

end Rounds

theorem forward_blocks {before after : List TapeItem} {count done : Nat}
    (standing : ti.AtCursor ⟨before, after⟩) :
    Follows ti (ti.forward (blocksMotion count) done)
      (Cursor.spaceItems TapeItem.isMark count before after done) forwardStatus := by
  induction after generalizing ti before done with
  | nil =>
    obtain ⟨next, status, moved, same, run, ended⟩ :=
      At.forward_end standing (blocksMotion count) done
    rw [run]
    refine ⟨same, moved, rfl, fun fits => ?_⟩
    dsimp only [Cursor.spaceItems, Cursor.items] at fits
    rw [List.append_nil] at fits
    rw [EndFits, same.size] at fits
    exact ended fits
  | cons item rest ih =>
    cases item with
    | mark =>
      obtain ⟨next, moved, same, run⟩ := At.forward_mark standing (blocksMotion count) done
      rw [← List.reverse_cons] at moved
      rw [run]
      exact ⟨same, moved, rfl, fun _ => rfl⟩
    | data block =>
      obtain ⟨next, moved, same, run⟩ := At.forward_data standing (blocksMotion count) done
      rw [← List.reverse_cons] at moved
      rw [run, Cursor.spaceItems, if_neg (by simp)]
      dsimp only [blocksMotion]
      by_cases enough : done + 1 = count
      · rw [if_pos rfl, if_pos enough, if_pos enough]
        exact ⟨same, moved, rfl, fun _ => rfl⟩
      · rw [if_pos rfl, if_neg enough, if_neg enough]
        exact (ih moved).after same

theorem forward_marks {before after : List TapeItem} {count done : Nat} {sequential : Bool}
    (standing : ti.AtCursor ⟨before, after⟩) :
    Follows ti (ti.forward (filemarksMotion count sequential) done)
      (Cursor.spaceMarks TapeItem.isMark count sequential before after done) forwardStatus := by
  induction after generalizing ti before done with
  | nil =>
    obtain ⟨next, status, moved, same, run, ended⟩ :=
      At.forward_end standing (filemarksMotion count sequential) done
    rw [run]
    refine ⟨same, moved, rfl, fun fits => ?_⟩
    dsimp only [Cursor.spaceMarks, Cursor.items] at fits
    rw [List.append_nil] at fits
    rw [EndFits, same.size] at fits
    exact ended fits
  | cons item rest ih =>
    cases item with
    | mark =>
      obtain ⟨next, moved, same, run⟩ :=
        At.forward_mark standing (filemarksMotion count sequential) done
      rw [← List.reverse_cons] at moved
      rw [run, Cursor.spaceMarks, if_pos TapeItem.isMark_mark]
      dsimp only [filemarksMotion]
      by_cases enough : done + 1 = count
      · rw [if_pos enough, if_pos enough]
        exact ⟨same, moved, rfl, fun _ => rfl⟩
      · rw [if_neg enough, if_neg enough]
        exact (ih moved).after same
    | data block =>
      obtain ⟨next, moved, same, run⟩ :=
        At.forward_data standing (filemarksMotion count sequential) done
      rw [← List.reverse_cons] at moved
      rw [run, Cursor.spaceMarks, if_neg (by simp)]
      exact (ih moved).after same

/-- A motion back is a motion over the flipped cursor. -/
def flipped (moved : Cursor TapeItem × Cursor.Stop × Nat) : Cursor TapeItem × Cursor.Stop × Nat :=
  (moved.1.flip, moved.2)

theorem backward_blocks {before after : List TapeItem} {count done : Nat}
    (standing : ti.AtCursor ⟨before, after⟩) :
    Follows ti (ti.backward (blocksMotion count) done)
      (flipped (Cursor.spaceItems TapeItem.isMark count after before done)) reverseStatus := by
  induction before generalizing ti after done with
  | nil =>
    rw [At.backward_start standing]
    exact ⟨SameReel.refl ti, standing, rfl, fun _ => rfl⟩
  | cons item rest ih =>
    simp only [AtCursor, List.reverse_cons] at standing
    cases item with
    | mark =>
      obtain ⟨next, moved, same, run⟩ := At.backward_mark standing (blocksMotion count) done
      rw [run]
      exact ⟨same, moved, rfl, fun _ => rfl⟩
    | data block =>
      obtain ⟨next, moved, same, run⟩ := At.backward_data standing (blocksMotion count) done
      rw [run, Cursor.spaceItems, if_neg (by simp)]
      dsimp only [blocksMotion]
      by_cases enough : done + 1 = count
      · rw [if_pos rfl, if_pos enough, if_pos enough]
        exact ⟨same, moved, rfl, fun _ => rfl⟩
      · rw [if_pos rfl, if_neg enough, if_neg enough]
        exact (ih moved).after same

theorem backward_marks {before after : List TapeItem} {count done : Nat}
    (standing : ti.AtCursor ⟨before, after⟩) :
    Follows ti (ti.backward (filemarksMotion count false) done)
      (flipped (Cursor.spaceMarks TapeItem.isMark count false after before done))
      reverseStatus := by
  induction before generalizing ti after done with
  | nil =>
    rw [At.backward_start standing]
    exact ⟨SameReel.refl ti, standing, rfl, fun _ => rfl⟩
  | cons item rest ih =>
    simp only [AtCursor, List.reverse_cons] at standing
    cases item with
    | mark =>
      obtain ⟨next, moved, same, run⟩ :=
        At.backward_mark standing (filemarksMotion count false) done
      rw [run, Cursor.spaceMarks, if_pos TapeItem.isMark_mark]
      dsimp only [filemarksMotion]
      by_cases enough : done + 1 = count
      · rw [if_pos enough, if_pos enough]
        exact ⟨same, moved, rfl, fun _ => rfl⟩
      · rw [if_neg enough, if_neg enough]
        exact (ih moved).after same
    | data block =>
      obtain ⟨next, moved, same, run⟩ :=
        At.backward_data standing (filemarksMotion count false) done
      rw [run, Cursor.spaceMarks, if_neg (by simp)]
      exact (ih moved).after same

end Space

end TapeImage

end Nd100x.Scsi
