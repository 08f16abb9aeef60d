import Nd100x.Scsi.TapePlaces

namespace Nd100x.Scsi

open Nd100x.Library

/-- The end marker is written when there is room for it. -/
def endMark (size place : Nat) : List Byte := if size < place + 4 then [] else wordBytes simhEom

/-- The bytes were recorded with an end marker behind them. -/
structure Recorded (ti next : TapeImage) (bytes : List Byte) : Prop extends SameReel ti next where
  position : next.pos = ti.pos + bytes.length
  coherent : next.Coherent
  content : next.content =
    putRange ti.content ti.pos (bytes ++ endMark ti.size (ti.pos + bytes.length))
  readFails : next.owner.readFails = ti.owner.readFails
  writeFails : next.owner.writeFails = ti.owner.writeFails

/-- The tape keeps its length, and its cache stays coherent. -/
structure Sound (ti next : TapeImage) : Prop extends SameReel ti next where
  coherent : next.Coherent
  readFails : next.owner.readFails = ti.owner.readFails
  writeFails : next.owner.writeFails = ti.owner.writeFails

section Pieces

variable {ti next last : TapeImage} {pos : Nat} {first second bytes : List Byte} {ok : Bool}

theorem Written.append (start : Written ti next pos first true)
    (later : Written next last (pos + first.length) second ok) :
    Written ti last pos (first ++ second) ok where
  toSameTape := start.toSameTape.trans later.toSameTape
  coherent := later.coherent
  content := by
    intro done
    rw [later.content done, start.content rfl, putRange_append]
  outside := by
    intro place outside
    rw [List.length_append] at outside
    rw [later.outside place (by omega), start.outside place (by omega)]
  readFails := later.readFails.trans start.readFails
  writeFails := later.writeFails.trans start.writeFails

/-- A failure in the first piece leaves the others alone. -/
theorem Written.failed (start : Written ti next pos first false) :
    Written ti next pos (first ++ second) false where
  toSameTape := start.toSameTape
  coherent := start.coherent
  content := fun done => Bool.noConfusion done
  outside := by
    intro place outside
    rw [List.length_append] at outside
    exact start.outside place (by omega)
  readFails := start.readFails
  writeFails := start.writeFails

theorem Written.sound (written : Written ti next pos bytes ok) : Sound ti next :=
  ⟨⟨written.size, written.readOnly, written.diskInfo⟩, written.coherent, written.readFails, written.writeFails⟩

theorem Sound.trans (first : Sound ti next) (second : Sound next last) : Sound ti last :=
  ⟨first.toSameReel.trans second.toSameReel, second.coherent,
    second.readFails.trans first.readFails, second.writeFails.trans first.writeFails⟩

theorem Sound.refl (coherent : ti.Coherent) : Sound ti ti :=
  ⟨SameReel.refl ti, coherent, rfl, rfl⟩

theorem Recorded.sound (recorded : Recorded ti next bytes) : Sound ti next :=
  ⟨recorded.toSameReel, recorded.coherent, recorded.readFails, recorded.writeFails⟩

namespace TapeImage

theorem writePieces_spec (coherent : ti.Coherent) {pieces : List (List Byte)}
    (inside : pos + pieces.flatten.length ≤ ti.size) :
    Written ti (ti.writePieces pos pieces).1 pos pieces.flatten (ti.writePieces pos pieces).2 ∧
      (ti.Working → (ti.writePieces pos pieces).2 = true) := by
  induction pieces generalizing ti pos with
  | nil =>
    refine ⟨⟨SameTape.refl ti, coherent, fun _ => ?_, fun _ _ => rfl, rfl, rfl⟩, fun _ => rfl⟩
    exact putRange_nil.symm
  | cons piece rest ih =>
    rw [List.flatten_cons, List.length_append] at inside
    obtain ⟨written, works⟩ := @TapeImage.writeBytes_spec _ pos coherent piece (by omega)
    have size := written.size
    rw [writePieces, List.flatten_cons]
    rcases ok : (ti.writeBytes pos piece).2 with _ | _
    · rw [ok] at written
      rw [if_neg Bool.false_ne_true]
      exact ⟨written.failed, fun working => absurd (works working) (by rw [ok]; decide)⟩
    · rw [ok] at written
      rw [if_pos rfl]
      obtain ⟨later, goes⟩ := @ih _ (pos + piece.length) written.coherent
        (by omega)
      exact ⟨written.append later, fun working => goes (written.working working)⟩

theorem markEnd_spec (coherent : ti.Coherent) :
    Written ti ti.markEnd.1 ti.pos (endMark ti.size ti.pos) ti.markEnd.2 ∧
      (ti.Working → ti.markEnd.2 = true) := by
  rw [markEnd, endMark]
  split_ifs with full
  · refine ⟨⟨SameTape.refl ti, coherent, fun _ => ?_, fun _ _ => rfl, rfl, rfl⟩, fun _ => rfl⟩
    exact putRange_nil.symm
  · exact TapeImage.writeBytes_spec coherent (by rw [wordBytes_length]; omega)

/-- The marks are written where the tape stood, and the tape moves behind them. -/
theorem writeMarks_spec (coherent : ti.Coherent) {count : Nat}
    (inside : ti.pos + count * 4 ≤ ti.size) :
    Sound ti (ti.writeMarks count).1 ∧ (ti.writeMarks count).1.pos ≤ ti.pos + count * 4 ∧
      ((ti.writeMarks count).2 = true →
        (ti.writeMarks count).1.pos = ti.pos + count * 4 ∧ (ti.writeMarks count).1.content =
          putRange ti.content ti.pos (serialize (List.replicate count .mark))) ∧
      (ti.Working → (ti.writeMarks count).2 = true) := by
  induction count generalizing ti with
  | zero =>
    refine ⟨Sound.refl coherent, Nat.le_add_right _ _, fun _ => ⟨rfl, ?_⟩, fun _ => rfl⟩
    exact putRange_nil.symm
  | succ count ih =>
    obtain ⟨written, works⟩ := @TapeImage.writeBytes_spec _ ti.pos coherent
        (wordBytes simhTapeMark) (by rw [wordBytes_length]; omega)
    have size := written.size
    rw [writeMarks]
    rcases ok : (ti.writeWord ti.pos simhTapeMark).2 with _ | _
    · rw [if_neg Bool.false_ne_true]
      refine ⟨written.sound, ?_, fun done => Bool.noConfusion done, fun working => ?_⟩
      · rw [writeWord, written.pos]
        exact Nat.le_add_right _ _
      exact absurd (works working) (by rw [← writeWord, ok]; decide)
    · rw [if_pos rfl]
      have moved : ((ti.writeWord ti.pos simhTapeMark).1.moveTo (ti.pos + 4)).Coherent :=
        written.coherent.moveTo _
      have room : ((ti.writeWord ti.pos simhTapeMark).1.moveTo (ti.pos + 4)).pos + count * 4 ≤
          ((ti.writeWord ti.pos simhTapeMark).1.moveTo (ti.pos + 4)).size := by
        change ti.pos + 4 + count * 4 ≤ (ti.writeBytes ti.pos (wordBytes simhTapeMark)).1.size
        omega
      obtain ⟨later, short, placed, goes⟩ := ih moved room
      refine ⟨⟨⟨later.size.trans written.size, later.readOnly.trans written.readOnly,
        later.diskInfo.trans written.diskInfo⟩,
        later.coherent, later.readFails.trans written.readFails,
        later.writeFails.trans written.writeFails⟩, ?_, fun done => ?_, fun working => ?_⟩
      · refine Nat.le_trans short ?_
        change ti.pos + 4 + count * 4 ≤ _
        omega
      · obtain ⟨place, content⟩ := placed done
        refine ⟨?_, ?_⟩
        · rw [place]
          change ti.pos + 4 + count * 4 = _
          omega
        · have here : ((ti.writeWord ti.pos simhTapeMark).1.moveTo (ti.pos + 4)).content =
              putRange ti.content ti.pos (wordBytes simhTapeMark) := written.content ok
          rw [content, here, List.replicate_succ, serialize_cons, putRange_append]
          rfl
      · exact goes ⟨(written.working working).reads, (written.working working).writes⟩

/-- The end marker goes behind bytes that were written. -/
theorem markEnd_recorded {start : TapeImage} (sound : Sound start ti)
    (place : ti.pos = start.pos + bytes.length)
    (content : ti.content = putRange start.content start.pos bytes)
    (ended : ti.markEnd.2 = true) : Recorded start ti.markEnd.1 bytes := by
  obtain ⟨written, -⟩ := markEnd_spec sound.coherent
  rw [sound.size, place] at written
  refine ⟨⟨written.size.trans sound.size, written.readOnly.trans sound.readOnly,
      written.diskInfo.trans sound.diskInfo⟩,
    written.pos.trans place, written.coherent, ?_, written.readFails.trans sound.readFails,
    written.writeFails.trans sound.writeFails⟩
  rw [written.content ended, content, putRange_append]

end TapeImage

/-- A write that does not fail records its bytes. -/
structure Attempt (ti : TapeImage) (written : TapeImage × TapeStatus) (bytes : List Byte) : Prop
    extends Sound ti written.1 where
  inside : written.1.pos ≤ ti.pos + bytes.length
  recorded : written.2 ≠ .error →
    Recorded ti written.1 bytes ∧ written.2 = written.1.writtenStatus
  works : ti.Working → written.2 ≠ .error

theorem TapeImage.writtenStatus_ne (ti : TapeImage) : ti.writtenStatus ≠ .error := by
  rw [TapeImage.writtenStatus]
  split_ifs <;> exact TapeStatus.noConfusion

theorem Attempt.failed {ok : Bool} (sound : Sound ti next)
    (inside : next.pos ≤ ti.pos + bytes.length) (refused : ok = false)
    (works : ti.Working → ok = true) : Attempt ti (next, .error) bytes :=
  ⟨sound, inside, fun other => absurd rfl other,
    fun working => absurd (works working) (by rw [refused]; exact Bool.false_ne_true)⟩

/-- The status of a write follows its end marker. -/
theorem Attempt.ended {start : TapeImage} (sound : Sound start ti)
    (place : ti.pos = start.pos + bytes.length)
    (content : ti.content = putRange start.content start.pos bytes) :
    Attempt start (if ti.markEnd.2 then (ti.markEnd.1, ti.markEnd.1.writtenStatus)
      else (ti.markEnd.1, .error)) bytes := by
  obtain ⟨written, works⟩ := TapeImage.markEnd_spec sound.coherent
  rcases ended : ti.markEnd.2 with _ | _
  · rw [if_neg Bool.false_ne_true]
    refine Attempt.failed (sound.trans written.sound) ?_ ended fun working => works ?_
    · rw [written.pos, place]
    exact ⟨fun call => sound.readFails ▸ working.reads call,
      fun call => sound.writeFails ▸ working.writes call⟩
  · rw [if_pos rfl]
    have recorded := TapeImage.markEnd_recorded sound place content ended
    exact ⟨recorded.sound, Nat.le_of_eq recorded.position, fun _ => ⟨recorded, rfl⟩,
      fun _ => TapeImage.writtenStatus_ne _⟩

namespace TapeImage

theorem recordPieces_length (bytes : List Byte) :
    (recordPieces bytes).flatten.length = 4 + bytes.length + bytes.length % 2 + 4 := by
  simp only [recordPieces, List.flatten_cons, List.flatten_nil, List.length_append,
    wordBytes_length, List.length_replicate, List.length_nil]
  omega

theorem writeBlock_spec (coherent : ti.Coherent) (writable : ti.readOnly = false)
    (room : ti.pos + (4 + bytes.length + bytes.length % 2 + 4) < ti.size) :
    Attempt ti (ti.writeBlock bytes) (recordPieces bytes).flatten := by
  have length := recordPieces_length bytes
  obtain ⟨written, works⟩ := @writePieces_spec _ ti.pos coherent (recordPieces bytes) (by omega)
  rw [writeBlock, if_neg (by rw [writable]; exact Bool.false_ne_true),
    if_neg (Nat.not_le.mpr room)]
  dsimp only
  rcases ok : (ti.writePieces ti.pos (recordPieces bytes)).2 with _ | _
  · rw [if_neg Bool.false_ne_true]
    refine Attempt.failed written.sound ?_ ok works
    rw [written.pos]
    exact Nat.le_add_right _ _
  · rw [if_pos rfl]
    have moved : Sound ti ((ti.writePieces ti.pos (recordPieces bytes)).1.moveTo
        (ti.pos + (4 + bytes.length + bytes.length % 2 + 4))) :=
      ⟨⟨written.size, written.readOnly, written.diskInfo⟩, written.coherent.moveTo _,
        written.readFails, written.writeFails⟩
    exact Attempt.ended moved (congrArg (ti.pos + ·) length.symm) (written.content ok)

theorem writeFilemarks_spec (coherent : ti.Coherent) (writable : ti.readOnly = false)
    {count : Nat} (room : ti.pos + count * 4 < ti.size) :
    Attempt ti (ti.writeFilemarks count) (serialize (List.replicate count .mark)) := by
  have length : (serialize (List.replicate count .mark)).length = count * 4 := by
    induction count with
    | zero => rfl
    | succ count ih =>
      rw [List.replicate_succ, serialize_cons, List.length_append,
        ih (by omega)]
      change 4 + count * 4 = _
      omega
  obtain ⟨sound, short, placed, works⟩ := writeMarks_spec coherent (Nat.le_of_lt room)
  rw [writeFilemarks, if_neg (by rw [writable]; exact Bool.false_ne_true),
    if_neg (Nat.not_le.mpr room)]
  dsimp only
  rcases ok : (ti.writeMarks count).2 with _ | _
  · rw [if_neg Bool.false_ne_true]
    exact Attempt.failed sound (by rw [length]; exact short) ok works
  · rw [if_pos rfl]
    obtain ⟨place, content⟩ := placed ok
    exact Attempt.ended sound (by rw [place, length]) content

theorem flush_idle (idle : ∀ block, ti.cacheDirty = true → ti.cacheBlock ≠ some block) :
    ti.flush = (ti, true) := by
  rw [flush]
  split
  · next block dirty cached => exact absurd cached (idle block dirty)
  · rfl

/-- A block that was stored is not stored again. -/
theorem flush_again (stored : ti.flush.2 = true) : ti.flush.1.flush.2 = true := by
  by_cases pending : ∃ block, ti.cacheDirty = true ∧ ti.cacheBlock = some block
  · obtain ⟨block, dirty, cached⟩ := pending
    have clean : ti.flush.1.cacheDirty = false := by
      simp only [flush, dirty, cached] at stored ⊢
      split_ifs at stored with accepted
      rw [if_pos accepted]
    rw [flush_idle fun _ again => Bool.noConfusion (clean.symm.trans again)]
  · have idle := flush_idle fun block dirty cached => pending ⟨block, dirty, cached⟩
    rw [idle, idle]

theorem erase_spec (coherent : ti.Coherent) (writable : ti.readOnly = false)
    (inside : ti.pos ≤ ti.size) :
    SameTape ti ti.erase.1 ∧ Sound ti ti.erase.1 ∧
      (ti.erase.2 = .ok → ti.erase.1.content =
          putRange ti.content ti.pos (List.replicate (ti.size - ti.pos) 0xFF) ∧
        ti.erase.1.flush.2 = true) ∧
      (ti.erase.2 = .ok ∨ ti.erase.2 = .error) ∧ (ti.Working → ti.erase.2 = .ok) := by
  obtain ⟨written, works⟩ := @TapeImage.writeBytes_spec _ ti.pos coherent
      (List.replicate (ti.size - ti.pos) 0xFF) (by rw [List.length_replicate]; omega)
  obtain ⟨kept, -, goes⟩ := TapeImage.flush_spec written.coherent
  have flushed : Sound ti (ti.writeRepeat ti.pos 0xFF (ti.size - ti.pos)).1.flush.1 :=
    written.sound.trans ⟨⟨kept.size, kept.readOnly, kept.diskInfo⟩, kept.coherent, kept.readFails,
      kept.writeFails⟩
  have same : SameTape ti (ti.writeRepeat ti.pos 0xFF (ti.size - ti.pos)).1.flush.1 :=
    written.toSameTape.trans kept.toSameTape
  rw [erase, if_neg (by rw [writable]; exact Bool.false_ne_true)]
  dsimp only
  rcases ok : (ti.writeRepeat ti.pos 0xFF (ti.size - ti.pos)).2 with _ | _
  · rw [if_neg Bool.false_ne_true]
    refine ⟨written.toSameTape, written.sound, TapeStatus.noConfusion, .inr rfl,
      fun working => ?_⟩
    exact absurd (works working) (by rw [← writeRepeat, ok]; exact Bool.false_ne_true)
  · rw [if_pos rfl]
    rcases done : (ti.writeRepeat ti.pos 0xFF (ti.size - ti.pos)).1.flush.2 with _ | _
    · rw [if_neg Bool.false_ne_true]
      refine ⟨same, flushed, TapeStatus.noConfusion, .inr rfl, fun working => ?_⟩
      exact absurd (goes (written.working working))
        (by rw [← writeRepeat, done]; exact Bool.false_ne_true)
    · rw [if_pos rfl]
      refine ⟨same, flushed, fun _ => ⟨?_, ?_⟩, .inl rfl, fun _ => rfl⟩
      · exact kept.content.trans (written.content ok)
      · exact flush_again done

end TapeImage

end Pieces

section Stand

variable {ti next : TapeImage} {before after items : List TapeItem}

/-- The bytes before a place are not changed by a write behind it. -/
theorem range_before {f : Nat → Byte} {values : List Byte} {length : Nat} :
    range (putRange f length values) 0 length = range f 0 length :=
  range_putRange_apart (.inl (Nat.le_of_eq (Nat.zero_add length)))

theorem TapeImage.Holds.stored_before (holds : ti.Holds (before ++ after)) :
    range ti.content 0 (serialize before).length = serialize before := by
  have stored := holds.stored
  rw [serialize_append, ← List.nil_append (serialize before ++ _)] at stored
  exact (range_pieces _ _ stored).2.1

/-- Recorded items replace everything behind the place of the tape. -/
theorem Recorded.at_ (recorded : Recorded ti next (serialize items))
    (standing : ti.At before after)
    (room : (serialize before).length + (serialize items).length ≤ ti.size) :
    next.At (before ++ items) [] where
  coherent := recorded.coherent
  working := ⟨fun call => recorded.readFails ▸ standing.working.reads call,
    fun call => recorded.writeFails ▸ standing.working.writes call⟩
  inside := by
    rw [List.append_nil, serialize_append, List.length_append, recorded.size]
    exact room
  stored := by
    rw [List.append_nil, serialize_append, List.length_append, range_append, recorded.content,
      standing.position, range_before, standing.toHolds.stored_before, putRange_append,
      Nat.zero_add, range_putRange_apart (.inl (Nat.le_refl _)), range_putRange]
  ended := by
    intro fits
    rw [List.append_nil, serialize_append, List.length_append, recorded.size] at fits
    have mark : endMark ti.size (ti.pos + (serialize items).length) = wordBytes simhEom := by
      rw [endMark, standing.position, if_neg (by omega)]
    have place := standing.position
    rw [List.append_nil, serialize_append, List.length_append, recorded.content, mark,
      putRange_append, place]
    have word := @range_putRange _
        (putRange ti.content (serialize before).length (serialize items))
        ((serialize before).length + (serialize items).length) (wordBytes simhEom)
    rw [wordBytes_length] at word
    rw [word, wordOf_wordBytes]
    decide
  position := by
    rw [recorded.position, standing.position, serialize_append, List.length_append]

/-- An erase leaves the items before the place of the tape. -/
theorem TapeImage.At.erased (standing : ti.At before after) (writable : ti.readOnly = false) :
    ti.erase.1.At before [] := by
  have inside := standing.inside
  rw [serialize_append, List.length_append] at inside
  have place := standing.position
  obtain ⟨same, sound, done, -, works⟩ := TapeImage.erase_spec standing.coherent writable (by omega)
  obtain ⟨content, -⟩ := done (works standing.working)
  refine ⟨⟨sound.coherent, ⟨fun call => sound.readFails ▸ standing.working.reads call,
    fun call => sound.writeFails ▸ standing.working.writes call⟩, ?_, ?_, fun fits => ?_⟩,
    same.pos.trans place⟩
  · rw [List.append_nil, same.size]
    omega
  · rw [List.append_nil, content, place, range_before, standing.toHolds.stored_before]
  · rw [List.append_nil, same.size] at fits
    have split : List.replicate (ti.size - (serialize before).length) (0xFF : Byte) =
        wordBytes simhEom ++ List.replicate (ti.size - (serialize before).length - 4) 0xFF := by
      have four : wordBytes simhEom = List.replicate 4 (0xFF : Byte) := by decide
      rw [four, List.replicate_append_replicate]
      congr 1
      omega
    have word := @range_putRange _ ti.content ((serialize before).length) (wordBytes simhEom)
    rw [wordBytes_length] at word
    rw [List.append_nil, content, place, split, putRange_append, wordBytes_length,
      range_putRange_apart (.inl (Nat.le_refl _)), word, wordOf_wordBytes]
    decide

end Stand

end Nd100x.Scsi
