import Nd100x.Scsi.TapeHooks

namespace Nd100x.Scsi

open Nd100x.Library

namespace TapeImage

/-- A byte of the dirty block is still to be accepted by the image. -/
def Waiting (ti : TapeImage) (place : Nat) : Prop :=
  ti.cacheDirty = true ∧ ti.cacheBlock = some (place / tapeImageBlockBytes)

/-- The write callback has accepted the bytes. -/
def OnImage (ti : TapeImage) (start : Nat) (bytes : List Byte) : Prop :=
  ∀ k (inside : k < bytes.length),
    ti.owner.image (start + k) = bytes[k] ∧ ¬ ti.Waiting (start + k)

/-- The tape stands on an image whose blocks are reached by numbers of thirty-two bits. -/
structure Steady (ti : TapeImage) : Prop where
  coherent : ti.Coherent
  inside : ti.pos ≤ ti.size
  mounts : ∀ bytes writeProtected, ti.owner.diskInfo = some (bytes, writeProtected) →
    bytes ≤ 2 ^ 42

section Steady

variable {ti next : TapeImage}

theorem Steady.kept (steady : ti.Steady) (kept : Kept ti next) : next.Steady :=
  ⟨kept.coherent, kept.pos ▸ kept.size ▸ steady.inside, kept.diskInfo ▸ steady.mounts⟩

theorem Steady.sound (steady : ti.Steady) (sound : Sound ti next) (inside : next.pos ≤ ti.size) :
    next.Steady :=
  ⟨sound.coherent, sound.size ▸ inside, sound.diskInfo ▸ steady.mounts⟩

theorem Steady.flush (steady : ti.Steady) : ti.flush.1.Steady :=
  steady.kept (TapeImage.flush_spec steady.coherent).1

theorem Steady.moveTo (steady : ti.Steady) {pos : Nat} (inside : pos ≤ ti.size) :
    (ti.moveTo pos).Steady :=
  ⟨steady.coherent.moveTo pos, inside, steady.mounts⟩

theorem Steady.bot (steady : ti.Steady) : (ti.rewind false).Steady :=
  steady.moveTo (Nat.zero_le _)

theorem Steady.opened (steady : ti.Steady) : (openImage ti.owner).1.Steady := by
  have faithful := steady.coherent.faithful
  rw [openImage]
  dsimp only
  split
  · exact ⟨⟨faithful, Nat.zero_le _, fun _ cached => absurd cached (Option.some_ne_none _).symm,
      fun _ => rfl⟩, Nat.le_refl _, steady.mounts⟩
  · next bytes writeProtected info =>
      have bound := steady.mounts bytes writeProtected info
      split_ifs
      · exact ⟨⟨faithful, Nat.zero_le _, fun _ cached => absurd cached (Option.some_ne_none _).symm,
          fun _ => rfl⟩, Nat.le_refl _, steady.mounts⟩
      · exact ⟨⟨faithful, Nat.le_trans (Nat.sub_le _ _) bound,
          fun _ cached => absurd cached (Option.some_ne_none _).symm, fun _ => rfl⟩,
          Nat.zero_le _, steady.mounts⟩

theorem atEod_kept (coherent : ti.Coherent) : Kept ti ti.atEod.1 := by
  rw [atEod]
  split_ifs with full
  · exact Kept.refl coherent
  · have kept := (@TapeImage.readBytes_spec _ ti.pos 4 coherent (by omega)).1
    split <;> next read =>
      have same := congrArg Prod.fst read
      exact same ▸ kept

/-- A flush that is accepted leaves nothing waiting. -/
theorem flush_stored (coherent : ti.Coherent) (stored : ti.flush.2 = true) (place : Nat) :
    ti.flush.1.owner.image = ti.content ∧ ¬ ti.flush.1.Waiting place := by
  refine ⟨(TapeImage.flush_spec coherent).2.1 stored, ?_⟩
  rw [flush] at stored ⊢
  split at stored
  · dsimp only at stored ⊢
    split_ifs at stored with accepted
    rw [if_pos accepted]
    exact fun waiting => Bool.noConfusion waiting.1
  · next idle => exact fun waiting => idle _ waiting.1 waiting.2

theorem OnImage.of_flush (coherent : ti.Coherent) (stored : ti.flush.2 = true) {start : Nat}
    {bytes : List Byte} {before : Nat → Byte} (content : ti.content = putRange before start bytes) :
    ti.flush.1.OnImage start bytes := by
  intro k inside
  obtain ⟨image, settled⟩ := flush_stored coherent stored (start + k)
  refine ⟨?_, settled⟩
  rw [image, content, putRange_inside inside]

end Steady

end TapeImage

section Drive

variable {drive : TapeDrive}

theorem TapeDrive.refreshMedia_steady (steady : drive.tape.Steady) :
    drive.refreshMedia.tape.Steady := by
  rw [TapeDrive.refreshMedia]
  split_ifs with present
  · split
    · split_ifs <;> exact steady
    · exact steady
  · dsimp only
    split_ifs
    · exact steady.opened.bot
    · exact steady.opened

end Drive

/-- The end marker follows bytes that were written. -/
def marked (size start : Nat) (bytes : List Byte) : List Byte :=
  if bytes = [] then [] else bytes ++ endMark size (start + bytes.length)

def records (blocks : List (List Byte)) : List Byte :=
  blocks.flatMap fun block => (TapeImage.recordPieces block).flatten

namespace TapeSession

/-- The command wrote these bytes. -/
def wrote (s : TapeSession) : List Byte :=
  if s.opcode = tdcWrite then marked s.opening.size s.opening.pos (records s.blocks)
  else if s.opcode = tdcWriteFilemark then
    marked s.opening.size s.opening.pos
      (serialize (List.replicate (getU24be s.device.port.cmdbuf 2) .mark))
  else if s.opcode = tdcErase then List.replicate s.opening.size 0xFF
  else []

def wroteAt (s : TapeSession) : Nat := if s.opcode = tdcErase then 0 else s.opening.pos

/-- A command that ends well has its bytes on the image. -/
def Honest (s : TapeSession) : Prop :=
  ∀ value, statusOf s.device.port.calls = some value →
    (value = ssGood ∧ s.image.OnImage s.wroteAt s.wrote) ∨ value = ssCheckCondition

end TapeSession

section Ending

variable {tape : TapeDevice}

/-- The hook ended the command, and the bytes are on the image when its status is good. -/
structure Settled (start : Nat) (bytes : List Byte) (tape : TapeDevice) : Prop where
  calls : tape.port.calls = ending ssCheckCondition ∨
    (tape.port.calls = ending ssGood ∧ tape.impl.tape.OnImage start bytes)
  steady : tape.impl.tape.Steady

theorem Settled.check {port : TargetPort} {drive : TapeDrive} {start : Nat} {bytes : List Byte}
    (fresh : port.calls = []) (steady : drive.tape.Steady) (key flags code exercd : Byte)
    (vadd : Bool) (info : Nat) :
    Settled start bytes (Tdc.check ⟨port, drive⟩ key flags code exercd vadd info) := by
  refine ⟨.inl ?_, steady.flush⟩
  rw [Tdc.check_calls, fresh, List.nil_append]

theorem Settled.good {port : TargetPort} {drive : TapeDrive} {start : Nat} {bytes : List Byte}
    (fresh : port.calls = []) (steady : drive.tape.Steady)
    (accepted : drive.tape.flush.1.OnImage start bytes) :
    Settled start bytes (Tdc.good ⟨port, drive⟩) := by
  refine ⟨.inr ⟨?_, accepted⟩, steady.flush⟩
  rw [Tdc.good_calls, fresh, List.nil_append]

theorem OnImage.nil (ti : TapeImage) (start : Nat) : ti.OnImage start [] :=
  fun _ inside => absurd inside (Nat.not_lt_zero _)

theorem Settled.good_nil {port : TargetPort} {drive : TapeDrive} (fresh : port.calls = [])
    (steady : drive.tape.Steady) (start : Nat) : Settled start [] (Tdc.good ⟨port, drive⟩) :=
  Settled.good fresh steady (OnImage.nil _ _)

end Ending

section Commands

variable {tape : TapeDevice}

theorem startWrite_tape (tape : TapeDevice) : (Tdc.startWrite tape).impl.tape = tape.impl.tape :=
  TapeDrive.enterMode_tape _ _

/-- The tape stands where a write starts. -/
def startsAt (ti : TapeImage) : TapeImage := if ti.pos = 0 then ti else ti.atEod.1

/-- The block that the marks leave in the cache is stored with the status. -/
def MarksStored (ti : TapeImage) (count : Nat) : Prop :=
  (ti.writeFilemarks count).2 = .ok ∨ (ti.writeFilemarks count).2 = .ew →
    (ti.writeFilemarks count).1.flush.2 = true

theorem marked_cons {size start : Nat} {bytes : List Byte} (some_ : bytes ≠ []) :
    marked size start bytes = bytes ++ endMark size (start + bytes.length) := if_neg some_

/-- The bytes of a good write are on the image when its last block is stored. -/
theorem Attempt.onImage {ti : TapeImage} {written : TapeImage × TapeStatus} {bytes : List Byte}
    (attempt : Attempt ti written bytes) (some_ : bytes ≠ []) (good : written.2 ≠ .error)
    (stored : written.1.flush.2 = true) :
    written.1.flush.1.OnImage ti.pos (marked ti.size ti.pos bytes) := by
  obtain ⟨recorded, -⟩ := attempt.recorded good
  rw [marked_cons some_]
  exact TapeImage.OnImage.of_flush recorded.coherent stored recorded.content

theorem Attempt.steady {ti : TapeImage} {written : TapeImage × TapeStatus} {bytes : List Byte}
    (attempt : Attempt ti written bytes) (steady : ti.Steady)
    (room : ti.pos + bytes.length ≤ ti.size) : written.1.Steady :=
  steady.sound attempt.toSound (Nat.le_trans attempt.inside room)

theorem serialize_marks (count : Nat) :
    (serialize (List.replicate count .mark)).length = count * 4 := by
  rw [serialize_length, List.map_replicate, List.sum_replicate]
  rfl

theorem putFilemarks_settled (fresh : tape.port.calls = []) (steady : tape.impl.tape.Steady)
    (writable : tape.impl.tape.readOnly = false) {count : Nat} (positive : count ≠ 0)
    (stored : MarksStored tape.impl.tape count) :
    Settled tape.impl.tape.pos (marked tape.impl.tape.size tape.impl.tape.pos
      (serialize (List.replicate count .mark))) (Tdc.putFilemarks tape count) := by
  have length := serialize_marks count
  have some_ : serialize (List.replicate count .mark) ≠ [] := by
    intro empty
    rw [empty] at length
    change 0 = count * 4 at length
    omega
  by_cases room : tape.impl.tape.pos + count * 4 < tape.impl.tape.size
  · have attempt := TapeImage.writeFilemarks_spec steady.coherent writable room
    have next := attempt.steady steady (by omega)
    have accepted := attempt.onImage some_
    rw [MarksStored] at stored
    rw [Tdc.putFilemarks]
    rcases outcome : tape.impl.tape.writeFilemarks count with ⟨image, status⟩
    rw [outcome] at next accepted stored
    dsimp only at next accepted stored ⊢
    split
    · refine Settled.good fresh ?_ ?_
      · exact next
      · exact accepted TapeStatus.noConfusion (stored (.inl rfl))
    · refine Settled.good fresh ?_ ?_
      · exact next
      · exact accepted TapeStatus.noConfusion (stored (.inr rfl))
    · refine Settled.check ?_ ?_ _ _ _ _ _ _
      · exact fresh
      · exact next
    · refine Settled.check ?_ ?_ _ _ _ _ _ _
      · exact fresh
      · exact next
  · have full : tape.impl.tape.writeFilemarks count = (tape.impl.tape, .eom) := by
      rw [TapeImage.writeFilemarks, if_neg (by rw [writable]; exact Bool.false_ne_true),
        if_pos (by omega)]
    rw [Tdc.putFilemarks, full]
    exact Settled.check fresh steady _ _ _ _ _ _

/-- The drive puts the marks of its command on the tape. -/
structure TakesMarks (tape : TapeDevice) : Prop where
  present : tape.impl.present = true
  loaded : tape.impl.loaded = true
  writable : tape.impl.tape.readOnly = false
  some_ : getU24be tape.port.cmdbuf 2 ≠ 0
  place : tape.impl.tape.pos = 0 ∨ tape.impl.tape.atEod.2 = (.ok, true)

/-- The block that the marks leave in the cache is stored where a write starts. -/
theorem commandWriteFilemark_settled (fresh : tape.port.calls = [])
    (steady : tape.impl.tape.Steady)
    (stored : TakesMarks tape →
      MarksStored (startsAt tape.impl.tape) (getU24be tape.port.cmdbuf 2)) :
    Settled tape.impl.tape.pos (marked tape.impl.tape.size tape.impl.tape.pos
      (serialize (List.replicate (getU24be tape.port.cmdbuf 2) .mark)))
      (Tdc.commandWriteFilemark tape) := by
  rw [Tdc.commandWriteFilemark]
  refine Tdc.ready_elim (Settled.check fresh steady) fun present loaded => ?_
  refine Tdc.writable_elim (Settled.check fresh steady) fun writable => ?_
  split_ifs with none_
  · rw [none_]
    exact Settled.good_nil fresh steady _
  · have kept := TapeImage.atEod_kept steady.coherent
    have standing := steady.kept kept
    refine Tdc.mayAppend_elim ?_ ?_ ?_
    · refine Settled.check ?_ ?_
      · exact fresh
      · exact standing
    · intro start
      have stored := stored ⟨present, loaded, writable, none_, .inl start⟩
      rw [startsAt, if_pos start] at stored
      have image := startWrite_tape tape
      have settled := @putFilemarks_settled (Tdc.startWrite tape) fresh (image ▸ steady)
          (image ▸ writable) _ none_ (image ▸ stored)
      rw [image] at settled
      exact settled
    · intro away ended
      have stored := stored ⟨present, loaded, writable, none_, .inr ended⟩
      rw [startsAt, if_neg away] at stored
      have image : (Tdc.startWrite (Tdc.looked tape)).impl.tape = tape.impl.tape.atEod.1 :=
        startWrite_tape _
      have settled := @putFilemarks_settled (Tdc.startWrite (Tdc.looked tape)) fresh
          (image ▸ standing) (image ▸ kept.readOnly.trans writable) _ none_ (image ▸ stored)
      rw [image, kept.pos, kept.size] at settled
      exact settled

theorem commandErase_settled (fresh : tape.port.calls = []) (steady : tape.impl.tape.Steady) :
    Settled 0 (List.replicate tape.impl.tape.size 0xFF) (Tdc.commandErase tape) := by
  rw [Tdc.commandErase]
  split_ifs with short
  · exact Settled.check fresh steady _ _ _ _ _ _
  · refine Tdc.ready_elim (Settled.check fresh steady) fun _ _ => ?_
    refine Tdc.writable_elim (Settled.check fresh steady) fun writable => ?_
    obtain ⟨same, sound, done, -, -⟩ := @TapeImage.erase_spec (tape.impl.tape.rewind false)
        steady.bot.coherent writable (Nat.zero_le _)
    have next : (tape.impl.tape.rewind false).erase.1.Steady :=
      steady.bot.sound sound (by rw [same.pos]; exact Nat.zero_le _)
    dsimp only
    split_ifs with failed
    · refine Settled.check ?_ ?_ _ _ _ _ _ _
      · exact fresh
      · exact next
    · obtain ⟨content, stored⟩ := done (not_not.mp failed)
      refine Settled.good ?_ ?_ ?_
      · exact fresh
      · exact next
      · exact TapeImage.OnImage.of_flush sound.coherent stored content

/-- A write that was let through asks for its blocks. -/
structure AsksBlocks (before after : TapeDevice) : Prop where
  calls : after.port.calls = [.push (.dataOut .data (after.impl.xferBlocks * tdcBlockBytes))]
  blocks : 0 < after.impl.xferBlocks
  done : after.impl.xferDone = 0
  writable : after.impl.tape.readOnly = false
  kept : Kept before.impl.tape after.impl.tape

/-- A write command ends at once, or it asks for blocks. -/
def AnswersWrite (before after : TapeDevice) : Prop :=
  Settled before.impl.tape.pos [] after ∨ AsksBlocks before after

theorem commandWrite_answers (fresh : tape.port.calls = []) (steady : tape.impl.tape.Steady) :
    AnswersWrite tape (Tdc.commandWrite tape) := by
  have counted (count : Nat) (drive : TapeDrive) (kept : Kept tape.impl.tape drive.tape)
      (writable : tape.impl.tape.readOnly = false) (positive : count ≠ 0)
      (blocks : drive.xferBlocks = count) (done : drive.xferDone = 0) :
      AsksBlocks tape ((Tdc.startWrite ⟨tape.port, drive⟩).onPort
        (TargetPort.dataOut · .data (count * tdcBlockBytes))) := by
    have entered : ((Tdc.startWrite ⟨tape.port, drive⟩).impl.xferBlocks = drive.xferBlocks) ∧
        (Tdc.startWrite ⟨tape.port, drive⟩).impl.xferDone = drive.xferDone := by
      simp only [Tdc.startWrite, Device.onImpl_impl, TapeDrive.enterMode]
      split_ifs <;> exact ⟨rfl, rfl⟩
    refine ⟨?_, ?_, entered.2.trans done, ?_, ?_⟩
    · rw [Device.onPort_impl, entered.1, blocks]
      change tape.port.calls ++ _ = _
      rw [fresh, List.nil_append]
    · rw [Device.onPort_impl, entered.1, blocks]
      exact Nat.pos_of_ne_zero positive
    · rw [Device.onPort_impl, startWrite_tape]
      exact kept.readOnly.trans writable
    · rw [Device.onPort_impl, startWrite_tape]
      exact kept
  have refuse (drive : TapeDrive) (standing : drive.tape.Steady)
      (key flags code exercd : Byte) (vadd : Bool) (info : Nat) :
      AnswersWrite tape (Tdc.check ⟨tape.port, drive⟩ key flags code exercd vadd info) :=
    .inl (Settled.check fresh standing _ _ _ _ _ _)
  have kept := Kept.refl steady.coherent
  have looked := TapeImage.atEod_kept steady.coherent
  rw [Tdc.commandWrite]
  split_ifs with short
  · exact refuse _ steady _ _ _ _ _ _
  · refine Tdc.ready_elim (refuse _ steady) fun _ _ => ?_
    refine Tdc.writable_elim (refuse _ steady) fun writable => ?_
    dsimp only
    split_ifs with failed none_ long
    · exact refuse _ steady _ _ _ _ _ _
    · refine .inl (Settled.good_nil ?_ ?_ _)
      · exact fresh
      · exact steady
    · refine refuse _ ?_ _ _ _ _ _ _
      exact steady
    · refine Tdc.mayAppend_elim ?_ ?_ ?_
      · refine refuse _ ?_
        exact steady.kept looked
      · intro _
        exact .inr (counted _ _ kept writable none_ rfl rfl)
      · intro _ _
        exact .inr (counted _ _ looked writable none_ rfl rfl)

end Commands

end Nd100x.Scsi
