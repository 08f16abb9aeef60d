import Nd100x.Scsi.TapeCommands

namespace Nd100x.Scsi

open Nd100x.Library

/-- These phases end a command. -/
def ending (value : Byte) : List PhaseCall :=
  [.push (.status value), .push (.message1 smCommandComplete), .push .busFree]

section Calls

theorem statusOf_ending {calls : List PhaseCall} (fresh : statusOf calls = none) (value : Byte) :
    statusOf (calls ++ ending value) = some value := by
  induction calls with
  | nil => rfl
  | cons call rest ih =>
    cases call with
    | endDataPhase => exact ih fresh
    | push control =>
      cases control with
      | status other => cases fresh
      | msgOrCommand => exact ih fresh
      | message1 _ => exact ih fresh
      | dataIn _ _ => exact ih fresh
      | dataOut _ _ => exact ih fresh
      | busFree => exact ih fresh

/-- A hook that makes no call leaves the phase open before its last byte. -/
theorem advance_open {phase : DataPhase} {device : TapeDevice} (quiet : device.port.calls = [])
    (more : phase.pos + 1 ≠ phase.size) :
    TapeSession.advance phase device = some { phase with pos := phase.pos + 1 } := by
  rw [TapeSession.advance, quiet, if_neg]
  rintro (member | last)
  · exact absurd member List.not_mem_nil
  · exact more last

theorem advance_last {phase : DataPhase} {device : TapeDevice} (last : phase.pos + 1 = phase.size) :
    TapeSession.advance phase device = none := by
  rw [TapeSession.advance, if_pos (.inr last)]

theorem advance_ended {phase : DataPhase} {device : TapeDevice}
    (ended : PhaseCall.endDataPhase ∈ device.port.calls) :
    TapeSession.advance phase device = none := by
  rw [TapeSession.advance, if_pos (.inl ended)]

end Calls

namespace Tdc

variable (tape : TapeDevice) (value key flags code exercd : Byte) (vadd : Bool) (info : Nat)

@[simp] theorem status_calls :
    (status tape value).port.calls = tape.port.calls ++ ending value := by
  simp only [status, Device.onPort_port, Device.onImpl_port, TargetPort.statusComplete,
    TargetPort.call, List.append_assoc, ending, List.cons_append, List.nil_append]

@[simp] theorem good_calls : (good tape).port.calls = tape.port.calls ++ ending ssGood :=
  status_calls tape ssGood

@[simp] theorem check_calls : (check tape key flags code exercd vadd info).port.calls =
    tape.port.calls ++ ending ssCheckCondition := status_calls _ ssCheckCondition

end Tdc

namespace TapeDrive

variable (drive : TapeDrive)

@[simp] theorem enterMode_tape (mode : TdcOperationMode) :
    (drive.enterMode mode).tape = drive.tape := by
  rw [enterMode]
  split_ifs <;> rfl

end TapeDrive

namespace Tdc

section Gates

variable {P : TapeDevice → Prop} {tape : TapeDevice} {next : TapeDevice → TapeDevice}

/-- What holds of every refusal and of the rest of a command holds behind a gate. -/
theorem ready_elim
    (refused : ∀ key flags code exercd vadd info, P (check tape key flags code exercd vadd info))
    (going : tape.impl.present = true → tape.impl.loaded = true → P (next tape)) :
    P (ready tape next) := by
  rw [ready]
  split_ifs with present loaded
  · exact going present loaded
  · exact refused _ _ _ _ _ _
  · exact refused _ _ _ _ _ _

theorem writable_elim
    (refused : ∀ key flags code exercd vadd info, P (check tape key flags code exercd vadd info))
    (going : tape.impl.tape.readOnly = false → P (next tape)) : P (writable tape next) := by
  rw [writable]
  split_ifs with sealed_
  · exact refused _ _ _ _ _ _
  · exact going (Bool.eq_false_iff.mpr sealed_)

/-- The drive looked for the end of the data. -/
def looked (tape : TapeDevice) : TapeDevice :=
  tape.onImpl fun drive => { drive with tape := tape.impl.tape.atEod.1 }

theorem mayAppend_elim
    (refused : ∀ key flags code exercd vadd info,
      P (check (looked tape) key flags code exercd vadd info))
    (start : tape.impl.tape.pos = 0 → P (next tape))
    (ended : tape.impl.tape.pos ≠ 0 → tape.impl.tape.atEod.2 = (.ok, true) →
      P (next (looked tape))) : P (mayAppend tape next) := by
  have bot : tape.impl.tape.isBot = true ↔ tape.impl.tape.pos = 0 := decide_eq_true_iff
  rw [mayAppend]
  split_ifs with here
  · exact start (bot.mp here)
  · dsimp only
    split_ifs with failed found
    · exact refused _ _ _ _ _ _
    · exact ended (fun zero => here (bot.mpr zero)) (Prod.ext (not_not.mp failed) found)
    · exact refused _ _ _ _ _ _

/-- The drive looks for its cartridge first. -/
def refreshed (tape : TapeDevice) : TapeDevice := tape.onImpl TapeDrive.refreshMedia

/-- A unit attention moves the tape to its beginning. -/
def attended (tape : TapeDevice) : TapeDevice :=
  (refreshed tape).onImpl fun drive => TapeDrive.toBot { drive with unitAttention := false }

/-- No check before the commands refuses this one. -/
structure Admitted (tape : TapeDevice) : Prop where
  inquiry : tape.port.cmdbuf 0 ≠ tdcInquiry
  sense : tape.port.cmdbuf 0 ≠ tdcRequestSense
  attention : ¬ ((refreshed tape).impl.unitAttention && (refreshed tape).impl.present) = true
  unit : lun tape = 0
  control : ¬ (control tape).getLsbD 0 = true

theorem command_elim
    (inquiry : tape.port.cmdbuf 0 = tdcInquiry → P (commandInquiry (refreshed tape)))
    (attention : ∀ key flags code exercd vadd info,
      P (check (attended tape) key flags code exercd vadd info))
    (attentionSense : tape.port.cmdbuf 0 = tdcRequestSense →
      P (commandRequestSense ((attended tape).onImpl
        (TapeDrive.setSense · skUnitAttention 0 tdcEcUnitAttn tdcXUatt false 0))))
    (sense : tape.port.cmdbuf 0 = tdcRequestSense → P (commandRequestSense (refreshed tape)))
    (refused : ∀ exercd, P (illegal ((refreshed tape).onImpl TapeDrive.clearSense) exercd))
    (going : Admitted tape →
      P (perform ((refreshed tape).onImpl TapeDrive.clearSense) (tape.port.cmdbuf 0))) :
    P (command tape) := by
  rw [command]
  dsimp only
  split_ifs with isInquiry attends isSense isSense' unit linked
  · exact inquiry isInquiry
  · exact attentionSense isSense
  · exact attention _ _ _ _ _ _
  · exact sense isSense'
  · exact refused _
  · exact refused _
  · exact going ⟨isInquiry, isSense', attends, not_not.mp unit, linked⟩

end Gates

end Tdc

end Nd100x.Scsi
