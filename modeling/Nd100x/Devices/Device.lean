import Mathlib.Data.BitVec
import Mathlib.Data.Int.Basic
import Mathlib.Logic.Function.Basic
import Mathlib.Tactic.SplitIfs

namespace Nd100x.Devices

/-- A callback of type `κ` waits for its ticks. -/
structure DelayedIo (κ : Type) where
  delayTicks : Int
  callback : κ
  level : Nat

/-- This is the part of a device that the manager looks at. -/
structure Device (κ δ : Type) where
  interruptBits : BitVec 16
  ioDelays : List (DelayedIo κ)
  data : δ

abbrev DeviceArray (n : Nat) (κ δ : Type) := Fin n → Device κ δ

/-- The devices may have asked for a tick and may have moved an interrupt bit. -/
structure Outcome (n : Nat) (κ δ : Type) where
  devices : DeviceArray n κ δ
  wanted : Bool
  dirty : Bool

abbrev Effect (n : Nat) (κ δ : Type) := DeviceArray n κ δ → Outcome n κ δ

section Effects

variable {n : Nat} {κ δ : Type}

def Device.generateInterrupt (device : Device κ δ) (level : Nat) : Device κ δ :=
  if 10 ≤ level ∧ level ≤ 13 then
    { device with interruptBits := device.interruptBits ||| BitVec.twoPow 16 level }
  else device

def Device.clearInterrupt (device : Device κ δ) (level : Nat) : Device κ δ :=
  if 10 ≤ level ∧ level ≤ 13 then
    { device with interruptBits := device.interruptBits &&& ~~~BitVec.twoPow 16 level }
  else device

def Device.setInterruptStatus (device : Device κ δ) (active : Bool) (level : Nat) : Device κ δ :=
  if active then device.generateInterrupt level else device.clearInterrupt level

theorem Device.generateInterrupt_kept (device : Device κ δ) (level : Nat) :
    (device.generateInterrupt level).data = device.data ∧
      (device.generateInterrupt level).ioDelays = device.ioDelays := by
  rw [Device.generateInterrupt]
  split_ifs <;> exact ⟨rfl, rfl⟩

theorem Device.clearInterrupt_kept (device : Device κ δ) (level : Nat) :
    (device.clearInterrupt level).data = device.data ∧
      (device.clearInterrupt level).ioDelays = device.ioDelays := by
  rw [Device.clearInterrupt]
  split_ifs <;> exact ⟨rfl, rfl⟩

@[simp] theorem Device.setInterruptStatus_data (device : Device κ δ) (active : Bool)
    (level : Nat) : (device.setInterruptStatus active level).data = device.data := by
  rw [Device.setInterruptStatus]
  split_ifs
  · exact (generateInterrupt_kept device level).1
  · exact (clearInterrupt_kept device level).1

namespace Effect

def nothing : Effect n κ δ := fun devices => ⟨devices, false, false⟩

def andThen (first second : Effect n κ δ) : Effect n κ δ := fun devices =>
  let middle := first devices
  let last := second middle.devices
  ⟨last.devices, middle.wanted || last.wanted, middle.dirty || last.dirty⟩

def requestTick : Effect n κ δ := fun devices => ⟨devices, true, false⟩

/-- A device changes and an interrupt bit that moved is reported. -/
def moveBits (d : Fin n) (change : Device κ δ → Device κ δ) : Effect n κ δ := fun devices =>
  ⟨Function.update devices d (change (devices d)), false,
    decide ((change (devices d)).interruptBits ≠ (devices d).interruptBits)⟩

def generateInterrupt (d : Fin n) (level : Nat) : Effect n κ δ :=
  moveBits d (Device.generateInterrupt · level)

def setInterruptStatus (d : Fin n) (active : Bool) (level : Nat) : Effect n κ δ :=
  moveBits d (Device.setInterruptStatus · active level)

def setDelays (d : Fin n) (change : List (DelayedIo κ) → List (DelayedIo κ)) : Effect n κ δ :=
  fun devices =>
    ⟨Function.update devices d { devices d with ioDelays := change (devices d).ioDelays }, false,
      false⟩

/-- The ticks become a signed number. -/
def queueIoDelay (d : Fin n) (ticks : BitVec 32) (callback : κ) (level : Nat) : Effect n κ δ :=
  andThen (setDelays d (· ++ [⟨ticks.toInt, callback, level⟩])) requestTick

/-- The delay at this index has fired and goes. Its level is read after its callback. -/
def fired (d : Fin n) (index : Nat) (triggered : Bool) : Effect n κ δ := fun devices =>
  let level := (((devices d).ioDelays[index]?).map DelayedIo.level).getD 0
  andThen (if triggered ∧ 0 < level then generateInterrupt d level else nothing)
    (setDelays d (List.eraseIdx · index)) devices

/-- The delays from an index on lose one tick each, and those that ran out call back. -/
def tickDelaysFrom (call : κ → DeviceArray n κ δ → Outcome n κ δ × Bool) (d : Fin n) :
    Nat → Nat → Effect n κ δ
  | 0, _ => nothing
  | fuel + 1, index => fun devices =>
    match (devices d).ioDelays[index]? with
    | none => nothing devices
    | some delay =>
      let counted := setDelays d
        (List.set · index { delay with delayTicks := delay.delayTicks - 1 })
      if delay.delayTicks - 1 ≤ 0 then
        let after := call delay.callback (counted devices).devices
        andThen (fun _ => after.1)
          (andThen (fired d index after.2) (tickDelaysFrom call d fuel index)) devices
      else andThen counted (tickDelaysFrom call d fuel (index + 1)) devices

def tickIoDelay (call : κ → DeviceArray n κ δ → Outcome n κ δ × Bool) (d : Fin n) (fuel : Nat) :
    Effect n κ δ := tickDelaysFrom call d fuel 0

end Effect

end Effects

end Nd100x.Devices
