import Nd100x.Devices.Device
import Mathlib.Data.Fintype.Basic
import Mathlib.Data.List.FinRange

namespace Nd100x.Devices

def initialDeviceCapacity : Nat := 32

def tickListSize : Nat := 64

/-- The table has the functions of its devices. A place without a tick may have no device. -/
structure DeviceTable (n : Nat) (κ δ : Type) where
  fits : n ≤ initialDeviceCapacity
  tick : Fin n → Option (Effect n κ δ)
  tickAlways : Fin n → Bool
  tickNeeded : Fin n → Option (DeviceArray n κ δ → Bool)

/-- This is the state of the manager. -/
structure Manager (n : Nat) (κ δ : Type) where
  devices : DeviceArray n κ δ
  tickWanted : Bool
  irqDirty : Bool
  inTickList : Fin n → Bool
  tickOrder : Fin n → Nat
  tickList : List (Fin n)
  tickListDevices : Option Nat
  irqBits : BitVec 16

section Manager

variable {n : Nat} {κ δ : Type}

namespace DeviceTable

variable (table : DeviceTable n κ δ)

def ticks (d : Fin n) : Bool := (table.tick d).isSome

def hasWork (devices : DeviceArray n κ δ) (d : Fin n) : Bool :=
  decide (0 < (devices d).ioDelays.length) ||
    (table.tickNeeded d).elim false (fun needed => needed devices)

/-- The tick of a device changes all of them. -/
def tickOne (d : Fin n) : Effect n κ δ := (table.tick d).getD Effect.nothing

/-- A device without a tick adds nothing. -/
def interrupts (devices : DeviceArray n κ δ) : BitVec 16 :=
  (List.finRange n).foldl
    (fun bits d => if table.ticks d then bits ||| (devices d).interruptBits else bits) 0

end DeviceTable

namespace Manager

variable (table : DeviceTable n κ δ) (manager : Manager n κ δ)

/-- What a device did is reported to the manager. -/
def perform (effect : Effect n κ δ) : Manager n κ δ :=
  let outcome := effect manager.devices
  { manager with
    devices := outcome.devices
    tickWanted := manager.tickWanted || outcome.wanted
    irqDirty := manager.irqDirty || outcome.dirty }

def listed (d : Fin n) : Bool :=
  table.ticks d && (table.tickAlways d || manager.inTickList d)

/-- The list keeps the order of the table. -/
def rebuildTickList : Manager n κ δ :=
  { manager with
    tickOrder := fun d => d.val
    tickList := ((List.finRange n).filter (manager.listed table)).take tickListSize }

/-- This device asks for a tick and is not in the list. -/
def joins (d : Fin n) : Bool :=
  table.ticks d && !table.tickAlways d && !manager.inTickList d && table.hasWork manager.devices d

/-- The second result tells that a device joined the list. -/
def takeRequests : Manager n κ δ × Bool :=
  if manager.tickWanted then
    let asked := { manager with
      tickWanted := false
      inTickList := fun d => manager.inTickList d || manager.joins table d }
    if (List.finRange n).any (manager.joins table) then (asked.rebuildTickList table, true)
    else (asked, false)
  else (manager, false)

/-- A device without work left leaves the list. -/
def leave (d : Fin n) (removed : Bool) : Manager n κ δ × Bool :=
  if !table.tickAlways d && !table.hasWork manager.devices d then
    ({ manager with inTickList := Function.update manager.inTickList d false }, true)
  else (manager, removed)

/-- The list is walked from an index on. A list that was rebuilt is entered behind the device that
was ticked last. The log has the devices that were ticked. -/
def tickFrom : Nat → Manager n κ δ → Nat → Bool → Option (Manager n κ δ × Bool × List (Fin n))
  | 0, manager, index, removed =>
    if index < manager.tickList.length then none else some (manager, removed, [])
  | fuel + 1, manager, index, removed =>
    match manager.tickList[index]? with
    | none => some (manager, removed, [])
    | some d =>
      let order := manager.tickOrder d
      let left := (manager.perform (table.tickOne d)).leave table d removed
      let asked := left.1.takeRequests table
      let next :=
        if asked.2 then
          ((asked.1.tickList.takeWhile fun e => asked.1.tickOrder e ≤ order).length, false)
        else (index + 1, left.2)
      (tickFrom fuel asked.1 next.1 next.2).map fun last => (last.1, last.2.1, d :: last.2.2)

/-- The list is built for the devices of the table. -/
def prepare : Manager n κ δ :=
  if manager.tickListDevices = some n then manager
  else
    { ({ manager with
        inTickList := fun _ => false
        tickListDevices := some n }).rebuildTickList table with
      tickWanted := true
      irqDirty := true }

def refreshBits : Manager n κ δ :=
  if manager.irqDirty then
    { manager with irqDirty := false, irqBits := table.interrupts manager.devices }
  else manager

/-- A tick returns the interrupt bits, here with the devices that were ticked. -/
def tick : Option (Manager n κ δ × BitVec 16 × List (Fin n)) :=
  (tickFrom table n ((manager.prepare table).takeRequests table).1 0 false).map fun last =>
    let kept := if last.2.1 then last.1.rebuildTickList table else last.1
    let refreshed := kept.refreshBits table
    (refreshed, refreshed.irqBits, last.2.2)

/-- The first device that answers on a level has its request cleared. -/
def identFrom (ident : Fin n → DeviceArray n κ δ → Outcome n κ δ × BitVec 16) (level : Nat) :
    List (Fin n) → Manager n κ δ → Manager n κ δ × Option (BitVec 16)
  | [], manager => (manager, none)
  | d :: order, manager =>
    if (manager.devices d).interruptBits.getLsbD level then
      let answered := manager.perform fun devices => (ident d devices).1
      let code := (ident d manager.devices).2
      if code = 0 then identFrom ident level order answered
      else
        ({ answered.perform (Effect.moveBits d fun device =>
            { device with
              interruptBits := device.interruptBits &&& ~~~BitVec.twoPow 16 level }) with
            irqDirty := true }, some code)
    else identFrom ident level order manager

end Manager

end Manager

end Nd100x.Devices
