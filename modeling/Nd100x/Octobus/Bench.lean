import Nd100x.Octobus.ReceiveOrder
import Nd100x.Devices.TickAll

namespace Nd100x.Octobus

open Nd100x.Library Nd100x.Devices

/-- The card changes, and the manager hears of a moved bit. An access of the processor asks for a
tick. -/
def cardEffect (accessed : Bool) (change : Card → Card) : Effect 1 Empty OctobusData :=
  fun devices =>
    ⟨fun _ => change (devices 0), accessed,
      decide ((change (devices 0)).interruptBits ≠ (devices 0).interruptBits)⟩

/-- The card is the device that asks for level 13. -/
def cardTable : DeviceTable 1 Empty OctobusData where
  fits := by decide
  tick := fun _ => some (cardEffect false Card.tick)
  tickAlways := fun _ => false
  tickNeeded := fun _ => some fun devices => Card.tickNeeded (devices 0).data

def cardIdent (_ : Fin 1) (devices : DeviceArray 1 Empty OctobusData) :
    Devices.Outcome 1 Empty OctobusData × Word :=
  (cardEffect false (fun card => (Card.ident card octobusInterruptLevel).1) devices,
    (Card.ident (devices 0) octobusInterruptLevel).2)

abbrev CardManager := Manager 1 Empty OctobusData

/-- The driver answers one interrupt after the other. -/
inductive Driver where
  | idle
  | reading
  | enablingInput
  | enablingOutput
  deriving DecidableEq, Repr

/-- The interrupt is the line as the last tick has returned it. A transfer that was completed since
the last output identification is owed to the driver. -/
structure Bench where
  manager : CardManager
  driver : Driver
  interrupt : Bool
  owed : Bool

inductive BenchStep where
  | arrive (word : Word)
  | command (value : Word) (answer : BusAnswer)
  | tick
  /-- The driver makes its next step, and a control word enables a controller. -/
  | drive (control : Word)

/-- The control words of the driver enable a controller and neither reset nor clear it. -/
def BenchStep.Allowed : BenchStep → Prop
  | .drive control => Card.controlInterruptEnabled control = true ∧
      Card.controlReset control = false ∧ Card.controlDeviceClear control = false
  | _ => True

namespace Bench

def card (bench : Bench) : Card := bench.manager.devices 0

/-- A command comes back to its own card. -/
def loops (card : Card) (value : Word) : Bool :=
  if octobusIsSelfLoop ((value >>> 8) &&& 0x3F) card.data.stationAddress then card.echoes
  else !card.data.transmit

/-- A transfer completes unless its echo is held back, and one that was held back completes when
the output is released. -/
def completes (before after : Card) (value : Option Word) : Bool :=
  (value.elim false fun value => !(loops before value && after.outputBusy)) ||
    (before.outputBusy && !after.outputBusy)

def perform (bench : Bench) (accessed : Bool) (change : Card → Card) (value : Option Word) :
    Bench :=
  { bench with
    manager := bench.manager.perform (cardEffect accessed change)
    owed := bench.owed || completes bench.card (change bench.card) value }

/-- The code of the input controller is even, and that of the output follows it. -/
def identify (bench : Bench) : Bench × Option Word :=
  let result := bench.manager.identFrom cardIdent octobusInterruptLevel [0]
  let answered := { bench with manager := result.1 }
  if result.2 = some bench.card.data.identCode then
    ({ answered with driver := .reading }, result.2)
  else if result.2 = some (bench.card.data.identCode + 1) then
    ({ answered with driver := .enablingOutput, owed := false }, result.2)
  else (answered, result.2)

def drive (bench : Bench) (control : Word) : Bench :=
  let bench_ := { bench with interrupt := false }
  match bench.driver with
  | .idle => if bench.interrupt then bench_.identify.1 else bench
  | .reading =>
    { bench_.perform true (fun card => (card.read .inputData).1) none with
      driver := .enablingInput }
  | .enablingInput =>
    { bench_.perform true (fun card => card.write .inputControl control Exchange.silence) none with
      driver := .idle }
  | .enablingOutput =>
    { bench_.perform true (fun card => card.write .outputControl control Exchange.silence) none with
      driver := .idle }

/-- The second result is the line that a tick has returned. -/
def tick (bench : Bench) : Option Bench :=
  (bench.manager.tick cardTable).map fun after =>
    { bench with
      manager := after.1
      interrupt := after.2.1.getLsbD octobusInterruptLevel }

def step (bench : Bench) : BenchStep → Option Bench
  | .arrive word => some (bench.perform false (fun card => (card.rxPush word).1) none)
  | .command value answer =>
    some (bench.perform true (fun card => card.write .outputCommand value answer) (some value))
  | .tick => bench.tick
  | .drive control => some (bench.drive control)

def run : List BenchStep → Bench → Option Bench
  | [], bench => some bench
  | step :: steps, bench => (bench.step step).bind (run steps)

end Bench

/-- The machine builds a card alone, on the bus, or on the bus with a processor station. -/
inductive Wiring where
  | standalone
  | bus
  | processor
  deriving DecidableEq, Repr

def Wiring.connect (wiring : Wiring) (card : Card) : Card :=
  match wiring with
  | .standalone => card
  | .bus => card.setTransmit true
  | .processor => (card.setTransmit true).setCpuAttached true

/-- A driver has enabled both controllers of a card that the machine has built. -/
def Wiring.bench (wiring : Wiring) (thumbwheel : Fin 4) : Bench where
  manager :=
    { devices := fun _ =>
        ((wiring.connect (Card.create thumbwheel)).write .inputControl 1 Exchange.silence).write
          .outputControl 1 Exchange.silence
      tickWanted := true
      irqDirty := true
      inTickList := fun _ => false
      tickOrder := fun _ => 0
      tickList := []
      tickListDevices := none
      irqBits := 0 }
  driver := .idle
  interrupt := false
  owed := false

end Nd100x.Octobus
