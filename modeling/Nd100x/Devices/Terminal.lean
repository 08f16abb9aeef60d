import Nd100x.Library.Ring
import Mathlib.Data.BitVec
import Mathlib.Tactic.SplitIfs
import Mathlib.Data.List.Basic

namespace Nd100x.Devices

open Nd100x.Library

def terminalQueueSize : Nat := 256

/-- The tail of the queue is the place behind its last key. -/
structure CircularBuffer where
  buffer : Nat → BitVec 8
  head : Nat
  tail : Nat
  count : Nat
  inside : head < terminalQueueSize
  fits : count ≤ terminalQueueSize
  follows : tail = (head + count) % terminalQueueSize

namespace CircularBuffer

def empty : CircularBuffer := ⟨fun _ => 0, 0, 0, 0, by decide, by decide, rfl⟩

def ring (queue : CircularBuffer) : Ring (BitVec 8) terminalQueueSize :=
  ⟨queue.buffer, queue.head, queue.count, queue.inside, queue.fits⟩

def put (queue : CircularBuffer) (keycode : BitVec 8) (room : queue.count < terminalQueueSize) :
    CircularBuffer where
  buffer := Function.update queue.buffer queue.tail keycode
  head := queue.head
  tail := (queue.tail + 1) % terminalQueueSize
  count := queue.count + 1
  inside := queue.inside
  fits := room
  follows := by
    rw [queue.follows, Nat.mod_add_mod, Nat.add_assoc]

def take (queue : CircularBuffer) (some_ : 0 < queue.count) : CircularBuffer where
  buffer := queue.buffer
  head := (queue.head + 1) % terminalQueueSize
  tail := queue.tail
  count := queue.count - 1
  inside := Nat.mod_lt _ (Nat.zero_lt_of_lt queue.inside)
  fits := (Nat.sub_le _ _).trans queue.fits
  follows := by
    rw [queue.follows, Nat.mod_add_mod, Nat.add_assoc, Nat.add_sub_cancel' some_]

/-- The keys wait in the order of the queue. -/
def keys (queue : CircularBuffer) : List (BitVec 8) := queue.ring.values

@[simp] theorem put_keys (queue : CircularBuffer) (keycode : BitVec 8)
    (room : queue.count < terminalQueueSize) :
    (queue.put keycode room).keys = queue.keys ++ [keycode] := by
  have same : (queue.put keycode room).ring = queue.ring.put keycode room := by
    simp only [ring, put, Ring.put, queue.follows]
  rw [keys, keys, same]
  exact Ring.put_values queue.ring keycode room

theorem keys_take (queue : CircularBuffer) (some_ : 0 < queue.count) :
    queue.keys = queue.buffer queue.head :: (queue.take some_).keys :=
  Ring.values_take queue.ring (Nat.ne_of_gt some_)

end CircularBuffer

structure InputStatus where
  interruptEnabled : Bool
  deviceActivated : Bool
  deviceReadyForTransfer : Bool
  framingError : Bool
  parityError : Bool
  overrunError : Bool

structure OutputStatus where
  interruptEnabled : Bool
  readyForTransfer : Bool

structure TerminalDevice where
  interruptBits : BitVec 16
  identCode : BitVec 16
  ioDelays : List Int
  uartInputBuf : BitVec 16
  lineTicksLeft : BitVec 32
  lineTimed : Bool
  inputQueue : CircularBuffer
  inputStatus : InputStatus
  inputControl : BitVec 16
  outputStatus : OutputStatus
  outputControl : BitVec 16

def InputStatus.raw (status : InputStatus) : BitVec 16 :=
  (BitVec.ofBool status.interruptEnabled).setWidth 16 |||
    (BitVec.ofBool status.deviceActivated).setWidth 16 <<< 2 |||
    (BitVec.ofBool status.deviceReadyForTransfer).setWidth 16 <<< 3 |||
    (BitVec.ofBool status.framingError).setWidth 16 <<< 5 |||
    (BitVec.ofBool status.parityError).setWidth 16 <<< 6 |||
    (BitVec.ofBool status.overrunError).setWidth 16 <<< 7

def OutputStatus.raw (status : OutputStatus) : BitVec 16 :=
  (BitVec.ofBool status.interruptEnabled).setWidth 16 |||
    (BitVec.ofBool status.readyForTransfer).setWidth 16 <<< 3

def oddParityTable : List Nat :=
  [0, 1, 1, 0, 1, 0, 0, 1, 1, 0, 0, 1, 0, 1, 1, 0, 1, 0, 0, 1, 0, 1, 1, 0, 0, 1, 1, 0, 1, 0, 0, 1,
    1, 0, 0, 1, 0, 1, 1, 0, 0, 1, 1, 0, 1, 0, 0, 1, 0, 1, 1, 0, 1, 0, 0, 1, 1, 0, 0, 1, 0, 1, 1, 0,
    1, 0, 0, 1, 0, 1, 1, 0, 0, 1, 1, 0, 1, 0, 0, 1, 0, 1, 1, 0, 1, 0, 0, 1, 1, 0, 0, 1, 0, 1, 1, 0,
    0, 1, 1, 0, 1, 0, 0, 1, 1, 0, 0, 1, 0, 1, 1, 0, 1, 0, 0, 1, 0, 1, 1, 0, 0, 1, 1, 0, 1, 0, 0, 1,
    1, 0, 0, 1, 0, 1, 1, 0, 0, 1, 1, 0, 1, 0, 0, 1, 0, 1, 1, 0, 1, 0, 0, 1, 1, 0, 0, 1, 0, 1, 1, 0,
    0, 1, 1, 0, 1, 0, 0, 1, 1, 0, 0, 1, 0, 1, 1, 0, 1, 0, 0, 1, 0, 1, 1, 0, 0, 1, 1, 0, 1, 0, 0, 1,
    0, 1, 1, 0, 1, 0, 0, 1, 1, 0, 0, 1, 0, 1, 1, 0, 1, 0, 0, 1, 0, 1, 1, 0, 0, 1, 1, 0, 1, 0, 0, 1,
    1, 0, 0, 1, 0, 1, 1, 0, 0, 1, 1, 0, 1, 0, 0, 1, 0, 1, 1, 0, 1, 0, 0, 1, 1, 0, 0, 1, 0, 1, 1, 0]

def getOddParity (value : BitVec 8) : Nat := oddParityTable.getD value.toNat 0

/-- These are the data bits of the control word: 8, 7, 6 or 5. -/
def characterLength (control : BitVec 16) : Nat := (control.extractLsb' 11 2).toNat

def withParity (value : BitVec 8) : BitVec 16 :=
  if getOddParity value = 1 then value.setWidth 16 ||| 0x80 else value.setWidth 16

/-- A key reaches the UART as the control word says. -/
def onLine (control : BitVec 16) (key : BitVec 8) : BitVec 16 :=
  match characterLength control with
  | 0 => withParity (key &&& 0xFF)
  | 1 => if control.getLsbD 14 then withParity (key &&& 0x7F) else (key &&& 0x7F).setWidth 16
  | 2 => (key &&& 0x3F).setWidth 16
  | _ => (key &&& 0x1F).setWidth 16

/-- The start bit, the data bits, the parity bit and the stop bits of a character. -/
def halfBits (control : BitVec 16) : Nat :=
  let dataBits := 8 - characterLength control
  let parity := if control.getLsbD 14 then 2 else 0
  let stop := if control.getLsbD 13 then 2 else if dataBits = 5 then 3 else 4
  2 * (1 + dataBits) + parity + stop

namespace TerminalDevice

def setInterruptStatus (device : TerminalDevice) (active : Bool) (level : Nat) : TerminalDevice :=
  { device with interruptBits :=
      if 10 ≤ level ∧ level ≤ 13 then
        if active then device.interruptBits ||| BitVec.twoPow 16 level
        else device.interruptBits &&& ~~~BitVec.twoPow 16 level
      else device.interruptBits }

def inputInterrupt (device : TerminalDevice) : TerminalDevice :=
  device.setInterruptStatus
    (device.inputStatus.interruptEnabled && device.inputStatus.deviceReadyForTransfer) 12

def outputInterrupt (device : TerminalDevice) : TerminalDevice :=
  device.setInterruptStatus
    (device.outputStatus.interruptEnabled && device.outputStatus.readyForTransfer) 10

/-- A full queue is an overrun. -/
def queueKeyCode (device : TerminalDevice) (keycode : BitVec 8) : TerminalDevice :=
  if room : device.inputQueue.count < terminalQueueSize then
    { device with inputQueue := device.inputQueue.put keycode room }
  else { device with inputStatus := { device.inputStatus with overrunError := true } }

def inputRoom (device : TerminalDevice) : Nat :=
  if terminalQueueSize ≤ device.inputQueue.count then 0
  else terminalQueueSize - device.inputQueue.count

def writeEnd (device : TerminalDevice) : TerminalDevice :=
  { device with outputStatus :=
      { device.outputStatus with readyForTransfer := true } }.outputInterrupt

/-- Every delay is the end of an output, which queues no other. -/
def tickIoDelay (device : TerminalDevice) : TerminalDevice :=
  let counted := device.ioDelays.map (· - 1)
  let ended := counted.countP (· ≤ 0)
  Nat.repeat writeEnd ended { device with ioDelays := counted.filter (0 < ·) }

def lineTime (device : TerminalDevice) (speed : Nat → BitVec 32) : Option (BitVec 32) :=
  if device.lineTimed then none else some (speed (halfBits device.inputControl))

/-- The line time of the first key is set at the first tick that finds it. -/
def timeLine (device : TerminalDevice) (speed : Nat → BitVec 32) : TerminalDevice :=
  if device.lineTimed then device
  else { device with lineTicksLeft := speed (halfBits device.inputControl), lineTimed := true }

def countLine (device : TerminalDevice) : TerminalDevice :=
  { device with lineTicksLeft :=
      if 0 < device.lineTicksLeft then device.lineTicksLeft - 1 else device.lineTicksLeft }

/-- The UART has room, and no output is under way. -/
def gateOpen (device : TerminalDevice) : Bool :=
  device.lineTicksLeft == 0 && !device.inputStatus.deviceReadyForTransfer &&
    device.outputStatus.readyForTransfer

/-- The first key of the queue goes to the UART, and the line time of the next starts anew. -/
def receive (device : TerminalDevice) : TerminalDevice :=
  if some_ : 0 < device.inputQueue.count then
    { device with
      inputQueue := device.inputQueue.take some_
      lineTimed := false
      uartInputBuf := onLine device.inputControl (device.inputQueue.buffer device.inputQueue.head)
      inputStatus := { device.inputStatus with deviceReadyForTransfer := true } }.inputInterrupt
  else device

/-- The guest takes what the UART holds. -/
def emptyInput (device : TerminalDevice) : TerminalDevice :=
  { device with
    uartInputBuf := 0
    inputStatus := { device.inputStatus with deviceReadyForTransfer := false } }.inputInterrupt

def startOutput (device : TerminalDevice) : TerminalDevice :=
  { device with outputStatus :=
      { device.outputStatus with readyForTransfer := false } }.outputInterrupt

end TerminalDevice

/-- A tick may set the line time of a key and may take a key from the queue. -/
structure TerminalReport where
  timed : Option (BitVec 32)
  taken : Option (BitVec 8)

/-- `speed` is the part of the line time that the clock and the baud rate decide. -/
def terminalTick (speed : Nat → BitVec 32) (device : TerminalDevice) :
    TerminalDevice × TerminalReport :=
  let ticked := device.tickIoDelay
  if 0 < ticked.inputQueue.count then
    let timed := ticked.lineTime speed
    let counted := (ticked.timeLine speed).countLine
    if counted.gateOpen then
      (counted.receive, ⟨timed, some (counted.inputQueue.buffer counted.inputQueue.head)⟩)
    else (counted, ⟨timed, none⟩)
  else (ticked, ⟨none, none⟩)

def terminalRead (device : TerminalDevice) (reg : Nat) : TerminalDevice × BitVec 16 :=
  if reg = 0 then (device.emptyInput, device.uartInputBuf)
  else if reg = 2 then (device, device.inputStatus.raw)
  else if reg = 6 then (device, device.outputStatus.raw)
  else (device, 0)

def terminalWriteInputControl (device : TerminalDevice) (value : BitVec 16) : TerminalDevice :=
  let enabled := { device with
    inputControl := value
    inputStatus := { device.inputStatus with
      interruptEnabled := value.getLsbD 0
      deviceActivated := value.getLsbD 2 } }.inputInterrupt
  let cleared :=
    if value.getLsbD 4 then
      { enabled with
        inputStatus := ⟨false, true, false, false, false, false⟩
        outputStatus := ⟨false, true⟩ }
    else enabled
  { cleared with inputStatus := { cleared.inputStatus with
      framingError := false
      parityError := false
      overrunError := false } }

def iodelayTerminal : Int := 100

/-- The character goes to the host, or in test mode back to the input queue. -/
def terminalWriteData (device : TerminalDevice) (value : BitVec 16) : TerminalDevice :=
  if value = 0 then device
  else
    let c := value.setWidth 8 &&& 0x7F
    let busy := device.startOutput
    let sent := if busy.inputControl.getLsbD 3 then busy.queueKeyCode c else busy
    { sent with ioDelays := sent.ioDelays ++ [iodelayTerminal] }

def writeOutputControl (device : TerminalDevice) (value : BitVec 16) : TerminalDevice :=
  { device with
    outputControl := value
    outputStatus := { device.outputStatus with
      interruptEnabled := value.getLsbD 0 } }.outputInterrupt

def terminalWrite (device : TerminalDevice) (reg : Nat) (value : BitVec 16) : TerminalDevice :=
  if reg = 3 then terminalWriteInputControl device value
  else if reg = 5 then terminalWriteData device value
  else if reg = 7 then writeOutputControl device value
  else device

def terminalIdent (device : TerminalDevice) (level : Nat) : TerminalDevice × BitVec 16 :=
  if device.interruptBits.getLsbD level then
    let disabled :=
      if level = 12 then
        { device with inputStatus := { device.inputStatus with interruptEnabled := false } }
      else if level = 10 then
        { device with outputStatus := { device.outputStatus with interruptEnabled := false } }
      else device
    (disabled.setInterruptStatus false level, device.identCode)
  else (device, 0)

/-- A new terminal has nothing to read and is ready to be written to. -/
def terminalCreate (identCode : BitVec 16) : TerminalDevice where
  interruptBits := 0
  identCode := identCode
  ioDelays := []
  uartInputBuf := 0
  lineTicksLeft := 0
  lineTimed := false
  inputQueue := .empty
  inputStatus := ⟨false, false, false, false, false, false⟩
  inputControl := 0
  outputStatus := ⟨false, true⟩
  outputControl := 0

def terminalReset (device : TerminalDevice) : TerminalDevice :=
  { device with
    inputStatus := ⟨false, true, false, false, false, false⟩
    outputStatus := ⟨false, true⟩ }

section Parity

end Parity

section Frame

/-- The keys, the UART and the line are left as they were. -/
structure TerminalDevice.KeepsInput (before after : TerminalDevice) : Prop where
  queue : after.inputQueue = before.inputQueue
  uart : after.uartInputBuf = before.uartInputBuf
  ready : after.inputStatus.deviceReadyForTransfer = before.inputStatus.deviceReadyForTransfer
  left : after.lineTicksLeft = before.lineTicksLeft
  timed : after.lineTimed = before.lineTimed

variable {device : TerminalDevice}

theorem TerminalDevice.KeepsInput.refl (device : TerminalDevice) : device.KeepsInput device :=
  ⟨rfl, rfl, rfl, rfl, rfl⟩

theorem TerminalDevice.KeepsInput.trans {first second third : TerminalDevice}
    (early : first.KeepsInput second) (late : second.KeepsInput third) :
    first.KeepsInput third :=
  ⟨late.queue.trans early.queue, late.uart.trans early.uart, late.ready.trans early.ready,
    late.left.trans early.left, late.timed.trans early.timed⟩

theorem writeEnd_keeps : device.KeepsInput device.writeEnd ∧
    device.writeEnd.inputControl = device.inputControl := ⟨⟨rfl, rfl, rfl, rfl, rfl⟩, rfl⟩

theorem repeat_writeEnd_keeps (count : Nat) :
    device.KeepsInput (Nat.repeat TerminalDevice.writeEnd count device) ∧
      (Nat.repeat TerminalDevice.writeEnd count device).inputControl = device.inputControl := by
  induction count with
  | zero => exact ⟨.refl device, rfl⟩
  | succ count ih =>
    obtain ⟨keeps, control⟩ := ih
    exact ⟨keeps.trans writeEnd_keeps.1, writeEnd_keeps.2.trans control⟩

theorem tickIoDelay_keeps : device.KeepsInput device.tickIoDelay ∧
    device.tickIoDelay.inputControl = device.inputControl := by
  rw [TerminalDevice.tickIoDelay]
  obtain ⟨⟨queue, uart, ready, left, timed⟩, control⟩ :=
    @repeat_writeEnd_keeps { device with ioDelays := (device.ioDelays.map (· - 1)).filter (0 < ·) }
      ((device.ioDelays.map (· - 1)).countP (· ≤ 0))
  exact ⟨⟨queue, uart, ready, left, timed⟩, control⟩

theorem terminalWriteInputControl_keeps {value : BitVec 16} (clear : value.getLsbD 4 = false) :
    device.KeepsInput (terminalWriteInputControl device value) := by
  rw [terminalWriteInputControl]
  dsimp only
  rw [if_neg (Bool.eq_false_iff.mp clear)]
  exact ⟨rfl, rfl, rfl, rfl, rfl⟩

theorem terminalWriteInputControl_control (value : BitVec 16) :
    (terminalWriteInputControl device value).inputControl = value := by
  rw [terminalWriteInputControl]
  dsimp only
  split_ifs <;> rfl

theorem terminalWriteData_keeps (value : BitVec 16)
    (normal : device.inputControl.getLsbD 3 = false) :
    device.KeepsInput (terminalWriteData device value) ∧
      (terminalWriteData device value).inputControl = device.inputControl := by
  rw [terminalWriteData]
  split_ifs with zero
  · exact ⟨.refl device, rfl⟩
  · dsimp only
    rw [if_neg (show ¬device.startOutput.inputControl.getLsbD 3 = true from
      Bool.eq_false_iff.mp normal)]
    exact ⟨⟨rfl, rfl, rfl, rfl, rfl⟩, rfl⟩

theorem terminalIdent_keeps (level : Nat) :
    device.KeepsInput (terminalIdent device level).1 ∧
      (terminalIdent device level).1.inputControl = device.inputControl := by
  rw [terminalIdent]
  split_ifs <;> exact ⟨⟨rfl, rfl, rfl, rfl, rfl⟩, rfl⟩

/-- A key on the line has at least its line time less the ticks so far before it. -/
theorem countLine_spec (speed : Nat → BitVec 32) :
    ((device.timeLine speed).countLine).lineTimed = true ∧
      (if device.lineTimed then device.lineTicksLeft.toNat
        else (speed (halfBits device.inputControl)).toNat) ≤
        ((device.timeLine speed).countLine).lineTicksLeft.toNat + 1 := by
  have down : ∀ left : BitVec 32,
      left.toNat ≤ (if 0 < left then left - 1 else left).toNat + 1 := by
    intro left
    split_ifs with some_
    · have positive : 0 < left.toNat := BitVec.lt_def.mp some_
      have one : (1 : BitVec 32) ≤ left := BitVec.le_def.mpr positive
      rw [BitVec.toNat_sub_of_le one]
      exact Nat.le_of_eq (Nat.sub_add_cancel positive).symm
    · exact Nat.le_succ _
  rw [TerminalDevice.timeLine]
  split_ifs with timed
  · exact ⟨timed, down _⟩
  · exact ⟨rfl, down _⟩

theorem countLine_keeps (speed : Nat → BitVec 32) :
    ((device.timeLine speed).countLine).inputQueue = device.inputQueue ∧
      ((device.timeLine speed).countLine).uartInputBuf = device.uartInputBuf ∧
      ((device.timeLine speed).countLine).inputStatus = device.inputStatus ∧
      ((device.timeLine speed).countLine).inputControl = device.inputControl := by
  rw [TerminalDevice.timeLine]
  split_ifs <;> exact ⟨rfl, rfl, rfl, rfl⟩

theorem gateOpen_iff : device.gateOpen = true ↔ device.lineTicksLeft = 0 ∧
    device.inputStatus.deviceReadyForTransfer = false ∧
    device.outputStatus.readyForTransfer = true := by
  rw [TerminalDevice.gateOpen, Bool.and_eq_true, Bool.and_eq_true, beq_iff_eq, Bool.not_eq_true',
    and_assoc]

end Frame

section Run

inductive TerminalStep
  | key (keycode : BitVec 8)
  | tick (speed : Nat → BitVec 32)
  | read (reg : Nat)
  | write (reg : Nat) (value : BitVec 16)
  | ident (level : Nat)

/-- A key was taken at a tick with this control word and this line time. -/
structure TakenKey where
  key : BitVec 8
  control : BitVec 16
  tick : Nat
  lineTicks : BitVec 32

def TakenKey.value (taken : TakenKey) : BitVec 16 := onLine taken.control taken.key

/-- The run of a terminal remembers its keys and what the guest has read. -/
structure TerminalRun where
  device : TerminalDevice
  ticks : Nat
  keys : List (BitVec 8)
  taken : List TakenKey
  seen : List (BitVec 16)
  lineTicks : BitVec 32

def TerminalRun.start (identCode : BitVec 16) : TerminalRun :=
  ⟨terminalReset (terminalCreate identCode), 0, [], [], [], 0⟩

namespace TerminalRun

def tick (run : TerminalRun) (speed : Nat → BitVec 32) : TerminalRun :=
  let ticked := terminalTick speed run.device
  let lineTicks := ticked.2.timed.getD run.lineTicks
  let took := ticked.2.taken.map fun key =>
    (⟨key, run.device.inputControl, run.ticks + 1, lineTicks⟩ : TakenKey)
  { run with
    device := ticked.1
    ticks := run.ticks + 1
    taken := run.taken ++ took.toList
    lineTicks := lineTicks }

/-- The guest sees the data register while it says that data is available. -/
def read (run : TerminalRun) (reg : Nat) : TerminalRun :=
  let answer := terminalRead run.device reg
  { run with
    device := answer.1
    seen :=
      if reg = 0 ∧ run.device.inputStatus.deviceReadyForTransfer = true then run.seen ++ [answer.2]
      else run.seen }

def step (run : TerminalRun) : TerminalStep → TerminalRun
  | .key keycode =>
    { run with device := run.device.queueKeyCode keycode, keys := run.keys ++ [keycode] }
  | .tick speed => run.tick speed
  | .read reg => run.read reg
  | .write reg value => { run with device := terminalWrite run.device reg value }
  | .ident level => { run with device := (terminalIdent run.device level).1 }

def steps (run : TerminalRun) (list : List TerminalStep) : TerminalRun := list.foldl step run

/-- A key comes while there is room, and a control word has neither device clear nor test mode. -/
def Allows (run : TerminalRun) : TerminalStep → Prop
  | .key _ => 0 < run.device.inputRoom
  | .write reg value => reg = 3 → value.getLsbD 3 = false ∧ value.getLsbD 4 = false
  | _ => True

instance (run : TerminalRun) : ∀ step, Decidable (run.Allows step)
  | .key _ => inferInstanceAs (Decidable (0 < _))
  | .tick _ => inferInstanceAs (Decidable True)
  | .read _ => inferInstanceAs (Decidable True)
  | .write _ _ => inferInstanceAs (Decidable (_ → _))
  | .ident _ => inferInstanceAs (Decidable True)

def AllowsSteps (run : TerminalRun) : List TerminalStep → Prop
  | [] => True
  | step :: rest => run.Allows step ∧ (run.step step).AllowsSteps rest

instance decidableAllowsSteps : ∀ (steps : List TerminalStep) (run : TerminalRun),
    Decidable (run.AllowsSteps steps)
  | [], _ => inferInstanceAs (Decidable True)
  | step :: rest, run =>
    haveI := decidableAllowsSteps rest (run.step step)
    inferInstanceAs (Decidable (run.Allows step ∧ _))

/-- The UART holds at most one value for the guest. -/
def available (run : TerminalRun) : List (BitVec 16) :=
  if run.device.inputStatus.deviceReadyForTransfer then [run.device.uartInputBuf] else []

/-- The keys taken are the first of all keys, and the guest has read their values in order. -/
structure Fifo (run : TerminalRun) : Prop where
  keys : run.keys = run.taken.map TakenKey.key ++ run.device.inputQueue.keys
  values : run.taken.map TakenKey.value = run.seen ++ run.available
  spaced : ∀ index first second, run.taken[index]? = some first →
    run.taken[index + 1]? = some second → first.tick + second.lineTicks.toNat ≤ second.tick
  past : ∀ last ∈ run.taken.getLast?, last.tick ≤ run.ticks
  line : run.device.lineTimed = true → ∀ last ∈ run.taken.getLast?,
    last.tick + run.lineTicks.toNat ≤ run.ticks + run.device.lineTicksLeft.toNat
  normal : run.device.inputControl.getLsbD 3 = false

variable {run : TerminalRun}

theorem start_fifo (identCode : BitVec 16) : (start identCode).Fifo where
  keys := rfl
  values := rfl
  spaced := fun _ _ _ none_ => absurd none_ (Option.some_ne_none _).symm
  past := fun _ none_ => absurd none_ (Option.not_mem_none _)
  line := fun no => Bool.noConfusion no
  normal := BitVec.getLsbD_zero

/-- What keeps the input keeps the order of the keys, also when time goes by. -/
theorem Fifo.keeps (fifo : run.Fifo) {device : TerminalDevice}
    (keeps : run.device.KeepsInput device) (normal : device.inputControl.getLsbD 3 = false)
    (later : Nat) : { run with device := device, ticks := run.ticks + later }.Fifo where
  keys := by
    rw [keeps.queue]
    exact fifo.keys
  values := by
    rw [available, keeps.uart, keeps.ready]
    exact fifo.values
  spaced := fifo.spaced
  past := fun last member => Nat.le_add_right_of_le (fifo.past last member)
  line := by
    intro timed last member
    have before := fifo.line (keeps.timed ▸ timed) last member
    rw [keeps.left]
    exact Nat.le_trans before (Nat.add_le_add_right (Nat.le_add_right _ _) _)
  normal := normal

theorem Fifo.key (fifo : run.Fifo) (keycode : BitVec 8) (room : 0 < run.device.inputRoom) :
    (run.step (.key keycode)).Fifo := by
  have fits : run.device.inputQueue.count < terminalQueueSize := by
    rw [TerminalDevice.inputRoom] at room
    split_ifs at room with full
    · exact absurd room (Nat.lt_irrefl _)
    · exact Nat.not_le.mp full
  rw [step, TerminalDevice.queueKeyCode, dif_pos fits]
  exact {
    keys := by
      dsimp only
      rw [CircularBuffer.put_keys, fifo.keys, List.append_assoc]
    values := fifo.values
    spaced := fifo.spaced
    past := fifo.past
    line := fifo.line
    normal := fifo.normal }

theorem Fifo.read (fifo : run.Fifo) (reg : Nat) : (run.step (.read reg)).Fifo := by
  rw [step, TerminalRun.read, terminalRead]
  by_cases data : reg = 0
  · rw [if_pos data]
    exact {
      keys := fifo.keys
      values := by
        have values := fifo.values
        change run.taken.map TakenKey.value = (if _ then _ else _) ++ []
        rw [available] at values
        rcases ready : run.device.inputStatus.deviceReadyForTransfer
        · rw [ready, if_neg Bool.false_ne_true] at values
          rw [if_neg fun both => Bool.false_ne_true both.2]
          exact values
        · rw [ready, if_pos rfl] at values
          rw [if_pos ⟨data, rfl⟩, List.append_nil]
          exact values
      spaced := fifo.spaced
      past := fifo.past
      line := fifo.line
      normal := fifo.normal }
  · rw [if_neg data, if_neg (fun both : reg = 0 ∧ _ => data both.1)]
    have same : ∀ answer : TerminalDevice × BitVec 16, answer.1 = run.device →
        { run with device := answer.1 }.Fifo := by
      intro answer here
      rw [here]
      exact fifo
    refine same _ ?_
    split_ifs <;> rfl

theorem Fifo.write (fifo : run.Fifo) (reg : Nat) (value : BitVec 16)
    (allowed : reg = 3 → value.getLsbD 3 = false ∧ value.getLsbD 4 = false) :
    (run.step (.write reg value)).Fifo := by
  rw [step, terminalWrite]
  split_ifs with control data output
  · refine fifo.keeps (terminalWriteInputControl_keeps (allowed control).2) ?_ 0
    rw [terminalWriteInputControl_control]
    exact (allowed control).1
  · obtain ⟨keeps, same⟩ := terminalWriteData_keeps value fifo.normal
    exact fifo.keeps keeps (same ▸ fifo.normal) 0
  · have keeps : run.device.KeepsInput (writeOutputControl run.device value) :=
      ⟨rfl, rfl, rfl, rfl, rfl⟩
    exact fifo.keeps keeps fifo.normal 0
  · exact fifo

theorem Fifo.ident (fifo : run.Fifo) (level : Nat) : (run.step (.ident level)).Fifo := by
  obtain ⟨keeps, same⟩ := @terminalIdent_keeps run.device level
  exact fifo.keeps keeps (same ▸ fifo.normal) 0

/-- Time goes by for a key on the line. -/
theorem Fifo.count (fifo : run.Fifo) (speed : Nat → BitVec 32) :
    { run with
      device := (run.device.timeLine speed).countLine
      ticks := run.ticks + 1
      lineTicks := (run.device.lineTime speed).getD run.lineTicks }.Fifo := by
  obtain ⟨queue, uart, status, control⟩ := @countLine_keeps run.device speed
  exact {
    keys := by
      dsimp only
      rw [queue]
      exact fifo.keys
    values := by
      rw [available]
      dsimp only
      rw [uart, status]
      exact fifo.values
    spaced := fifo.spaced
    past := fun last member => Nat.le_succ_of_le (fifo.past last member)
    line := by
      intro _ last member
      have past := fifo.past last member
      have left := (@countLine_spec run.device speed).2
      dsimp only
      rw [TerminalDevice.lineTime]
      by_cases timed : run.device.lineTimed = true
      · have line := fifo.line timed last member
        rw [if_pos timed] at left
        rw [if_pos timed, Option.getD_none]
        omega
      · rw [if_neg timed] at left
        rw [if_neg timed, Option.getD_some]
        omega
    normal := by
      dsimp only
      rw [control]
      exact fifo.normal }

/-- The first key of the queue is taken when its time is over and the UART has room. -/
theorem Fifo.receive (fifo : run.Fifo) (some_ : 0 < run.device.inputQueue.count)
    (timed : run.device.lineTimed = true) (gate : run.device.gateOpen = true) :
    { run with
      device := run.device.receive
      taken := run.taken ++ [(⟨run.device.inputQueue.buffer run.device.inputQueue.head,
        run.device.inputControl, run.ticks, run.lineTicks⟩ : TakenKey)] }.Fifo := by
  obtain ⟨timeOver, empty, _⟩ := gateOpen_iff.mp gate
  rw [TerminalDevice.receive, dif_pos some_]
  exact {
    keys := by
      dsimp only
      rw [fifo.keys, CircularBuffer.keys_take _ some_, List.map_append, List.append_assoc]
      rfl
    values := by
      have values := fifo.values
      rw [available, empty, if_neg Bool.false_ne_true, List.append_nil] at values
      dsimp only
      rw [List.map_append, values]
      rfl
    spaced := by
      intro index first second here next
      dsimp only at here next
      obtain ⟨inside, _⟩ := List.getElem?_eq_some_iff.mp next
      rw [List.length_append, List.length_singleton] at inside
      have within : index < run.taken.length := by omega
      rw [List.getElem?_append_left within] at here
      by_cases older : index + 1 < run.taken.length
      · rw [List.getElem?_append_left older] at next
        exact fifo.spaced index first second here next
      · have length : run.taken.length = index + 1 := by omega
        rw [← length, List.getElem?_concat_length] at next
        obtain rfl := Option.some.inj next
        have last : first ∈ run.taken.getLast? := by
          rw [List.getLast?_eq_getElem?, length, Nat.add_sub_cancel]
          exact here
        have line := fifo.line timed first last
        rw [timeOver] at line
        exact line
    past := by
      intro last member
      dsimp only at member
      rw [List.getLast?_append, List.getLast?_singleton] at member
      obtain rfl := Option.some.inj member
      exact Nat.le_refl _
    line := fun no => Bool.noConfusion no
    normal := fifo.normal }

theorem Fifo.tick (fifo : run.Fifo) (speed : Nat → BitVec 32) : (run.step (.tick speed)).Fifo := by
  obtain ⟨keeps, control⟩ := @tickIoDelay_keeps run.device
  have normal : run.device.tickIoDelay.inputControl.getLsbD 3 = false := by
    rw [control]
    exact fifo.normal
  have ended := fifo.keeps keeps normal 0
  rw [step, TerminalRun.tick, terminalTick]
  dsimp only
  by_cases some_ : 0 < run.device.tickIoDelay.inputQueue.count
  · rw [if_pos some_]
    have counted := ended.count speed
    obtain ⟨queue, _, _, same⟩ := @countLine_keeps run.device.tickIoDelay speed
    by_cases gate : ((run.device.tickIoDelay.timeLine speed).countLine).gateOpen = true
    · rw [if_pos gate]
      have received := counted.receive (by
        dsimp only
        rw [queue]
        exact some_) (countLine_spec speed).1 gate
      dsimp only at received
      rw [same, control] at received
      exact received
    · rw [if_neg gate]
      dsimp only [Option.map_none, Option.toList_none]
      rw [List.append_nil]
      exact counted
  · rw [if_neg some_]
    dsimp only [Option.map_none, Option.toList_none]
    rw [List.append_nil]
    exact fifo.keeps keeps normal 1

theorem Fifo.step (fifo : run.Fifo) {step : TerminalStep} (allowed : run.Allows step) :
    (run.step step).Fifo := by
  cases step with
  | key keycode => exact fifo.key keycode allowed
  | tick speed => exact fifo.tick speed
  | read reg => exact fifo.read reg
  | write reg value => exact fifo.write reg value allowed
  | ident level => exact fifo.ident level

theorem Fifo.steps (fifo : run.Fifo) {steps : List TerminalStep}
    (allowed : run.AllowsSteps steps) : (run.steps steps).Fifo := by
  induction steps generalizing run with
  | nil => exact fifo
  | cons step rest ih =>
    exact ih (fifo.step allowed.1) allowed.2

end TerminalRun

/-- Two keys come, the guest reads the first one and asks for seven bits with parity. -/
def typedSteps : List TerminalStep :=
  [.write 3 5, .key 0x43, .key 0xC1, .tick fun _ => 2, .tick fun _ => 2, .read 0, .write 5 0x58,
    .write 3 0x4805, .ident 12, .tick fun _ => 2, .tick fun _ => 2]

end Run

end Nd100x.Devices
