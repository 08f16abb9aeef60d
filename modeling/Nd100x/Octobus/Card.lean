import Nd100x.Devices.Device
import Nd100x.Library.Ring

namespace Nd100x.Octobus

open Nd100x.Library Nd100x.Devices

abbrev Word := BitVec 16

def octobusRxFifoWords : Nat := 16
def octobusBusyRetryWords : Nat := 4 + 255
def octobusNd100Station : Word := 1
def octobusInterruptLevel : Nat := 13

/-- A frame to station zero or to the own station stays on the card. -/
def octobusIsSelfLoop (dest own : Word) : Bool := dest = 0 || dest = own

structure OctobusInputStatus where
  interruptEnabled : Bool
  fifoNotFull : Bool
  dataAvailable : Bool
  station : BitVec 6
  deriving DecidableEq, Repr

def statusBit (flag : Bool) (place : Nat) : Word := (BitVec.ofBool flag).setWidth 16 <<< place

def OctobusInputStatus.raw (status : OctobusInputStatus) : Word :=
  statusBit status.interruptEnabled 0 ||| statusBit status.fifoNotFull 2 |||
    statusBit status.dataAvailable 3 ||| status.station.setWidth 16 <<< 8

structure OctobusOutputStatus where
  interruptEnabled : Bool
  readyForTransfer : Bool
  error : Bool
  notPresent : Bool
  busy : Bool
  deriving DecidableEq, Repr

def OctobusOutputStatus.raw (status : OctobusOutputStatus) : Word :=
  statusBit status.interruptEnabled 0 ||| statusBit status.readyForTransfer 3 |||
    statusBit status.error 4 ||| statusBit status.notPresent 6 ||| statusBit status.busy 7

/-- The status words after a reset or a clear. -/
def OctobusInputStatus.cleared : OctobusInputStatus := ⟨false, true, false, 0⟩

def OctobusOutputStatus.cleared : OctobusOutputStatus := ⟨false, true, false, false, false⟩

structure OctobusData where
  identCode : Word
  statusRegister : OctobusInputStatus
  controlWord : Word
  outputStatusRegister : OctobusOutputStatus
  outputControlWord : Word
  inputData : Word
  outputData : Word
  stationAddress : Word
  rxFifo : Ring Word octobusRxFifoWords
  busyRetry : Ring Word octobusBusyRetryWords
  busyRetryParked : Nat
  busyRetryDropped : Nat
  inputIrqPending : Bool
  lineHigh : Bool
  outputIrqPending : Bool
  /-- A handler carries frames onto the bus. -/
  transmit : Bool
  loopbackMode : Bool
  cpuAttached : Bool
  mudomDetected : Bool
  /-- A function continues the processor of the station, and it was called so many times. -/
  continueAccp : Bool
  continued : Nat
  clears : Nat
  commands : Nat
  lastCommand : Word

/-- No delay is queued on a card. -/
abbrev Card := Device Empty OctobusData

/-- The bus acknowledges a frame or not, and its stations reply with frames. -/
structure BusAnswer where
  acknowledged : Bool
  replies : List Word

namespace Card

def onData (card : Card) (change : OctobusData → OctobusData) : Card :=
  { card with data := change card.data }

def onStatus (card : Card) (change : OctobusInputStatus → OctobusInputStatus) : Card :=
  card.onData fun data => { data with statusRegister := change data.statusRegister }

def onOutputStatus (card : Card) (change : OctobusOutputStatus → OctobusOutputStatus) : Card :=
  card.onData fun data => { data with outputStatusRegister := change data.outputStatusRegister }

def withInputData (card : Card) (word : Word) : Card :=
  card.onData fun data => { data with inputData := word }

/-- The source of the last frame is stored. -/
def withStation (card : Card) (station : BitVec 6) : Card :=
  card.onStatus fun status => { status with station := station }

/-- The frame that waits longest leaves its place. -/
def takeWaiting (card : Card) : Card :=
  card.onData fun data => { data with busyRetry := data.busyRetry.take }

/-- The output is busy with a transfer, or it is ready for another one. -/
def holdOutput (card : Card) (busy : Bool) : Card :=
  card.onOutputStatus fun status => { status with busy := busy, readyForTransfer := !busy }

def inputActive (card : Card) : Bool :=
  card.data.inputIrqPending && card.data.statusRegister.interruptEnabled

/-- A transfer that was held back does not interrupt. -/
def outputActive (card : Card) : Bool :=
  card.data.outputIrqPending && card.data.outputStatusRegister.interruptEnabled &&
    !card.data.outputStatusRegister.busy

def updateInterrupt (card : Card) : Card :=
  let high := card.inputActive || card.outputActive
  (card.onData fun data => { data with lineHigh := high }).setInterruptStatus high
    octobusInterruptLevel

/-- A transfer that was held back completes when the fifo has room. -/
def updateFifoStatus (card : Card) : Card :=
  let room := decide (card.data.rxFifo.count < octobusRxFifoWords)
  let card := card.onStatus fun status => { status with fifoNotFull := room }
  let card :=
    if room && card.data.loopbackMode && card.data.outputStatusRegister.busy then
      (card.holdOutput false).onData fun data => { data with outputIrqPending := true }
    else card
  (card.onStatus fun status =>
    { status with dataAvailable := decide (0 < card.data.rxFifo.count) }).updateInterrupt

def reset (card : Card) : Card :=
  (card.onData fun data =>
    { data with
      statusRegister := .cleared
      controlWord := 0
      inputData := 0
      outputStatusRegister := .cleared
      outputControlWord := 0
      outputData := 0
      loopbackMode := !data.cpuAttached
      rxFifo := data.rxFifo.clear
      busyRetry := data.busyRetry.clear
      inputIrqPending := false
      outputIrqPending := false
      stationAddress := octobusNd100Station }).setInterruptStatus false octobusInterruptLevel

def tickNeeded (data : OctobusData) : Bool :=
  let card : Card := ⟨0, [], data⟩
  card.inputActive || card.outputActive || data.lineHigh

/-- The line follows the requests at each tick. -/
def tick (card : Card) : Card :=
  if card.inputActive || card.outputActive || card.data.lineHigh then card.updateInterrupt else card

def fifoPush (card : Card) (word : Word) : Card × Bool :=
  if room : card.data.rxFifo.count < octobusRxFifoWords then
    ((card.onData fun data => { data with rxFifo := card.data.rxFifo.put word room }).updateFifoStatus,
      true)
  else (card, false)

def fifoPop (card : Card) : Card × Word :=
  if card.data.rxFifo.count = 0 then (card, 0)
  else
    ((card.onData fun data => { data with rxFifo := data.rxFifo.take }).updateFifoStatus,
      card.data.rxFifo.first)

def raiseInputEvent (card : Card) : Card :=
  (card.onData fun data => { data with inputIrqPending := true }).updateInterrupt

def stationOf (frame : Word) : BitVec 6 := (frame >>> 8).setWidth 6

/-- A frame of another station has landed. -/
def landed (card : Card) (frame : Word) : Card :=
  (((card.fifoPush frame).1.withInputData frame).withStation (stationOf frame)).raiseInputEvent

/-- The frames that wait move into the fifo while it has room. -/
def pumpBusyRetry (card : Card) : Nat → Card
  | 0 => card
  | waiting + 1 =>
    if card.data.rxFifo.count < octobusRxFifoWords then
      (card.takeWaiting.landed card.data.busyRetry.first).pumpBusyRetry waiting
    else card

def raiseOutputEvent (card : Card) : Card :=
  (card.onData fun data => { data with outputIrqPending := true }).updateInterrupt

def completed (card : Card) : Card :=
  (card.holdOutput false).raiseOutputEvent

/-- The source of a frame that comes back is this card. -/
def echoFrame (data : OctobusData) : Word :=
  (data.outputData &&& 0xC0FF) ||| ((data.stationAddress &&& 0x3F) <<< 8)

def processTransmitQueue (card : Card) (echo : Bool) : Card :=
  if echo then
    let card := card.withStation (card.data.stationAddress.setWidth 6)
    let frame := echoFrame card.data
    let pushed := card.fifoPush frame
    if pushed.2 then ((pushed.1.withInputData frame).raiseInputEvent).completed
    else (card.holdOutput true).updateFifoStatus
  else card.completed

/-- The whole status word of the controller is replaced. -/
def clearController (card : Card) (isInput : Bool) : Card :=
  card.onData fun data =>
    if isInput then
      { data with
        statusRegister := .cleared
        inputData := 0
        rxFifo := data.rxFifo.clear
        busyRetry := data.busyRetry.clear
        inputIrqPending := false }
    else
      { data with
        outputStatusRegister := .cleared
        outputData := 0
        outputIrqPending := false }

def controlInterruptEnabled (control : Word) : Bool := control.getLsbD 0
def controlDeviceClear (control : Word) : Bool := control.getLsbD 4
def controlContinueAccp (control : Word) : Bool := control.getLsbD 5
def controlReset (control : Word) : Bool := control.getLsbD 6
def controlTestMode (control : Word) : Bool := control.getLsbD 7

def applyReset (card : Card) (control : Word) (isInput : Bool) : Card :=
  if controlReset control then (card.clearController isInput).updateInterrupt else card

def applyTestMode (card : Card) (control : Word) : Card :=
  if controlTestMode control then card.onData fun data => { data with loopbackMode := true }
  else card

def enableInterrupt (card : Card) (enabled isInput : Bool) : Card :=
  (if isInput then card.onStatus fun status => { status with interruptEnabled := enabled }
    else card.onOutputStatus fun status =>
      { status with interruptEnabled := enabled }).updateInterrupt

def applyClear (card : Card) (control : Word) (isInput : Bool) : Card :=
  if controlDeviceClear control then
    ((card.onData fun data => { data with clears := data.clears + 1 }).clearController
      isInput).updateInterrupt
  else card

def applyContinue (card : Card) (control : Word) : Card :=
  if controlContinueAccp control then
    card.onData fun data =>
      { data with
        mudomDetected := true
        continued := if data.continueAccp then data.continued + 1 else data.continued }
  else card

/-- The steps come in this order when a word has several bits. -/
def processControlChange (card : Card) (control : Word) (isInput : Bool) : Card :=
  ((((card.applyReset control isInput).applyTestMode control).enableInterrupt
    (controlInterruptEnabled control) isInput).applyClear control isInput).applyContinue control

/-- A read of the input data takes a word from the fifo and leaves room for a frame that waits. -/
def readInputData (card : Card) : Card × Word :=
  if 0 < card.data.rxFifo.count then
    let popped := card.fifoPop
    let card := popped.1.withInputData popped.2
    let card := card.pumpBusyRetry card.data.busyRetry.count
    (if 0 < card.data.rxFifo.count then card.raiseInputEvent else card, popped.2)
  else (card, card.data.inputData)

inductive ReadRegister where
  | inputData
  | inputStatus
  | outputData
  | outputStatus
  deriving DecidableEq, Repr

inductive WriteRegister where
  | inputData
  | inputControl
  | outputCommand
  | outputControl
  deriving DecidableEq, Repr

/-- The status of the input shows the own station. -/
def read (card : Card) : ReadRegister → Card × Word
  | .inputData => card.readInputData
  | .inputStatus =>
    (card,
      { card.data.statusRegister with
        station := card.data.stationAddress.setWidth 6 : OctobusInputStatus }.raw)
  | .outputData => (card, card.data.outputData)
  | .outputStatus => (card, card.data.outputStatusRegister.raw)

/-- A frame waits behind the frames that wait, and a frame is lost when too many wait. -/
def rxPush (card : Card) (word : Word) : Card × Bool :=
  if 0 < card.data.busyRetry.count ∨ octobusRxFifoWords ≤ card.data.rxFifo.count then
    if room : card.data.busyRetry.count < octobusBusyRetryWords then
      (card.onData fun data =>
        { data with
          busyRetry := card.data.busyRetry.put word room
          busyRetryParked := data.busyRetryParked + 1 }, true)
    else (card.onData fun data => { data with busyRetryDropped := data.busyRetryDropped + 1 }, false)
  else (card.landed word, true)

/-- The frame goes back to the card or onto the bus. -/
def deliver (card : Card) (value : Word) (answer : BusAnswer) : Card :=
  let dest := (value >>> 8) &&& 0x3F
  if octobusIsSelfLoop dest card.data.stationAddress then
    card.processTransmitQueue (card.data.loopbackMode || !card.data.cpuAttached)
  else if card.data.transmit = false then card.processTransmitQueue true
  else
    let card := answer.replies.foldl (fun card reply => (card.rxPush reply).1) card
    if answer.acknowledged then card
    else card.onOutputStatus fun status => { status with error := true, notPresent := true }

/-- The word is stored, and the result of the last transfer goes. -/
def startCommand (card : Card) (value : Word) : Card :=
  card.onData fun data =>
    { data with
      lastCommand := value
      commands := data.commands + 1
      outputData := value
      outputStatusRegister :=
        { data.outputStatusRegister with error := false, notPresent := false } }

/-- Registers that are still zero are loaded. -/
def loadRegisters (card : Card) (value : Word) : Card :=
  let card :=
    if card.data.statusRegister.station = 0 then
      card.withStation (card.data.stationAddress.setWidth 6)
    else card
  if card.data.inputData = 0 then card.withInputData value else card

/-- The transfer is complete when the output is not busy. -/
def completeCommand (card : Card) : Card :=
  if card.data.outputStatusRegister.busy then card
  else
    (card.onOutputStatus fun status => { status with readyForTransfer := true }).raiseOutputEvent

def writeOutputCommand (card : Card) (value : Word) (answer : BusAnswer) : Card :=
  ((((card.startCommand value).deliver value answer).updateFifoStatus).loadRegisters value).completeCommand

def write (card : Card) (register : WriteRegister) (value : Word) (answer : BusAnswer) : Card :=
  match register with
  | .inputData => card.withInputData value
  | .inputControl =>
    (card.onData fun data => { data with controlWord := value }).processControlChange value true
  | .outputCommand => card.writeOutputCommand value answer
  | .outputControl =>
    (card.onData fun data => { data with outputControlWord := value }).processControlChange value
      false

/-- An acknowledged request is off with its enable, and the input comes first. -/
def ident (card : Card) (level : Nat) : Card × Word :=
  if card.interruptBits.getLsbD level then
    if card.inputActive then
      ((card.onData fun data =>
        { data with
          inputIrqPending := false
          statusRegister := { data.statusRegister with interruptEnabled := false } }).updateInterrupt,
        card.data.identCode)
    else if card.data.outputIrqPending && card.data.outputStatusRegister.interruptEnabled then
      ((card.onData fun data =>
        { data with
          outputIrqPending := false
          outputStatusRegister :=
            { data.outputStatusRegister with interruptEnabled := false } }).updateInterrupt,
        card.data.identCode + 1)
    else (card.updateInterrupt, 0)
  else (card, 0)

def setTransmit (card : Card) (installed : Bool) : Card :=
  card.onData fun data => { data with transmit := installed }

def setContinueAccp (card : Card) (installed : Bool) : Card :=
  card.onData fun data => { data with continueAccp := installed }

/-- An attached processor turns the loopback off. -/
def setCpuAttached (card : Card) (attached : Bool) : Card :=
  card.onData fun data =>
    if attached then
      { data with cpuAttached := true, mudomDetected := true, loopbackMode := false }
    else { data with cpuAttached := false }

def emptyRing (size : Nat) (positive : 0 < size) : Ring Word size where
  slots := fun _ => 0
  head := 0
  count := 0
  inside := positive
  fits := Nat.zero_le _

/-- The identification code of a card follows its thumbwheel. -/
def create (thumbwheel : Fin 4) : Card :=
  let data : OctobusData :=
    { identCode := 0x20 + BitVec.ofNat 16 (2 * thumbwheel.val)
      statusRegister := ⟨false, false, false, 0⟩
      controlWord := 0
      outputStatusRegister := ⟨false, false, false, false, false⟩
      outputControlWord := 0
      inputData := 0
      outputData := 0
      stationAddress := 0
      rxFifo := emptyRing _ (by decide)
      busyRetry := emptyRing _ (by decide)
      busyRetryParked := 0
      busyRetryDropped := 0
      inputIrqPending := false
      lineHigh := false
      outputIrqPending := false
      transmit := false
      loopbackMode := false
      cpuAttached := false
      mudomDetected := false
      continueAccp := false
      continued := 0
      clears := 0
      commands := 0
      lastCommand := 0 }
  reset ⟨0, [], data⟩

end Card

end Nd100x.Octobus
