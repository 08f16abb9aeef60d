import Nd100x.Devices.Device
import Nd100x.Ethernet.MfpParts
import Nd100x.Library.Runs

namespace Nd100x.Ethernet

open Nd100x.Library Nd100x.Devices


def ethInterruptLevel : Nat := 12
def ethBankStepPerCard : Nat := 4
def ethBaseBank : Nat := 16

/-- Registers are offsets from the first address of a card. -/
def ethRegisterReadDataRegister : BitVec 32 := 0
def ethRegisterWriteDataBuffer : BitVec 32 := 1
def ethRegisterReadStatusRegister : BitVec 32 := 2
def ethRegisterWriteControlWord : BitVec 32 := 3

/-- The chips and the 68000 of a card, as the ND-100 side drives them. -/
structure BoardOps (Board : Type) where
  create (physicalPageStart : BitVec 32) : Board
  reset : Board → Board
  initializeMfpFromFirmware : Board → Board
  cpuReset : Board → Board
  gpioInput (bit : Nat) (state : Bool) : Board → Board
  setInterrupt (level : Nat) (state : Bool) : Board → Board
  enableInterrupts (enabled : Bool) : Board → Board
  clock : Board → Board
  cpuTick (haltLine : Bool) : Board → Board
  pollNetwork : Board → Board

structure EthCard (Board : Type) where
  startAddress : BitVec 32
  identCode : Word
  thumbwheel : Nat
  memoryBank : Word
  physicalPageStart : BitVec 32
  board : Board
  interruptEnabled : Bool
  scipPending : Bool
  ndInterrupt : Bool
  previousNdInterrupt : Bool
  startOpcom : Bool
  previousStartOpcom : Bool
  reset : Bool
  previousReset : Bool
  halt : Bool
  powerLow : Bool
  previousPowerLow : Bool
  disableCheckBit : Bool
  firstBusErrorOccurred : Bool

/-- No delay is queued on a card. -/
abbrev EthDevice (Board : Type) := Device Empty (EthCard Board)

def ethBase : Fin 4 → BitVec 32
  | 0 => 0o140360
  | 1 => 0o140364
  | 2 => 0o140370
  | 3 => 0o140374

def ethIdent : Fin 4 → Word
  | 0 => 0o140034
  | 1 => 0o140035
  | 2 => 0o140036
  | 3 => 0o140037

namespace EthDevice

variable {Board : Type} (ops : BoardOps Board)

/-- A card whose memory window is mapped starts halted and in reset. -/
def create (thumbwheel memoryBankStrap : Nat) (windowMapped : Bool) : Option (EthDevice Board) :=
  if valid : thumbwheel < 4 then
    if memoryBankStrap % 4 ≠ 0 ∨ windowMapped = false then none
    else
      let memoryBank : Word :=
        if memoryBankStrap ≠ 0 then BitVec.ofNat 16 memoryBankStrap
        else BitVec.ofNat 16 (ethBaseBank + ethBankStepPerCard * thumbwheel)
      let physicalPageStart : BitVec 32 := memoryBank.setWidth 32 * 0x40 * 2048
      some
        { interruptBits := 0
          ioDelays := []
          data :=
            { startAddress := ethBase ⟨thumbwheel, valid⟩
              identCode := ethIdent ⟨thumbwheel, valid⟩
              thumbwheel := thumbwheel
              memoryBank := memoryBank
              physicalPageStart := physicalPageStart
              board := ops.cpuReset (ops.create physicalPageStart)
              interruptEnabled := false
              scipPending := false
              ndInterrupt := false
              previousNdInterrupt := false
              startOpcom := false
              previousStartOpcom := false
              reset := true
              previousReset := true
              halt := true
              powerLow := false
              previousPowerLow := false
              disableCheckBit := false
              firstBusErrorOccurred := false } }
  else none

def onCard (device : EthDevice Board) (change : EthCard Board → EthCard Board) :
    EthDevice Board := { device with data := change device.data }

def onBoard (device : EthDevice Board) (change : Board → Board) : EthDevice Board :=
  device.onCard fun card => { card with board := change card.board }

/-- The request latch is set or cleared. -/
def putScip (device : EthDevice Board) (pending : Bool) : EthDevice Board :=
  device.onCard fun card => { card with scipPending := pending }

def interruptBit (device : EthDevice Board) : Bool :=
  device.interruptBits.getLsbD ethInterruptLevel

def setInterruptBit (device : EthDevice Board) (active : Bool) : EthDevice Board :=
  device.setInterruptStatus active ethInterruptLevel

/-- The 68000 asks for the ND-100. -/
def onNdInterrupt (device : EthDevice Board) : EthDevice Board :=
  let device := device.putScip true
  if device.data.interruptEnabled then device.setInterruptBit true else device

def reset (device : EthDevice Board) : EthDevice Board :=
  device.onCard fun card =>
    { card with
      interruptEnabled := false
      ndInterrupt := false
      startOpcom := false
      powerLow := false
      disableCheckBit := false
      scipPending := false
      firstBusErrorOccurred := false
      reset := true
      halt := true
      board := ops.reset card.board }

def registerAddress (device : EthDevice Board) (address : BitVec 32) : BitVec 32 :=
  address - device.data.startAddress

def statusBit (flag : Bool) (place : Nat) : Word := (BitVec.ofBool flag).setWidth 16 <<< place

/-- The data register and the status register read alike. -/
def read (device : EthDevice Board) (address : BitVec 32) : Word :=
  let register := device.registerAddress address
  if register = ethRegisterReadDataRegister ∨ register = ethRegisterReadStatusRegister then
    (device.data.memoryBank <<< 8) ||| statusBit device.data.halt 5 |||
      statusBit device.data.reset 4 ||| statusBit device.interruptBit 2 |||
      statusBit device.data.interruptEnabled 0
  else 0

/-- The bits of a control word are stored. -/
def storeControl (device : EthDevice Board) (value : Word) : EthDevice Board :=
  device.onCard fun card =>
    { card with
      interruptEnabled := value.getLsbD 0
      previousNdInterrupt := card.ndInterrupt
      previousStartOpcom := card.startOpcom
      previousReset := card.reset
      previousPowerLow := card.powerLow
      ndInterrupt := value.getLsbD 2
      startOpcom := value.getLsbD 3
      reset := value.getLsbD 4
      halt := value.getLsbD 5
      powerLow := value.getLsbD 6
      disableCheckBit := value.getLsbD 8 }

/-- While a request is latched, the interrupt follows the enable bit. -/
def updateScip (device : EthDevice Board) : EthDevice Board :=
  if device.data.scipPending then
    if device.data.interruptEnabled then
      if device.interruptBit then device else device.setInterruptBit true
    else if device.interruptBit then device.setInterruptBit false
    else device
  else device

/-- A rising reset bit resets the board, and a falling one starts its processor. -/
def followReset (device : EthDevice Board) : EthDevice Board :=
  if device.data.reset && !device.data.previousReset then
    (device.onBoard ops.reset).putScip false
  else if !device.data.reset && device.data.previousReset then
    device.onBoard (ops.cpuReset ∘ ops.initializeMfpFromFirmware)
  else device

/-- Each write with the interrupt bit strobes pin 6 of the MFP. -/
def strobeBoard (card : EthCard Board) (board : Board) : Board :=
  let strobed :=
    if card.ndInterrupt then ops.gpioInput 6 true (ops.gpioInput 6 false board)
    else ops.gpioInput 6 true board
  let started := if card.startOpcom then ops.setInterrupt 6 true strobed else strobed
  ops.enableInterrupts (!card.halt && !card.reset) started

/-- A write to the data buffer is a write of the control word. -/
def takesControl (device : EthDevice Board) (address : BitVec 32) : Bool :=
  let register := device.registerAddress address
  register = ethRegisterWriteDataBuffer || register = ethRegisterWriteControlWord

def write (device : EthDevice Board) (address : BitVec 32) (value : Word) : EthDevice Board :=
  if device.takesControl address then
    let device := followReset ops (device.storeControl value).updateScip
    device.onBoard (strobeBoard ops device.data)
  else device

def ident (device : EthDevice Board) (level : Nat) : EthDevice Board × Word :=
  if device.interruptBits.getLsbD level then
    let device := device.onCard fun card =>
      { card with interruptEnabled := false, scipPending := false }
    let device := device.setInterruptStatus false level
    (device, device.data.identCode)
  else (device, 0)

/-- In one tick the processor runs one instruction, which may ask for the ND-100. -/
def tick (device : EthDevice Board) (requests : Nat) : EthDevice Board :=
  let stopped := device.data.halt || device.data.reset
  let device := device.onBoard (ops.cpuTick stopped ∘ ops.clock)
  let device := if stopped then device else onNdInterrupt^[requests] device
  device.onBoard ops.pollNetwork

end EthDevice

end Nd100x.Ethernet
