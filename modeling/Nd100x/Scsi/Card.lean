import Nd100x.Hdlc.ControlBlocks
import Nd100x.Library.ByteMemory
import Mathlib.Tactic.SplitIfs

namespace Nd100x.Scsi

open Nd100x.Hdlc (CoreMemory)

/-- The memory address register has 24 bits in two parts. -/
structure Card where
  memoryAddressLSB : BitVec 16
  memoryAddressMSB : BitVec 8
  interruptEnabled : Bool
  active : Bool
  readyForTransfer : Bool
  testMode : Bool
  dmaEnable : Bool
  writeNDMemory : Bool
  resetOnSCSIBus : Bool
  dataRequestFromNCR : Bool
  interruptFromNCR : Bool
  dmaBytesRead : BitVec 32
  dmaBytesWritten : BitVec 32
  dmaReadData : BitVec 16
  interruptBits : BitVec 16
  memory : CoreMemory

def scsiInterruptLevel : Nat := 11

namespace Card

def getMar (card : Card) : Nat :=
  card.memoryAddressMSB.toNat <<< 16 ||| card.memoryAddressLSB.toNat

def incrementMar (card : Card) : Card :=
  let m := card.getMar + 1
  { card with
    memoryAddressLSB := BitVec.ofNat 16 m
    memoryAddressMSB := BitVec.ofNat 8 (m >>> 16) }

def generateInterrupt (card : Card) : Card :=
  { card with interruptBits := card.interruptBits ||| BitVec.twoPow 16 scsiInterruptLevel }

/-- An even byte fetches its word and an odd byte comes from the latch. -/
def readNextByteDma (card : Card) : BitVec 8 × Card :=
  let fetched :=
    if card.dmaBytesRead % 2 = 0 then
      let data := card.memory.dmaRead card.getMar
      ((data >>> 8).setWidth 8, { card with dmaReadData := data }.incrementMar)
    else (card.dmaReadData.setWidth 8, card)
  (fetched.1, { fetched.2 with dmaBytesRead := fetched.2.dmaBytesRead + 1 })

/-- A byte is merged into its word, and an odd byte moves on. -/
def writeNextByteDma (card : Card) (byte : BitVec 8) : Card :=
  let data := card.memory.dmaRead card.getMar
  let high := (data &&& 0x00FF) ||| (byte.setWidth 16 <<< 8)
  let low := (data &&& 0xFF00) ||| byte.setWidth 16
  let written :=
    if card.dmaBytesWritten % 2 = 0 then
      { card with memory := card.memory.dmaWrite card.getMar high }
    else { card with memory := card.memory.dmaWrite card.getMar low }.incrementMar
  { written with dmaBytesWritten := written.dmaBytesWritten + 1 }

end Card

/-- The chip gives or takes a byte, then asks for another or not, and may interrupt. -/
structure DmaCycle where
  byte : BitVec 8
  request : Bool
  interrupt : Bool

namespace Card

def ncrAnswers (card : Card) (request interrupt : Bool) : Card :=
  { card with
    dataRequestFromNCR := request
    interruptFromNCR := card.interruptFromNCR || interrupt }

/-- One round of the transfer loop gives the byte that it moved. -/
def transfer (card : Card) (cycle : DmaCycle) : BitVec 8 × Card :=
  if card.writeNDMemory then
    (cycle.byte, (card.ncrAnswers cycle.request cycle.interrupt).writeNextByteDma cycle.byte)
  else
    let read := card.readNextByteDma
    (read.1, read.2.ncrAnswers cycle.request cycle.interrupt)

/-- The loop goes on while the chip asks for bytes. -/
def transfers (card : Card) : List DmaCycle → List (BitVec 8) × Card
  | [] => ([], card)
  | cycle :: rest =>
    if card.dataRequestFromNCR && card.active then
      let moved := card.transfer cycle
      let later := moved.2.transfers rest
      (moved.1 :: later.1, later.2)
    else ([], card)

/-- The interrupt of the chip ends the operation. -/
def complete (card : Card) : Card :=
  if card.interruptFromNCR then
    let done := { card with active := false, readyForTransfer := true }
    if done.interruptEnabled then done.generateInterrupt else done
  else card

def stepGoState (card : Card) (cycles : List DmaCycle) : List (BitVec 8) × Card :=
  if card.active then
    let completed := card.complete
    if completed.dmaEnable then completed.transfers cycles else ([], completed)
  else ([], card)

/-- What the chip does at a clear or at a reset of the bus it tells at a clock. -/
def writeControl (card : Card) (value : BitVec 16) : Card :=
  let loaded := { card with
    interruptEnabled := value.getLsbD 0
    active := value.getLsbD 2
    testMode := value.getLsbD 3
    dmaEnable := value.getLsbD 5
    writeNDMemory := value.getLsbD 6
    readyForTransfer := true }
  let cleared :=
    if value.getLsbD 4 then
      { loaded with
        memoryAddressLSB := 0
        memoryAddressMSB := 0
        dmaBytesRead := 0
        dmaBytesWritten := 0
        readyForTransfer := true }
    else loaded
  let reset := { cleared with
    resetOnSCSIBus := value.getLsbD 10
    readyForTransfer := cleared.readyForTransfer || value.getLsbD 10 }
  if reset.active then
    { reset with readyForTransfer := false, dmaBytesRead := 0, dmaBytesWritten := 0 }
  else if reset.interruptEnabled && reset.readyForTransfer then reset.generateInterrupt
  else reset

end Card

/-- While an operation is under way the chip is clocked, the card steps, and the guest may
acknowledge the interrupt of the chip. -/
inductive CardStep
  | clock (request interrupt : Bool)
  | step (cycles : List DmaCycle)
  | acknowledge

namespace Card

def take (card : Card) : CardStep → List (BitVec 8) × Card
  | .clock request interrupt => ([], card.ncrAnswers request interrupt)
  | .step cycles => card.stepGoState cycles
  | .acknowledge => ([], { card with interruptFromNCR := false })

def takeAll (card : Card) : List CardStep → List (BitVec 8) × Card
  | [] => ([], card)
  | step :: rest =>
    let first := card.take step
    let later := first.2.takeAll rest
    (first.1 ++ later.1, later.2)

end Card

/-- A GO is a control word that activates, and what follows until the next one. -/
structure Go where
  control : BitVec 16
  steps : List CardStep

/-- The operation moves words by DMA in this direction, and the card is not cleared. -/
def Go.Moves (go : Go) (toMemory : Bool) : Prop :=
  go.control.getLsbD 2 = true ∧ go.control.getLsbD 4 = false ∧ go.control.getLsbD 5 = true ∧
    go.control.getLsbD 6 = toMemory

instance (go : Go) (toMemory : Bool) : Decidable (go.Moves toMemory) :=
  inferInstanceAs (Decidable (_ ∧ _))

namespace Card

/-- Each GO gives the bytes that it moved. -/
def goes (card : Card) : List Go → List (List (BitVec 8)) × Card
  | [] => ([], card)
  | go :: rest =>
    let moved := (card.writeControl go.control).takeAll go.steps
    let later := moved.2.goes rest
    (moved.1 :: later.1, later.2)

end Card

end Nd100x.Scsi
