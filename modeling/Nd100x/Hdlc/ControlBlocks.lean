import Nd100x.Hdlc.Frame

namespace Nd100x.Hdlc

/-- A DMA transfer bypasses the page tables and reaches the installed words only. -/
structure CoreMemory where
  size : Nat
  words : Nat → Word

namespace CoreMemory

def dmaRead (memory : CoreMemory) (coreAddress : Nat) : Word :=
  if coreAddress % 2 ^ 24 < memory.size then memory.words (coreAddress % 2 ^ 24) else 0

def dmaWrite (memory : CoreMemory) (coreAddress : Nat) (data : Word) : CoreMemory :=
  if coreAddress % 2 ^ 24 < memory.size then
    { memory with words := Function.update memory.words (coreAddress % 2 ^ 24) data }
  else memory

end CoreMemory

namespace KeyFlag

def rcostRsom : Word := 0x0001
def rcostReom : Word := 0x0002
def blockDoneBit : Word := 0x0100
def emptyReceiverBlock : Word := 0x0200
def fullReceiverBlock : Word := 0x0300
def blockToBeTransmitted : Word := 0x0400
def alreadyTransmittedBlock : Word := 0x0500
def newListPointer : Word := 0x0600
def maskKey : Word := 0x0700
def maskDataflowCost : Word := 0x00FF

end KeyFlag

/-- A buffer description as loaded from memory, with the progress of its transfer. -/
structure Dcb where
  bufferAddress : Nat
  keyValue : Word
  byteCount : Word
  mostAddress : Word
  leastAddress : Word
  displacement : Word
  listPointer : Nat
  dmaAddress : Nat
  dmaBytesRead : Nat
  dmaBytesWritten : Nat
  /-- This is the last word read, or nothing. -/
  dmaReadData : Option Word

namespace Dcb

def init : Dcb where
  bufferAddress := 0
  keyValue := 0
  byteCount := 0
  mostAddress := 0
  leastAddress := 0
  displacement := 0
  listPointer := 0
  dmaAddress := 0
  dmaBytesRead := 0
  dmaBytesWritten := 0
  dmaReadData := none

def key (dcb : Dcb) : Word := dcb.keyValue &&& KeyFlag.maskKey

def hasRsomFlag (dcb : Dcb) : Bool := dcb.keyValue &&& KeyFlag.rcostRsom ≠ 0

def hasReomFlag (dcb : Dcb) : Bool := dcb.keyValue &&& KeyFlag.rcostReom ≠ 0

def dataFlowCost (dcb : Dcb) : Word := dcb.keyValue &&& KeyFlag.maskDataflowCost

/-- The data address has twenty-four bits. -/
def dataMemoryAddress (dcb : Dcb) : Nat :=
  (dcb.mostAddress &&& 0x00FF#16).toNat * 2 ^ 16 + dcb.leastAddress.toNat

/-- The first byte read skips the displacement. -/
def skipRead (dcb : Dcb) : Dcb :=
  if dcb.dmaBytesRead = 0 ∧ 0 < dcb.displacement.toNat then
    { dcb with
      dmaBytesRead := dcb.dmaBytesRead + dcb.displacement.toNat
      dmaAddress := dcb.dmaAddress + dcb.displacement.toNat / 2 }
  else dcb

/-- An even byte is the high half of a fresh word. An odd byte is the low half of the word read
before, if there is one. -/
def readNextByteDma (dcb : Dcb) (memory : CoreMemory) : Dcb × Byte :=
  let dcb := dcb.skipRead
  if dcb.dmaBytesRead % 2 = 0 then
    let word := memory.dmaRead dcb.dmaAddress
    ({ dcb with
       dmaReadData := some word
       dmaBytesRead := dcb.dmaBytesRead + 1 }, (word >>> 8).setWidth 8)
  else
    let word := dcb.dmaReadData.getD (memory.dmaRead dcb.dmaAddress)
    ({ dcb with
       dmaReadData := some word
       dmaAddress := dcb.dmaAddress + 1
       dmaBytesRead := dcb.dmaBytesRead + 1 }, (word &&& 0x00FF#16).setWidth 8)

/-- The first byte written skips the displacement. -/
def skipWrite (dcb : Dcb) : Dcb :=
  if dcb.dmaBytesWritten = 0 ∧ 0 < dcb.displacement.toNat then
    { dcb with
      dmaBytesWritten := dcb.dmaBytesWritten + dcb.displacement.toNat
      dmaAddress := dcb.dmaAddress + dcb.displacement.toNat / 2 }
  else dcb

/-- The address moves on after an odd byte. -/
def advanceWrite (dcb : Dcb) : Dcb :=
  { dcb with
    dmaAddress := if dcb.dmaBytesWritten % 2 = 0 then dcb.dmaAddress else dcb.dmaAddress + 1
    dmaBytesWritten := dcb.dmaBytesWritten + 1 }

end Dcb

/-- These parameters are read from memory by the initialize command. -/
structure ParameterBuffer where
  displacement1 : Nat
  displacement2 : Nat
  maxReceiverBlockLength : Nat

inductive SenderState where
  | stopped
  | blockReadyToSend
  deriving DecidableEq, Repr

/-- The trace shows what the receiver does to memory, which descriptors it gives back and what it
reports. -/
inductive Event where
  | load (offset : Nat)
  | write (address : Nat) (data : Word)
  | returned (address : Nat) (keyValue : Word)
  | listEmpty
  | start
  deriving DecidableEq, Repr

/-- This is the DMA side of one HDLC device: its control blocks, its registers, its receive queue
and the memory on the other side of the bus. The serial chip and the counters are left out. -/
structure Device where
  memory : CoreMemory
  parameters : ParameterBuffer
  outboundBuffer : List Byte
  txListPointer : Nat
  txListPointerOffset : Nat
  txDCB : Option Dcb
  rxListPointer : Nat
  rxListPointerOffset : Nat
  rxDCB : Option Dcb
  hdlcReceiveFrame : Frame
  dmaSenderState : SenderState
  rxTransferStatus : Word
  rxTransferControl : Word
  txTransferStatus : Word
  txTransferControl : Word
  interruptBits : Word
  tcpReceiveBuffer : List Byte
  processTcpBufDelay : Nat
  /-- These are the wires handed to the send callback. -/
  sent : List (List Byte)
  /-- This tells whether a copy ran past the end of a frame buffer. -/
  overrun : Bool
  events : List Event

namespace Device

@[simps -fullyApplied] def putMemory (s : Device) (memory : CoreMemory) : Device :=
  { s with memory := memory }

@[simps -fullyApplied] def putTxDCB (s : Device) (dcb : Option Dcb) : Device :=
  { s with txDCB := dcb }

@[simps -fullyApplied] def putRxDCB (s : Device) (dcb : Option Dcb) : Device :=
  { s with rxDCB := dcb }

@[simps -fullyApplied] def putTxListPointerOffset (s : Device) (offset : Nat) : Device :=
  { s with txListPointerOffset := offset }

@[simps -fullyApplied] def putRxListPointerOffset (s : Device) (offset : Nat) : Device :=
  { s with rxListPointerOffset := offset }

@[simps -fullyApplied] def record (s : Device) (event : Event) : Device :=
  { s with events := s.events ++ [event] }

def dmaRead (s : Device) (address : Nat) : Word := s.memory.dmaRead address

def dmaWrite (s : Device) (address : Nat) (data : Word) : Device :=
  s.putMemory (s.memory.dmaWrite address data)

/-- The trace shows the writes of the receiver. -/
def rxDmaWrite (s : Device) (address : Nat) (data : Word) : Device :=
  (s.dmaWrite address data).record (.write address data)

/-- The three further words of a description are read unless the key word is zero. -/
def readDcbWords (s : Device) (description : Dcb) (address : Nat) : Dcb :=
  let keyValue := s.dmaRead address
  if keyValue = 0 then { description with keyValue := keyValue }
  else
    { description with
      keyValue := keyValue
      byteCount := s.dmaRead (address + 1)
      mostAddress := s.dmaRead (address + 2) &&& 0x00FF#16
      leastAddress := s.dmaRead (address + 3) }

/-- The first buffer in the list uses the first displacement. -/
def pickDisplacement (s : Device) (offset : Nat) : Word :=
  if offset = 0 then BitVec.ofNat 16 s.parameters.displacement1
  else BitVec.ofNat 16 s.parameters.displacement2

def loadBufferDescription (s : Device) (listPointer offset : Nat) : Option Dcb :=
  if listPointer = 0 then none
  else
    let actual := listPointer + offset * 4
    let description := s.readDcbWords { Dcb.init with
      listPointer := actual
      bufferAddress := actual } actual
    some { description with
      displacement := s.pickDisplacement offset
      dmaAddress := description.dataMemoryAddress
      dmaReadData := none
      dmaBytesWritten := 0
      dmaBytesRead := 0 }

section Transmit

/-- The offset of the load has sixteen bits. -/
def loadTxBuffer (s : Device) : Device :=
  s.putTxDCB (s.loadBufferDescription s.txListPointer (s.txListPointerOffset % 2 ^ 16))

def setTxPointer (s : Device) (listPointer : Nat) : Device :=
  loadTxBuffer { s with txListPointer := listPointer, txListPointerOffset := 0 }

/-- A missing description has key zero. -/
def txKey (s : Device) : Word := (s.txDCB.map Dcb.key).getD 0

def loadNextTxBuffer (s : Device) : Device × Bool :=
  let s := (s.putTxListPointerOffset (s.txListPointerOffset + 1)).loadTxBuffer
  (s, s.txKey = KeyFlag.blockToBeTransmitted)

def markBufferSent (s : Device) : Device :=
  match s.txDCB with
  | none => s
  | some dcb =>
    if dcb.key = KeyFlag.blockToBeTransmitted then
      let data := dcb.dataFlowCost ||| KeyFlag.alreadyTransmittedBlock
      (s.putTxDCB (some { dcb with keyValue := data })).dmaWrite dcb.bufferAddress data
    else s

end Transmit

section Receive

def loadRxBuffer (s : Device) : Device :=
  match s.loadBufferDescription s.rxListPointer s.rxListPointerOffset with
  | none => s.putRxDCB none
  | some dcb => (s.putRxDCB (some dcb)).record (.load s.rxListPointerOffset)

def setRxPointer (s : Device) (listPointer offset : Nat) : Device :=
  loadRxBuffer { s with rxListPointer := listPointer, rxListPointerOffset := offset }

/-- A missing description has key zero. -/
def rxKey (s : Device) : Word := (s.rxDCB.map Dcb.key).getD 0

/-- The list has at most 129 entries. A new list pointer leads back to the first entry. -/
def loadNextRxBuffer (s : Device) : Device × Bool :=
  let offset := if 128 < s.rxListPointerOffset + 1 then 0 else s.rxListPointerOffset + 1
  let s := (s.putRxListPointerOffset offset).loadRxBuffer
  let s := if s.rxKey = KeyFlag.newListPointer then (s.putRxListPointerOffset 0).loadRxBuffer else s
  (s, s.rxKey = KeyFlag.emptyReceiverBlock)

def isNextRxbufValid (s : Device) : Bool :=
  s.dmaRead (s.rxListPointer + (s.rxListPointerOffset + 1) * 4) &&& KeyFlag.maskKey =
    KeyFlag.emptyReceiverBlock

/-- The receiver status enters the low byte of the key word of an empty block. -/
def markBufferReceived (s : Device) (rxStatus : Byte) : Device :=
  match s.rxDCB with
  | none => s
  | some dcb =>
    if dcb.key = KeyFlag.emptyReceiverBlock then
      let keyValue :=
        ((dcb.keyValue &&& 0xFF00#16) ||| rxStatus.setWidth 16) ||| KeyFlag.blockDoneBit
      ((s.putRxDCB (some { dcb with keyValue := keyValue })).rxDmaWrite dcb.bufferAddress
        keyValue).record (.returned dcb.bufferAddress keyValue)
    else s

/-- The byte is merged into its word, and the byte count of the description is updated. -/
def writeNextByteDma (s : Device) (data : Byte) : Device :=
  match s.rxDCB with
  | none => s
  | some dcb =>
    let dcb := dcb.skipWrite
    let memData := s.dmaRead dcb.dmaAddress
    let merged :=
      if dcb.dmaBytesWritten % 2 = 0 then (memData &&& 0x00FF#16) ||| (data.setWidth 16 <<< 8)
      else (memData &&& 0xFF00#16) ||| data.setWidth 16
    let next := dcb.advanceWrite
    ((s.putRxDCB (some next)).rxDmaWrite dcb.dmaAddress merged).rxDmaWrite
      (dcb.listPointer + 1) (BitVec.ofNat 16 next.dmaBytesWritten)

end Receive

end Device

end Nd100x.Hdlc
