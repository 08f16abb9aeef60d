import Nd100x.Hdlc.ControlBlocks

namespace Nd100x.Hdlc

/- These are the bits of the receiver transfer status. -/
namespace Rts

def dataAvailable : Word := 0x0001
def receiverActive : Word := 0x0004
def syncFlagReceived : Word := 0x0008
def dmaModuleRequest : Word := 0x0010
def signalDetector : Word := 0x0020
def dataSetReady : Word := 0x0040
def blockEnd : Word := 0x0100
def frameEnd : Word := 0x0200
def listEnd : Word := 0x0400
def listEmpty : Word := 0x0800
def receiverOverrun : Word := 0x8000

/-- The seven bits from block end to the X.21 indications are cleared by a read. -/
def clearedByRead : Word := 0x7F00

end Rts

/- These are the bits of the receiver transfer control. -/
namespace Rtc

def enableReceiver : Word := 0x0004
def enableReceiverDMA : Word := 0x0008
def dmaModuleIE : Word := 0x0010
def blockEndIE : Word := 0x0100
def frameEndIE : Word := 0x0200
def listEndIE : Word := 0x0400

end Rtc

/-- At least one bit of the mask is set. -/
def anyBit (word mask : Word) : Bool := word &&& mask ≠ 0

inductive ReceiveStatus where
  | ok
  | bufferFull
  | noBuffer
  deriving DecidableEq, Repr

namespace Device

@[simps -fullyApplied] def putRxTransferStatus (s : Device) (status : Word) : Device :=
  { s with rxTransferStatus := status }

@[simps -fullyApplied] def putRxTransferControl (s : Device) (control : Word) : Device :=
  { s with rxTransferControl := control }

@[simps -fullyApplied] def putFrame (s : Device) (frame : Frame) : Device :=
  { s with hdlcReceiveFrame := frame }

@[simps -fullyApplied] def putQueue (s : Device) (queue : List Byte) : Device :=
  { s with tcpReceiveBuffer := queue }

@[simps -fullyApplied] def putDelay (s : Device) (delay : Nat) : Device :=
  { s with processTcpBufDelay := delay }

@[simps -fullyApplied] def setInterruptBit (s : Device) (level : Nat) : Device :=
  { s with interruptBits := s.interruptBits ||| BitVec.ofNat 16 (2 ^ level) }

/-- The stop only clears the active bit. -/
def stopReceiver (s : Device) : Device :=
  s.putRxTransferStatus (s.rxTransferStatus &&& ~~~Rts.receiverActive)

/-- The interrupt asks for the status that the enable bits select. -/
def requestsDma (control status flag : Word) : Bool :=
  anyBit flag Rts.listEmpty ||
    (anyBit control Rtc.blockEndIE && anyBit status Rts.blockEnd) ||
    (anyBit control Rtc.frameEndIE && anyBit status Rts.frameEnd) ||
    (anyBit control Rtc.listEndIE && anyBit status Rts.listEnd)

/-- The list is also empty when the next block is not. -/
def reportedFlag (s : Device) (flag : Word) : Word :=
  let flag := flag ||| (Rts.signalDetector ||| Rts.dataSetReady)
  if s.isNextRxbufValid then flag else flag ||| Rts.listEmpty

def setRxdmaFlag (s : Device) (flag : Word) : Device :=
  let s := if anyBit flag Rts.listEmpty then s.stopReceiver else s
  let flag := s.reportedFlag flag
  let status := s.rxTransferStatus ||| flag
  let status :=
    if requestsDma s.rxTransferControl status flag then status ||| Rts.dmaModuleRequest else status
  let s := s.putRxTransferStatus status
  let s := if anyBit flag Rts.listEmpty then s.record .listEmpty else s
  if anyBit s.rxTransferControl Rtc.dmaModuleIE && anyBit status Rts.dmaModuleRequest then
    s.setInterruptBit 13
  else s

def findNextReceiveBuffer (s : Device) : Device × Bool :=
  if s.rxKey = KeyFlag.emptyReceiverBlock then (s, true)
  else
    let (s, found) := s.loadNextRxBuffer
    if found then (s, true) else (s.setRxdmaFlag Rts.listEmpty, false)

/-- A full block is marked as a start of message and given back. The byte is then not written. -/
def receiveDataBufferByte (s : Device) (data : Byte) : Device × ReceiveStatus :=
  match s.rxDCB with
  | none => (s, .noBuffer)
  | some dcb =>
    if s.parameters.maxReceiverBlockLength ≤ dcb.dmaBytesWritten then
      let s := s.markBufferReceived 0x01
      let s := s.setRxdmaFlag (Rts.blockEnd ||| Rts.receiverActive ||| Rts.syncFlagReceived |||
        Rts.dataAvailable)
      (s.putRxDCB none, .bufferFull)
    else if dcb.key = KeyFlag.emptyReceiverBlock then (s.writeNextByteDma data, .ok)
    else (s, .ok)

/-- A byte that meets a full block is tried again in the next one. Every try fills an empty block
of the list, so that the tries come to an end. -/
def storeByte : Nat → Device → Byte → Device × Bool
  | 0, s, _ => (s, false)
  | tries + 1, s, data =>
    match s.receiveDataBufferByte data with
    | (s, .ok) => (s, true)
    | (s, .noBuffer) => (s, false)
    | (s, .bufferFull) =>
      match s.findNextReceiveBuffer with
      | (s, true) => storeByte tries s data
      | (s, false) => (s.setRxdmaFlag (Rts.listEmpty ||| Rts.receiverOverrun), false)

/-- The list has 129 entries, and the block at the start may be loaded from elsewhere. -/
def maxTries : Nat := 131

def storeBytes (s : Device) : List Byte → Device × Bool
  | [] => (s, true)
  | data :: rest =>
    match storeByte maxTries s data with
    | (s, true) => storeBytes s rest
    | (s, false) => (s, false)

def clearReceiveFrameState (s : Device) : Device := s.putFrame s.hdlcReceiveFrame.reset

/-- The last block is marked as the start and the end of the message. -/
def endFrame (s : Device) : Device :=
  (s.markBufferReceived 0x03).setRxdmaFlag (Rts.frameEnd ||| Rts.blockEnd ||| Rts.dataAvailable |||
    Rts.receiverActive ||| Rts.syncFlagReceived)

/-- The two check bytes are not stored. -/
def processCompleteFrame (s : Device) : Device × Bool :=
  if s.hdlcReceiveFrame.crcValid then
    let (s, stored) := s.storeBytes (s.hdlcReceiveFrame.bytes.take (s.hdlcReceiveFrame.frameLength - 2))
    let s := if stored then s.endFrame else s
    (s.clearReceiveFrameState, stored)
  else (s.clearReceiveFrameState, true)

/-- The next block is loaded for the next frame. -/
def finishFrame (s : Device) : Device :=
  let (s, _) := s.processCompleteFrame
  let (s, found) := s.loadNextRxBuffer
  if found then s else s.setRxdmaFlag Rts.listEmpty

/-- A block that is not empty is left behind. -/
def ensureRxBuffer (s : Device) : Device :=
  if s.rxKey = KeyFlag.emptyReceiverBlock then s else s.loadNextRxBuffer.1

/-- The bytes are pulled until one frame is complete or the queue is empty. -/
def pullBytes (s : Device) : List Byte → Device
  | [] => s
  | data :: rest =>
    let s := s.ensureRxBuffer
    if s.rxKey = KeyFlag.emptyReceiverBlock then
      let s := s.putQueue rest
      let (frame, complete) := s.hdlcReceiveFrame.addByte data
      let s := s.putFrame frame
      if complete then s.finishFrame else s.pullBytes rest
    else s.setRxdmaFlag (Rts.receiverOverrun ||| Rts.listEmpty)

def processBufferedData (s : Device) : Device :=
  if anyBit s.rxTransferControl Rtc.enableReceiverDMA ∧ s.rxDCB.isSome then
    s.pullBytes s.tcpReceiveBuffer
  else s

/-- The delay is shorter when many bytes are queued. -/
def backlogDelay (available : Nat) : Nat :=
  if 32768 < available then 50 else if 8192 < available then 200 else 500

def rxTick (s : Device) : Device :=
  if 0 < s.processTcpBufDelay then s.putDelay (s.processTcpBufDelay - 1)
  else if s.tcpReceiveBuffer = [] then s
  else
    let s := s.processBufferedData
    s.putDelay (backlogDelay s.tcpReceiveBuffer.length)

/-- The receiver is enabled, and a first empty block is sought. -/
def setReceiverState (s : Device) : Device :=
  let s := s.putRxTransferControl
    (s.rxTransferControl ||| (Rtc.enableReceiverDMA ||| Rtc.enableReceiver))
  let s := s.putRxTransferStatus
    ((s.rxTransferStatus &&& ~~~(Rts.receiverOverrun ||| Rts.listEmpty)) ||| Rts.receiverActive)
  let s := if s.rxDCB.isSome then s else s.loadRxBuffer
  s.findNextReceiveBuffer.1

/-- The start and the continue command do the same. -/
def commandReceiverStart (s : Device) (currentDMAAddress : Nat) : Device :=
  ((s.record .start).setRxPointer currentDMAAddress 0).setReceiverState

/-- Bytes that find no room in the queue are lost. -/
def receiveDataFromModem (capacity : Nat) (s : Device) (data : List Byte) : Device :=
  s.putQueue (s.tcpReceiveBuffer ++ data.take (capacity - s.tcpReceiveBuffer.length))

def onModemReceivedData (capacity : Nat) (s : Device) (data : List Byte) : Device :=
  if anyBit s.rxTransferStatus Rts.receiverActive then s.receiveDataFromModem capacity data else s

/-- The three transfer parameters are the fourth to sixth words of the block. -/
def commandInitialize (s : Device) (currentDMAAddress : Nat) : Device :=
  if currentDMAAddress = 0 then s
  else
    let parameters : ParameterBuffer :=
      { displacement1 := (s.dmaRead (currentDMAAddress + 3)).toNat
        displacement2 := (s.dmaRead (currentDMAAddress + 4)).toNat
        maxReceiverBlockLength := (s.dmaRead (currentDMAAddress + 5)).toNat }
    let checksum := s.dmaRead (currentDMAAddress + 6)
    let s := { s with parameters := parameters }
    if checksum = 0 then s.dmaWrite (currentDMAAddress + 6) 0x8474 else s

end Device

end Nd100x.Hdlc
