import Nd100x.Hdlc.Receiver

namespace Nd100x.Hdlc

/- These are the bits of the transmitter transfer status. -/
namespace Tts

def dmaModuleRequest : Word := 0x0010
def blockEnd : Word := 0x0100
def frameEnd : Word := 0x0200
def listEnd : Word := 0x0400
def transmissionFinished : Word := 0x0800

end Tts

/- These are the bits of the transmitter transfer control. -/
namespace Ttc

def transmitterEnabled : Word := 0x0004
def dmaModuleIE : Word := 0x0010
def blockEndIE : Word := 0x0100
def frameEndIE : Word := 0x0200
def listEndIE : Word := 0x0400

end Ttc

/-- A frame of the maximal size is stuffed into a buffer with some room. -/
def outboundBufferCapacity : Nat := maxFrameSize + 64

def frameBufferSize : Nat := maxFrameSize + 10

theorem Dcb.readNextByteDma_advances (dcb : Dcb) (memory : CoreMemory) :
    dcb.dmaBytesRead < (dcb.readNextByteDma memory).1.dmaBytesRead := by
  have skipped : dcb.dmaBytesRead ≤ dcb.skipRead.dmaBytesRead := by
    rw [skipRead]
    split_ifs
    · exact Nat.le_add_right _ _
    · exact Nat.le_refl _
  simp only [readNextByteDma]
  split_ifs <;> exact Nat.lt_succ_of_le skipped

/-- The bytes of a block are read until the count is reached. A full outbound buffer drops them. -/
def Dcb.readBlock (memory : CoreMemory) (bytesToSend : Nat) (dcb : Dcb) (outbound : List Byte) :
    Dcb × List Byte :=
  if dcb.dmaBytesRead < bytesToSend then
    (dcb.readNextByteDma memory).1.readBlock memory bytesToSend
      (if outbound.length < outboundBufferCapacity then
        outbound ++ [(dcb.readNextByteDma memory).2]
      else outbound)
  else (dcb, outbound)
termination_by bytesToSend - dcb.dmaBytesRead
decreasing_by
  have advances := dcb.readNextByteDma_advances memory
  omega

namespace Device

@[simps -fullyApplied] def putOutboundBuffer (s : Device) (outbound : List Byte) : Device :=
  { s with outboundBuffer := outbound }

@[simps -fullyApplied] def putTxTransferStatus (s : Device) (status : Word) : Device :=
  { s with txTransferStatus := status }

/-- The wire is copied into the buffer of a frame and is handed to the callback. -/
@[simps -fullyApplied] def sendWire (s : Device) (wire : List Byte) : Device :=
  { s with
    sent := s.sent ++ [wire]
    overrun := s.overrun || decide (maxFrameSize < wire.length) }

def setTxdmaFlag (s : Device) (flag : Word) : Device :=
  let status := s.txTransferStatus ||| flag
  let requested := anyBit flag Tts.transmissionFinished ||
    (anyBit s.txTransferControl Ttc.blockEndIE && anyBit status Tts.blockEnd) ||
    (anyBit s.txTransferControl Ttc.frameEndIE && anyBit status Tts.frameEnd) ||
    (anyBit s.txTransferControl Ttc.listEndIE && anyBit status Tts.listEnd)
  let status := if requested then status ||| Tts.dmaModuleRequest else status
  let s := s.putTxTransferStatus status
  if anyBit s.txTransferControl Ttc.dmaModuleIE && anyBit status Tts.dmaModuleRequest then
    s.setInterruptBit 12
  else s

/-- A frame that does not fit the frame buffer is not sent. -/
def sendOutboundFrame (s : Device) : Device :=
  if s.outboundBuffer = [] then s
  else
    match buildFrame s.outboundBuffer frameBufferSize with
    | none => s
    | some wire => s.sendWire wire

/-- The stopped sender goes back to the start of its list. -/
def stopSender (s : Device) : Device :=
  { s with
    dmaSenderState := .stopped
    txTransferControl := s.txTransferControl &&& ~~~Ttc.transmitterEnabled
    txListPointerOffset := 0
    txDCB := none }

/-- The count of bytes to send has sixteen bits. -/
def readTxBlock (s : Device) (dcb : Dcb) : Device :=
  let read := dcb.readBlock s.memory (dcb.byteCount + dcb.displacement).toNat s.outboundBuffer
  (s.putTxDCB (some read.1)).putOutboundBuffer read.2

/-- A block with RSOM starts a frame, and a block with REOM ends it. -/
def sendBlock (s : Device) (dcb : Dcb) : Device × Word :=
  let s := if dcb.hasRsomFlag then s.putOutboundBuffer [] else s
  let s := s.readTxBlock dcb
  if dcb.hasReomFlag then
    ((s.sendOutboundFrame.putOutboundBuffer []).markBufferSent, Tts.blockEnd ||| Tts.frameEnd)
  else (s.markBufferSent, Tts.blockEnd)

/-- The skip of the blocks that are already transmitted is part of the loop. The loop runs forever
when every descriptor of the list is such a block. -/
def sendLoop : Nat → Device → Option Device
  | 0, _ => none
  | fuel + 1, s =>
    match s.txDCB with
    | none => some s
    | some dcb =>
      if dcb.key = KeyFlag.alreadyTransmittedBlock then sendLoop fuel s.loadNextTxBuffer.1
      else if dcb.key = KeyFlag.blockToBeTransmitted then
        let (s, flag) := s.sendBlock dcb
        let (s, more) := s.loadNextTxBuffer
        if more then sendLoop fuel (s.setTxdmaFlag flag)
        else some (s.setTxdmaFlag
          (flag ||| (Tts.transmissionFinished ||| Tts.listEnd))).stopSender
      else some (s.setTxdmaFlag (Tts.transmissionFinished ||| Tts.listEnd)).stopSender

def sendAllBuffers (fuel : Nat) (s : Device) : Option Device :=
  if s.txListPointer = 0 then some s else sendLoop fuel s.loadTxBuffer

end Device

end Nd100x.Hdlc
