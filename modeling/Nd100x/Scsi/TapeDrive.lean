import Nd100x.Scsi.Target
import Nd100x.Scsi.TapeRefinement

namespace Nd100x.Scsi

open Nd100x.Library

def tdcSkVolumeOverflow : Byte := 0x0D
def tdcSkMiscompare : Byte := 0x0E

def tdcSenseFm : Byte := 0x80
def tdcSenseEom : Byte := 0x40

def tdcEcNone : Byte := 0x00
def tdcEcNotLoaded : Byte := 0x09
def tdcEcCapacity : Byte := 0x0A
def tdcEcUncorrectable : Byte := 0x11
def tdcEcNoRecord : Byte := 0x14
def tdcEcWriteProt : Byte := 0x17
def tdcEcBadBlock : Byte := 0x19
def tdcEcFilemark : Byte := 0x1C
def tdcEcCompare : Byte := 0x1D
def tdcEcInvalidCmd : Byte := 0x20
def tdcEcUnitAttn : Byte := 0x30
def tdcEcAppend : Byte := 0x33
def tdcEcReadEom : Byte := 0x34

def tdcXOk : Byte := 0x00
def tdcXAppn : Byte := 0x01
def tdcXBadc : Byte := 0x02
def tdcXBadp : Byte := 0x03
def tdcXComp : Byte := 0x08
def tdcXFimk : Byte := 0x0B
def tdcXIlcm : Byte := 0x0D
def tdcXInap : Byte := 0x10
def tdcXNcar : Byte := 0x12
def tdcXNlod : Byte := 0x13
def tdcXQrnd : Byte := 0x15
def tdcXRdwr : Byte := 0x16
def tdcXReol : Byte := 0x17
def tdcXReop : Byte := 0x18
def tdcXUatt : Byte := 0x1C
def tdcXWeow : Byte := 0x1D
def tdcXWeom : Byte := 0x1E
def tdcXWpro : Byte := 0x1F
def tdcX16rw : Byte := 0x20
def tdcX24re : Byte := 0x22

def tdcInquiryBytes : Nat := 51
def tdcSenseBytes : Nat := 25
def tdcSenseAddLen : Byte := 17
def tdcNormalSenseBytes : Nat := 4
def tdcModeHeaderBytes : Nat := 4
def tdcModeDescBytes : Nat := 8
def tdcModeVendorBytes : Nat := 12
def tdcModeListBytes : Nat := 24
def tdcDataBufferBytes : Nat := 65536
def tdcDataBufferAvailable : Nat := 65531
def tdcDataBufferHeader : Nat := 4
def tdcReplyBytes : Nat := tdcSenseBytes + tdcInquiryBytes

/-- A write past this distance from the end is reported once. -/
def tdcPewBytes : Nat := 200 * 1024

def tdcDefaultVendor : List Byte :=
  [0x00, 0x02, 0x02, 120, 0x00, 0x00, 0x08, 0x08, 0x00, 0x04, 0x00, 0x00]

/-- A data phase is counted in a signed word. -/
def tdcMaxPhaseBlocks : Nat := 0x7fffffff / tdcBlockBytes

def tdcVendorNormalSenseThreshold : Nat := 8

inductive TdcOperationMode where
  | none
  | read
  | write
  | position
  deriving DecidableEq, Repr

/-- This is the state of the streamer behind its target. -/
structure TapeDrive where
  tape : TapeImage
  present : Bool
  loaded : Bool
  unitAttention : Bool
  sense : List Byte
  opMode : TdcOperationMode
  blockCounter : BitVec 32
  filemarkCounter : BitVec 16
  lastWasWrite : Bool
  writeError : Bool
  pewReported : Bool
  density : Byte
  bufferedMode : Bool
  vendor : List Byte
  savedDensity : Byte
  savedBufferedMode : Bool
  savedVendor : List Byte
  block : Nat → Byte
  xferBlocks : Nat
  xferDone : Nat
  verifyMismatch : Bool
  modeSelect : Nat → Byte
  modeSelectLength : Nat
  modeSelectSave : Bool
  reply : Nat → Byte
  dataBuffer : Nat → Byte

abbrev TapeDevice := Device TapeDrive

namespace TapeDrive

def withTape (drive : TapeDrive) (tape : TapeImage) : TapeDrive := { drive with tape := tape }

/-- The information bytes are valid when the first byte says so. -/
def setSense (drive : TapeDrive) (key flags code exercd : Byte) (vadd : Bool) (info : Nat) :
    TapeDrive :=
  { drive with
    sense := [(if vadd then 0x80 else 0x00) ||| 0x70, 0, flags ||| (key &&& 0x0F)] ++
      (if vadd then putU32be (BitVec.ofNat 32 info) else [0, 0, 0, 0]) ++ [tdcSenseAddLen] ++
      List.replicate 6 0 ++ [code, exercd] ++ putU24be drive.blockCounter ++
      putU16be drive.filemarkCounter ++ List.replicate 4 0 }

def clearSense (drive : TapeDrive) : TapeDrive :=
  drive.setSense skNoSense 0 tdcEcNone tdcXOk false 0

/-- The counters start again when the drive enters another mode. -/
def enterMode (drive : TapeDrive) (mode : TdcOperationMode) : TapeDrive :=
  if mode ≠ drive.opMode ∧ (mode = .read ∨ mode = .write) then
    { drive with blockCounter := 0, filemarkCounter := 0, opMode := mode }
  else { drive with opMode := mode }

def toBot (drive : TapeDrive) : TapeDrive :=
  { drive with
    tape := drive.tape.rewind false
    lastWasWrite := false
    pewReported := false
    opMode := .position }

/-- An image that appears is a cartridge that was put in. -/
def refreshMedia (drive : TapeDrive) : TapeDrive :=
  if drive.present then
    match drive.tape.owner.diskInfo with
    | some (imageSize, _) =>
      if imageSize = 0 then { drive with present := false, loaded := false } else drive
    | none => { drive with present := false, loaded := false }
  else
    let opened := TapeImage.openImage drive.tape.owner
    if opened.2 then
      TapeDrive.toBot { drive with
        tape := opened.1
        present := true
        loaded := true
        unitAttention := true
        writeError := false }
    else { drive with tape := opened.1 }

def flush (drive : TapeDrive) : TapeDrive := drive.withTape drive.tape.flush.1

/-- A block of another length is bad for this drive. -/
def readNext (drive : TapeDrive) : TapeDrive × TapeStatus :=
  let read := drive.tape.readBlock tdcBlockBytes
  let next := { drive with tape := read.1, block := putRange drive.block 0 read.2.2 }
  if read.2.1 = .ok ∧ read.2.2.length ≠ tdcBlockBytes then (next, .error) else (next, read.2.1)

def putByte (drive : TapeDrive) (at_ : Nat) (data : Byte) : TapeDrive :=
  { drive with block := Function.update drive.block at_ data }

def countBlock (drive : TapeDrive) : TapeDrive :=
  { drive with xferDone := drive.xferDone + 1, blockCounter := drive.blockCounter + 1 }

def putReply (drive : TapeDrive) (bytes : List Byte) : TapeDrive :=
  { drive with reply := putRange drive.reply 0 bytes }

end TapeDrive

namespace Tdc

/-- The cached block goes back to the image before a status. -/
def status (tape : TapeDevice) (status : Byte) : TapeDevice :=
  (tape.onImpl TapeDrive.flush).onPort (TargetPort.statusComplete · status)

def good (tape : TapeDevice) : TapeDevice := status tape ssGood

def check (tape : TapeDevice) (key flags code exercd : Byte) (vadd : Bool) (info : Nat) :
    TapeDevice :=
  status (tape.onImpl (TapeDrive.setSense · key flags code exercd vadd info)) ssCheckCondition

def illegal (tape : TapeDevice) (exercd : Byte) : TapeDevice :=
  check tape skIllegalRequest 0 tdcEcInvalidCmd exercd false 0

/-- A command goes on when the cartridge is in and loaded. -/
def ready (tape : TapeDevice) (next : TapeDevice → TapeDevice) : TapeDevice :=
  if tape.impl.present then
    if tape.impl.loaded then next tape
    else check tape skNotReady 0 tdcEcNotLoaded tdcXNlod false 0
  else check tape skNotReady 0 tdcEcNotLoaded tdcXNcar false 0

def writable (tape : TapeDevice) (next : TapeDevice → TapeDevice) : TapeDevice :=
  if tape.impl.tape.readOnly then check tape skDataProtect 0 tdcEcWriteProt tdcXWpro false 0
  else next tape

/-- A write starts at the beginning of the tape or at the end of the recorded data. -/
def mayAppend (tape : TapeDevice) (next : TapeDevice → TapeDevice) : TapeDevice :=
  if tape.impl.tape.isBot then next tape
  else
    let found := tape.impl.tape.atEod
    let tape := tape.onImpl (TapeDrive.withTape · found.1)
    if found.2.1 ≠ .ok then check tape skMediumError 0 tdcEcBadBlock tdcX24re false 0
    else if found.2.2 then next tape
    else check tape skIllegalRequest 0 tdcEcAppend tdcXAppn false 0

/-- A read that stopped early reports the blocks that were not transferred. -/
def reportReadStop (tape : TapeDevice) (stop : TapeStatus) (residue : Nat) : TapeDevice :=
  match stop with
  | .filemark | .filemarkEw =>
    check (tape.onImpl fun drive => { drive with filemarkCounter := drive.filemarkCounter + 1 })
      skNoSense tdcSenseFm tdcEcFilemark tdcXFimk true residue
  | .eod | .eodEw => check tape skBlankCheck 0 tdcEcReadEom tdcXReol true residue
  | .eom => check tape skNoSense tdcSenseEom tdcEcReadEom tdcXReop true residue
  | _ => check tape skMediumError 0 tdcEcBadBlock tdcX24re true residue

end Tdc

end Nd100x.Scsi
