import Nd100x.Scsi.Target

namespace Nd100x.Scsi

open Nd100x.Library

def ssConditionMet : Byte := 0x04
def skHardwareError : Byte := 0x04

def scTestUnitReady : Byte := 0x00
def scRequestSense : Byte := 0x03
def scFormatUnit : Byte := 0x04
def scRead6 : Byte := 0x08
def scWrite6 : Byte := 0x0A
def scSeek6 : Byte := 0x0B
def scInitDriveParams : Byte := 0x0C
def scFormatAltTrack : Byte := 0x0E
def scWriteSectorBuffer : Byte := 0x0F
def scReadSectorBuffer : Byte := 0x10
def scInquiry : Byte := 0x12
def scModeSelect6 : Byte := 0x15
def scReserve6 : Byte := 0x16
def scModeSense6 : Byte := 0x1A
def scStartStopUnit : Byte := 0x1B
def scReceiveDiagnosticResults : Byte := 0x1C
def scSendDiagnostic : Byte := 0x1D
def scReadCapacity : Byte := 0x25
def scRead10 : Byte := 0x28
def scWrite10 : Byte := 0x2A
def scVerify10 : Byte := 0x2F
def scWriteBuffer : Byte := 0x3B
def scReadBuffer : Byte := 0x3C

def scsiHddMaxSectorBytes : Nat := 1024
def scsiHddInquirySize : Nat := 56
def scsiHddDataBufferBytes : Nat := 16384
def scsiHddBufferHeaderBytes : Nat := 4
def scsiHddModePageBytes : Nat := 24
def scsiHddModePages : Nat := 4
def scsiHddDefectHeaderBytes : Nat := 4

inductive ScsiDiskType where
  | unknown
  | micropolis1375Nd
  | micropolis1375
  | micropolis1355
  deriving DecidableEq, Repr

structure ScsiDiskInfo where
  cylinders : Nat
  heads : Nat
  sectors : Nat
  sectorbytes : Nat
  vendor : List Byte
  product : List Byte
  revision : List Byte
  driveParams : Nat → Byte

/-- The fields of an identity are filled with blanks. -/
def diskScsiSetField (width : Nat) (src : String) : List Byte :=
  ((src.toList.map fun c : Char => BitVec.ofNat 8 c.toNat) ++ List.replicate width 0x20).take width

/-- The drive parameters are changed by a command later. -/
def scsiDiskSetType : ScsiDiskType → ScsiDiskInfo
  | .micropolis1375Nd =>
    ⟨898, 8, 18, 1024, diskScsiSetField 8 "NDMICROP", diskScsiSetField 16 "1375",
      diskScsiSetField 4 "B0C", fun pos => [0, 153, 4, 0, 128, 0, 64, 11].getD pos 0⟩
  | .micropolis1375 =>
    ⟨898, 8, 36, 512, diskScsiSetField 8 "MICROPOL", diskScsiSetField 16 "1375",
      diskScsiSetField 4 "B0C", fun _ => 0⟩
  | .micropolis1355 =>
    ⟨1018, 8, 34, 512, diskScsiSetField 8 "MICROPOL", diskScsiSetField 16 "1355",
      diskScsiSetField 4 "", fun _ => 0⟩
  | .unknown =>
    ⟨898, 8, 18, 1024, diskScsiSetField 8 "NDMICROP", diskScsiSetField 16 "1375",
      diskScsiSetField 4 "B0C", fun _ => 0⟩

def ScsiDiskInfo.lastLba (disk : ScsiDiskInfo) : Nat :=
  disk.cylinders * disk.heads * disk.sectors - 1

/-- The callbacks of the owner answer each call by its number. The blocks that were read or stored
are recorded. -/
structure DiskOwner where
  blocks : Nat → Nat → Byte
  diskInfo : Nat → Option Nat
  readFails : Nat → Bool
  writeFails : Nat → Bool
  infoCalls : Nat
  reads : Nat
  writes : Nat
  transferred : List Nat

namespace DiskOwner

/-- An unmounted drive has no information, and its image may be empty. -/
def diskInfoFunc (owner : DiskOwner) : DiskOwner × Bool :=
  ({ owner with infoCalls := owner.infoCalls + 1 },
    (owner.diskInfo owner.infoCalls).elim false fun size => decide (0 < size))

def readFunc (owner : DiskOwner) (block : Nat) : DiskOwner × Option (Nat → Byte) :=
  if owner.readFails owner.reads then ({ owner with reads := owner.reads + 1 }, none)
  else
    ({ owner with
       reads := owner.reads + 1
       transferred := owner.transferred ++ [block] }, some (owner.blocks block))

def writeFunc (owner : DiskOwner) (buffer : Nat → Byte) (block : Nat) : DiskOwner × Bool :=
  if owner.writeFails owner.writes then ({ owner with writes := owner.writes + 1 }, false)
  else
    ({ owner with
       writes := owner.writes + 1
       blocks := Function.update owner.blocks block buffer
       transferred := owner.transferred ++ [block] }, true)

end DiskOwner

/-- This is the state of the disk behind its target. The block numbers are signed. -/
structure ScsiHdd where
  owner : DiskOwner
  diskType : ScsiDiskType
  driveParams : Nat → Byte
  lba : Int
  curLba : Int
  blocks : Nat
  sectorData : Nat → Byte
  sectorDataValid : Bool
  dataBuffer : Nat → Byte
  modeCurrent : Nat → Nat → Byte
  modeSaved : Nat → Nat → Byte
  modeSelectData : Nat → Byte
  modeSelectLength : Nat
  defectHeader : Nat → Byte

abbrev HddDevice := Device ScsiHdd

namespace ScsiHdd

def hdinfo (hdd : ScsiHdd) : ScsiDiskInfo := scsiDiskSetType hdd.diskType

def hasMedia (hdd : ScsiHdd) : ScsiHdd × Bool :=
  ({ hdd with owner := hdd.owner.diskInfoFunc.1 }, hdd.owner.diskInfoFunc.2)

/-- A block outside the disk is not asked for. -/
def onDisk (hdd : ScsiHdd) (lba : Int) : Bool :=
  decide (0 ≤ lba) && decide (lba.toNat ≤ hdd.hdinfo.lastLba)

/-- The sector keeps its bytes when the block is not read. -/
def readBlock (hdd : ScsiHdd) (lba : Int) : ScsiHdd × Bool :=
  if hdd.onDisk lba then
    let result := hdd.owner.readFunc lba.toNat
    ({ hdd with
       owner := result.1
       sectorData := result.2.getD hdd.sectorData }, result.2.isSome)
  else (hdd, false)

def writeBlock (hdd : ScsiHdd) (lba : Int) : ScsiHdd × Bool :=
  if hdd.onDisk lba then
    let result := hdd.owner.writeFunc hdd.sectorData lba.toNat
    ({ hdd with owner := result.1 }, result.2)
  else (hdd, false)

/-- These are the length bytes of the mode pages. -/
def modePageLength (index : Nat) : Nat := [0x06, 0x0A, 0x16, 0x12].getD index 0

def modePageIndex (page : Nat) : Option Nat :=
  if 1 ≤ page ∧ page ≤ scsiHddModePages then some (page - 1) else none

def defaultModePage (disk : ScsiDiskInfo) (page : Nat) (pos : Nat) : Byte :=
  (match page with
    | 1 => [0x01, 0x06, 0x20, 0x0A, 0x0B]
    | 2 => [0x02, 0x0A, 0x00, 0x00] ++ putU16be 5
    | 3 =>
      [0x03, 0x16] ++ putU16be (BitVec.ofNat 16 (disk.cylinders * disk.heads)) ++
        List.replicate 6 0 ++ putU16be (BitVec.ofNat 16 disk.sectors) ++
        putU16be (BitVec.ofNat 16 disk.sectorbytes)
    | 4 =>
      [0x04, 0x12] ++ putU24be (BitVec.ofNat 32 disk.cylinders) ++ [BitVec.ofNat 8 disk.heads]
    | _ => []).getD pos 0

/-- The set bits of a page may be changed by the host. -/
def changeableModePage (page : Nat) (pos : Nat) : Byte :=
  (match page with
    | 1 => [0x01, 0x06, 0x3F, 0xFF, 0xFF]
    | 2 => [0x02, 0x0A, 0x00, 0x00, 0xFF, 0xFF]
    | 3 =>
      [0x03, 0x16, 0x00, 0x00, 0xFF, 0xFF, 0x00, 0x00, 0xFF, 0xFF, 0xFF, 0xFF, 0xFF, 0xFF,
        0x00, 0x00, 0xFF, 0xFF, 0xFF, 0xFF]
    | 4 => [0x04, 0x12, 0xFF, 0xFF, 0xFF, 0xFF]
    | _ => []).getD pos 0

/-- The page control chooses the values. -/
def modePage (hdd : ScsiHdd) (page pc : Nat) : Nat → Byte :=
  if pc = 1 then changeableModePage page
  else if pc = 2 then defaultModePage hdd.hdinfo page
  else if pc = 3 then hdd.modeSaved (page - 1)
  else hdd.modeCurrent (page - 1)

/-- One page of the list, whose fields start behind its code and length. -/
def applyModePage (hdd : ScsiHdd) (start index : Nat) : ScsiHdd :=
  let ends := min (2 + (hdd.modeSelectData (start + 1)).toNat) (2 + modePageLength index)
  let mask := changeableModePage (index + 1)
  { hdd with
    modeCurrent := Function.update hdd.modeCurrent index fun pos =>
      if 2 ≤ pos ∧ pos < ends ∧ start + pos < hdd.modeSelectLength then
        (hdd.modeCurrent index pos &&& ~~~mask pos) |||
          (hdd.modeSelectData (start + pos) &&& mask pos)
      else hdd.modeCurrent index pos }

/-- The pages of the list are taken from a position on. -/
def applyModePages : Nat → ScsiHdd → Nat → ScsiHdd
  | 0, hdd, _ => hdd
  | fuel + 1, hdd, start =>
    if start + 2 ≤ hdd.modeSelectLength then
      let page := (hdd.modeSelectData start &&& 0x3F).toNat
      let taken := (modePageIndex page).elim hdd (hdd.applyModePage start)
      applyModePages fuel taken (start + 2 + (hdd.modeSelectData (start + 1)).toNat)
    else hdd

/-- The header and the block descriptors are passed over. -/
def applyModeSelect (hdd : ScsiHdd) : ScsiHdd :=
  if hdd.modeSelectLength < 4 then hdd
  else applyModePages hdd.modeSelectLength hdd (4 + (hdd.modeSelectData 3).toNat)

/-- The sector of this position is read when another one is held. -/
def fetchSector (hdd : ScsiHdd) (pos : Nat) : ScsiHdd :=
  let clba := hdd.lba + (pos / hdd.hdinfo.sectorbytes : Nat)
  if clba = hdd.curLba then hdd
  else
    let result := ({ hdd with curLba := clba } : ScsiHdd).readBlock clba
    { result.1 with
      sectorDataValid := result.2
      sectorData := if result.2 then result.1.sectorData else fun _ => 0 }

def sectorByte (hdd : ScsiHdd) (pos : Nat) : Byte :=
  if hdd.sectorDataValid then hdd.sectorData (pos % hdd.hdinfo.sectorbytes) else 0

/-- A full sector is stored on the image. -/
def storeByte (hdd : ScsiHdd) (pos : Nat) (data : Byte) : ScsiHdd :=
  let offset := pos % hdd.hdinfo.sectorbytes
  let clba := hdd.lba + (pos / hdd.hdinfo.sectorbytes : Nat)
  let filled := { hdd with sectorData := Function.update hdd.sectorData offset data }
  if offset = hdd.hdinfo.sectorbytes - 1 then
    (({ filled with curLba := clba } : ScsiHdd).writeBlock clba).1
  else filled

end ScsiHdd

namespace TargetPort

/-- The sense has its key and a code, with the length of the bytes that follow. -/
def setSenseData (port : TargetPort) (first key : Byte) (code : BitVec 16) : TargetPort :=
  { port with
    senseBuffer := fun pos =>
      ([first, 0, key &&& 0x0F, 0, 0, 0, 0, 10, 0, 0, 0, 0] ++ putU16be code).getD pos 0 }

def sense (port : TargetPort) (deferred : Bool) (key : Byte) (asc ascq : Byte) : TargetPort :=
  port.setSenseData (0x80 ||| if deferred then 0x71 else 0x70) key (asc ++ ascq)

def reportCondition (port : TargetPort) (key : Byte) (code : BitVec 16) : TargetPort :=
  (port.setSenseData 0xF0 key code).statusComplete ssCheckCondition

def reportBadCmd (port : TargetPort) : TargetPort :=
  port.reportCondition skIllegalRequest skcInvalidCommandOperationCode

def reportBadLun (port : TargetPort) : TargetPort :=
  port.reportCondition skIllegalRequest skcLogicalUnitNotSupported

end TargetPort

namespace Hdd

variable (hdd : HddDevice)

def cmd : Byte := hdd.port.cmdbuf 0

def status (value : Byte) : HddDevice := hdd.onPort fun port => port.statusComplete value

/-- The field of the command that is wrong is not named. -/
def invalidField : HddDevice :=
  (status hdd ssCheckCondition).onPort fun port => port.sense false skIllegalRequest 0x24 0x00

/-- The drive answers with bytes of its command buffer. -/
def reply (start : Nat) (bytes : List Byte) (size : Nat) : HddDevice :=
  hdd.onPort fun port =>
    { port with cmdbuf := putRange port.cmdbuf start bytes }.dataIn .main size

/-- The identification overrules the command. -/
def getLun : Nat :=
  if hdd.port.identify.getLsbD 7 then (hdd.port.identify &&& 0x07).toNat
  else (hdd.port.cmdbuf 1 >>> 5).toNat

def bufferHeader : List Byte := putU32be (BitVec.ofNat 32 scsiHddDataBufferBytes)

/-- The sources of a command are those of its data phase. -/
def getData (id : Sbuf) (pos : Nat) : HddDevice × Byte :=
  if id = .data ∧ cmd hdd = scReadSectorBuffer then
    (hdd, if scsiHddMaxSectorBytes ≤ pos then 0 else hdd.impl.sectorData pos)
  else if id = .data ∧ cmd hdd = scReadBuffer then
    (hdd,
      if pos < scsiHddBufferHeaderBytes then bufferHeader.getD pos 0
      else if pos - scsiHddBufferHeaderBytes < scsiHddDataBufferBytes then
        hdd.impl.dataBuffer (pos - scsiHddBufferHeaderBytes)
      else 0)
  else
    let looked := hdd.onImpl fun hdd => hdd.hasMedia.1
    if hdd.impl.hasMedia.2 then
      if id = .data then
        let fetched := looked.onImpl fun hdd => hdd.fetchSector pos
        (fetched, fetched.impl.sectorByte pos)
      else (looked, looked.port.defaultGetData id pos)
    else (looked, 0)

/-- The stores of a command are those of its data phase. -/
def putParameter (command : Byte) (pos : Nat) (data : Byte) (hdd : ScsiHdd) : Option ScsiHdd :=
  if command = scInitDriveParams then
    some { hdd with
      driveParams := if pos < 8 then Function.update hdd.driveParams pos data else hdd.driveParams }
  else if command = scFormatAltTrack then some hdd
  else if command = scModeSelect6 then
    if pos < hdd.modeSelectLength then
      let stored := { hdd with modeSelectData := Function.update hdd.modeSelectData pos data }
      some (if pos = hdd.modeSelectLength - 1 then stored.applyModeSelect else stored)
    else some hdd
  else if command = scFormatUnit then
    some { hdd with
      defectHeader :=
        if pos < scsiHddDefectHeaderBytes then Function.update hdd.defectHeader pos data
        else hdd.defectHeader }
  else if command = scWriteSectorBuffer then
    some { hdd with
      sectorData :=
        if pos < scsiHddMaxSectorBytes then Function.update hdd.sectorData pos data
        else hdd.sectorData }
  else if command = scWriteBuffer then
    some { hdd with
      dataBuffer :=
        if scsiHddBufferHeaderBytes ≤ pos ∧
            pos - scsiHddBufferHeaderBytes < scsiHddDataBufferBytes then
          Function.update hdd.dataBuffer (pos - scsiHddBufferHeaderBytes) data
        else hdd.dataBuffer }
  else none

def putData (id : Sbuf) (pos : Nat) (data : Byte) : HddDevice :=
  if id = .data then
    match putParameter (cmd hdd) pos data hdd.impl with
    | some impl => hdd.onImpl fun _ => impl
    | none =>
      let looked := hdd.onImpl fun hdd => hdd.hasMedia.1
      if hdd.impl.hasMedia.2 then looked.onImpl fun hdd => hdd.storeByte pos data else looked
  else hdd.onPort fun port => port.defaultPutData id pos data

def readCapacity : HddDevice :=
  status (reply hdd 0 (putU32be (BitVec.ofNat 32 hdd.impl.hdinfo.lastLba) ++
    putU32be (BitVec.ofNat 32 hdd.impl.hdinfo.sectorbytes)) 8) ssGood

def inquiryData (disk : ScsiDiskInfo) : List Byte :=
  [0x00, 0x00, 0x05, 0x01, 52, 0x00, 0x00, 0x00] ++ disk.vendor ++ disk.product ++
    disk.revision ++ List.replicate 112 0x00

/-- An unmounted drive reports itself with another status. -/
def readyStatus : HddDevice :=
  status (hdd.onImpl fun hdd => hdd.hasMedia.1)
    (if hdd.impl.hasMedia.2 then ssGood else ssCheckCondition)

def inquiry : HddDevice :=
  if hdd.port.cmdbuf 2 = 0 then
    readyStatus (reply hdd 0 (inquiryData hdd.impl.hdinfo)
      (min (hdd.port.cmdbuf 4).toNat scsiHddInquirySize))
  else readyStatus hdd

/-- The pages follow each other, and the room of a page may be longer than the page. -/
def putModePages (hdd : ScsiHdd) (pc : Nat) : List Nat → (Nat → Byte) → Nat → (Nat → Byte) × Nat
  | [], buf, pos => (buf, pos)
  | page :: pages, buf, pos =>
    putModePages hdd pc pages
      (putRange buf pos (range (hdd.modePage page pc) 0 scsiHddModePageBytes))
      (pos + (2 + ScsiHdd.modePageLength (page - 1)))

def modeSense : HddDevice :=
  let page := (hdd.port.cmdbuf 2 &&& 0x3F).toNat
  let pc := (hdd.port.cmdbuf 2 >>> 6).toNat
  let size := (hdd.port.cmdbuf 4).toNat
  if page ≠ 0x3F ∧ ScsiHdd.modePageIndex page = none then invalidField hdd
  else
    let header : List Byte := [0x00, 0x00, 0x08, 0x00] ++
      putU24be (BitVec.ofNat 32 hdd.impl.hdinfo.lastLba) ++ [0x00] ++
      putU24be (BitVec.ofNat 32 hdd.impl.hdinfo.sectorbytes)
    let pages := if page = 0x3F then [1, 2, 3, 4] else [page]
    let written := putModePages hdd.impl pc pages (putRange hdd.port.cmdbuf 1 header) 12
    let answered := hdd.onPort fun port => { port with cmdbuf := written.1 }
    status (reply answered 0 [BitVec.ofNat 8 written.2] (min written.2 size)) ssGood

/-- The place and the length of a transfer. A length of zero has 256 blocks here. -/
def place6 : ScsiHdd → ScsiHdd := fun impl =>
  { impl with
    lba := (getU24be hdd.port.cmdbuf 1 % 2 ^ 21 : Nat)
    blocks := if hdd.port.cmdbuf 4 = 0 then 256 else (hdd.port.cmdbuf 4).toNat }

/-- A place of 32 bits becomes a signed number. -/
def place10 : ScsiHdd → ScsiHdd := fun impl =>
  { impl with
    lba := (BitVec.ofNat 32 (getU32be hdd.port.cmdbuf 2)).toInt
    blocks := getU16be hdd.port.cmdbuf 7 }

/-- The first block decides the status of a read. -/
def startRead : HddDevice :=
  if hdd.impl.sectorDataValid then
    status (hdd.onPort fun port =>
      port.dataIn .data (hdd.impl.blocks * hdd.impl.hdinfo.sectorbytes)) ssGood
  else invalidField hdd

/-- The sector of the command is read. -/
def readFirst (impl : ScsiHdd) : ScsiHdd :=
  let result := impl.readBlock impl.lba
  { result.1 with sectorDataValid := result.2, curLba := impl.lba }

def read6 : HddDevice :=
  startRead ((hdd.onImpl (place6 hdd)).onImpl fun impl =>
    if impl.lba.toNat ≤ impl.hdinfo.lastLba then readFirst impl
    else { impl with sectorDataValid := false })

def read10 : HddDevice := startRead ((hdd.onImpl (place10 hdd)).onImpl readFirst)

/-- The status of a write does not wait for its blocks. -/
def startWrite : HddDevice :=
  status (hdd.onPort fun port =>
    port.dataOut .data (hdd.impl.blocks * hdd.impl.hdinfo.sectorbytes)) ssGood

def write6 : HddDevice := startWrite (hdd.onImpl (place6 hdd))

def write10 : HddDevice := startWrite (hdd.onImpl (place10 hdd))

def seek6 : HddDevice :=
  let lba : Nat := getU24be hdd.port.cmdbuf 1 % 2 ^ 21
  let placed := hdd.onImpl fun impl => { impl with lba := lba }
  if hdd.port.cmdbuf 1 >>> 5 ≠ 0 ∨ hdd.impl.hdinfo.lastLba < lba then
    (status placed ssConditionMet).onPort fun port =>
      { port with senseBuffer := Function.update port.senseBuffer 0 skHardwareError }
  else status placed ssGood

def modeSelect : HddDevice :=
  let length := (hdd.port.cmdbuf 4).toNat
  let asked := hdd.onImpl fun impl => { impl with modeSelectLength := length }
  status (if length = 0 then asked else asked.onPort fun port => port.dataOut .data length) ssGood

/-- The image is left, and the current mode values are saved. -/
def formatUnit : HddDevice :=
  let asked := if hdd.port.cmdbuf 1 &&& 0x10 = 0 then hdd
    else hdd.onPort fun port => port.dataOut .data scsiHddDefectHeaderBytes
  status (asked.onImpl fun impl => { impl with modeSaved := impl.modeCurrent }) ssGood

def diagnostic (sends : Bool) : HddDevice :=
  if sends ∧ hdd.port.cmdbuf 1 &&& 4 ≠ 0 then status hdd ssGood
  else
    let bytes : List Byte := [0, 6, 0, 0, 0, 0, 0] ++ if sends then [0] else []
    status (reply hdd 0 bytes (min (getU16be hdd.port.cmdbuf 3) bytes.length)) ssGood

/-- The header and the buffer move as one. -/
def buffer (reads : Bool) : HddDevice :=
  let length := getU24be hdd.port.cmdbuf 6
  let whole := scsiHddBufferHeaderBytes + scsiHddDataBufferBytes
  if hdd.port.cmdbuf 1 &&& 0x07 ≠ 0 then invalidField hdd
  else if reads then
    status (hdd.onPort fun port => port.dataIn .data (min length whole)) ssGood
  else if whole < length then invalidField hdd
  else status (hdd.onPort fun port => port.dataOut .data length) ssGood

/-- A logical unit other than zero answers three commands only. -/
def command : HddDevice :=
  if cmd hdd ≠ scRequestSense ∧ cmd hdd ≠ scInquiry ∧ cmd hdd ≠ scTestUnitReady ∧
      getLun hdd ≠ 0 then
    hdd.onPort TargetPort.reportBadLun
  else if cmd hdd = scTestUnitReady then readyStatus hdd
  else if cmd hdd = scRequestSense then
    status (hdd.onPort fun port => port.dataIn .sense 4) ssGood
  else if cmd hdd = scInquiry then inquiry hdd
  else if cmd hdd = scReadCapacity then readCapacity hdd
  else if cmd hdd = scRead6 then read6 hdd
  else if cmd hdd = scWrite6 then write6 hdd
  else if cmd hdd = scRead10 then read10 hdd
  else if cmd hdd = scWrite10 then write10 hdd
  else if cmd hdd = scSeek6 then seek6 hdd
  else if cmd hdd = scReserve6 then status hdd ssGood
  else if cmd hdd = scInitDriveParams then
    status (hdd.onPort fun port => port.dataOut .data 8) ssGood
  else if cmd hdd = scModeSelect6 then modeSelect hdd
  else if cmd hdd = scModeSense6 then modeSense hdd
  else if cmd hdd = scStartStopUnit then status hdd ssGood
  else if cmd hdd = scVerify10 then
    if hdd.port.cmdbuf 1 &&& 0x02 = 0 then status hdd ssGood
    else hdd.onPort TargetPort.reportBadCmd
  else if cmd hdd = scFormatUnit then formatUnit hdd
  else if cmd hdd = scReceiveDiagnosticResults then diagnostic hdd false
  else if cmd hdd = scSendDiagnostic then diagnostic hdd true
  else if cmd hdd = scReadBuffer then buffer hdd true
  else if cmd hdd = scWriteBuffer then buffer hdd false
  else hdd.onPort TargetPort.reportBadCmd

/-- A disk that was reset posts a unit attention. -/
def deviceReset : HddDevice where
  port :=
    { hdd.port with identify := 0, calls := [] }.sense false skUnitAttention 0x29 0x00
  impl := { hdd.impl with
    curLba := -1
    sectorDataValid := false
    modeCurrent := hdd.impl.modeSaved }

/-- The current and the saved mode values of a new disk are the default ones. -/
def init (owner : DiskOwner) (diskType : ScsiDiskType) : HddDevice :=
  let disk := scsiDiskSetType diskType
  let pages := fun index => ScsiHdd.defaultModePage disk (index + 1)
  deviceReset
    { port := ⟨fun _ => 0, 0, 0, fun _ => 0, []⟩
      impl :=
        { owner := owner
          diskType := diskType
          driveParams := disk.driveParams
          lba := 0
          curLba := -1
          blocks := 0
          sectorData := fun _ => 0
          sectorDataValid := false
          dataBuffer := fun _ => 0
          modeCurrent := pages
          modeSaved := pages
          modeSelectData := fun _ => 0
          modeSelectLength := 0
          defectHeader := fun _ => 0 } }

end Hdd

end Nd100x.Scsi

namespace Nd100x.Scsi

/-- A host sends a command with its identification and has the data for it. -/
structure Request where
  cdb : Nat → Byte
  identify : Byte
  data : Nat → Byte

/-- The data phase of a command has a direction, a buffer and a size. -/
structure Transfer where
  input : Bool
  id : Sbuf
  size : Nat
  deriving DecidableEq

def transferOf : List PhaseCall → Option Transfer
  | .push (.dataIn id size) :: _ => if 0 < size then some ⟨true, id, size⟩ else none
  | .push (.dataOut id size) :: _ => if 0 < size then some ⟨false, id, size⟩ else none
  | _ => none

/-- A host runs a command to its end, or resets the bus after some bytes of it or between two
commands. -/
inductive BusEvent where
  | command (request : Request)
  | cut (request : Request) (count : Nat)
  | busReset

namespace Request

def lun (request : Request) : Nat :=
  if request.identify.getLsbD 7 then (request.identify &&& 0x07).toNat
  else (request.cdb 1 >>> 5).toNat

end Request

namespace Hdd

/-- The disk has no hook for a bus reset, so that only its target is reset. -/
def busReset (hdd : HddDevice) : HddDevice :=
  hdd.onPort fun port => { port with identify := 0, calls := [] }.sense false skNoSense 0x00 0x00

def ask (hdd : HddDevice) (request : Request) : HddDevice :=
  hdd.onPort fun port => { port with
    cmdbuf := request.cdb
    identify := request.identify
    calls := [] }

/-- The bytes of the data phase move in their order, and those for the host are kept. -/
def moveBytes (transfer : Transfer) (data : Nat → Byte) (hdd : HddDevice) :
    Nat → HddDevice × List Byte
  | 0 => (hdd, [])
  | pos + 1 =>
    let (hdd, bytes) := moveBytes transfer data hdd pos
    if transfer.input then
      let (hdd, byte) := getData hdd transfer.id pos
      (hdd, bytes ++ [byte])
    else (putData hdd transfer.id pos (data pos), bytes)

/-- The command is decoded, and then at most this many bytes move. -/
def exchange (hdd : HddDevice) (request : Request) (most : Nat → Nat) : HddDevice × List Byte :=
  let decoded := command (ask hdd request)
  match transferOf decoded.port.calls with
  | none => (decoded, [])
  | some transfer => moveBytes transfer request.data decoded (most transfer.size)

def serve (hdd : HddDevice) : BusEvent → HddDevice × List Byte
  | .command request => exchange hdd request id
  | .cut request count =>
    let (hdd, bytes) := exchange hdd request (min count)
    (busReset hdd, bytes)
  | .busReset => (busReset hdd, [])

def session (hdd : HddDevice) (events : List BusEvent) : HddDevice :=
  events.foldl (fun hdd event => (serve hdd event).1) hdd

section Decode

variable {hdd : HddDevice} {request : Request} {port : TargetPort} {transfer : Transfer}

theorem transferOf_status (quiet : port.calls = []) (value : Byte) :
    transferOf (port.statusComplete value).calls = none := by
  have calls : (port.statusComplete value).calls = port.calls ++ [.push (.status value)] ++
      [.push (.message1 smCommandComplete)] ++ [.push .busFree] := rfl
  rw [calls, quiet]
  rfl

theorem transferOf_dataIn (quiet : port.calls = []) {id : Sbuf} {size : Nat} {value : Byte}
    (moves : transferOf ((port.dataIn id size).statusComplete value).calls = some transfer) :
    transfer = ⟨true, id, size⟩ := by
  have calls : ((port.dataIn id size).statusComplete value).calls =
      port.calls ++ [.push (.dataIn id size)] ++ [.push (.status value)] ++
        [.push (.message1 smCommandComplete)] ++ [.push .busFree] := rfl
  rw [calls, quiet] at moves
  change (if 0 < size then some (⟨true, id, size⟩ : Transfer) else none) = some transfer at moves
  split_ifs at moves
  exact (Option.some.inj moves).symm

theorem transferOf_dataOut (quiet : port.calls = []) {id : Sbuf} {size : Nat} {value : Byte}
    (moves : transferOf ((port.dataOut id size).statusComplete value).calls = some transfer) :
    transfer = ⟨false, id, size⟩ := by
  have calls : ((port.dataOut id size).statusComplete value).calls =
      port.calls ++ [.push (.dataOut id size)] ++ [.push (.status value)] ++
        [.push (.message1 smCommandComplete)] ++ [.push .busFree] := rfl
  rw [calls, quiet] at moves
  change (if 0 < size then some (⟨false, id, size⟩ : Transfer) else none) = some transfer at moves
  split_ifs at moves
  exact (Option.some.inj moves).symm

/-- A command for another logical unit does nothing. -/
theorem exchange_lun (lun : request.lun ≠ 0)
    (refused : request.cdb 0 ≠ scRequestSense ∧ request.cdb 0 ≠ scInquiry ∧
      request.cdb 0 ≠ scTestUnitReady) (most : Nat → Nat) :
    exchange hdd request most = ((ask hdd request).onPort TargetPort.reportBadLun, []) := by
  have decoded : command (ask hdd request) =
      (ask hdd request).onPort TargetPort.reportBadLun := by
    rw [command, if_pos]
    exact ⟨refused.1, refused.2.1, refused.2.2, lun⟩
  rw [exchange, decoded]
  rfl

end Decode

end Hdd

end Nd100x.Scsi
