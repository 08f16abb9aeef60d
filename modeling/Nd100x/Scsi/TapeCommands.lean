import Nd100x.Scsi.TapeDrive

namespace Nd100x.Scsi

open Nd100x.Library

def tdcTestUnitReady : Byte := 0x00
def tdcRewind : Byte := 0x01
def tdcRequestBlockAddr : Byte := 0x02
def tdcRequestSense : Byte := 0x03
def tdcReadBlockLimits : Byte := 0x05
def tdcRead : Byte := 0x08
def tdcWrite : Byte := 0x0A
def tdcSeekBlock : Byte := 0x0C
def tdcWriteFilemark : Byte := 0x10
def tdcSpace : Byte := 0x11
def tdcInquiry : Byte := 0x12
def tdcVerify : Byte := 0x13
def tdcRecoverBuffered : Byte := 0x14
def tdcModeSelect : Byte := 0x15
def tdcReserveUnit : Byte := 0x16
def tdcReleaseUnit : Byte := 0x17
def tdcCopy : Byte := 0x18
def tdcErase : Byte := 0x19
def tdcModeSense : Byte := 0x1A
def tdcLoadUnload : Byte := 0x1B
def tdcSendDiagnostic : Byte := 0x1D
def tdcPreventAllow : Byte := 0x1E
def tdcWriteDataBuffer : Byte := 0x3B
def tdcReadDataBuffer : Byte := 0x3C

namespace Tdc

/-- A flag of a command byte. -/
def flag (tape : TapeDevice) (index bit : Nat) : Bool := (tape.port.cmdbuf index).getLsbD bit

def stop (tape : TapeDevice) (status : TapeStatus) (residue : Nat) : TapeDevice :=
  reportReadStop (tape.onPort TargetPort.endDataPhase) status residue

/-- The next block is fetched with the last byte of a block, so that the phase ends there. -/
def getRead (tape : TapeDevice) (pos : Nat) : TapeDevice :=
  if pos % tdcBlockBytes = tdcBlockBytes - 1 then
    let tape := tape.onImpl TapeDrive.countBlock
    if tape.impl.xferDone = tape.impl.xferBlocks then good tape
    else
      let read := tape.impl.readNext
      let tape := tape.onImpl fun _ => read.1
      if read.2 ≠ .ok then stop tape read.2 (tape.impl.xferBlocks - tape.impl.xferDone) else tape
  else tape

/-- The header of the data buffer has the available length. -/
def bufferByte (tape : TapeDevice) (pos : Nat) : Byte :=
  if pos < tdcDataBufferHeader then
    ([0x00, 0x00] ++ putU16be (BitVec.ofNat 16 tdcDataBufferAvailable)).getD pos 0
  else if pos - tdcDataBufferHeader < tdcDataBufferBytes then
    tape.impl.dataBuffer (pos - tdcDataBufferHeader)
  else 0

def getData (tape : TapeDevice) (id : Sbuf) (pos : Nat) : TapeDevice × Byte :=
  if id ≠ .data then (tape, tape.port.defaultGetData id pos)
  else
    let command := tape.port.cmdbuf 0
    if command = tdcRead then (getRead tape pos, tape.impl.block (pos % tdcBlockBytes))
    else if command = tdcReadDataBuffer then (tape, bufferByte tape pos)
    else (tape, if pos < tdcReplyBytes then tape.impl.reply pos else 0)

/-- The block goes onto the tape with its last byte. -/
def putWrite (tape : TapeDevice) (pos : Nat) (data : Byte) : TapeDevice :=
  let at_ := pos % tdcBlockBytes
  let tape := tape.onImpl (TapeDrive.putByte · at_ data)
  if at_ ≠ tdcBlockBytes - 1 then tape
  else
    let written := tape.impl.tape.writeBlock (range tape.impl.block 0 tdcBlockBytes)
    let tape := tape.onImpl (TapeDrive.withTape · written.1)
    if written.2 = .ok ∨ written.2 = .ew then
      let tape := tape.onImpl TapeDrive.countBlock
      let residue := tape.impl.xferBlocks - tape.impl.xferDone
      if tape.impl.pewReported = false ∧ tape.impl.tape.size - tape.impl.tape.pos ≤ tdcPewBytes then
        let tape := tape.onImpl fun drive => { drive with pewReported := true }
        check (tape.onPort TargetPort.endDataPhase) skNoSense tdcSenseEom tdcEcCapacity tdcXWeow true
          residue
      else if residue = 0 then good tape
      else tape
    else
      let tape := tape.onPort TargetPort.endDataPhase
      let residue := tape.impl.xferBlocks - tape.impl.xferDone
      if written.2 = .eom then
        check tape tdcSkVolumeOverflow tdcSenseEom tdcEcCapacity tdcXWeom true residue
      else
        check (tape.onImpl fun drive => { drive with writeError := true }) skMediumError 0
          tdcEcUncorrectable tdcX16rw true residue

/-- The data of the host is compared with the block of the tape. -/
def putVerify (tape : TapeDevice) (pos : Nat) (data : Byte) : TapeDevice :=
  let at_ := pos % tdcBlockBytes
  let tape :=
    if data ≠ tape.impl.block at_ then
      tape.onImpl fun drive => { drive with verifyMismatch := true }
    else tape
  if at_ ≠ tdcBlockBytes - 1 then tape
  else if tape.impl.verifyMismatch then
    check (tape.onPort TargetPort.endDataPhase) tdcSkMiscompare 0 tdcEcCompare tdcXComp true
      (tape.impl.xferBlocks - tape.impl.xferDone)
  else
    let tape := tape.onImpl TapeDrive.countBlock
    if tape.impl.xferDone = tape.impl.xferBlocks then good tape
    else
      let read := tape.impl.readNext
      let tape := tape.onImpl fun _ => read.1
      if read.2 ≠ .ok then stop tape read.2 (tape.impl.xferBlocks - tape.impl.xferDone) else tape

/-- The checks of a parameter list come before any parameter changes. -/
def applyModeSelect (tape : TapeDevice) : TapeDevice :=
  let p := tape.impl.modeSelect
  let len := tape.impl.modeSelectLength
  let descLen := (p 3).toNat
  let d := tdcModeHeaderBytes
  if len < tdcModeHeaderBytes then illegal tape tdcXBadp
  else if descLen ≠ 0 ∧ descLen ≠ tdcModeDescBytes then illegal tape tdcXBadp
  else if descLen = tdcModeDescBytes ∧ len < tdcModeHeaderBytes + tdcModeDescBytes then
    illegal tape tdcXBadp
  else if descLen = tdcModeDescBytes ∧ p d ≠ 0x00 ∧ p d ≠ 0x0F then illegal tape tdcXBadp
  else if descLen = tdcModeDescBytes ∧ getU16be p (d + 6) ≠ tdcBlockBytes then illegal tape tdcXBadp
  else
    let density := if descLen = tdcModeDescBytes then p d else tape.impl.density
    let vstart := tdcModeHeaderBytes + descLen
    let vlen := len - vstart
    if 0 < vlen ∧ p vstart ≠ 0x00 then illegal tape tdcXBadp
    else
      let sent := range p vstart (min vlen tdcModeVendorBytes)
      let vendor := sent ++ tape.impl.vendor.drop sent.length
      let tape := tape.onImpl fun drive =>
        { drive with bufferedMode := (p 2).getLsbD 4, density := density, vendor := vendor }
      let tape :=
        if tape.impl.modeSelectSave then
          tape.onImpl fun drive =>
            { drive with
              savedBufferedMode := drive.bufferedMode
              savedDensity := drive.density
              savedVendor := drive.vendor }
        else tape
      good tape

/-- The command bytes come through the same hook. -/
def putData (tape : TapeDevice) (id : Sbuf) (pos : Nat) (data : Byte) : TapeDevice :=
  if id ≠ .data then tape.onPort (TargetPort.defaultPutData · id pos data)
  else
    let command := tape.port.cmdbuf 0
    if command = tdcWrite then putWrite tape pos data
    else if command = tdcVerify then putVerify tape pos data
    else if command = tdcModeSelect then
      if pos < tape.impl.modeSelectLength then
        let tape := tape.onImpl fun drive =>
          { drive with modeSelect := Function.update drive.modeSelect pos data }
        if pos = tape.impl.modeSelectLength - 1 then applyModeSelect tape else tape
      else tape
    else if command = tdcWriteDataBuffer then
      if tdcDataBufferHeader ≤ pos ∧ pos - tdcDataBufferHeader < tdcDataBufferBytes then
        tape.onImpl fun drive =>
          { drive with
            dataBuffer := Function.update drive.dataBuffer (pos - tdcDataBufferHeader) data }
      else tape
    else tape

/-- A reply that is not empty has a data phase. -/
def sendReply (tape : TapeDevice) (size : Nat) : TapeDevice :=
  if 0 < size then tape.onPort (TargetPort.dataIn · .data size) else tape

/-- These are the characters of an identification field. -/
def ascii (text : String) : List Byte := text.toList.map fun c => BitVec.ofNat 8 c.toNat

def inquiryBytes : List Byte :=
  [0x01, 0x80, 0x01, 0, BitVec.ofNat 8 (tdcInquiryBytes - 5), 0, 0, 0] ++ ascii "TANDBERG" ++
    ascii " TDC 3600       " ++ ascii "    " ++ ascii "00" ++ ascii "CREATED" ++ ascii "      "

def commandInquiry (tape : TapeDevice) : TapeDevice :=
  let size := min (tape.port.cmdbuf 4).toNat tdcInquiryBytes
  good (sendReply (tape.onImpl (TapeDrive.putReply · inquiryBytes)) size)

/-- A short allocation gives the normal sense block. -/
def commandRequestSense (tape : TapeDevice) : TapeDevice :=
  let alloc := (tape.port.cmdbuf 4).toNat
  let threshold := (tape.impl.vendor.getD tdcVendorNormalSenseThreshold 0).toNat
  let sense := tape.impl.sense
  let valid := (sense.getD 0 0).getLsbD 7
  let info := getU32be (sense.getD · 0) 3 % 2 ^ 21
  let short :=
    [(if valid then 0x80 else 0x00) ||| (sense.getD 14 0 &&& 0x7F)] ++ putU24be (BitVec.ofNat 32 info)
  let size :=
    if threshold < alloc then min alloc tdcSenseBytes
    else if alloc = 0 ∨ tdcNormalSenseBytes < alloc then tdcNormalSenseBytes
    else alloc
  let tape := tape.onImpl (TapeDrive.putReply · (if threshold < alloc then sense else short))
  good ((tape.onPort (TargetPort.dataIn · .data size)).onImpl TapeDrive.clearSense)

def commandModeSense (tape : TapeDevice) : TapeDevice :=
  let drive := tape.impl
  let list : List Byte :=
    [BitVec.ofNat 8 (tdcModeListBytes - 1), 0x00,
      (if drive.present && drive.tape.readOnly then 0x80 else 0x00) |||
        (if drive.bufferedMode then 0x10 else 0x00),
      BitVec.ofNat 8 tdcModeDescBytes, drive.density, 0, 0, 0, 0, 0] ++
      putU16be (BitVec.ofNat 16 tdcBlockBytes) ++ drive.vendor
  let size := min (tape.port.cmdbuf 4).toNat tdcModeListBytes
  good (sendReply (tape.onImpl (TapeDrive.putReply · list)) size)

/-- The status of a read comes with its data. -/
def commandRead (tape : TapeDevice) : TapeDevice :=
  if flag tape 1 0 = false then illegal tape tdcXBadc
  else
    ready tape fun tape =>
      if tape.impl.lastWasWrite then check tape skIllegalRequest 0 tdcEcReadEom tdcXRdwr false 0
      else
        let blocks := getU24be tape.port.cmdbuf 2
        let tape := tape.onImpl fun drive => { drive with xferBlocks := blocks, xferDone := 0 }
        if blocks = 0 then good tape
        else if tdcMaxPhaseBlocks < blocks then illegal tape tdcXBadc
        else
          let read := (tape.impl.enterMode .read).readNext
          let tape := tape.onImpl fun _ => read.1
          if read.2 ≠ .ok then reportReadStop tape read.2 blocks
          else tape.onPort (TargetPort.dataIn · .data (blocks * tdcBlockBytes))

/-- The tape may not be read before it is rewound. -/
def startWrite (tape : TapeDevice) : TapeDevice :=
  tape.onImpl fun drive => { drive.enterMode .write with lastWasWrite := true }

def commandWrite (tape : TapeDevice) : TapeDevice :=
  if flag tape 1 0 = false then illegal tape tdcXBadc
  else
    ready tape fun tape => writable tape fun tape =>
      if tape.impl.writeError then
        check tape skMediumError 0 tdcEcUncorrectable tdcX16rw false 0
      else
        let blocks := getU24be tape.port.cmdbuf 2
        let tape := tape.onImpl fun drive => { drive with xferBlocks := blocks, xferDone := 0 }
        if blocks = 0 then good tape
        else if tdcMaxPhaseBlocks < blocks then illegal tape tdcXBadc
        else
          mayAppend tape fun tape =>
            (startWrite tape).onPort (TargetPort.dataOut · .data (blocks * tdcBlockBytes))

/-- The marks go where the tape stands. -/
def putFilemarks (tape : TapeDevice) (count : Nat) : TapeDevice :=
  let written := tape.impl.tape.writeFilemarks count
  let tape := tape.onImpl (TapeDrive.withTape · written.1)
  match written.2 with
  | .ok | .ew =>
    good (tape.onImpl fun drive =>
      { drive with filemarkCounter := drive.filemarkCounter + BitVec.ofNat 16 count })
  | .eom => check tape tdcSkVolumeOverflow tdcSenseEom tdcEcCapacity tdcXWeom true count
  | _ =>
    check (tape.onImpl fun drive => { drive with writeError := true }) skMediumError 0
      tdcEcUncorrectable tdcX16rw true count

def commandWriteFilemark (tape : TapeDevice) : TapeDevice :=
  let count := getU24be tape.port.cmdbuf 2
  ready tape fun tape => writable tape fun tape =>
    if count = 0 then good tape
    else mayAppend tape fun tape => putFilemarks (startWrite tape) count

/-- Blocks are read until the count of a command or until a stop. -/
def verifyBlocks (tape : TapeDevice) : Nat → TapeDevice
  | 0 => good tape
  | left + 1 =>
    let read := tape.impl.readNext
    let tape := tape.onImpl fun _ => read.1
    if read.2 ≠ .ok then reportReadStop tape read.2 (tape.impl.xferBlocks - tape.impl.xferDone)
    else verifyBlocks (tape.onImpl TapeDrive.countBlock) left

def commandVerify (tape : TapeDevice) : TapeDevice :=
  if flag tape 1 0 = false then illegal tape tdcXBadc
  else
    ready tape fun tape =>
      if tape.impl.lastWasWrite then illegal tape tdcXInap
      else
        let blocks := getU24be tape.port.cmdbuf 2
        let tape := tape.onImpl fun drive =>
          { drive with xferBlocks := blocks, xferDone := 0, verifyMismatch := false }
        if blocks = 0 then good tape
        else
          let tape := tape.onImpl (TapeDrive.enterMode · .read)
          if flag tape 1 1 then
            if tdcMaxPhaseBlocks < blocks then illegal tape tdcXBadc
            else
              let read := tape.impl.readNext
              let tape := tape.onImpl fun _ => read.1
              if read.2 ≠ .ok then reportReadStop tape read.2 blocks
              else tape.onPort (TargetPort.dataOut · .data (blocks * tdcBlockBytes))
          else verifyBlocks tape blocks

/-- A motion to the logical end ignores the count. -/
def spaceToEod (tape : TapeDevice) : TapeDevice :=
  let moved := tape.impl.tape.spaceEod
  let tape := tape.onImpl (TapeDrive.withTape · moved.1)
  match moved.2 with
  | .ok => good tape
  | .eom => check tape skNoSense tdcSenseEom tdcEcReadEom tdcXReop false 0
  | _ => check tape skMediumError 0 tdcEcBadBlock tdcX24re false 0

def spaceSequential (tape : TapeDevice) (want : Nat) : TapeDevice :=
  let moved := tape.impl.tape.spaceFilemarks want true
  let tape := tape.onImpl (TapeDrive.withTape · moved.1)
  match moved.2.1 with
  | .ok => good tape
  | .eod | .eodEw => check tape skBlankCheck tdcSenseEom tdcEcReadEom tdcXReol false 0
  | .eom => check tape skNoSense tdcSenseEom tdcEcReadEom tdcXReop false 0
  | _ => check tape skMediumError 0 tdcEcBadBlock tdcX24re false 0

/-- The sense tells what stopped a counted motion. -/
def spaceStatus (tape : TapeDevice) (moved : TapeImage × TapeStatus × Nat) (want : Nat) :
    TapeDevice :=
  let tape := tape.onImpl (TapeDrive.withTape · moved.1)
  let residue := want - moved.2.2
  match moved.2.1 with
  | .ok => good tape
  | .filemark | .filemarkEw => check tape skNoSense tdcSenseFm tdcEcFilemark tdcXFimk true residue
  | .eod | .eodEw => check tape skBlankCheck 0 tdcEcReadEom tdcXReol true residue
  | .bom => check tape skNoSense tdcSenseEom tdcEcNone tdcXOk true residue
  | .eom => check tape skMediumError tdcSenseEom tdcEcReadEom tdcXReop true residue
  | _ => check tape skMediumError 0 tdcEcBadBlock tdcX24re true residue

/-- The count is a signed number of twenty-four bits. -/
def commandSpace (tape : TapeDevice) : TapeDevice :=
  let code := (tape.port.cmdbuf 1).toNat % 4
  let field := getU24be tape.port.cmdbuf 2
  let negative := 2 ^ 23 ≤ field
  let want := if negative then 2 ^ 24 - field else field
  ready tape fun tape =>
    let tape := tape.onImpl (TapeDrive.enterMode · .position)
    let image := tape.impl.tape
    if code = 3 then spaceToEod tape
    else if field = 0 then good tape
    else if code = 2 then
      if negative then illegal tape tdcXBadc else spaceSequential tape want
    else if negative then
      spaceStatus tape
        (if code = 0 then image.spaceBlocksReverse want else image.spaceFilemarksReverse want) want
    else
      spaceStatus tape
        (if code = 0 then image.spaceBlocks want else image.spaceFilemarks want false) want

/-- The addresses of the drive begin with one. -/
def commandRequestBlockAddress (tape : TapeDevice) : TapeDevice :=
  ready tape fun tape =>
    let counted := tape.impl.tape.blockAddress
    let tape := tape.onImpl (TapeDrive.withTape · counted.1)
    if counted.2.1 ≠ .ok then check tape skMediumError 0 tdcEcBadBlock tdcX24re false 0
    else
      let asked := (tape.port.cmdbuf 4).toNat
      let size := if asked = 0 ∨ 3 < asked then 3 else asked
      let reply := putU24be (BitVec.ofNat 32 (counted.2.2 + 1))
      good ((tape.onImpl (TapeDrive.putReply · reply)).onPort (TargetPort.dataIn · .data size))

def commandSeekBlock (tape : TapeDevice) : TapeDevice :=
  let address := getU24be tape.port.cmdbuf 2
  if address = 0 then illegal tape tdcXIlcm
  else
    ready tape fun tape =>
      let tape := tape.onImpl (TapeDrive.enterMode · .position)
      let located := tape.impl.tape.locate (address - 1)
      let tape := tape.onImpl (TapeDrive.withTape · located.1)
      match located.2 with
      | .ok => good tape
      | .error => check tape skMediumError 0 tdcEcBadBlock tdcX24re false 0
      | _ => check tape skBlankCheck 0 tdcEcNoRecord tdcXQrnd false 0

/-- An unload may leave the tape at its physical end. -/
def commandLoadUnload (tape : TapeDevice) : TapeDevice :=
  let load := flag tape 4 0
  let eot := flag tape 5 7
  if tape.impl.present = false then check tape skNotReady 0 tdcEcNotLoaded tdcXNcar false 0
  else
    let tape := tape.onImpl TapeDrive.toBot
    good (tape.onImpl fun drive =>
      if load then { drive with loaded := true }
      else { drive with loaded := false, tape := drive.tape.rewind eot })

/-- The whole tape is erased. -/
def commandErase (tape : TapeDevice) : TapeDevice :=
  if flag tape 1 0 = false then illegal tape tdcXBadc
  else
    ready tape fun tape => writable tape fun tape =>
      let tape := tape.onImpl TapeDrive.toBot
      let erased := tape.impl.tape.erase
      let tape := tape.onImpl (TapeDrive.withTape · erased.1)
      if erased.2 ≠ .ok then check tape skMediumError 0 tdcEcUncorrectable tdcX16rw false 0
      else good (tape.onImpl fun drive => { drive with writeError := false })

/-- No self test moves the tape. -/
def commandSendDiagnostic (tape : TapeDevice) : TapeDevice :=
  let stest := flag tape 1 2
  let bothOffline := flag tape 1 0 && flag tape 1 1
  let listLen := getU16be tape.port.cmdbuf 3
  if stest then
    if listLen ≠ 0 then illegal tape tdcXBadc else good tape
  else if bothOffline = false ∨ (listLen ≠ 0 ∧ listLen ≠ 8) then illegal tape tdcXBadc
  else good tape

def commandRecoverBuffered (tape : TapeDevice) : TapeDevice :=
  let count := getU24be tape.port.cmdbuf 2
  if flag tape 1 0 = false then illegal tape tdcXBadc
  else
    ready tape fun tape =>
      if count = 0 then good tape else check tape skNoSense tdcSenseEom tdcEcNone tdcXOk true count

def commandReadBlockLimits (tape : TapeDevice) : TapeDevice :=
  let reply := [0] ++ putU24be (BitVec.ofNat 32 tdcBlockBytes) ++
    putU16be (BitVec.ofNat 16 tdcBlockBytes)
  good ((tape.onImpl (TapeDrive.putReply · reply)).onPort (TargetPort.dataIn · .data 6))

/-- The status of a parameter list comes with its last byte. -/
def commandModeSelect (tape : TapeDevice) : TapeDevice :=
  let length := (tape.port.cmdbuf 4).toNat
  let tape := tape.onImpl fun drive =>
    { drive with modeSelectLength := length, modeSelectSave := flag tape 5 6 }
  if tdcModeListBytes < length then illegal tape tdcXBadp
  else if length = 0 then good tape
  else tape.onPort (TargetPort.dataOut · .data length)

def bufferLength (tape : TapeDevice) : Nat := getU24be tape.port.cmdbuf 6

def commandReadDataBuffer (tape : TapeDevice) : TapeDevice :=
  if (tape.port.cmdbuf 1).toNat % 8 ≠ 0 then illegal tape tdcXBadc
  else good (sendReply tape (min (bufferLength tape) (tdcDataBufferHeader + tdcDataBufferAvailable)))

def commandWriteDataBuffer (tape : TapeDevice) : TapeDevice :=
  if (tape.port.cmdbuf 1).toNat % 8 ≠ 0 then illegal tape tdcXBadc
  else if tdcDataBufferHeader + tdcDataBufferAvailable < bufferLength tape then
    illegal tape tdcXBadc
  else if 0 < bufferLength tape then
    good (tape.onPort (TargetPort.dataOut · .data (bufferLength tape)))
  else good tape

/-- The commands of the drive other than those that are answered before any check. -/
def perform (tape : TapeDevice) (cmd : Byte) : TapeDevice :=
  if cmd = tdcTestUnitReady then ready tape good
  else if cmd = tdcRewind then ready tape fun tape => good (tape.onImpl TapeDrive.toBot)
  else if cmd = tdcRequestBlockAddr then commandRequestBlockAddress tape
  else if cmd = tdcReadBlockLimits then commandReadBlockLimits tape
  else if cmd = tdcRead then commandRead tape
  else if cmd = tdcWrite then commandWrite tape
  else if cmd = tdcSeekBlock then commandSeekBlock tape
  else if cmd = tdcWriteFilemark then commandWriteFilemark tape
  else if cmd = tdcSpace then commandSpace tape
  else if cmd = tdcVerify then commandVerify tape
  else if cmd = tdcRecoverBuffered then commandRecoverBuffered tape
  else if cmd = tdcModeSelect then commandModeSelect tape
  else if cmd = tdcModeSense then commandModeSense tape
  else if cmd = tdcReserveUnit ∨ cmd = tdcReleaseUnit then good tape
  else if cmd = tdcErase then commandErase tape
  else if cmd = tdcLoadUnload then commandLoadUnload tape
  else if cmd = tdcSendDiagnostic then commandSendDiagnostic tape
  else if cmd = tdcPreventAllow then good tape
  else if cmd = tdcReadDataBuffer then commandReadDataBuffer tape
  else if cmd = tdcWriteDataBuffer then commandWriteDataBuffer tape
  else if cmd = tdcCopy then illegal tape tdcXIlcm
  else illegal tape tdcXIlcm

/-- The unit comes from the identify message, or from the command without one. -/
def lun (tape : TapeDevice) : Nat :=
  if tape.port.identify.getLsbD 7 then tape.port.identify.toNat % 8
  else (tape.port.cmdbuf 1).toNat / 32

def control (tape : TapeDevice) : Byte :=
  tape.port.cmdbuf (if 0 < tape.port.cmdsize then tape.port.cmdsize - 1 else 5)

def command (tape : TapeDevice) : TapeDevice :=
  let cmd := tape.port.cmdbuf 0
  let tape := tape.onImpl TapeDrive.refreshMedia
  if cmd = tdcInquiry then commandInquiry tape
  else if tape.impl.unitAttention && tape.impl.present then
    let tape := tape.onImpl fun drive => TapeDrive.toBot { drive with unitAttention := false }
    if cmd = tdcRequestSense then
      commandRequestSense
        (tape.onImpl (TapeDrive.setSense · skUnitAttention 0 tdcEcUnitAttn tdcXUatt false 0))
    else check tape skUnitAttention 0 tdcEcUnitAttn tdcXUatt false 0
  else if cmd = tdcRequestSense then commandRequestSense tape
  else
    let tape := tape.onImpl TapeDrive.clearSense
    if lun tape ≠ 0 then illegal tape tdcXBadc
    else if (control tape).getLsbD 0 then illegal tape tdcXBadc
    else perform tape cmd

/-- The saved parameters are in force after a reset. -/
def resetState (tape : TapeDevice) : TapeDevice :=
  tape.onImpl fun drive =>
    TapeDrive.clearSense { drive.flush with
      density := drive.savedDensity
      bufferedMode := drive.savedBufferedMode
      vendor := drive.savedVendor
      unitAttention := true
      writeError := false
      blockCounter := 0
      filemarkCounter := 0 }

def busReset (tape : TapeDevice) : TapeDevice := resetState tape

def hooks : TargetHooks TapeDrive where
  command := command
  getData := getData
  putData := putData
  busReset := busReset

/-- A drive that was just attached has no cartridge before it looks for one. -/
def init (port : TargetPort) (owner : BlockCallbacks) : TapeDevice :=
  let drive : TapeDrive :=
    { tape :=
        { owner := owner
          size := 0
          readOnly := false
          pos := 0
          cache := fun _ => 0
          cacheBlock := none
          cacheDirty := false
          ioError := false }
      present := false
      loaded := false
      unitAttention := false
      sense := List.replicate tdcSenseBytes 0
      opMode := .none
      blockCounter := 0
      filemarkCounter := 0
      lastWasWrite := false
      writeError := false
      pewReported := false
      density := 0
      bufferedMode := false
      vendor := List.replicate tdcModeVendorBytes 0
      savedDensity := 0x00
      savedBufferedMode := true
      savedVendor := tdcDefaultVendor
      block := fun _ => 0
      xferBlocks := 0
      xferDone := 0
      verifyMismatch := false
      modeSelect := fun _ => 0
      modeSelectLength := 0
      modeSelectSave := false
      reply := fun _ => 0
      dataBuffer := fun _ => 0 }
  (resetState ⟨port, drive⟩).onImpl TapeDrive.refreshMedia

end Tdc

/-- These steps of a host reach the hooks of the drive. -/
inductive HostStep where
  | command (cdb : Nat → Byte) (size : Nat) (identify : Byte)
  | byteOut (data : Byte)
  | byteIn
  | busReset

/-- A session is a drive with the data phase that runs. The blocks of the host and the tape at the
start of the command are recorded. -/
structure TapeSession where
  device : TapeDevice
  phase : Option DataPhase
  opening : TapeImage
  blocks : List (List Byte)
  part : List Byte

namespace TapeSession

/-- The calls of the last hook are gone when the next one runs. -/
def ready (s : TapeSession) : TapeDevice := s.device.onPort fun port => { port with calls := [] }

/-- A data phase ends with its last byte or earlier. -/
def advance (phase : DataPhase) (device : TapeDevice) : Option DataPhase :=
  if PhaseCall.endDataPhase ∈ device.port.calls ∨ phase.pos + 1 = phase.size then none
  else some { phase with pos := phase.pos + 1 }

def command (s : TapeSession) (cdb : Nat → Byte) (size : Nat) (identify : Byte) : TapeSession :=
  let asked := s.ready.onPort fun port =>
    { port with cmdbuf := cdb, cmdsize := size, identify := identify }
  let device := Tdc.command asked
  { device := device
    phase := phaseOf device.port.calls
    opening := s.device.impl.refreshMedia.tape
    blocks := []
    part := [] }

def byteOut (s : TapeSession) (phase : DataPhase) (data : Byte) : TapeSession :=
  let device := Tdc.putData s.ready .data phase.pos data
  let part := s.part ++ [data]
  { device := device
    phase := advance phase device
    opening := s.opening
    blocks := if part.length = tdcBlockBytes then s.blocks ++ [part] else s.blocks
    part := if part.length = tdcBlockBytes then [] else part }

def byteIn (s : TapeSession) (phase : DataPhase) : TapeSession :=
  let device := (Tdc.getData s.ready .data phase.pos).1
  { s with device := device, phase := advance phase device }

def busReset (s : TapeSession) : TapeSession :=
  { s with device := Tdc.busReset s.ready, phase := none }

/-- A step that does not fit the phase does not reach the drive. -/
def step (s : TapeSession) : HostStep → TapeSession
  | .command cdb size identify =>
    match s.phase with
    | none => s.command cdb size identify
    | some _ => s
  | .byteOut data =>
    match s.phase with
    | some phase => if phase.input then s else s.byteOut phase data
    | none => s
  | .byteIn =>
    match s.phase with
    | some phase => if phase.input then s.byteIn phase else s
    | none => s
  | .busReset => s.busReset

def run (s : TapeSession) (steps : List HostStep) : TapeSession := steps.foldl step s

def image (s : TapeSession) : TapeImage := s.device.impl.tape

def opcode (s : TapeSession) : Byte := s.device.port.cmdbuf 0

end TapeSession

end Nd100x.Scsi
