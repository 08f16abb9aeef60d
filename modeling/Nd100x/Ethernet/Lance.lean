import Nd100x.Ethernet.LanceParts

namespace Nd100x.Ethernet

namespace LanceBoard

open Am7990Lance

def onLance (m : LanceBoard) (change : Am7990Lance → Am7990Lance) : LanceBoard :=
  { m with lance := change m.lance }

def orCsr0 (m : LanceBoard) (flags : Word) : LanceBoard :=
  m.onLance fun l => l.putCsr0 (l.csr0 ||| flags)

def dropCsr0 (m : LanceBoard) (flags : Word) : LanceBoard :=
  m.onLance fun l => l.putCsr0 (l.csr0 &&& ~~~flags)

/-- The line of the chip requests level 2. -/
def onLanceIrq (m : LanceBoard) : LanceBoard :=
  { m with
    irq := m.irq.set 2 m.lance.isInterruptActive m.cpuMask
    reported := m.lance.isInterruptActive }

def putAsserted (m : LanceBoard) (asserted : Bool) : LanceBoard :=
  m.onLance fun l => { l with irqAsserted := asserted }

def checkInterrupts (m : LanceBoard) : LanceBoard :=
  let should := shouldInterrupt m.lance.csr0 m.lance.csr3
  let m := if should then m.orCsr0 Csr0.intr else m.dropCsr0 Csr0.intr
  if should ≠ m.lance.irqAsserted then (m.putAsserted should).onLanceIrq else m

/-- The summary bit of the errors is not set. -/
def setMemoryError (m : LanceBoard) : LanceBoard := (m.orCsr0 Csr0.merr).checkInterrupts

/- The memory of the card, word by word. -/

def dmaInside (address : BitVec 32) : Bool := (address &&& 0xFFFFFF).toNat + 1 < ethmemDramSize

def noteAccess (m : LanceBoard) (address : BitVec 32) : LanceBoard :=
  { m with accesses := m.accesses ++ [address] }

def dmaIn (m : LanceBoard) (address : BitVec 32) : LanceBoard × Word :=
  let m := m.noteAccess address
  let place := (address &&& 0xFFFFFF).toNat
  if dmaInside address then
    (m, ((m.dram place).setWidth 16 <<< 8) ||| (m.dram (place + 1)).setWidth 16)
  else (m.setMemoryError, 0)

def dmaOut (m : LanceBoard) (address : BitVec 32) (data : Word) : LanceBoard :=
  let m := m.noteAccess address
  let place := (address &&& 0xFFFFFF).toNat
  if dmaInside address then
    { m with
      dram := Function.update (Function.update m.dram place ((data >>> 8).setWidth 8)) (place + 1)
        (data.setWidth 8)
      stores := m.stores ++ [(place, data)] }
  else m.setMemoryError

def byteSwap (m : LanceBoard) : Bool := anyFlag m.lance.csr3 Csr3.bswp

def lowOf (word : Word) : Byte := word.setWidth 8
def highOf (word : Word) : Byte := (word >>> 8).setWidth 8

/-- A byte behind the end of the packet buffer is not stored. -/
def putPacket (m : LanceBoard) (pos : Nat) (byte : Byte) : LanceBoard :=
  if pos < lancePacketBufferSize then
    m.onLance fun l => { l with packetBuffer := Function.update l.packetBuffer pos byte }
  else m

def readPair (m : LanceBoard) (address : BitVec 32) (pos : Nat) : LanceBoard :=
  let read := m.dmaIn address
  if pos + 1 < lancePacketBufferSize then
    if m.byteSwap then (read.1.putPacket pos (highOf read.2)).putPacket (pos + 1) (lowOf read.2)
    else (read.1.putPacket pos (lowOf read.2)).putPacket (pos + 1) (highOf read.2)
  else read.1

def readPairs (m : LanceBoard) (address : BitVec 32) (pos : Nat) : (pairs : Nat) → LanceBoard
  | 0 => m
  | pairs + 1 => readPairs (m.readPair address pos) (address + 2) (pos + 2) pairs

/-- The last byte of an odd length. -/
def readLast (m : LanceBoard) (address : BitVec 32) (pos : Nat) : LanceBoard :=
  let read := m.dmaIn address
  read.1.putPacket pos (if m.byteSwap then highOf read.2 else lowOf read.2)

/-- The byte at an odd address. -/
def readOdd (m : LanceBoard) (address : BitVec 32) (pos : Nat) : LanceBoard :=
  let read := m.dmaIn (address &&& ~~~1)
  read.1.putPacket pos (if m.byteSwap then lowOf read.2 else highOf read.2)

def readEven (m : LanceBoard) (address : BitVec 32) (pos length : Nat) : LanceBoard :=
  let m := m.readPairs address pos (length / 2)
  if length % 2 = 1 then
    m.readLast (address + BitVec.ofNat 32 (2 * (length / 2))) (pos + 2 * (length / 2))
  else m

def dmaReadBuffer (m : LanceBoard) (address : BitVec 32) (offset length : Nat) : LanceBoard :=
  if address.getLsbD 0 then
    (m.readOdd address offset).readEven (address + 1) (offset + 1) (length - 1)
  else m.readEven address offset length

/-- A word is stored whole, also for a single byte. -/
def wordOf (byteSwap : Bool) (first second : Byte) : Word :=
  if byteSwap then (first.setWidth 16 <<< 8) ||| second.setWidth 16
  else first.setWidth 16 ||| (second.setWidth 16 <<< 8)

def writeEven (m : LanceBoard) (address : BitVec 32) : List Byte → LanceBoard
  | [] => m
  | [last] => m.dmaOut address (wordOf m.byteSwap last 0)
  | first :: second :: rest =>
    (m.dmaOut address (wordOf m.byteSwap first second)).writeEven (address + 2) rest

def dmaWriteBuffer (m : LanceBoard) (address : BitVec 32) (bytes : List Byte) : LanceBoard :=
  if address.getLsbD 0 then
    match bytes with
    | [] => m
    | first :: rest =>
      (m.dmaOut (address &&& ~~~1) (wordOf m.byteSwap 0 first)).writeEven (address + 1) rest
  else m.writeEven address bytes

/- Receive. -/

def nextPos (pos mask : Byte) : Byte := (pos + 1) &&& mask

def rxRingAddr (m : LanceBoard) : BitVec 32 := ringAddr m.lance.rxRingBase m.lance.rxRingPos
def txRingAddr (m : LanceBoard) : BitVec 32 := ringAddr m.lance.txRingBase m.lance.txRingPos

def putRxMd1 (m : LanceBoard) (word : Word) : LanceBoard := m.onLance fun l => { l with rxMd1 := word }
def putTxMd1 (m : LanceBoard) (word : Word) : LanceBoard := m.onLance fun l => { l with txMd1 := word }
def putRxRingPos (m : LanceBoard) (pos : Byte) : LanceBoard :=
  m.onLance fun l => { l with rxRingPos := pos }
def putTxRingPos (m : LanceBoard) (pos : Byte) : LanceBoard :=
  m.onLance fun l => { l with txRingPos := pos }

def bufferAddress (md1 md0 : Word) : BitVec 32 :=
  ((md1 &&& Md1.hadr).setWidth 32 <<< 16) ||| md0.setWidth 32

/-- A part of a frame goes into the buffer of the current descriptor. -/
def receiveBuffer (m : LanceBoard) (ra : BitVec 32) (frame : List Byte) (offset : Nat) :
    LanceBoard × Nat :=
  let read0 := m.dmaIn ra
  let read2 := read0.1.dmaIn (ra ||| 4)
  let m := read2.1.onLance fun l => { l with rxMd0 := read0.2, rxMd2 := read2.2 }
  let count := min (frame.length - offset) (getBufferLength read2.2)
  let m := m.dmaWriteBuffer (bufferAddress m.lance.rxMd1 read0.2)
    ((frame.drop offset).take count)
  (m.putRxMd1 (m.lance.rxMd1 &&& ~~~Md1.own), offset + count)

/-- The rest of a frame goes into further descriptors while the chip owns them. The length of the
frame is fuel enough, for every buffer takes a byte. -/
def receiveLoop (frame : List Byte) : (fuel : Nat) → LanceBoard → BitVec 32 → Nat → LanceBoard × Nat
  | 0, m, _, offset => (m, offset)
  | fuel + 1, m, ra, offset =>
    if offset < frame.length then
      let stored := m.receiveBuffer ra frame offset
      let m := stored.1
      let offset := stored.2
      if offset < frame.length then
        let nextRingPos := nextPos m.lance.rxRingPos m.lance.rxRingMask
        let nextRingAddr := ringAddr m.lance.rxRingBase nextRingPos
        let next := m.dmaIn (nextRingAddr ||| 2)
        let m := next.1
        if anyFlag next.2 Md1.own then
          let m := (m.dmaOut (ra ||| 2) m.lance.rxMd1).putRxRingPos nextRingPos
          receiveLoop frame fuel (m.putRxMd1 next.2) nextRingAddr offset
        else (m.putRxMd1 (m.lance.rxMd1 ||| Md1.err ||| Md1.buff), offset)
      else (m, offset)
    else (m, offset)

def loops (m : LanceBoard) : Bool := anyFlag m.lance.mode Mode.loop

/-- A negative result drops the frame, and -2 counts it as missed. -/
def receivePacket (m : LanceBoard) (frame : List Byte) : LanceBoard × Int :=
  if !m.lance.inLoopbackReceive && m.loops && anyFlag m.lance.mode Mode.intl then (m, 0)
  else if !anyFlag m.lance.csr0 Csr0.rxon then
    (m.onLance fun l => { l with rxDroppedRxOff := l.rxDroppedRxOff + 1 }, -1)
  else if !m.loops && decide (frame.length < 14) then (m, 0)
  else if !m.loops && !m.lance.addressFilter frame then
    (m.onLance fun l => { l with rxFiltered := l.rxFiltered + 1 }, -1)
  else
    let ra := m.rxRingAddr
    let read := m.dmaIn (ra ||| 2)
    let m := read.1.putRxMd1 read.2
    if !anyFlag read.2 Md1.own then
      ((m.orCsr0 (Csr0.err ||| Csr0.miss)).onLance fun l => { l with rxMissed := l.rxMissed + 1 },
        -2)
    else
      let looped := receiveLoop frame frame.length (m.putRxMd1 (read.2 ||| Md1.stp)) ra 0
      let m := looped.1
      let m :=
        if looped.2 = frame.length then m.putRxMd1 (m.lance.rxMd1 ||| Md1.enp) else m
      (m.onLance fun l => { l with rxAccepted := l.rxAccepted + 1 }, looped.2)

def receiveComplete (m : LanceBoard) (result : Int) : LanceBoard :=
  if result = -2 then (m.orCsr0 (Csr0.rint ||| Csr0.intr)).checkInterrupts
  else if result ≤ 0 then m
  else
    let ra := m.rxRingAddr
    let m := m.dmaOut (ra ||| 2) m.lance.rxMd1
    let m := m.dmaOut (ra ||| 6)
      (if anyFlag m.lance.rxMd1 Md1.err then 0 else BitVec.ofInt 16 (result + 4) &&& rmd3Mcnt)
    let m := m.putRxRingPos (nextPos m.lance.rxRingPos m.lance.rxRingMask)
    (m.orCsr0 (Csr0.rint ||| Csr0.intr)).checkInterrupts

/- Transmit. -/

def transmitComplete (m : LanceBoard) (result : Int) : LanceBoard :=
  let ra := m.txRingAddr
  let failed (m : LanceBoard) (flag : Word) : LanceBoard :=
    let m := m.onLance fun l => { l with txMd1 := l.txMd1 ||| Md1.err, txMd3 := l.txMd3 ||| flag }
    m.dmaOut (ra ||| 6) m.lance.txMd3
  let m :=
    if result = -2 then m.putTxMd1 (m.lance.txMd1 ||| Md1.err)
    else if result = -1 then failed m Tmd3.rtry
    else if result = 0 then failed m Tmd3.lcar
    else m
  let m := m.dmaOut (ra ||| 2) m.lance.txMd1
  let m := m.putTxRingPos (nextPos m.lance.txRingPos m.lance.txRingMask)
  (m.orCsr0 (Csr0.tint ||| Csr0.intr)).checkInterrupts

inductive TransmitExit where
  | emptyBuffer
  | gathered (length : Nat)
  | unfinished
  deriving DecidableEq, Repr

/-- The descriptor of a chain is read, and its buffer follows the bytes gathered so far. -/
def gatherBuffer (m : LanceBoard) (ra : BitVec 32) (length : Nat) : LanceBoard × Nat :=
  let read0 := m.dmaIn ra
  let read2 := read0.1.dmaIn (ra ||| 4)
  let m := read2.1.onLance fun l =>
    { l with
      txMd0 := read0.2
      txMd2 := read2.2
      txMd3 := 0
      txMd1 := l.txMd1 &&& ~~~Md1.own }
  let bufLen := getBufferLength read2.2
  if bufLen = 0 then (m, 0)
  else (m.dmaReadBuffer (bufferAddress m.lance.txMd1 read0.2) length bufLen, bufLen)

/-- A chain that ends at a descriptor of the driver stops the transmitter. -/
def underflow (m : LanceBoard) (ra : BitVec 32) : LanceBoard :=
  let m := m.onLance fun l =>
    { l with
      txMd1 := l.txMd1 ||| Md1.err
      txMd3 := l.txMd3 ||| Tmd3.buff ||| Tmd3.uflo }
  let m := m.dmaOut (ra ||| 6) m.lance.txMd3
  (m.dropCsr0 Csr0.txon).onLance fun l => { l with transmitterEnabled := false }

def transmitLoop : (fuel : Nat) → LanceBoard → BitVec 32 → Nat → LanceBoard × TransmitExit
  | 0, m, _, _ => (m, .unfinished)
  | fuel + 1, m, ra, length =>
    let gathered := m.gatherBuffer ra length
    let m := gathered.1
    let length := length + gathered.2
    if gathered.2 = 0 then
      ((m.dmaOut (ra ||| 2) m.lance.txMd1).putTxRingPos
        (nextPos m.lance.txRingPos m.lance.txRingMask), .emptyBuffer)
    else if anyFlag m.lance.txMd1 Md1.enp then (m, .gathered length)
    else
      let nextRingPos := nextPos m.lance.txRingPos m.lance.txRingMask
      let nextRingAddr := ringAddr m.lance.txRingBase nextRingPos
      let next := m.dmaIn (nextRingAddr ||| 2)
      let m := next.1
      if anyFlag next.2 Md1.own then
        let m := (m.dmaOut (ra ||| 2) m.lance.txMd1).putTxRingPos nextRingPos
        transmitLoop fuel (m.putTxMd1 next.2) nextRingAddr length
      else (m.underflow ra, .gathered length)

/-- The checksum follows the frame when it fits. -/
def appendFcs (m : LanceBoard) (length : Nat) : LanceBoard × Nat :=
  if !anyFlag m.lance.mode Mode.dtcr && decide (0 < length) &&
      decide (length + 4 ≤ lancePacketBufferSize) then
    let crc := crc32Calculate ((List.range length).map m.lance.packetBuffer)
    ((((m.putPacket length (crc.setWidth 8)).putPacket (length + 1)
      ((crc >>> 8).setWidth 8)).putPacket (length + 2) ((crc >>> 16).setWidth 8)).putPacket
      (length + 3) ((crc >>> 24).setWidth 8), length + 4)
  else (m, length)

/-- A packet is looped back, or it leaves the chip without its checksum. -/
def handOver (m : LanceBoard) (wireLength length : Nat) : LanceBoard :=
  if m.loops then
    if anyFlag m.lance.mode Mode.coll && anyFlag m.lance.mode Mode.intl then m.transmitComplete (-1)
    else
      let copy := min length lanceLoopbackBufferSize
      (m.onLance fun l =>
        { l with loopbackBuffer := (List.range copy).map l.packetBuffer }).transmitComplete length
  else
    let packet := (List.range wireLength).map m.lance.packetBuffer
    ({ m with transmitted := m.transmitted ++ [packet] } : LanceBoard).transmitComplete length

/-- A frame that is too long is reported and sent all the same. -/
def babble (m : LanceBoard) (gathered : Nat) : LanceBoard :=
  if 1518 < gathered then m.orCsr0 (Csr0.err ||| Csr0.babl) else m

def sendGathered (m : LanceBoard) (gathered : Nat) : LanceBoard :=
  let wireLength := min gathered lancePacketBufferSize
  let finished := (m.babble gathered).appendFcs wireLength
  finished.1.handOver wireLength finished.2

/-- A ring has at most 128 descriptors. -/
def transmitFuel : Nat := 130

def transmit (m : LanceBoard) : LanceBoard :=
  let looped := transmitLoop transmitFuel m m.txRingAddr 0
  match looped.2 with
  | .gathered length => looped.1.sendGathered length
  | _ => looped.1

/-- A looped packet is received at the next poll. -/
def pollLoopback (m : LanceBoard) : LanceBoard :=
  if m.lance.loopbackBuffer ≠ [] ∧ m.loops = true then
    let received := (m.onLance fun l => { l with inLoopbackReceive := true }).receivePacket
      m.lance.loopbackBuffer
    (received.1.onLance fun l =>
      { l with inLoopbackReceive := false, loopbackBuffer := [] }).receiveComplete received.2
  else m

def transmitPoll (m : LanceBoard) : LanceBoard :=
  let m := m.dropCsr0 Csr0.tdmd
  let m :=
    if anyFlag m.lance.csr0 Csr0.txon then
      let ra := m.txRingAddr
      let read := m.dmaIn (ra ||| 2)
      let m := read.1.putTxMd1 read.2
      if !anyFlag read.2 Md1.own then m
      else if !anyFlag read.2 Md1.stp then
        (m.dmaOut (ra ||| 2) (read.2 &&& ~~~Md1.own)).putTxRingPos
          (nextPos m.lance.txRingPos m.lance.txRingMask)
      else m.transmit
    else m
  m.pollLoopback

/- Registers. -/

/-- The line drops at a reset. -/
def reset (m : LanceBoard) : LanceBoard :=
  let wasAsserted := m.lance.irqAsserted
  let fresh := Am7990Lance.cleared m.lance.startAddress m.lance.swapByteLanes
  let m := m.onLance fun l =>
    { fresh with
      initBlockAddress := l.initBlockAddress
      inLoopbackReceive := l.inLoopbackReceive
      packetBuffer := l.packetBuffer
      rxQueue := l.rxQueue
      rxAccepted := l.rxAccepted
      rxFiltered := l.rxFiltered
      rxMissed := l.rxMissed
      rxDroppedRxOff := l.rxDroppedRxOff }
  if wasAsserted then m.onLanceIrq else m

def readWords (m : LanceBoard) (address : BitVec 32) : (count : Nat) → LanceBoard × List Word
  | 0 => (m, [])
  | count + 1 =>
    let read := m.dmaIn address
    let rest := readWords read.1 (address + 2) count
    (rest.1, read.2 :: rest.2)

def ringBase (low high : Word) : BitVec 32 :=
  (((high &&& 0x00FF).setWidth 32 <<< 16) ||| low.setWidth 32) &&& 0xFFFFF8

/-- A ring has 1 to 128 descriptors. -/
def ringMask (high : Word) : Byte := ((1 : Byte) <<< ((high >>> 13) &&& 7).toNat) - 1

def executeInitialize (m : LanceBoard) : LanceBoard :=
  let initAddr := ((m.lance.csr2.setWidth 32 <<< 16) ||| m.lance.csr1.setWidth 32) &&& 0xFFFFFE
  if initAddr = 0 then m
  else
    let read := m.readWords initAddr 12
    let block := fun index => read.2.getD index 0
    let m := read.1.onLance fun l =>
      { l with
        mode := block 0
        physicalAddress := [lowOf (block 1), highOf (block 1), lowOf (block 2), highOf (block 2),
          lowOf (block 3), highOf (block 3)]
        logicalAddressFilter := ((block 7).setWidth 64 <<< 48) ||| ((block 6).setWidth 64 <<< 32) |||
          ((block 5).setWidth 64 <<< 16) ||| (block 4).setWidth 64
        rxRingBase := ringBase (block 8) (block 9)
        rxRingMask := ringMask (block 9)
        txRingBase := ringBase (block 10) (block 11)
        txRingMask := ringMask (block 11)
        rxRingPos := 0
        txRingPos := 0
        initialized := true }
    ((m.orCsr0 (Csr0.idon ||| Csr0.init)).dropCsr0 Csr0.stop).checkInterrupts

def executeStart (m : LanceBoard) : LanceBoard :=
  if m.lance.initialized then
    let m := (m.orCsr0 Csr0.strt).dropCsr0 Csr0.stop
    let receives := !anyFlag m.lance.mode Mode.drx
    let m := if receives then m.orCsr0 Csr0.rxon else m.dropCsr0 Csr0.rxon
    let transmits := !anyFlag m.lance.mode Mode.dtx
    let m := if transmits then m.orCsr0 Csr0.txon else m.dropCsr0 Csr0.txon
    m.onLance fun l =>
      { l with
        receiverEnabled := receives
        transmitterEnabled := transmits
        txPollPending := true }
  else m

def executeStop (m : LanceBoard) : LanceBoard :=
  ((m.orCsr0 Csr0.stop).dropCsr0 (Csr0.rxon ||| Csr0.txon)).onLance fun l =>
    { l with receiverEnabled := false, transmitterEnabled := false }

def csr0ErrorFlags : Word := Csr0.babl ||| Csr0.cerr ||| Csr0.miss ||| Csr0.merr

def csr0ClearMask : Word := csr0ErrorFlags ||| Csr0.rint ||| Csr0.tint ||| Csr0.idon

/-- The interrupt bit leaves out a collision error. It is computed again by the check. -/
def csr0InterruptFlags : Word :=
  Csr0.babl ||| Csr0.miss ||| Csr0.merr ||| Csr0.rint ||| Csr0.tint ||| Csr0.idon

def commandInit (m : LanceBoard) (value : Word) : LanceBoard :=
  if anyFlag value Csr0.init && !anyFlag m.lance.csr0 Csr0.init then
    if anyFlag m.lance.csr0 Csr0.stop then m.executeInitialize
    else m.orCsr0 (if m.lance.initialized then Csr0.idon else Csr0.init)
  else m

def commandStart (m : LanceBoard) (value : Word) : LanceBoard :=
  if anyFlag value Csr0.strt && !anyFlag m.lance.csr0 Csr0.strt then m.executeStart else m

def commandTransmit (m : LanceBoard) (value : Word) : LanceBoard :=
  if anyFlag value Csr0.tdmd && !anyFlag m.lance.csr0 Csr0.tdmd then
    ((m.orCsr0 Csr0.tdmd).onLance fun l => { l with txPollPending := true }).transmitPoll
  else m

def summarize (m : LanceBoard) (value : Word) : LanceBoard :=
  let m := if anyFlag value Csr0.inea then m.orCsr0 Csr0.inea else m.dropCsr0 Csr0.inea
  let m := if anyFlag m.lance.csr0 csr0ErrorFlags then m.orCsr0 Csr0.err else m.dropCsr0 Csr0.err
  if anyFlag m.lance.csr0 csr0InterruptFlags then m.orCsr0 Csr0.intr else m.dropCsr0 Csr0.intr

def writeCsr0 (m : LanceBoard) (value : Word) : LanceBoard :=
  if anyFlag value Csr0.stop then if anyFlag m.lance.csr0 Csr0.stop then m else m.reset
  else
    let m := m.dropCsr0 (value &&& csr0ClearMask)
    ((((m.commandInit value).commandStart value).commandTransmit value).summarize
      value).checkInterrupts

def stopped (m : LanceBoard) : Bool := anyFlag m.lance.csr0 Csr0.stop

/-- The masks of register 3 are never stored. -/
def writeCsr (m : LanceBoard) (csrNumber value : Word) : LanceBoard :=
  if csrNumber = 0 then m.writeCsr0 value
  else if csrNumber = 1 then
    if m.stopped then
      m.onLance fun l =>
        { l with
          csr1 := value
          initBlockAddress := (l.initBlockAddress &&& 0xFFFF0000) ||| value.setWidth 32 }
    else m
  else if csrNumber = 2 then
    if m.stopped then
      m.onLance fun l =>
        { l with
          csr2 := value
          initBlockAddress := (l.initBlockAddress &&& 0x0000FFFF) ||| (value.setWidth 32 <<< 16) }
    else m
  else if csrNumber = 3 then
    (if m.stopped then m.onLance fun l => { l with csr3 := value &&& 0x0007 } else m).checkInterrupts
  else m

def readCsr (l : Am7990Lance) (csrNumber : Word) : Word :=
  if csrNumber = 0 then l.csr0
  else if csrNumber = 1 then l.csr1
  else if csrNumber = 2 then l.csr2
  else if csrNumber = 3 then l.csr3
  else 0

/-- The registers are also seen 256 bytes higher. Address line 0 selects a byte. -/
def registerOf (l : Am7990Lance) (address : BitVec 32) : Int :=
  let regAddress := (address - l.startAddress).toInt
  let regAddress := if 0x100 < regAddress then regAddress - 0x100 else regAddress
  regAddress - regAddress % 2

def read (m : LanceBoard) (address : BitVec 32) : Byte :=
  let register := registerOf m.lance address
  let value :=
    if register = 0 then readCsr m.lance m.lance.rap
    else if register = 2 then m.lance.rap
    else 0
  if !address.getLsbD 0 != m.lance.swapByteLanes then lowOf value else highOf value

def joinBytes (swapByteLanes valid : Bool) (latch value : Byte) : Word :=
  if swapByteLanes then
    ((if valid then latch else 0).setWidth 16 <<< 8) ||| value.setWidth 16
  else (if valid then latch else 0).setWidth 16 ||| (value.setWidth 16 <<< 8)

/-- The even byte waits for the odd one. -/
def write (m : LanceBoard) (address : BitVec 32) (value : Byte) : LanceBoard :=
  let register := registerOf m.lance address
  if address.getLsbD 0 then
    if register = 0 then
      let word := joinBytes m.lance.swapByteLanes m.lance.rdpLatchValid m.lance.rdpLatchLo value
      (m.onLance fun l => { l with rdpLatchValid := false }).writeCsr m.lance.rap word
    else if register = 2 then
      let word := joinBytes m.lance.swapByteLanes m.lance.rapLatchValid m.lance.rapLatchLo value
      m.onLance fun l => { l with rapLatchValid := false, rap := word &&& 3 }
    else m
  else if register = 0 then m.onLance fun l => { l with rdpLatchLo := value, rdpLatchValid := true }
  else if register = 2 then m.onLance fun l => { l with rapLatchLo := value, rapLatchValid := true }
  else m

/- The queue of received packets and the clock. -/

/-- A full queue drops the packet. -/
def enqueueReceivedPacket (m : LanceBoard) (data : List Byte) : LanceBoard :=
  if lanceRxQueueSize ≤ m.lance.rxQueue.length then m
  else
    m.onLance fun l => { l with rxQueue := l.rxQueue ++ [data.take lancePacketBufferSize] }

def receiveQueued (m : LanceBoard) (frame : List Byte) : LanceBoard :=
  let received := m.receivePacket frame
  if received.2 = 0 then received.1 else received.1.receiveComplete received.2

def drainQueue (m : LanceBoard) : LanceBoard :=
  m.lance.rxQueue.foldl receiveQueued (m.onLance fun l => { l with rxQueue := [] })

def pollWhenPending (m : LanceBoard) : LanceBoard :=
  if m.lance.txPollPending && m.lance.transmitterEnabled && anyFlag m.lance.csr0 Csr0.txon then
    (m.onLance fun l => { l with txPollPending := false }).transmitPoll
  else m

def clock (m : LanceBoard) : LanceBoard := m.drainQueue.pollWhenPending

/- The 68000 side. -/

/-- The handler of level 2 raises the request again while the line is high. -/
def handleLanceInterruptAck (m : LanceBoard) : LanceBoard :=
  if m.lance.isInterruptActive then { m with irq := m.irq.set 2 true m.cpuMask } else m

end LanceBoard

end Nd100x.Ethernet
