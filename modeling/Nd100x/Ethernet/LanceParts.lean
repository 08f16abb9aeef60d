import Nd100x.Ethernet.MfpParts
import Mathlib.Logic.Function.Basic

namespace Nd100x.Ethernet

/- The interrupt controller in front of the 68000. -/

structure EthIrq where
  pendingMask : Byte
  nmiPending : Bool
  enabled : Bool
  deriving DecidableEq, Repr

namespace EthIrq

def cleared : EthIrq := ⟨0, false, false⟩

def levelBit (level : Nat) : Byte := (1 : Byte) <<< level

def enable (irq : EthIrq) (enabled : Bool) : EthIrq := { irq with enabled := enabled }

/-- A level 7 that is requested while it is masked is kept apart. -/
def set (irq : EthIrq) (level : Nat) (active : Bool) (cpuMask : Nat) : EthIrq :=
  if level < 1 ∨ 7 < level then irq
  else if active then
    if level = 7 ∧ cpuMask = 7 then { irq with nmiPending := true }
    else { irq with pendingMask := irq.pendingMask ||| levelBit level }
  else if level = 7 ∧ irq.nmiPending then { irq with nmiPending := false }
  else { irq with pendingMask := irq.pendingMask &&& ~~~levelBit level }

def selects (irq : EthIrq) (cpuMask level : Nat) : Bool :=
  irq.pendingMask &&& levelBit level ≠ 0 && cpuMask < level

/-- A selection consumes a waiting level 7. -/
def select (irq : EthIrq) (cpuMask : Nat) : EthIrq × Nat :=
  if irq.nmiPending then ({ irq with nmiPending := false }, 7)
  else (irq, ([7, 6, 5, 4, 3, 2, 1].find? (irq.selects cpuMask)).getD 0)

/-- The request is cleared before the acknowledge is answered. -/
def take (irq : EthIrq) (cpuMask : Nat) (cpuHalted : Bool) : EthIrq × Nat :=
  let selected := irq.select cpuMask
  if selected.1.enabled = false ∨ selected.2 = 0 ∨ cpuHalted then (selected.1, 0)
  else (selected.1.set selected.2 false cpuMask, selected.2)

end EthIrq

/- The registers of the LANCE. -/

namespace Csr0

def init : Word := 0x0001
def strt : Word := 0x0002
def stop : Word := 0x0004
def tdmd : Word := 0x0008
def txon : Word := 0x0010
def rxon : Word := 0x0020
def inea : Word := 0x0040
def intr : Word := 0x0080
def idon : Word := 0x0100
def tint : Word := 0x0200
def rint : Word := 0x0400
def merr : Word := 0x0800
def miss : Word := 0x1000
def cerr : Word := 0x2000
def babl : Word := 0x4000
def err : Word := 0x8000

end Csr0

namespace Csr3

def bswp : Word := 0x0004
def idonm : Word := 0x0100
def tintm : Word := 0x0200
def rintm : Word := 0x0400
def merrm : Word := 0x0800
def missm : Word := 0x1000
def cerrm : Word := 0x2000
def bablm : Word := 0x4000

end Csr3

namespace Mode

def drx : Word := 0x0001
def dtx : Word := 0x0002
def loop : Word := 0x0004
def dtcr : Word := 0x0008
def coll : Word := 0x0010
def intl : Word := 0x0040
def prom : Word := 0x8000

end Mode

/- The first status word of a descriptor, on both rings. -/

namespace Md1

def hadr : Word := 0x00FF
def enp : Word := 0x0100
def stp : Word := 0x0200
def buff : Word := 0x0400
def err : Word := 0x4000
def own : Word := 0x8000

end Md1

namespace Tmd3

def rtry : Word := 0x0400
def lcar : Word := 0x0800
def uflo : Word := 0x4000
def buff : Word := 0x8000

end Tmd3

def rmd3Mcnt : Word := 0x0FFF

def lanceLoopbackBufferSize : Nat := 1522
def lancePacketBufferSize : Nat := 4096
def lanceRxQueueSize : Nat := 16
def ethmemDramSize : Nat := 0x80000

/-- Some bit of the flags is set. -/
def anyFlag (word flags : Word) : Bool := word &&& flags ≠ 0

structure Am7990Lance where
  startAddress : BitVec 32
  swapByteLanes : Bool
  rap : Word
  csr0 : Word
  csr1 : Word
  csr2 : Word
  csr3 : Word
  rdpLatchLo : Byte
  rapLatchLo : Byte
  rdpLatchValid : Bool
  rapLatchValid : Bool
  initBlockAddress : BitVec 32
  initialized : Bool
  mode : Word
  logicalAddressFilter : BitVec 64
  physicalAddress : List Byte
  rxRingBase : BitVec 32
  rxRingMask : Byte
  rxRingPos : Byte
  rxMd0 : Word
  rxMd1 : Word
  rxMd2 : Word
  txRingBase : BitVec 32
  txRingMask : Byte
  txRingPos : Byte
  txMd0 : Word
  txMd1 : Word
  txMd2 : Word
  txMd3 : Word
  loopbackBuffer : List Byte
  inLoopbackReceive : Bool
  packetBuffer : Nat → Byte
  receiverEnabled : Bool
  transmitterEnabled : Bool
  txPollPending : Bool
  rxQueue : List (List Byte)
  irqAsserted : Bool
  rxAccepted : Nat
  rxFiltered : Nat
  rxMissed : Nat
  rxDroppedRxOff : Nat

/-- The LANCE with the memory and the interrupt controller of its card. The last four fields record
the line as it was last reported, the accesses to the memory, the words that were stored in it and
the packets that left the chip. -/
structure LanceBoard where
  lance : Am7990Lance
  dram : Nat → Byte
  irq : EthIrq
  cpuMask : Nat
  reported : Bool
  accesses : List (BitVec 32)
  stores : List (Nat × Word)
  transmitted : List (List Byte)

namespace Am7990Lance

@[simps -fullyApplied] def putCsr0 (l : Am7990Lance) (word : Word) : Am7990Lance :=
  { l with csr0 := word }

/-- A buffer holds 1 to 4096 bytes. -/
def getBufferLength (data : Word) : Nat :=
  if data = 0xF000 then 4096 else (-(0xF000 ||| data).toInt).toNat

def ringAddr (base : BitVec 32) (pos : Byte) : BitVec 32 :=
  (base + (pos.setWidth 32 <<< 3)) &&& 0xFFFFF8

def cleared (startAddress : BitVec 32) (swapByteLanes : Bool) : Am7990Lance where
  startAddress := startAddress
  swapByteLanes := swapByteLanes
  rap := 0
  csr0 := Csr0.stop
  csr1 := 0
  csr2 := 0
  csr3 := 0
  rdpLatchLo := 0
  rapLatchLo := 0
  rdpLatchValid := false
  rapLatchValid := false
  initBlockAddress := 0
  initialized := false
  mode := 0
  logicalAddressFilter := 0
  physicalAddress := List.replicate 6 0
  rxRingBase := 0
  rxRingMask := 0
  rxRingPos := 0
  rxMd0 := 0
  rxMd1 := 0
  rxMd2 := 0
  txRingBase := 0
  txRingMask := 0
  txRingPos := 0
  txMd0 := 0
  txMd1 := 0
  txMd2 := 0
  txMd3 := 0
  loopbackBuffer := []
  inLoopbackReceive := false
  packetBuffer := fun _ => 0
  receiverEnabled := false
  transmitterEnabled := false
  txPollPending := false
  rxQueue := []
  irqAsserted := false
  rxAccepted := 0
  rxFiltered := 0
  rxMissed := 0
  rxDroppedRxOff := 0

/-- An interrupt that is not masked is wanted. -/
def shouldInterrupt (csr0 csr3 : Word) : Bool :=
  anyFlag csr0 Csr0.inea &&
    ((anyFlag csr0 Csr0.rint && !anyFlag csr3 Csr3.rintm) ||
      (anyFlag csr0 Csr0.tint && !anyFlag csr3 Csr3.tintm) ||
      (anyFlag csr0 Csr0.idon && !anyFlag csr3 Csr3.idonm) ||
      (anyFlag csr0 Csr0.merr && !anyFlag csr3 Csr3.merrm) ||
      (anyFlag csr0 Csr0.babl && !anyFlag csr3 Csr3.bablm) ||
      (anyFlag csr0 Csr0.cerr && !anyFlag csr3 Csr3.cerrm) ||
      (anyFlag csr0 Csr0.miss && !anyFlag csr3 Csr3.missm))

def isInterruptActive (l : Am7990Lance) : Bool :=
  anyFlag l.csr0 Csr0.intr && anyFlag l.csr0 Csr0.inea

def crcTableEntry (index : BitVec 32) : BitVec 32 :=
  (List.range 8).foldl
    (fun crc _ => (crc >>> 1) ^^^ if crc &&& 1 ≠ 0 then 0xEDB88320 else 0) index

def crc32Calculate (data : List Byte) : BitVec 32 :=
  ~~~data.foldl (fun crc byte =>
    crcTableEntry ((crc ^^^ byte.setWidth 32) &&& 0xFF) ^^^ (crc >>> 8)) 0xFFFFFFFF

/-- A frame is for this station when its address is the own one or passes the group filter. -/
def addressFilter (l : Am7990Lance) (buffer : List Byte) : Bool :=
  if anyFlag l.mode Mode.prom then true
  else if (buffer.headD 0).getLsbD 0 then
    if buffer.take 6 = List.replicate 6 0xFF then true
    else l.logicalAddressFilter.getLsbD (crc32Calculate (buffer.take 6) >>> 26).toNat
  else buffer.take 6 = l.physicalAddress

end Am7990Lance

end Nd100x.Ethernet
