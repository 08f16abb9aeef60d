import Nd100x.Machine.Registers
import Mathlib.Algebra.Group.Nat.Defs

namespace Nd100x

variable {World : Type}

/-- The `PGU` and `WIP` flags of a 32-bit page-table entry. -/
def pguFlag : BitVec 32 := 1 <<< 27
def wipFlag : BitVec 32 := 1 <<< 28

def convertFrom16BitPte (value : Word) : BitVec 32 :=
  ((value &&& 0xFE00).setWidth 32 <<< 16) ||| (value &&& 0x01FF).setWidth 32

def convertTo16BitPte (pte : BitVec 32) : Word :=
  (((pte &&& 0xFE000000) >>> 16) ||| (pte &&& 0x000001FF)).setWidth 16

/-- The shadow memory starts lower when sixteen page tables are installed. -/
def shadowRamAddress : MmsType → Nat
  | .mms1 => 0xFE00
  | .mms2 => 0xF800

def shadowRamSize : MmsType → Nat
  | .mms1 => 512
  | .mms2 => 2048

/-- The result indexes the shadow memory. -/
def mmsGetPtShadowAddress (mmsType : MmsType) (extended : Bool)
    (pageTable vpn : Nat) (ptm : PageTableMode) : Nat :=
  let offset :=
    if extended then
      match ptm with
      | .four => 0xFE00 - shadowRamAddress mmsType
      | .sixteen => 0xF800 - shadowRamAddress mmsType
    else 0xFF00 - shadowRamAddress mmsType
  let pageTableAddress := (pageTable <<< 6) ||| vpn
  let scaled := if extended then pageTableAddress <<< 1 else pageTableAddress
  (scaled + offset) % 2 ^ 16

/-- Only the first four page tables exist outside the extended mode. -/
def mmsGetPageTableEntry (mmsType : MmsType) (extended : Bool) (shadowRam : Nat → Word)
    (pageTable vpn : Nat) (ptm : PageTableMode) : BitVec 32 :=
  if 16 ≤ pageTable then 0
  else
    let address := mmsGetPtShadowAddress mmsType extended pageTable vpn ptm
    if extended then
      ((shadowRam address).setWidth 32 <<< 16) ||| (shadowRam (address + 1)).setWidth 32
    else if pageTable ≤ 3 then convertFrom16BitPte (shadowRam address)
    else 0

def mmsUpdatePageTableEntry (mmsType : MmsType) (extended : Bool) (shadowRam : Nat → Word)
    (pageTable vpn : Nat) (ptm : PageTableMode) (pte : BitVec 32) : Nat → Word :=
  if 16 ≤ pageTable then shadowRam
  else
    let address := mmsGetPtShadowAddress mmsType extended pageTable vpn ptm
    if extended then
      Function.update (Function.update shadowRam address ((pte >>> 16).setWidth 16))
        (address + 1) (pte.setWidth 16)
    else Function.update shadowRam address (convertTo16BitPte pte)

/-- The page table number follows the alternative field only in the page table mode. -/
def selectPageTable (mmsType : MmsType) (pcr : Word) (alternative : Bool) : Nat × PageTableMode :=
  if pcr.getLsbD 2 ∧ mmsType = .mms2 then
    (((pcr >>> (if alternative then 7 else 11)) &&& 0xF).toNat, .sixteen)
  else
    (((pcr >>> (if alternative then 7 else 9)) &&& 0x3).toNat, .four)

namespace CpuState

/-- The two lowest bits of the paging control register are the ring. -/
def ring (s : CpuState World) : BitVec 2 := (s.pcr s.pil).setWidth 2

def mmsIsAddressShadowMemory (s : CpuState World) (mmsType : MmsType) (addr : Nat)
    (privileged : Bool) : Bool :=
  if s.dmaAccess then false
  else if 0xFFFF < addr then false
  else if s.ring = 3 ∨ ¬ s.pagingOn ∨ privileged then
    if s.extendedAddressing then
      if mmsType = .mms2 ∧ (s.pcr s.pil).getLsbD 2 then 0xF800 ≤ addr else 0xFE00 ≤ addr
    else 0xFF00 ≤ addr
  else false

/-- An entry without the used flag is written back with the flag. -/
def mmsSetPageUsed (s : CpuState World) (mmsType : MmsType) (pageTable vpn : Nat)
    (ptm : PageTableMode) (pte : BitVec 32) : CpuState World × BitVec 32 :=
  if pte &&& pguFlag = 0 then
    let marked := pte ||| pguFlag
    (s.putShadowRam (mmsUpdatePageTableEntry mmsType s.extendedAddressing s.shadowRam
      pageTable vpn ptm marked), marked)
  else (s, pte)

def mmsSetPageWritten (s : CpuState World) (mmsType : MmsType) (pageTable vpn : Nat)
    (ptm : PageTableMode) (pte : BitVec 32) : CpuState World × BitVec 32 :=
  if pageTable < 16 ∧ pte &&& wipFlag = 0 then
    let marked := pte ||| wipFlag
    (s.putShadowRam (mmsUpdatePageTableEntry mmsType s.extendedAddressing s.shadowRam
      pageTable vpn ptm marked), marked)
  else (s, pte)

/-- The page status names the page, and its top bits tell a permit violation and a pure fetch. -/
def mmsUpdatePgs (s : CpuState World) (pageTable vpn : Nat) (am : AccessMode)
    (permitViolation : Bool) : CpuState World :=
  let page := BitVec.ofNat 16 ((pageTable <<< 6) ||| vpn)
  let permit := if permitViolation then page ||| ((1 : Word) <<< 14) else page
  s.cpuSetPgs (if am = .fetch then permit ||| ((1 : Word) <<< 15) else permit)

end CpuState

/-- A bank is found by the first range that holds the word address. -/
def mmsMemoryBankLookup (banks : List NdMemoryBank) (address : Nat) : Option NdMemoryBank :=
  banks.find? fun bank => bank.startWord ≤ address ∧ address < bank.startWord + bank.lengthWord

def mmsGetPhysicalMemoryType (banks : List NdMemoryBank) (address : Nat) : NdMemoryType :=
  match mmsMemoryBankLookup banks address with
  | none => .none
  | some bank => bank.type

def mmsHandleMpv : Cpu World Unit := cpuInterrupt 14 ((1 : Word) <<< 2)

def mmsHandlePf : Cpu World Unit := cpuInterrupt 14 ((1 : Word) <<< 3)

def mmsHandleMemoryOutOfRange (physicalAddress : Nat) : Cpu World Unit := do
  modify fun s => (s.cpuSetPea (BitVec.ofNat 16 physicalAddress)).cpuSetPes
    (BitVec.ofNat 16 ((physicalAddress >>> 16) &&& 0xFF))
  cpuInterrupt 14 ((1 : Word) <<< 9)

/-- The permit bits of an access are `RPM`, `WPM` and `FPM`. -/
def accessBits (am : AccessMode) : BitVec 32 :=
  (if am.bits.getLsbD 0 then 1 <<< 30 else 0) |||
  (if am.bits.getLsbD 1 then 1 <<< 31 else 0) |||
  (if am.bits.getLsbD 2 then 1 <<< 29 else 0)

def pfMask : BitVec 32 := 7 <<< 29

/-- An absent page is reported before a missing permission. -/
def mmsCheckPageProtection (vpn pageTable : Nat) (pte : BitVec 32) (am : AccessMode) :
    Cpu World Bool := do
  if pte &&& pfMask = 0 then
    modify fun s => s.mmsUpdatePgs pageTable vpn am true
    mmsHandlePf
    return false
  if pte &&& accessBits am = 0 then
    modify fun s => s.mmsUpdatePgs pageTable vpn am true
    mmsHandleMpv
    return false
  return true

/-- A fetch of ring 3 from a page of a lower ring takes over the ring of the page. -/
def mmsDegrades (am : AccessMode) (pageTableRing ring : BitVec 2) : Bool :=
  am.bits.getLsbD 2 && decide (pageTableRing < ring) && decide (ring = 3)

def CpuState.mmsDegrade (s : CpuState World) (am : AccessMode) (pageTableRing : BitVec 2) :
    CpuState World :=
  if mmsDegrades am pageTableRing s.ring then
    s.putPcr (Function.update s.pcr s.pil ((s.pcr s.pil &&& 0xFFFC) ||| pageTableRing.setWidth 16))
  else s

/-- The page is marked before the address is returned. -/
def CpuState.mmsMark (s : CpuState World) (mmsType : MmsType) (pageTable vpn : Nat)
    (ptm : PageTableMode) (pte : BitVec 32) (am : AccessMode) : CpuState World :=
  let (used, marked) := s.mmsSetPageUsed mmsType pageTable vpn ptm pte
  if am = .write then (used.mmsSetPageWritten mmsType pageTable vpn ptm marked).1 else used

/-- The entry decides the access in the order permission, ring and memory range. -/
def mmsMapThroughEntry (mmsType : MmsType) (pageTable vpn dip : Nat) (ptm : PageTableMode)
    (pte : BitVec 32) (am : AccessMode) : Cpu World (Option Nat) := do
  if !(← mmsCheckPageProtection vpn pageTable pte am) then
    return none
  let s ← get
  let pageTableRing : BitVec 2 := (pte >>> 25).setWidth 2
  let ring := if mmsDegrades am pageTableRing s.ring then pageTableRing else s.ring
  modify fun s => s.mmsDegrade am pageTableRing
  if ring < pageTableRing then
    modify fun s => s.mmsUpdatePgs pageTable vpn am false
    mmsHandleMpv
    return none
  let ppn := if s.extendedAddressing then pte &&& 0x3FFF else pte &&& 0x1FF
  let physicalAddress := ((ppn.toNat <<< 10) ||| dip) &&& 0xFFFFFF
  if (mmsMemoryBankLookup s.banks physicalAddress).isNone then
    modify fun s => s.mmsUpdatePgs pageTable vpn am false
    mmsHandleMemoryOutOfRange physicalAddress
    return none
  modify fun s => s.mmsMark mmsType pageTable vpn ptm pte am
  return some physicalAddress

/-- The result `none` stands for the value -1. -/
def mmsMapVirtualToPhysical (mmsType : MmsType) (virtualAddress : Word) (am : AccessMode)
    (useApt : Bool) : Cpu World (Option Nat) := do
  let s ← get
  if s.ring = 3 ∧ s.mmsIsAddressShadowMemory mmsType virtualAddress.toNat false then
    return some virtualAddress.toNat
  else if ¬ s.pagingOn then
    return some virtualAddress.toNat
  else
    let dip := (virtualAddress &&& 0x3FF).toNat
    let vpn := ((virtualAddress >>> 10) &&& 0x3F).toNat
    let (pageTable, ptm) := selectPageTable mmsType (s.pcr s.pil) (s.pageTableMode && useApt)
    let pte := mmsGetPageTableEntry mmsType s.extendedAddressing s.shadowRam pageTable vpn ptm
    mmsMapThroughEntry mmsType pageTable vpn dip ptm pte am

end Nd100x
