import Nd100x.Machine.Mms

namespace Nd100x

variable {World : Type}

namespace CpuState

/-- An address below the shadow memory reads as zero. -/
def mmsRead (s : CpuState World) (mmsType : MmsType) (address : Nat) : Word :=
  if address < shadowRamAddress mmsType ∨ 0xFFFF < address then 0
  else s.shadowRam (address - shadowRamAddress mmsType)

def mmsWrite (s : CpuState World) (mmsType : MmsType) (address : Nat) (value : Word) :
    CpuState World :=
  if address < shadowRamAddress mmsType ∨ 0xFFFF < address then s
  else s.putShadowRam (Function.update s.shadowRam (address - shadowRamAddress mmsType) value)

end CpuState

/-- A byte is stored in its half of the word, and the other half is kept. -/
def mergeWord (mode : WriteMode) (current value : Word) : Word :=
  match mode with
  | .msb => (current &&& 0x00FF) ||| (value <<< 8)
  | .lsb => (current &&& 0xFF00) ||| (value &&& 0x00FF)
  | .word => value

/-- The three simulate bits of `ECCR` are 0, 1 and 4. -/
def eccSimulateBits : Word := 0x13

/-- Every local write recomputes the error bits of its word. -/
def CpuState.ndEccWriteLatch (s : CpuState World) (ndMemsize physicalAddress : Nat) :
    CpuState World :=
  let bits := s.system.eccr &&& eccSimulateBits
  if ndMemsize ≤ physicalAddress then s
  else if bits = 0 ∧ s.eccLatch physicalAddress = 0 then s
  else if mmsGetPhysicalMemoryType s.banks physicalAddress ≠ .localRam then s
  else s.putEccLatch (Function.update s.eccLatch physicalAddress bits)

/-- The error code of a single bit is taken from the highest simulated bit. -/
def eccErrorCode (effective : Word) : Word :=
  if effective.getLsbD 4 then 0x0D else if effective.getLsbD 1 then 0x1C else 3

def eccBitCount (effective : Word) : Nat :=
  (effective.getLsbD 0).toNat + (effective.getLsbD 1).toNat + (effective.getLsbD 4).toNat

/-- A detected error is reported once and consumed. -/
def CpuState.consumeLatch (s : CpuState World) (physicalAddress : Nat) : CpuState World :=
  if s.eccLatch physicalAddress ≠ 0 then
    s.putEccLatch (Function.update s.eccLatch physicalAddress 0)
  else s

def ndEccReadDetect (ndMemsize physicalAddress : Nat) : Cpu World Unit := do
  let s ← get
  let live := s.system.eccr &&& eccSimulateBits
  let latched := s.eccLatch physicalAddress
  let effective := live ||| latched
  if ndMemsize ≤ physicalAddress then
    return
  else if live = 0 ∧ latched = 0 then
    return
  else if s.system.eccr.getLsbD 3 then
    return
  else if mmsGetPhysicalMemoryType s.banks physicalAddress ≠ .localRam then
    return
  else if eccBitCount effective = 0 then
    return
  else if eccBitCount effective = 1 ∧ ¬ s.system.eccr.getLsbD 2 then
    modify fun s => s.consumeLatch physicalAddress
  else
    let upper := BitVec.ofNat 16 ((physicalAddress >>> 16) &&& 0xFF)
    let pes :=
      if eccBitCount effective = 1 then upper ||| (eccErrorCode effective <<< 8)
      else upper ||| ((1 : Word) <<< 13)
    modify fun s =>
      ((s.cpuSetPea (BitVec.ofNat 16 physicalAddress)).cpuSetPes pes).consumeLatch physicalAddress
    cpuInterrupt 14 ((1 : Word) <<< 8)

section Access

variable (config : Config World)

/-- The shadow memory answers first, then a backed bank, then the installed memory. -/
def mmsReadPhysicalMemory (physicalAddress : Nat) (privileged : Bool) : Cpu World Word := do
  let s ← get
  if s.mmsIsAddressShadowMemory config.mmsType physicalAddress privileged then
    return s.mmsRead config.mmsType physicalAddress
  else if (mmsMemoryBankLookup s.banks physicalAddress).any (·.read) then
    return s.window physicalAddress
  else if config.ndMemsize ≤ physicalAddress then
    mmsHandleMemoryOutOfRange physicalAddress
    return 0
  else
    ndEccReadDetect config.ndMemsize physicalAddress
    return s.memory physicalAddress

/-- The write half of a test-and-set in a shared bank is one exchange. -/
def CpuState.writeWindow (s : CpuState World) (bank : NdMemoryBank) (physicalAddress : Nat)
    (value : Word) (mode : WriteMode) : CpuState World :=
  let stored := s.putWindow (Function.update s.window physicalAddress
    (mergeWord mode (s.window physicalAddress) value))
  if s.tset.held ∧ bank.exchange ∧ mode = .word then
    stored.putTset { s.tset with old := s.window physicalAddress, oldValid := true }
  else stored

def mmsWritePhysicalMemoryWm (physicalAddress : Nat) (value : Word) (privileged : Bool)
    (mode : WriteMode) : Cpu World Unit := do
  let s ← get
  if s.mmsIsAddressShadowMemory config.mmsType physicalAddress privileged then
    modify fun s => s.mmsWrite config.mmsType physicalAddress
      (mergeWord mode (s.mmsRead config.mmsType physicalAddress) value)
  else
    match mmsMemoryBankLookup s.banks physicalAddress with
    | some bank =>
      if bank.write then
        modify fun s => s.writeWindow bank physicalAddress value mode
      else
        writeLocal physicalAddress value mode
    | none => writeLocal physicalAddress value mode
where
  writeLocal (physicalAddress : Nat) (value : Word) (mode : WriteMode) : Cpu World Unit := do
    if config.ndMemsize ≤ physicalAddress then
      mmsHandleMemoryOutOfRange physicalAddress
    else
      modify fun s =>
        let latched := s.ndEccWriteLatch config.ndMemsize physicalAddress
        latched.putMemory (Function.update latched.memory physicalAddress
          (mergeWord mode (latched.memory physicalAddress) value))

/-- An untranslatable read returns zero after its interrupt was recorded. -/
def mmsReadVirtual (am : AccessMode) (virtualAddress : Word) (useApt : Bool) : Cpu World Word := do
  match ← mmsMapVirtualToPhysical config.mmsType virtualAddress am useApt with
  | none => return 0
  | some physicalAddress => mmsReadPhysicalMemory config physicalAddress false

def mmsReadVirtualMemory (virtualAddress : Word) (useApt : Bool) : Cpu World Word :=
  mmsReadVirtual config .read virtualAddress useApt

/-- This read is used only to compute an effective address. -/
def mmsReadIndirectVirtualMemory (virtualAddress : Word) (useApt : Bool) : Cpu World Word :=
  mmsReadVirtual config .readFetch virtualAddress useApt

def mmsFetchVirtualMemory (virtualAddress : Word) (useApt : Bool) : Cpu World Word :=
  mmsReadVirtual config .fetch virtualAddress useApt

def mmsWriteVirtualMemory (virtualAddress value : Word) (useApt : Bool) (mode : WriteMode) :
    Cpu World Unit := do
  match ← mmsMapVirtualToPhysical config.mmsType virtualAddress .write useApt with
  | none => return
  | some physicalAddress => mmsWritePhysicalMemoryWm config physicalAddress value false mode

/-- A device reaches the bus behind the shadow memory. -/
def withDma {A : Type} (access : Cpu World A) : Cpu World A := do
  modify fun s => s.putDmaAccess true
  let value ← access
  modify fun s => s.putDmaAccess false
  return value

def busStep : (op : BusOp World) → Cpu World op.Answer
  | .dmaRead coreAddress => withDma (mmsReadPhysicalMemory config (coreAddress % 2 ^ 24) false)
  | .dmaWrite coreAddress data =>
    withDma (mmsWritePhysicalMemoryWm config (coreAddress % 2 ^ 24) data false .word)
  | .device act => do
      let s ← get
      modify fun s => s.putWorld (act s.world).1
      return (act s.world).2
  | .rewire register => modify fun s => s.putBanks (register s.banks)

def runBus {A : Type} (program : Bus World A) : Cpu World A := program.interpret (busStep config)

end Access

variable {World : Type}

namespace CpuState

variable (s : CpuState World) (config : Config World)

/-- The debugger asks for the space by its table. It takes the page control register of any level,
but the shadow memory is that of the running one. The result `none` stands for the value -1. -/
def dbgMapVirtualToPhysical (virtualAddress : Word) (useApt : Bool) (pil : BitVec 8) : Option Nat :=
  let level : Level := if 0 ≤ pil.toInt ∧ pil.toInt ≤ 15 then pil.setWidth 4 else s.pil
  let pcr := s.pcr level
  if pcr.setWidth 2 = (3 : BitVec 2) ∧
      s.mmsIsAddressShadowMemory config.mmsType virtualAddress.toNat false then
    some virtualAddress.toNat
  else if ¬ s.pagingOn then some virtualAddress.toNat
  else
    let dip := (virtualAddress &&& 0x3FF).toNat
    let vpn := ((virtualAddress >>> 10) &&& 0x3F).toNat
    let (pageTable, ptm) := selectPageTable config.mmsType pcr useApt
    let pte :=
      mmsGetPageTableEntry config.mmsType s.extendedAddressing s.shadowRam pageTable vpn ptm
    if pte &&& ((7 : BitVec 32) <<< 29) = 0 then none
    else
      let ppn := if s.extendedAddressing then pte &&& 0x3FFF else pte &&& 0x1FF
      let physicalAddress := ((ppn.toNat <<< 10) ||| dip) &&& 0xFFFFFF
      if config.ndMemsize ≤ physicalAddress then none else some physicalAddress

/-- The installed memory is read without the shadow memory, the banks and the error bits. -/
def dbgReadPhysicalMemory (physicalAddress : Nat) : Int :=
  if config.ndMemsize ≤ physicalAddress then -1 else (s.memory physicalAddress).toNat

def dbgWritePhysicalMemory (physicalAddress : Nat) (value : Word) : Int × CpuState World :=
  if config.ndMemsize ≤ physicalAddress then (-1, s)
  else (0, s.putMemory (Function.update s.memory physicalAddress value))

def dbgReadVirtualMemoryPil (virtualAddress : Word) (useApt : Bool) (pil : BitVec 8) : Int :=
  match s.dbgMapVirtualToPhysical config virtualAddress useApt pil with
  | none => -1
  | some physicalAddress => s.dbgReadPhysicalMemory config physicalAddress

def dbgWriteVirtualMemoryPil (virtualAddress value : Word) (useApt : Bool) (pil : BitVec 8) :
    Int × CpuState World :=
  match s.dbgMapVirtualToPhysical config virtualAddress useApt pil with
  | none => (-1, s)
  | some physicalAddress => s.dbgWritePhysicalMemory config physicalAddress value

/-- The level -1 is the running one. -/
def currentPil : BitVec 8 := -1

def dbgReadVirtualMemoryISpace (virtualAddress : Word) : Int :=
  s.dbgReadVirtualMemoryPil config virtualAddress false currentPil

def dbgReadVirtualMemoryDSpace (virtualAddress : Word) : Int :=
  s.dbgReadVirtualMemoryPil config virtualAddress true currentPil

def dbgWriteVirtualMemoryISpace (virtualAddress value : Word) : Int × CpuState World :=
  s.dbgWriteVirtualMemoryPil config virtualAddress value false currentPil

def dbgWriteVirtualMemoryDSpace (virtualAddress value : Word) : Int × CpuState World :=
  s.dbgWriteVirtualMemoryPil config virtualAddress value true currentPil

end CpuState

end Nd100x
