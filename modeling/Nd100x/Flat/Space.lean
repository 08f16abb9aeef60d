import Nd100x.Machine.Instr
import Nd100x.Proof.Translation

namespace Nd100x

/-- An access ends in a word of the memory, in a trap, or nowhere. The page tables and a
bank that only reads or only writes are `other`. -/
inductive Target where
  | word (physical : Nat)
  | pageFault
  | violation
  | nowhere
  | other
  deriving DecidableEq, Repr

/-- The address space of one level, with its tables chosen by the alternative mode. -/
structure Space where
  pil : Level
  tsetLock : Bool
  privileged : BitVec 2 → Bool
  target : BitVec 2 → Bool → AccessMode → Word → Target
  lowered : BitVec 2 → Bool → Word → BitVec 2
  physical : Nat → Target
  exchange : Nat → Bool

/-- The registers and the memory words, without their translation. -/
structure FlatState where
  reg : Level → RegNum → Word
  memory : Nat → Word
  ring : BitVec 2
  system : SystemRegs
  tset : TsetLock

/-- A flat run also stops where it cannot follow the machine. -/
inductive FlatStop where
  | pageFault
  | violation
  | other
  deriving DecidableEq, Repr

abbrev Flat := EStateM FlatStop FlatState

namespace Flat

variable {A B : Type} (f : FlatState)

@[simp] theorem get_apply : (get : Flat FlatState) f = .ok f f := rfl

theorem bind_apply (first : Flat A) (next : A → Flat B) :
    (first >>= next) f =
      match first f with
      | .ok value g => next value g
      | .error stop g => .error stop g := by
  change EStateM.bind first next f = _
  unfold EStateM.bind
  cases first f <;> rfl

/-- A completed first part passes its value and its state on. -/
theorem bind_ok {first : Flat A} {next : A → Flat B} {value : A} {f g : FlatState}
    (done : first f = .ok value g) : (first >>= next) f = next value g := by
  rw [bind_apply, done]

end Flat

namespace FlatState

variable (f : FlatState)

@[simps -fullyApplied] def putReg (value : Level → RegNum → Word) : FlatState := { f with reg := value }

@[simps -fullyApplied] def putMemory (value : Nat → Word) : FlatState := { f with memory := value }

@[simps -fullyApplied] def putRing (value : BitVec 2) : FlatState := { f with ring := value }

@[simps -fullyApplied] def putSystem (value : SystemRegs) : FlatState := { f with system := value }

@[simps -fullyApplied] def putTset (value : TsetLock) : FlatState := { f with tset := value }

def setRegAt (level : Level) (r : RegNum) (value : Word) : FlatState :=
  f.putReg (Function.update f.reg level (Function.update (f.reg level) r value))

def write (physical : Nat) (value : Word) (mode : WriteMode) : FlatState :=
  f.putMemory (Function.update f.memory physical (mergeWord mode (f.memory physical) value))

/-- A trap gives the test-and-set lock back. -/
def unlock : FlatState := f.putTset { f.tset with held := false }

end FlatState

namespace Space

variable (space : Space)

/-- The alternative table is used for data in the page table mode. -/
def alternative (f : FlatState) (useApt : Bool) : Bool :=
  (f.reg space.pil RegNum.sts).getLsbD Sts.pageTableMode && useApt

def access (f : FlatState) (am : AccessMode) (address : Word) (useApt : Bool) : Target :=
  space.target f.ring (space.alternative f useApt) am address

/-- An indirect read can lower the ring, like a fetch. -/
def entered (f : FlatState) (am : AccessMode) (address : Word) (useApt : Bool) : FlatState :=
  if am = .readFetch then f.putRing (space.lowered f.ring (space.alternative f useApt) address) else f

def read (target : Target) : Flat Word := do
  match target with
  | .word physical => return (← get).memory physical
  | .nowhere => return 0
  | .pageFault => do
      modify FlatState.unlock
      throw .pageFault
  | .violation => do
      modify FlatState.unlock
      throw .violation
  | .other => throw .other

/-- The write half of a test-and-set in a shared bank keeps the old word. -/
def store (physical : Nat) (value : Word) (mode : WriteMode) (f : FlatState) : FlatState :=
  if f.tset.held ∧ space.exchange physical ∧ mode = .word then
    (f.write physical value mode).putTset { f.tset with old := f.memory physical, oldValid := true }
  else f.write physical value mode

def write (target : Target) (value : Word) (mode : WriteMode) : Flat Unit := do
  match target with
  | .word physical => modify (space.store physical value mode)
  | .nowhere => return
  | .pageFault => do
      modify FlatState.unlock
      throw .pageFault
  | .violation => do
      modify FlatState.unlock
      throw .violation
  | .other => throw .other

/-- An access first lowers the ring where its target is reached. -/
def enter (am : AccessMode) (address : Word) (useApt : Bool) : Flat Target := do
  let f ← get
  match space.access f am address useApt with
  | .word physical => do
      modify fun f => space.entered f am address useApt
      return .word physical
  | .nowhere => do
      modify fun f => space.entered f am address useApt
      return .nowhere
  | target => return target

def setIndicator (f : FlatState) (bit : Indicator) (value : Bool) : FlatState :=
  f.setRegAt space.pil RegNum.sts
    (CpuState.putBit (f.reg space.pil RegNum.sts) bit value)

/-- The old word is taken once. -/
def takeOld : Flat (Option Word) := do
  let f ← get
  if f.tset.oldValid then
    modify fun f => f.putTset { f.tset with oldValid := false }
    return some f.tset.old
  else return none

/-- The operations that a flat run follows. -/
def step : (op : DataOp) → Flat op.Answer
  | .getReg r => do return (← get).reg space.pil r
  | .setReg r value => modify fun f => f.setRegAt space.pil r.num value
  | .getRegAt level r => do return (← get).reg level r
  | .setRegAt level r value => modify fun f => f.setRegAt level r.num value
  | .currLevel => return space.pil
  | .getBit bit => do return ((← get).reg space.pil RegNum.sts).getLsbD bit
  | .setBit bit value => modify fun f => space.setIndicator f bit value
  | .memRead address useApt => do read (← space.enter .read address useApt)
  | .memReadIndirect address useApt => do read (← space.enter .readFetch address useApt)
  | .memWrite address value useApt mode => do space.write (← space.enter .write address useApt) value mode
  | .physRead address => read (space.physical address)
  | .physWrite address value => space.write (space.physical address) value .word
  | .checkPriv => do return space.privileged (← get).ring
  | .getSystem => do return (← get).system
  | .putSystem system => modify fun f => f.putSystem system
  | .setEffective address useApt =>
    modify fun f => f.putSystem { f.system with effectiveAddress := address, useApt := useApt }
  | .tsetLockBegin => modify fun f =>
    f.putTset { f.tset with oldValid := false, held := f.tset.held || space.tsetLock }
  | .tsetTakeOld => takeOld
  | .tsetLockEnd => modify FlatState.unlock
  | .interrupt _ => throw .other
  | .getAld => throw .other
  | .ioOp _ _ => throw .other
  | .ioIdent _ => throw .other
  | .iotOp _ _ _ => throw .other
  | .setRunMode _ => throw .other
  | .stop _ => throw .other

def run {A : Type} (instr : Instr A) : Flat A := instr.interpret space.step

end Space

section OfState

variable {World : Type} (config : Config World) (s : CpuState World)

/-- A backed bank answers for its words, and other words belong to the installed memory. -/
def backed (banks : List NdMemoryBank) (physical : Nat) : Bool :=
  (mmsMemoryBankLookup banks physical).any (·.read)

/-- A word of a bank with both accessors or of the installed memory. -/
def busTarget (ndMemsize : Nat) (banks : List NdMemoryBank) (physical : Nat) : Target :=
  match mmsMemoryBankLookup banks physical with
  | some bank =>
    if bank.read ∧ bank.write then .word physical
    else if bank.read ∨ bank.write then .other
    else if ndMemsize ≤ physical then .nowhere else .word physical
  | none => if ndMemsize ≤ physical then .nowhere else .word physical

namespace CpuState

/-- The shadow memory is visible in ring 3, without paging and for privileged accesses. -/
def shadowAt (mmsType : MmsType) (ring : BitVec 2) (address : Nat) (privileged : Bool) : Bool :=
  if s.dmaAccess then false
  else if 0xFFFF < address then false
  else if ring = 3 ∨ ¬ s.pagingOn ∨ privileged then
    if s.extendedAddressing then
      if mmsType = .mms2 ∧ (s.pcr s.pil).getLsbD 2 then 0xF800 ≤ address else 0xFE00 ≤ address
    else 0xFF00 ≤ address
  else false

def physicalTarget (ring : BitVec 2) (physical : Nat) (privileged : Bool) : Target :=
  if s.shadowAt config.mmsType ring physical privileged then .other
  else busTarget config.ndMemsize s.banks physical

/-- The page of an address in the chosen table. -/
def pageOf (mmsType : MmsType) (alternative : Bool) (address : Word) : PageEntry :=
  let selected := selectPageTable mmsType (s.pcr s.pil) alternative
  pageEntry s.extendedAddressing s.shadowRam selected.1
    (entryIndex mmsType s.extendedAddressing selected.1 (address.toNat / 2 ^ 10) selected.2)

def virtualTarget (ring : BitVec 2) (alternative : Bool) (am : AccessMode) (address : Word) :
    Target :=
  if s.shadowAt config.mmsType ring address.toNat false then .other
  else if ¬ s.pagingOn then s.physicalTarget config ring address.toNat false
  else
    let page := s.pageOf config.mmsType alternative address
    let physical := page.address address
    match page.outcome am ring (mmsMemoryBankLookup s.banks physical).isSome with
    | .pageFault => .pageFault
    | .permitViolation => .violation
    | .ringViolation => .violation
    | .outOfRange => .nowhere
    | .mapped =>
      s.physicalTarget config
        (if mmsDegrades am page.ring ring then page.ring else ring) physical false

/-- The ring after a granted indirect read. -/
def loweredRing (ring : BitVec 2) (alternative : Bool) (address : Word) : BitVec 2 :=
  let page := s.pageOf config.mmsType alternative address
  if s.pagingOn ∧ mmsDegrades .readFetch page.ring ring then page.ring else ring

/-- The address space of a state. -/
def space : Space where
  pil := s.pil
  tsetLock := config.tsetLock
  privileged := fun ring => ¬ s.pagingOn ∨ ring = 2 ∨ ring = 3
  target := fun ring alternative am address => s.virtualTarget config ring alternative am address
  lowered := fun ring alternative address => s.loweredRing config ring alternative address
  physical := fun physical =>
    if s.shadowAt config.mmsType 3 physical true then .other
    else busTarget config.ndMemsize s.banks physical
  exchange := fun physical =>
    (mmsMemoryBankLookup s.banks physical).any fun bank => bank.write && bank.exchange

/-- The store that answers an access. -/
def core (physical : Nat) : Word :=
  if backed s.banks physical then s.window physical else s.memory physical

/-- The state without its translation. -/
def flat : FlatState where
  reg := s.reg
  memory := s.core
  ring := s.ring
  system := s.system
  tset := s.tset

end CpuState

end OfState

end Nd100x
