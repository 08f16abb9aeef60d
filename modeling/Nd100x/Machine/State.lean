import Nd100x.Library.Program
import Mathlib.Logic.Function.Basic
import Mathlib.Tactic.Simps.Basic

namespace Nd100x

abbrev Word := BitVec 16
abbrev Byte := BitVec 8

/-- Sixteen interrupt levels own sixteen registers each. -/
abbrev Level := BitVec 4
abbrev RegNum := BitVec 4

namespace RegNum

def sts : RegNum := 0
def d : RegNum := 1
def p : RegNum := 2
def b : RegNum := 3
def l : RegNum := 4
def a : RegNum := 5
def t : RegNum := 6
def x : RegNum := 7

end RegNum

/- These are the bit numbers of the status register. -/
namespace Sts

def pageTableMode : Nat := 0
def floatOverflow : Nat := 1
def bitAccumulator : Nat := 2
def errorIndicator : Nat := 3
def dynamicOverflow : Nat := 4
def staticOverflow : Nat := 5
def carry : Nat := 6
def shiftOut : Nat := 7
def nd100Indicator : Nat := 12
def extendedAddressing : Nat := 13
def pagingOn : Nat := 14
def interruptOn : Nat := 15

end Sts

inductive MmsType where
  | mms1
  | mms2
  deriving DecidableEq, Repr

inductive PageTableMode where
  | four
  | sixteen
  deriving DecidableEq, Repr

inductive AccessMode where
  | read
  | write
  | fetch
  | readFetch
  deriving DecidableEq, Repr

/-- The bits `READ`, `WRITE` and `FETCH` are tested separately. -/
def AccessMode.bits : AccessMode → BitVec 3
  | .read => 1
  | .write => 2
  | .fetch => 4
  | .readFetch => 5

inductive WriteMode where
  | msb
  | lsb
  | word
  deriving DecidableEq, Repr

inductive CpuType where
  | nd1
  | nd4
  | nd10
  | nd100
  | nd100ce
  | nd100cx
  | nd110
  | nd110ce
  | nd110cx
  | nd110pcx
  | nd120cx
  deriving DecidableEq, Repr

inductive FppType where
  | fpp32
  | fpp48
  deriving DecidableEq, Repr

inductive CpuRunMode where
  | unknownState
  | running
  | breakpoint
  | paused
  | stopped
  | shutdown
  deriving DecidableEq, Repr

inductive NdMemoryType where
  | none
  | mpm5
  | localRam
  | pioc
  | mpm3
  | mpm4
  deriving DecidableEq, Repr

/-- The flags tell which of the accessors of a bank are not null. -/
structure NdMemoryBank where
  startWord : Nat
  lengthWord : Nat
  type : NdMemoryType
  read : Bool
  write : Bool
  exchange : Bool
  deriving DecidableEq, Repr

/-- These registers select the running level. -/
structure InterruptRegs where
  pid : Word
  pie : Word
  iid : Word
  iie : Word
  iic : Word
  pvl : Level
  pk : Level
  chkit : Bool
  deriving DecidableEq, Repr

/-- `PGS` and `PES` share one lock. -/
structure FaultRegs where
  pgs : Word
  pea : Word
  pes : Word
  lockPea : Bool
  lockPes : Bool
  deriving DecidableEq, Repr

structure SystemRegs where
  eccr : Word
  stbnk : Word
  stsrt : Word
  cmbuk : Word
  effectiveAddress : Word
  useApt : Bool
  deriving DecidableEq, Repr

structure PanelRegs where
  pans : Word
  panc : Word
  opr : Word
  lmp : Word
  ald : Word
  ccl : Word
  lcil : Word
  ucil : Word
  deriving DecidableEq, Repr

/-- A test-and-set holds the lock between its read and its write. -/
structure TsetLock where
  held : Bool
  old : Word
  oldValid : Bool
  deriving DecidableEq, Repr

/-- Local memory is `g_volatile_memory`, and every backed bank answers from its own window. -/
structure CpuState (World : Type) where
  reg : Level → RegNum → Word
  sts : Word
  pcr : Level → Word
  irq : InterruptRegs
  fault : FaultRegs
  system : SystemRegs
  panel : PanelRegs
  shadowRam : Nat → Word
  memory : Nat → Word
  window : Nat → Word
  banks : List NdMemoryBank
  eccLatch : Nat → Word
  dmaAccess : Bool
  tset : TsetLock
  runMode : CpuRunMode
  world : World

namespace CpuState

variable {World : Type} (s : CpuState World)

/- Each update changes one field, and the generated lemmas read every other field back. -/

@[simps -fullyApplied] def putReg (value : Level → RegNum → Word) : CpuState World := { s with reg := value }

@[simps -fullyApplied] def putSts (value : Word) : CpuState World := { s with sts := value }

@[simps -fullyApplied] def putPcr (value : Level → Word) : CpuState World := { s with pcr := value }

@[simps -fullyApplied] def putIrq (value : InterruptRegs) : CpuState World := { s with irq := value }

@[simps -fullyApplied] def putFault (value : FaultRegs) : CpuState World := { s with fault := value }

@[simps -fullyApplied] def putSystem (value : SystemRegs) : CpuState World := { s with system := value }

@[simps -fullyApplied] def putPanel (value : PanelRegs) : CpuState World := { s with panel := value }

@[simps -fullyApplied] def putShadowRam (value : Nat → Word) : CpuState World := { s with shadowRam := value }

@[simps -fullyApplied] def putMemory (value : Nat → Word) : CpuState World := { s with memory := value }

@[simps -fullyApplied] def putWindow (value : Nat → Word) : CpuState World := { s with window := value }

@[simps -fullyApplied] def putBanks (value : List NdMemoryBank) : CpuState World := { s with banks := value }

@[simps -fullyApplied] def putEccLatch (value : Nat → Word) : CpuState World := { s with eccLatch := value }

@[simps -fullyApplied] def putDmaAccess (value : Bool) : CpuState World := { s with dmaAccess := value }

@[simps -fullyApplied] def putTset (value : TsetLock) : CpuState World := { s with tset := value }

@[simps -fullyApplied] def putRunMode (value : CpuRunMode) : CpuState World := { s with runMode := value }

@[simps -fullyApplied] def putWorld (value : World) : CpuState World := { s with world := value }

@[simp] theorem putShadowRam_self : s.putShadowRam s.shadowRam = s := rfl

@[simp] theorem putShadowRam_putShadowRam (first second : Nat → Word) :
    (s.putShadowRam first).putShadowRam second = s.putShadowRam second := rfl

end CpuState

/-- A device reaches memory over the bus and keeps its own state. -/
inductive BusOp (World : Type) where
  | dmaRead (coreAddress : Nat)
  | dmaWrite (coreAddress : Nat) (data : Word)
  | device (act : World → World × Word)
  | rewire (register : List NdMemoryBank → List NdMemoryBank)

def BusOp.Answer {World : Type} : BusOp World → Type
  | .dmaRead _ => Word
  | .dmaWrite _ _ => Unit
  | .device _ => Word
  | .rewire _ => Unit

abbrev Bus (World : Type) := Library.Program (BusOp World) BusOp.Answer

/-- The device manager answers `none` where no device claims the address or the level. -/
structure Devices (World : Type) where
  read : Word → Bus World (Option Word)
  write : Word → Word → Bus World Bool
  ident : Level → Bus World (Option Word)
  iot : BitVec 8 → BitVec 3 → Word → Bus World (Option (Word × Bool))
  tick : Bus World Word
  panc : Word → Word → Bus World Word

/-- The floating accumulator of the 48-bit unit is T, A and D. -/
structure Fp48 where
  t : Word
  a : Word
  d : Word
  deriving DecidableEq, Repr

structure Fp32 where
  a : Word
  d : Word
  deriving DecidableEq, Repr

/-- The Boolean tells that the operation raises the error indicator. -/
structure Fpu where
  floatAdd : Fp48 → Fp48 → Fp48
  floatSub : Fp48 → Fp48 → Fp48
  floatMul : Fp48 → Fp48 → Fp48
  floatDiv : Fp48 → Fp48 → Fp48 × Bool
  floatDoNlz : BitVec 8 → Fp48 → Fp48
  floatDoDnz : BitVec 8 → Fp48 → Fp48 × Bool
  floatAdd32 : Fp32 → Fp32 → Fp32
  floatSub32 : Fp32 → Fp32 → Fp32
  floatMul32 : Fp32 → Fp32 → Fp32
  floatDiv32 : Fp32 → Fp32 → Fp32 × Bool
  floatDoNlz32 : BitVec 8 → Fp32 → Fp32
  floatDoDnz32 : BitVec 8 → Fp32 → Fp32 × Bool

structure VersnIdentity where
  prom : BitVec 4 → BitVec 8
  microcodeVersion : Word
  printVersion : Word

/-- The wiring is chosen before `cpu_init` and does not change during a run. -/
structure Config (World : Type) where
  mmsType : MmsType
  ndMemsize : Nat
  tsetLock : Bool
  cpuType : CpuType
  fppType : FppType
  versn : VersnIdentity
  devices : Devices World
  fpu : Fpu

/-- The three ways in which a C call does not return to its caller. -/
inductive Stop where
  | longjmp
  | outOfBounds
  | hang
  deriving DecidableEq, Repr

/-- The state survives a `longjmp`. -/
abbrev Cpu (World : Type) := EStateM Stop (CpuState World)

abbrev Outcome (World A : Type) := EStateM.Result Stop (CpuState World) A

/-- The state in which a run ends. -/
def finalState {World A : Type} : Outcome World A → CpuState World
  | .ok _ t => t
  | .error _ t => t

def returned {World A : Type} : Outcome World A → Bool
  | .ok _ _ => true
  | .error _ _ => false

theorem returned_eq {World : Type} {outcome : Outcome World Unit} (done : returned outcome = true) :
    outcome = .ok () (finalState outcome) := by
  cases outcome with
  | ok value t => rfl
  | error stop t => cases done

namespace Cpu

variable {World A B : Type} (s : CpuState World)

@[simp] theorem pure_apply (value : A) : (pure value : Cpu World A) s = .ok value s := rfl

@[simp] theorem get_apply : (get : Cpu World (CpuState World)) s = .ok s s := rfl

@[simp] theorem modify_apply (f : CpuState World → CpuState World) :
    (modify f : Cpu World Unit) s = .ok () (f s) := rfl

@[simp] theorem throw_apply (stop : Stop) : (throw stop : Cpu World A) s = .error stop s := rfl

theorem bind_apply (first : Cpu World A) (next : A → Cpu World B) :
    (first >>= next) s =
      match first s with
      | .ok value t => next value t
      | .error stop t => .error stop t := by
  change EStateM.bind first next s = _
  unfold EStateM.bind
  cases first s <;> rfl

/-- A completed first part passes its value and its state on. -/
theorem bind_ok {first : Cpu World A} {next : A → Cpu World B} {value : A} {s t : CpuState World}
    (done : first s = .ok value t) : (first >>= next) s = next value t := by
  rw [bind_apply, done]

/-- A stopped first part skips the rest. -/
theorem bind_error {first : Cpu World A} {next : A → Cpu World B} {stop : Stop}
    {s t : CpuState World} (stopped : first s = .error stop t) :
    (first >>= next) s = .error stop t := by
  rw [bind_apply, stopped]

end Cpu

end Nd100x
