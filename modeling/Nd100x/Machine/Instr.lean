import Nd100x.Machine.Physical

namespace Nd100x

variable {World : Type}

/-- Register zero holds the status byte and is written through its bits. -/
structure GenReg where
  num : RegNum
  notStatus : num ≠ RegNum.sts
  deriving DecidableEq

namespace GenReg

def d : GenReg := ⟨RegNum.d, by decide⟩
def p : GenReg := ⟨RegNum.p, by decide⟩
def b : GenReg := ⟨RegNum.b, by decide⟩
def l : GenReg := ⟨RegNum.l, by decide⟩
def a : GenReg := ⟨RegNum.a, by decide⟩
def t : GenReg := ⟨RegNum.t, by decide⟩
def x : GenReg := ⟨RegNum.x, by decide⟩

end GenReg

/-- The status byte has eight indicators. -/
abbrev Indicator := Fin 8

namespace Indicator

def pageTableMode : Indicator := ⟨Sts.pageTableMode, by decide⟩
def bitAccumulator : Indicator := ⟨Sts.bitAccumulator, by decide⟩
def errorIndicator : Indicator := ⟨Sts.errorIndicator, by decide⟩
def dynamicOverflow : Indicator := ⟨Sts.dynamicOverflow, by decide⟩
def staticOverflow : Indicator := ⟨Sts.staticOverflow, by decide⟩
def carry : Indicator := ⟨Sts.carry, by decide⟩
def shiftOut : Indicator := ⟨Sts.shiftOut, by decide⟩

end Indicator

/-- An instruction reaches the machine only through these operations. -/
inductive DataOp where
  | getReg (r : RegNum)
  | setReg (r : GenReg) (value : Word)
  | getRegAt (level : Level) (r : RegNum)
  | setRegAt (level : Level) (r : GenReg) (value : Word)
  | currLevel
  | getBit (bit : Indicator)
  | setBit (bit : Indicator) (value : Bool)
  | memRead (address : Word) (useApt : Bool)
  | memReadIndirect (address : Word) (useApt : Bool)
  | memWrite (address value : Word) (useApt : Bool) (mode : WriteMode)
  | physRead (address : Nat)
  | physWrite (address : Nat) (value : Word)
  | checkPriv
  | interrupt (sub : Word)
  | getSystem
  | putSystem (system : SystemRegs)
  | setEffective (address : Word) (useApt : Bool)
  | getAld
  | tsetLockBegin
  | tsetTakeOld
  | tsetLockEnd
  | ioOp (address value : Word)
  | ioIdent (level : Level)
  | iotOp (devno : BitVec 8) (func : BitVec 3) (value : Word)
  | setRunMode (mode : CpuRunMode)
  | stop (stop : Stop)

def DataOp.Answer : DataOp → Type
  | .getReg _ | .getRegAt _ _ | .memRead _ _ | .memReadIndirect _ _ | .physRead _ => Word
  | .getAld | .ioOp _ _ => Word
  | .currLevel => Level
  | .getBit _ | .checkPriv => Bool
  | .getSystem => SystemRegs
  | .tsetTakeOld | .ioIdent _ => Option Word
  | .iotOp _ _ _ => Option (Word × Bool)
  | .setReg _ _ | .setRegAt _ _ _ | .setBit _ _ | .memWrite _ _ _ _ | .physWrite _ _ => Unit
  | .setEffective _ _ => Unit
  | .interrupt _ | .putSystem _ | .tsetLockBegin | .tsetLockEnd | .setRunMode _ => Unit
  | .stop _ => Empty

abbrev Instr := Library.Program DataOp DataOp.Answer

namespace Instr

def perform (op : DataOp) : Instr op.Answer := Library.Program.perform op

def getReg (r : RegNum) : Instr Word := perform (.getReg r)
def setReg (r : GenReg) (value : Word) : Instr Unit := perform (.setReg r value)
def getRegAt (level : Level) (r : RegNum) : Instr Word := perform (.getRegAt level r)
def setRegAt (level : Level) (r : GenReg) (value : Word) : Instr Unit :=
  perform (.setRegAt level r value)
def currLevel : Instr Level := .perform .currLevel
def getBit (bit : Indicator) : Instr Bool := perform (.getBit bit)
def setBit (bit : Indicator) (value : Bool) : Instr Unit := perform (.setBit bit value)
def memRead (address : Word) (useApt : Bool) : Instr Word := perform (.memRead address useApt)
def memReadIndirect (address : Word) (useApt : Bool) : Instr Word :=
  perform (.memReadIndirect address useApt)
def memWrite (address value : Word) (useApt : Bool) (mode : WriteMode) : Instr Unit :=
  perform (.memWrite address value useApt mode)
def physRead (address : Nat) : Instr Word := perform (.physRead address)
def physWrite (address : Nat) (value : Word) : Instr Unit := perform (.physWrite address value)
def checkPriv : Instr Bool := .perform .checkPriv
def interrupt (sub : Word) : Instr Unit := perform (.interrupt sub)
def getSystem : Instr SystemRegs := .perform .getSystem
def putSystem (system : SystemRegs) : Instr Unit := perform (.putSystem system)
def setEffective (address : Word) (useApt : Bool) : Instr Unit :=
  perform (.setEffective address useApt)
def getAld : Instr Word := .perform .getAld
def tsetLockBegin : Instr Unit := .perform .tsetLockBegin
def tsetTakeOld : Instr (Option Word) := .perform .tsetTakeOld
def tsetLockEnd : Instr Unit := .perform .tsetLockEnd
def ioOp (address value : Word) : Instr Word := perform (.ioOp address value)
def ioIdent (level : Level) : Instr (Option Word) := perform (.ioIdent level)
def iotOp (devno : BitVec 8) (func : BitVec 3) (value : Word) : Instr (Option (Word × Bool)) :=
  perform (.iotOp devno func value)
def setRunMode (mode : CpuRunMode) : Instr Unit := perform (.setRunMode mode)
def abort {A : Type} (stop : Stop) : Instr A := .step (.stop stop) fun answer => nomatch answer

/-- A computation on C locals stops the instruction only where it leaves an array. -/
def lift {A : Type} : Except Stop A → Instr A
  | .ok value => pure value
  | .error stop => abort stop

/-- The addressing modes of a memory reference also decide the page table. -/
def cpuGetEffectiveAddr (instr : Word) : Instr Word := do
  let disp := (instr.setWidth 8).signExtend 16
  let p := (← getReg RegNum.p) - 1
  let b ← getReg RegNum.b
  let x ← getReg RegNum.x
  let (address, useApt) ← match ((instr >>> 8) &&& 7).toNat with
    | 0 => pure (p + disp, false)
    | 1 => pure (b + disp, true)
    | 2 => do pure (← memReadIndirect (p + disp) false, true)
    | 3 => do pure (← memReadIndirect (b + disp) true, true)
    | 4 => pure (x + disp, true)
    | 5 => pure (b + x + disp, true)
    | 6 => do pure (x + (← memReadIndirect (p + disp) false), true)
    | _ => do pure (x + (← memReadIndirect (b + disp) true), true)
  setEffective address useApt
  pure address

end Instr

namespace CpuState

def mmsTsetLockBegin (s : CpuState World) (tsetLock : Bool) : CpuState World :=
  s.putTset { s.tset with oldValid := false, held := s.tset.held || tsetLock }

end CpuState

/-- The word that an exchange returned is taken once. -/
def mmsTsetTakeOld : Cpu World (Option Word) := do
  let s ← get
  if s.tset.oldValid then
    modify fun s => s.putTset { s.tset with oldValid := false }
    return some s.tset.old
  else return none

/-- Paging is off for a privileged program, or its ring is 2 or 3. -/
def checkPriv : Cpu World Bool := do
  let s ← get
  if ¬ s.pagingOn ∨ s.ring = 2 ∨ s.ring = 3 then return true
  cpuInterrupt 14 ((1 : Word) <<< 6)
  return false

section Step

variable (config : Config World)

/-- An odd device address is a write and an even one a read. -/
def ioOp (ioadd regA : Word) : Cpu World Word := do
  if ioadd.getLsbD 0 then
    let known ← runBus config (config.devices.write ioadd regA)
    if !known then cpuInterrupt 14 ((1 : Word) <<< 7)
    return regA
  else
    match ← runBus config (config.devices.read ioadd) with
    | some value => return value
    | none =>
      cpuInterrupt 14 ((1 : Word) <<< 7)
      return 0

def dataStep : (op : DataOp) → Cpu World op.Answer
  | .getReg r => do return (← get).getReg r
  | .setReg r value => modify fun s => s.setReg r.num value
  | .getRegAt level r => do return (← get).reg level r
  | .setRegAt level r value => modify fun s => s.setRegAt level r.num value
  | .currLevel => do return (← get).pil
  | .getBit bit => do return (← get).cpuGetbit RegNum.sts bit
  | .setBit bit value => modify fun s => s.cpuSetbit RegNum.sts bit value
  | .memRead address useApt => mmsReadVirtualMemory config address useApt
  | .memReadIndirect address useApt => mmsReadIndirectVirtualMemory config address useApt
  | .memWrite address value useApt mode => mmsWriteVirtualMemory config address value useApt mode
  | .physRead address => mmsReadPhysicalMemory config address true
  | .physWrite address value => mmsWritePhysicalMemoryWm config address value true .word
  | .checkPriv => checkPriv
  | .interrupt sub => cpuInterrupt 14 sub
  | .getSystem => do return (← get).system
  | .putSystem system => modify fun s => s.putSystem system
  | .setEffective address useApt =>
    modify fun s => s.putSystem { s.system with effectiveAddress := address, useApt := useApt }
  | .getAld => do return (← get).panel.ald
  | .tsetLockBegin => modify fun s => s.mmsTsetLockBegin config.tsetLock
  | .tsetTakeOld => mmsTsetTakeOld
  | .tsetLockEnd => modify CpuState.mmsTsetLockEnd
  | .ioOp address value => ioOp config address value
  | .ioIdent level => runBus config (config.devices.ident level)
  | .iotOp devno func value => runBus config (config.devices.iot devno func value)
  | .setRunMode mode => modify fun s => s.putRunMode mode
  | .stop stop => throw stop

/-- The instruction runs on the complete machine. -/
def exec {A : Type} (instr : Instr A) : Cpu World A := instr.interpret (dataStep config)

end Step

end Nd100x
