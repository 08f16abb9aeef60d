import Nd100x.Machine.State

namespace Nd100x

variable {World : Type}

namespace FaultRegs

/-- The first fault address stays until it is read. -/
def setPea (fault : FaultRegs) (pea : Word) : FaultRegs :=
  if fault.lockPea then fault else { fault with pea := pea, lockPea := true }

def setPes (fault : FaultRegs) (pes : Word) : FaultRegs :=
  if fault.lockPes then fault else { fault with pes := pes, lockPes := true }

/-- A zero page status is stored without taking the lock. -/
def setPgs (fault : FaultRegs) (pgs : Word) : FaultRegs :=
  if fault.lockPes then fault else { fault with pgs := pgs, lockPes := pgs != 0 }

end FaultRegs

namespace CpuState

/-- The running level is stored in bits 8 to 11 of the global status byte. -/
def pil (s : CpuState World) : Level := s.sts.extractLsb' 8 4

def pagingOn (s : CpuState World) : Bool := s.sts.getLsbD Sts.pagingOn

def extendedAddressing (s : CpuState World) : Bool := s.sts.getLsbD Sts.extendedAddressing

def interruptOn (s : CpuState World) : Bool := s.sts.getLsbD Sts.interruptOn

def getReg (s : CpuState World) (r : RegNum) : Word := s.reg s.pil r

def setRegAt (s : CpuState World) (level : Level) (r : RegNum) (value : Word) : CpuState World :=
  s.putReg (Function.update s.reg level (Function.update (s.reg level) r value))

def setReg (s : CpuState World) (r : RegNum) (value : Word) : CpuState World :=
  s.setRegAt s.pil r value

@[simp] theorem getReg_setReg (s : CpuState World) (r : RegNum) (value : Word) :
    (s.setReg r value).getReg r = value := by
  change Function.update s.reg s.pil (Function.update (s.reg s.pil) r value) s.pil r = value
  rw [Function.update_self, Function.update_self]

theorem getReg_setReg_of_ne (s : CpuState World) {r other : RegNum} (value : Word)
    (apart : other ≠ r) : (s.setReg r value).getReg other = s.getReg other := by
  change Function.update s.reg s.pil (Function.update (s.reg s.pil) r value) s.pil other = _
  rw [Function.update_self, Function.update_of_ne apart]
  rfl

/-- The complete status register joins the global byte and the byte of the running level. -/
def stsWord (s : CpuState World) : Word :=
  (s.sts &&& 0xFF00) ||| (s.getReg RegNum.sts &&& 0x00FF)

def pageTableMode (s : CpuState World) : Bool := (s.getReg RegNum.sts).getLsbD Sts.pageTableMode

def cpuGetbit (s : CpuState World) (regnum : RegNum) (bit : Nat) : Bool :=
  if regnum = RegNum.sts then s.stsWord.getLsbD bit else (s.getReg regnum).getLsbD bit

/-- One bit of a word is set or cleared. -/
def putBit (word : Word) (bit : Nat) (value : Bool) : Word :=
  if value then word ||| ((1 : Word) <<< bit) else word &&& ~~~((1 : Word) <<< bit)

def cpuSetbitStsMsb (s : CpuState World) (bit : Nat) (value : Bool) : CpuState World :=
  s.putSts (putBit s.sts bit value)

/-- Setting bit 3 of any register requests a level check. -/
def cpuSetbit (s : CpuState World) (regnum : RegNum) (bit : Nat) (value : Bool) : CpuState World :=
  if regnum = RegNum.sts ∧ 7 < bit then s.cpuSetbitStsMsb bit value
  else
    let stored := s.setReg regnum (putBit (s.getReg regnum) bit value)
    if value ∧ bit = Sts.errorIndicator then stored.putIrq { stored.irq with chkit := true }
    else stored

/-- A level change keeps the previous level in `PVL`. -/
def cpuSetPil (s : CpuState World) (level : Level) : CpuState World :=
  if level = s.pil then s
  else
    (s.putIrq { s.irq with pvl := s.pil }).putSts ((s.sts &&& 0xF000) ||| (level.setWidth 16 <<< 8))

def cpuSetPea (s : CpuState World) (pea : Word) : CpuState World :=
  s.putFault (s.fault.setPea pea)

def cpuSetPes (s : CpuState World) (pes : Word) : CpuState World :=
  s.putFault (s.fault.setPes pes)

def cpuSetPgs (s : CpuState World) (pgs : Word) : CpuState World :=
  s.putFault (s.fault.setPgs pgs)

end CpuState

/-- The search runs downwards from the bit below the bound. -/
def highestSetBit (word : Word) : Nat → Option Nat
  | 0 => none
  | bound + 1 => if word.getLsbD bound then some bound else highestSetBit word bound

namespace InterruptRegs

/-- The code is the highest detected and enabled internal interrupt. -/
def cpuCalcIic (irq : InterruptRegs) : Word :=
  BitVec.ofNat 16 ((highestSetBit (irq.iid &&& irq.iie) 11).getD 0)

/-- A set error indicator is detected before the enabled internal interrupts reach `PID`. -/
def recalcInternalInterruptBits (irq : InterruptRegs) (errorIndicator : Bool) : InterruptRegs :=
  let detected := if errorIndicator then { irq with iid := irq.iid ||| ((1 : Word) <<< 5) } else irq
  if detected.iid &&& detected.iie ≠ 0 then
    { detected with
      pid := detected.pid ||| ((1 : Word) <<< 14)
      iic := detected.cpuCalcIic
      chkit := true }
  else detected

def calcPk (irq : InterruptRegs) : InterruptRegs :=
  { irq with pk := BitVec.ofNat 4 ((highestSetBit (irq.pie &&& irq.pid) 16).getD 0) }

/-- Level 14 collects a detected bit, and any other level is requested directly. -/
def request (irq : InterruptRegs) (lvl : Level) (sub : Word) : InterruptRegs :=
  if lvl = 14 then
    let detected := { irq with iid := irq.iid ||| sub }
    if detected.iid &&& detected.iie ≠ 0 then { detected with pid := detected.pid ||| ((1 : Word) <<< 14) }
    else detected
  else { irq with pid := irq.pid ||| ((1 : Word) <<< lvl.toNat) }

end InterruptRegs

namespace CpuState

def recalcInternalInterruptBits (s : CpuState World) : CpuState World :=
  s.putIrq (s.irq.recalcInternalInterruptBits (s.cpuGetbit RegNum.sts Sts.errorIndicator))

/-- The memory lock of a test-and-set is given back once. -/
def mmsTsetLockEnd (s : CpuState World) : CpuState World :=
  s.putTset { s.tset with held := false }

/-- The interrupt is recorded before any jump out of the instruction. -/
def raiseInterrupt (s : CpuState World) (lvl : Level) (sub : Word) : CpuState World :=
  (s.putIrq (s.irq.request lvl sub)).recalcInternalInterruptBits

def cpuDeviceInterrupt (s : CpuState World) (interruptBits : Word) : CpuState World :=
  let validBits := interruptBits &&& 0xBC00
  let pid := (s.irq.pid &&& ~~~validBits) ||| validBits
  s.putIrq { s.irq with pid := pid, chkit := s.irq.chkit || s.irq.pid != pid }

/-- The level is recomputed only when a check was requested. -/
def checkAndSwitch (s : CpuState World) : CpuState World :=
  if s.irq.chkit then
    let checked := (s.putIrq { s.irq with chkit := false }).recalcInternalInterruptBits
    if checked.interruptOn then
      let ranked := checked.putIrq checked.irq.calcPk
      if ranked.irq.pk ≠ ranked.pil then ranked.cpuSetPil ranked.irq.pk else ranked
    else checked
  else s

end CpuState

/-- A protection violation, a page fault and an illegal instruction leave the instruction. -/
def trapMask : Word := ((1 : Word) <<< 2) ||| ((1 : Word) <<< 3) ||| ((1 : Word) <<< 4)

def cpuInterrupt (lvl : Level) (sub : Word) : Cpu World Unit := do
  modify fun s => s.raiseInterrupt lvl sub
  if lvl = 14 ∧ sub &&& trapMask ≠ 0 then
    modify CpuState.mmsTsetLockEnd
    throw .longjmp

end Nd100x
