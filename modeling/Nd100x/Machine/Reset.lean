import Nd100x.Machine.Mms

namespace Nd100x

variable {World : Type}

/-- Installed memory is registered as the first bank. -/
def mmsMemoryBanksInit (ndMemsize : Nat) : List NdMemoryBank :=
  if 0 < ndMemsize then [⟨0, ndMemsize, .localRam, false, false, false⟩] else []

/-- The registers and the memory start at zero, and only the machine indicator is set. -/
def cpuInit (config : Config World) (world : World) : CpuState World where
  reg := fun _ _ => 0
  sts := (1 : Word) <<< Sts.nd100Indicator
  pcr := fun _ => 0
  irq := ⟨0, 0, 0, 0, 0, 0, 0, false⟩
  fault := ⟨0, 0, 0, false, false⟩
  system := ⟨0, 0, 0, 0, 0, false⟩
  panel := ⟨0, 0, 0, 0, 0o1560, 0, 0, 0⟩
  shadowRam := fun _ => 0
  memory := fun _ => 0
  window := fun _ => 0
  banks := mmsMemoryBanksInit config.ndMemsize
  eccLatch := fun _ => 0
  dmaAccess := false
  tset := ⟨false, 0, false⟩
  runMode := .running
  world := world

/-- The bare machine has the default memory and no devices. -/
def bareMachine : Config Unit where
  mmsType := .mms2
  ndMemsize := 2097152
  tsetLock := false
  cpuType := .nd110cx
  fppType := .fpp48
  versn := ⟨fun _ => 0, 0x0708, 0x80C⟩
  devices := {
    read := fun _ => pure none
    write := fun _ _ => pure false
    ident := fun _ => pure none
    iot := fun _ _ _ => pure none
    tick := pure (0 : Word)
    panc := fun _ pans => pure pans }
  fpu := {
    floatAdd := fun first _ => first
    floatSub := fun first _ => first
    floatMul := fun first _ => first
    floatDiv := fun first _ => (first, false)
    floatDoNlz := fun _ value => value
    floatDoDnz := fun _ value => (value, false)
    floatAdd32 := fun first _ => first
    floatSub32 := fun first _ => first
    floatMul32 := fun first _ => first
    floatDiv32 := fun first _ => (first, false)
    floatDoNlz32 := fun _ value => value
    floatDoDnz32 := fun _ value => (value, false) }

end Nd100x
