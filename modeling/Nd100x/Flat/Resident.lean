import Nd100x.Flat.Simulation
import Nd100x.Machine.Reset

namespace Nd100x

open Library

namespace FlatState

variable (f : FlatState)

/-- A register is read back, and the others are kept. -/
theorem reg_setRegAt (level : Level) (r : RegNum) (value : Word) (other : RegNum) :
    (f.setRegAt level r value).reg level other = if other = r then value else f.reg level other := by
  unfold setRegAt
  rw [putReg_reg, Function.update_self]
  by_cases same : other = r
  · rw [if_pos same, same, Function.update_self]
  · rw [if_neg same, Function.update_of_ne same]

@[simp] theorem reg_setRegAt_self (level : Level) (r : RegNum) (value : Word) :
    (f.setRegAt level r value).reg level r = value := by
  rw [reg_setRegAt, if_pos rfl]

variable {f} in
theorem reg_setRegAt_other {level : Level} {r other : RegNum} (value : Word) (apart : other ≠ r) :
    (f.setRegAt level r value).reg level other = f.reg level other := by
  rw [reg_setRegAt, if_neg apart]

/-- A byte or a word is written into one cell. -/
theorem write_memory (physical : Nat) (value : Word) (mode : WriteMode) (other : Nat) :
    (f.write physical value mode).memory other =
      if other = physical then mergeWord mode (f.memory physical) value else f.memory other := by
  unfold write
  rw [putMemory_memory]
  by_cases same : other = physical
  · rw [if_pos same, same, Function.update_self]
  · rw [if_neg same, Function.update_of_ne same]

end FlatState

namespace Space

variable (space : Space) (f : FlatState)

@[simp] theorem store_reg (physical : Nat) (value : Word) (mode : WriteMode) :
    (space.store physical value mode f).reg = f.reg := by
  unfold store
  split <;> rfl

@[simp] theorem store_ring (physical : Nat) (value : Word) (mode : WriteMode) :
    (space.store physical value mode f).ring = f.ring := by
  unfold store
  split <;> rfl

@[simp] theorem store_system (physical : Nat) (value : Word) (mode : WriteMode) :
    (space.store physical value mode f).system = f.system := by
  unfold store
  split <;> rfl

@[simp] theorem store_memory (physical : Nat) (value : Word) (mode : WriteMode) :
    (space.store physical value mode f).memory = (f.write physical value mode).memory := by
  unfold store
  split <;> rfl

/-- The translation depends on the ring and on the page table mode only. -/
structure SameView (f g : FlatState) : Prop where
  ring : f.ring = g.ring
  mode : (f.reg space.pil RegNum.sts).getLsbD Sts.pageTableMode =
    (g.reg space.pil RegNum.sts).getLsbD Sts.pageTableMode

namespace SameView

variable {space} {f g h : FlatState}

theorem refl (f : FlatState) : space.SameView f f := ⟨rfl, rfl⟩

theorem trans (one : space.SameView f g) (two : space.SameView g h) : space.SameView f h :=
  ⟨one.ring.trans two.ring, one.mode.trans two.mode⟩

theorem access (same : space.SameView f g) (am : AccessMode) (address : Word) (useApt : Bool) :
    space.access f am address useApt = space.access g am address useApt := by
  unfold Space.access alternative
  rw [same.ring, same.mode]

end SameView

theorem sameView_setRegAt (level : Level) (r : GenReg) (value : Word) :
    space.SameView (f.setRegAt level r.num value) f where
  ring := rfl
  mode := by
    unfold FlatState.setRegAt
    rw [FlatState.putReg_reg]
    by_cases same : space.pil = level
    · rw [same, Function.update_self, Function.update_of_ne r.notStatus.symm]
    · rw [Function.update_of_ne same]

theorem sameView_store (physical : Nat) (value : Word) (mode : WriteMode) :
    space.SameView (space.store physical value mode f) f :=
  ⟨store_ring _ _ _ _ _, by rw [store_reg]⟩

section Run

variable {A B : Type}

theorem run_pure (value : A) : space.run (pure value) f = .ok value f := rfl

theorem run_bind (instr : Instr A) (next : A → Instr B) :
    space.run (instr >>= next) f =
      match space.run instr f with
      | .ok value g => space.run (next value) g
      | .error stop g => .error stop g := by
  have split := Program.interpret_bind space.step instr next
  change (instr >>= next).interpret space.step f = _
  rw [split, Flat.bind_apply]
  rfl

variable {space f}

theorem run_bind_ok {instr : Instr A} {next : A → Instr B} {value : A} {g : FlatState}
    (done : space.run instr f = .ok value g) :
    space.run (instr >>= next) f = space.run (next value) g := by
  rw [run_bind, done]

variable (space f)

theorem run_perform (op : DataOp) : space.run (Instr.perform op) f = space.step op f :=
  congrFun (Program.interpret_perform space.step op) f

theorem run_getReg (r : RegNum) : space.run (Instr.getReg r) f = .ok (f.reg space.pil r) f := rfl

theorem run_setReg (r : GenReg) (value : Word) :
    space.run (Instr.setReg r value) f = .ok () (f.setRegAt space.pil r.num value) := rfl

variable {space f}

/-- A reached word is read without any other effect. -/
theorem run_memRead {address : Word} {useApt : Bool} {physical : Nat}
    (reached : space.access f .read address useApt = .word physical) :
    space.run (Instr.memRead address useApt) f = .ok (f.memory physical) f := by
  have entering := enter_run .read address useApt space f
  rw [reached] at entering
  refine (run_perform space f _).trans ?_
  change (space.enter .read address useApt >>= read) f = _
  rw [Flat.bind_ok entering]
  rfl

theorem run_memWrite {address value : Word} {useApt : Bool} {mode : WriteMode} {physical : Nat}
    (reached : space.access f .write address useApt = .word physical) :
    space.run (Instr.memWrite address value useApt mode) f =
      .ok () (space.store physical value mode f) := by
  have entering := enter_run .write address useApt space f
  rw [reached] at entering
  refine (run_perform space f _).trans ?_
  change (space.enter .write address useApt >>= fun target => space.write target value mode) f = _
  rw [Flat.bind_ok entering]
  rfl

end Run

/-- Reads and writes of the address reach one word of the memory. -/
def Resident (address : Word) (useApt : Bool) (physical : Nat) : Prop :=
  space.access f .read address useApt = .word physical ∧
    space.access f .write address useApt = .word physical

theorem Resident.sameView {space : Space} {f g : FlatState} (same : space.SameView f g)
    {address : Word} {useApt : Bool} {physical : Nat}
    (resident : space.Resident g address useApt physical) :
    space.Resident f address useApt physical :=
  ⟨(same.access _ _ _).trans resident.1, (same.access _ _ _).trans resident.2⟩

end Space

section Place

variable {World : Type} {config : Config World} {s : CpuState World}

theorem busTarget_word {ndMemsize physical found : Nat} {banks : List NdMemoryBank}
    (target : busTarget ndMemsize banks physical = .word found) : found = physical := by
  unfold busTarget at target
  split at target
  · split_ifs at target
    all_goals
      cases target
      try rfl
  · split_ifs at target
    cases target
    rfl

theorem physicalTarget_word {ring : BitVec 2} {physical found : Nat} {privileged : Bool}
    (target : s.physicalTarget config ring physical privileged = .word found) :
    found = physical := by
  unfold CpuState.physicalTarget at target
  split at target
  · cases target
  · exact busTarget_word target

/-- The translation keeps the displacement in the page. -/
theorem virtualTarget_word {ring : BitVec 2} {alternative : Bool} {am : AccessMode}
    {address : Word} {physical : Nat}
    (target : s.virtualTarget config ring alternative am address = .word physical) :
    physical % 2 ^ 10 = address.toNat % 2 ^ 10 := by
  unfold CpuState.virtualTarget at target
  split at target
  · cases target
  split at target
  · rw [physicalTarget_word target]
  dsimp only at target
  split at target
  · cases target
  · cases target
  · cases target
  · cases target
  · rw [physicalTarget_word target, PageEntry.address]
    omega

/-- Addresses less than a page apart reach different words. -/
theorem access_word_apart {first second : Word} {one two : Nat} {useApt : Bool} {f : FlatState}
    {am : AccessMode} (reached : (s.space config).access f am first useApt = .word one)
    (reaches : (s.space config).access f am second useApt = .word two)
    (apart : first.toNat % 2 ^ 10 ≠ second.toNat % 2 ^ 10) : one ≠ two := by
  intro same
  have left := virtualTarget_word reached
  have right := virtualTarget_word reaches
  rw [← left, ← right, same] at apart
  exact apart rfl

/-- A machine without other banks answers from its installed memory. -/
theorem core_installed (banks : s.banks = mmsMemoryBanksInit config.ndMemsize) (address : Nat) :
    s.core address = s.memory address := by
  refine core_plain s ?_
  rw [banks]
  unfold backed mmsMemoryBankLookup mmsMemoryBanksInit
  split
  · by_cases inside : address < config.ndMemsize
    · simp [inside]
    · simp [inside]
  · rfl

theorem physical_installed (banks : s.banks = mmsMemoryBanksInit config.ndMemsize) {address : Nat}
    (above : 0xFFFF < address) (below : address < config.ndMemsize) :
    (s.space config).physical address = .word address := by
  have some : 0 < config.ndMemsize := by omega
  have hidden : s.shadowAt config.mmsType 3 address true = false := by
    rw [CpuState.shadowAt, if_pos above]
    exact ite_self _
  change (if s.shadowAt config.mmsType 3 address true then Target.other else
    busTarget config.ndMemsize s.banks address) = _
  rw [hidden, banks, mmsMemoryBanksInit, if_pos some]
  simp [busTarget, mmsMemoryBankLookup, below]

/-- Without paging, an address below the shadow memory is its own place. -/
theorem virtual_installed (banks : s.banks = mmsMemoryBanksInit config.ndMemsize) (plain : s.pagingOn = false)
    {address : Word} (low : address.toNat < 0xF800) (below : address.toNat < config.ndMemsize) (f : FlatState)
    (am : AccessMode) (useApt : Bool) : (s.space config).access f am address useApt = .word address.toNat := by
  have some : 0 < config.ndMemsize := by omega
  have hidden : s.shadowAt config.mmsType f.ring address.toNat false = false := by
    unfold CpuState.shadowAt
    split
    · rfl
    split
    · rfl
    split
    · split
      · split <;> exact decide_eq_false (by omega)
      · exact decide_eq_false (by omega)
    · rfl
  change s.virtualTarget config f.ring _ am address = _
  rw [CpuState.virtualTarget, hidden, if_neg Bool.false_ne_true, plain, if_pos Bool.false_ne_true,
    CpuState.physicalTarget, hidden, if_neg Bool.false_ne_true, banks, mmsMemoryBanksInit, if_pos some]
  simp [busTarget, mmsMemoryBankLookup, below]

end Place

end Nd100x
