import Nd100x.Flat.Resident
import Nd100x.Proof.DecimalIndices

namespace Nd100x

open Library

variable {World : Type}

/-- The memory, the shadow memory and the registers of the running level. -/
structure TableView where
  core : Nat → Word
  shadowRam : Nat → Word
  reg : RegNum → Word

namespace TableView

variable (view : TableView)

def putCore (physical : Nat) (value : Word) : TableView :=
  { view with core := Function.update view.core physical value }

def putShadow (index : Nat) (value : Word) : TableView :=
  { view with shadowRam := Function.update view.shadowRam index value }

def putReg (r : RegNum) (value : Word) : TableView :=
  { view with reg := Function.update view.reg r value }

@[simp] theorem putReg_same (r : RegNum) (value : Word) : (view.putReg r value).reg r = value :=
  Function.update_self _ _ _

theorem putReg_other {r other : RegNum} (value : Word) (apart : other ≠ r) :
    (view.putReg r value).reg other = view.reg other := Function.update_of_ne apart _ _

end TableView

def CpuState.tableView (s : CpuState World) : TableView := ⟨s.core, s.shadowRam, s.getReg⟩

/-- Everything but the view that decides where an access goes. -/
structure SameSetting (config : Config World) (s t : CpuState World) : Prop where
  pil : t.pil = s.pil
  visible : t.mmsIsAddressShadowMemory config.mmsType = s.mmsIsAddressShadowMemory config.mmsType
  physical : (t.space config).physical = (s.space config).physical
  privileged : (t.space config).privileged t.ring = (s.space config).privileged s.ring
  system : t.system = s.system

theorem SameSetting.trans {config : Config World} {s t u : CpuState World}
    (one : SameSetting config s t) (two : SameSetting config t u) : SameSetting config s u :=
  ⟨two.pil.trans one.pil, two.visible.trans one.visible, two.physical.trans one.physical,
    two.privileged.trans one.privileged, two.system.trans one.system⟩

/-- The state looks like the view, in the setting of another state. -/
structure Viewed (config : Config World) (s : CpuState World) (view : TableView)
    (t : CpuState World) : Prop extends SameSetting config s t where
  view : t.tableView = view

section Noted

variable {config : Config World} {s t : CpuState World}

/-- A detected memory error is noted in the interrupt, the fault and the latch registers. -/
def Noted (s t : CpuState World) : Prop :=
  ∃ irq fault latch, t = ((s.putIrq irq).putFault fault).putEccLatch latch

theorem Noted.refl (s : CpuState World) : Noted s s := ⟨s.irq, s.fault, s.eccLatch, rfl⟩

theorem Noted.consumeLatch (noted : Noted s t) (physical : Nat) :
    Noted s (t.consumeLatch physical) := by
  obtain ⟨irq, fault, latch, rfl⟩ := noted
  unfold CpuState.consumeLatch
  split
  · exact ⟨irq, fault, _, rfl⟩
  · exact ⟨irq, fault, latch, rfl⟩

theorem Noted.reported (noted : Noted s t) (pea pes sub : Word) (physical : Nat) :
    Noted s ((((t.cpuSetPea pea).cpuSetPes pes).consumeLatch physical).raiseInterrupt 14 sub) := by
  obtain ⟨irq, fault, latch, rfl⟩ := noted
  have latched : Noted s ((((((s.putIrq irq).putFault fault).putEccLatch latch).cpuSetPea pea).cpuSetPes
      pes).consumeLatch physical) := Noted.consumeLatch ⟨irq, _, latch, rfl⟩ physical
  obtain ⟨irq', fault', latch', same⟩ := latched
  rw [same]
  exact ⟨_, fault', latch', rfl⟩

theorem Noted.setting (noted : Noted s t) : SameSetting config s t := by
  obtain ⟨irq, fault, latch, rfl⟩ := noted
  exact ⟨rfl, rfl, rfl, rfl, rfl⟩

theorem Noted.tableView (noted : Noted s t) : t.tableView = s.tableView := by
  obtain ⟨irq, fault, latch, rfl⟩ := noted
  rfl

/-- The error detection of a read only notes. -/
theorem ndEccReadDetect_noted (ndMemsize physical : Nat) (s : CpuState World) :
    ∃ t, ndEccReadDetect ndMemsize physical s = .ok () t ∧ Noted s t := by
  have quiet : ∃ t, (pure () : Cpu World Unit) s = .ok () t ∧ Noted s t := ⟨s, rfl, .refl s⟩
  unfold ndEccReadDetect
  simp only [Cpu.bind_apply, Cpu.get_apply]
  by_cases outside : ndMemsize ≤ physical
  · rw [if_pos outside]
    exact quiet
  rw [if_neg outside]
  by_cases clean : s.system.eccr &&& eccSimulateBits = 0 ∧ s.eccLatch physical = 0
  · rw [if_pos clean]
    exact quiet
  rw [if_neg clean]
  by_cases disabled : s.system.eccr.getLsbD 3 = true
  · rw [if_pos disabled]
    exact quiet
  rw [if_neg disabled]
  by_cases foreign : mmsGetPhysicalMemoryType s.banks physical ≠ .localRam
  · rw [if_pos foreign]
    exact quiet
  rw [if_neg foreign]
  by_cases unset : eccBitCount (s.system.eccr &&& eccSimulateBits ||| s.eccLatch physical) = 0
  · rw [if_pos unset]
    exact quiet
  rw [if_neg unset]
  by_cases corrected : eccBitCount (s.system.eccr &&& eccSimulateBits ||| s.eccLatch physical) = 1 ∧
      ¬ s.system.eccr.getLsbD 2 = true
  · rw [if_pos corrected]
    exact ⟨_, rfl, (Noted.refl s).consumeLatch physical⟩
  rw [if_neg corrected]
  exact ⟨_, rfl, (Noted.refl s).reported _ _ _ physical⟩

end Noted

section Physical

variable {config : Config World} {s t : CpuState World} {view : TableView} {physical : Nat}

/-- A privileged word is not in the shadow memory. -/
theorem physical_word (reached : (s.space config).physical physical = .word physical) :
    s.mmsIsAddressShadowMemory config.mmsType physical true = false ∧
      busTarget config.ndMemsize s.banks physical = .word physical := by
  change (if s.shadowAt config.mmsType 3 physical true then Target.other
    else busTarget config.ndMemsize s.banks physical) = _ at reached
  rw [← visible_privileged] at reached
  split at reached
  · cases reached
  · next hidden => exact ⟨by simpa using hidden, reached⟩

/-- The word is in a bank with both accessors, or in the installed memory. -/
theorem busTarget_word_cases {ndMemsize : Nat} {banks : List NdMemoryBank}
    (target : busTarget ndMemsize banks physical = .word physical) :
    (∃ bank, mmsMemoryBankLookup banks physical = some bank ∧ bank.read = true ∧ bank.write = true) ∨
      (backed banks physical = false ∧ physical < ndMemsize ∧
        ∀ bank, mmsMemoryBankLookup banks physical = some bank → bank.write = false) := by
  unfold busTarget at target
  cases found : mmsMemoryBankLookup banks physical with
  | none =>
    rw [found] at target
    dsimp only at target
    split at target
    · cases target
    · next inside =>
        refine .inr ⟨by rw [backed, found]; rfl, by omega, fun bank same => nomatch same⟩
  | some bank =>
    rw [found] at target
    dsimp only at target
    split at target
    · next both => exact .inl ⟨bank, rfl, both.1, both.2⟩
    · split at target
      · cases target
      · next half =>
          split at target
          · cases target
          · next inside =>
              have unread : bank.read = false := by simpa using fun read => half (.inl read)
              have unwritten : bank.write = false := by simpa using fun write => half (.inr write)
              refine .inr ⟨by rw [backed, found]; exact unread, by omega, ?_⟩
              rintro other same
              cases same
              exact unwritten

theorem mmsReadPhysicalMemory_noted (reached : (s.space config).physical physical = .word physical) :
    ∃ t, mmsReadPhysicalMemory config physical true s = .ok (s.core physical) t ∧ Noted s t := by
  obtain ⟨hidden, target⟩ := physical_word reached
  unfold mmsReadPhysicalMemory
  simp only [Cpu.bind_apply, Cpu.get_apply, hidden, Bool.false_eq_true, if_false]
  rcases busTarget_word_cases target with ⟨bank, found, read, -⟩ | ⟨plain, inside, -⟩
  · have window : backed s.banks physical = true := by
      rw [backed, found]
      exact read
    have answers : ((mmsMemoryBankLookup s.banks physical).any (·.read)) = true := window
    rw [if_pos answers, core_backed s window]
    exact ⟨s, rfl, .refl s⟩
  · have silent : ¬ ((mmsMemoryBankLookup s.banks physical).any (·.read)) = true := by
      change ¬ backed s.banks physical = true
      rw [plain]
      decide
    obtain ⟨t, done, noted⟩ := ndEccReadDetect_noted config.ndMemsize physical s
    rw [if_neg silent, if_neg (Nat.not_le.mpr inside), Cpu.bind_ok done, core_plain s plain]
    exact ⟨t, rfl, noted⟩

theorem mmsWritePhysicalMemory_viewed (value : Word)
    (reached : (s.space config).physical physical = .word physical) :
    ∃ t, mmsWritePhysicalMemoryWm config physical value true .word s = .ok () t ∧
      SameSetting config s t ∧ t.tableView = s.tableView.putCore physical value := by
  obtain ⟨hidden, target⟩ := physical_word reached
  unfold mmsWritePhysicalMemoryWm
  simp only [Cpu.bind_apply, Cpu.get_apply, hidden, Bool.false_eq_true, if_false]
  rcases busTarget_word_cases target with ⟨bank, found, read, write⟩ | ⟨plain, inside, unwritten⟩
  · have window : backed s.banks physical = true := by
      rw [backed, found]
      exact read
    have memory := core_putWindow s physical value window
    rw [found]
    dsimp only
    rw [if_pos write]
    refine ⟨_, rfl, ?_, ?_⟩
    · unfold CpuState.writeWindow
      dsimp only
      split
      · exact ⟨rfl, rfl, rfl, rfl, rfl⟩
      · exact ⟨rfl, rfl, rfl, rfl, rfl⟩
    · unfold CpuState.writeWindow
      dsimp only
      split
      · exact congrArg (TableView.mk · s.shadowRam s.getReg) memory
      · exact congrArg (TableView.mk · s.shadowRam s.getReg) memory
  · obtain ⟨latch, latched⟩ := ndEccWriteLatch_eq s config.ndMemsize physical
    have written : ∃ t, mmsWritePhysicalMemoryWm.writeLocal config physical value .word s = .ok () t ∧
        SameSetting config s t ∧ t.tableView = s.tableView.putCore physical value := by
      unfold mmsWritePhysicalMemoryWm.writeLocal
      rw [if_neg (Nat.not_le.mpr inside), Cpu.modify_apply, latched]
      refine ⟨_, rfl, ⟨rfl, rfl, rfl, rfl, rfl⟩, ?_⟩
      exact congrArg (TableView.mk · s.shadowRam s.getReg)
        (core_putMemory (s.putEccLatch latch) physical value plain)
    cases found : mmsMemoryBankLookup s.banks physical with
    | none => exact written
    | some bank =>
      dsimp only
      rw [if_neg (by rw [unwritten bank found]; decide)]
      exact written

end Physical

section Shadow

variable {config : Config World} {s : CpuState World} {address : Word}

/-- A visible address is above the start of the shadow memory. -/
theorem visible_range (visible : s.mmsIsAddressShadowMemory config.mmsType address.toNat false = true) :
    (s.ring = 3 ∨ s.pagingOn = false) ∧ shadowRamAddress config.mmsType ≤ address.toNat := by
  unfold CpuState.mmsIsAddressShadowMemory at visible
  split at visible
  · cases visible
  split at visible
  · cases visible
  split at visible
  · next sees =>
      refine ⟨by simpa using sees, ?_⟩
      have lowest : shadowRamAddress config.mmsType ≤ 0xFE00 := by
        cases config.mmsType <;> decide
      split at visible
      · split at visible
        · next larger =>
            have start : shadowRamAddress config.mmsType = 0xF800 := by rw [larger.1]; rfl
            have above := of_decide_eq_true visible
            omega
        · have above := of_decide_eq_true visible
          omega
      · have above := of_decide_eq_true visible
        omega
  · cases visible

/-- A visible address is not translated. -/
theorem mmsMapVirtualToPhysical_visible (am : AccessMode) (useApt : Bool)
    (visible : s.mmsIsAddressShadowMemory config.mmsType address.toNat false = true) :
    mmsMapVirtualToPhysical config.mmsType address am useApt s = .ok (some address.toNat) s := by
  unfold mmsMapVirtualToPhysical
  simp only [Cpu.bind_apply, Cpu.get_apply]
  rcases (visible_range visible).1 with top | plain
  · rw [if_pos ⟨top, visible⟩]
    rfl
  · split
    · rfl
    · rw [if_pos (by rw [plain]; decide)]
      rfl

theorem shadow_inside (visible : s.mmsIsAddressShadowMemory config.mmsType address.toNat false = true) :
    ¬ (address.toNat < shadowRamAddress config.mmsType ∨ 0xFFFF < address.toNat) := by
  have bound := address.isLt
  have above := (visible_range visible).2
  omega

theorem mmsReadVirtualMemory_visible (useApt : Bool)
    (visible : s.mmsIsAddressShadowMemory config.mmsType address.toNat false = true) :
    mmsReadVirtualMemory config address useApt s =
      .ok (s.shadowRam (address.toNat - shadowRamAddress config.mmsType)) s := by
  unfold mmsReadVirtualMemory mmsReadVirtual
  rw [Cpu.bind_ok (mmsMapVirtualToPhysical_visible .read useApt visible)]
  unfold mmsReadPhysicalMemory
  simp only [Cpu.bind_apply, Cpu.get_apply, visible, if_true]
  rw [CpuState.mmsRead, if_neg (shadow_inside visible)]
  rfl

theorem mmsWriteVirtualMemory_visible (value : Word) (useApt : Bool)
    (visible : s.mmsIsAddressShadowMemory config.mmsType address.toNat false = true) :
    mmsWriteVirtualMemory config address value useApt .word s =
      .ok () (s.putShadowRam (Function.update s.shadowRam
        (address.toNat - shadowRamAddress config.mmsType) value)) := by
  unfold mmsWriteVirtualMemory
  rw [Cpu.bind_ok (mmsMapVirtualToPhysical_visible .write useApt visible)]
  unfold mmsWritePhysicalMemoryWm
  simp only [Cpu.bind_apply, Cpu.get_apply, visible, if_true, Cpu.modify_apply]
  rw [CpuState.mmsWrite, if_neg (shadow_inside visible)]
  rfl

end Shadow

namespace Viewed

open Instr

variable {config : Config World} {s t : CpuState World} {view : TableView}

theorem refl (config : Config World) (s : CpuState World) : Viewed config s s.tableView s :=
  ⟨⟨rfl, rfl, rfl, rfl, rfl⟩, rfl⟩

theorem run_getReg (viewed : Viewed config s view t) (r : RegNum) :
    exec config (getReg r) t = .ok (view.reg r) t := by
  rw [← viewed.view]
  rfl

theorem run_getSystem (viewed : Viewed config s view t) :
    exec config getSystem t = .ok s.system t := by
  rw [← viewed.system]
  rfl

theorem run_checkPriv (viewed : Viewed config s view t)
    (privileged : (s.space config).privileged s.ring = true) :
    exec config Instr.checkPriv t = .ok true t := by
  have granted := viewed.privileged.trans privileged
  change decide (¬ t.pagingOn ∨ t.ring = 2 ∨ t.ring = 3) = true at granted
  refine (congrFun (exec_perform config .checkPriv) t).trans ?_
  change Nd100x.checkPriv t = _
  unfold Nd100x.checkPriv
  simp only [Cpu.bind_apply, Cpu.get_apply]
  rw [if_pos (of_decide_eq_true granted)]
  rfl

theorem setReg (viewed : Viewed config s view t) (r : RegNum) (value : Word) :
    Viewed config s (view.putReg r value) (t.setReg r value) := by
  refine ⟨viewed.toSameSetting.trans ⟨rfl, rfl, rfl, rfl, rfl⟩, ?_⟩
  rw [← viewed.view]
  refine congrArg (TableView.mk t.core t.shadowRam) ?_
  funext other
  by_cases same : other = r
  · rw [same, CpuState.getReg_setReg]
    exact (Function.update_self r value t.getReg).symm
  · rw [CpuState.getReg_setReg_of_ne t value same]
    exact (Function.update_of_ne same value t.getReg).symm

theorem run_setReg (viewed : Viewed config s view t) (r : GenReg) (value : Word) :
    ∃ u, exec config (Instr.setReg r value) t = .ok () u ∧
      Viewed config s (view.putReg r.num value) u :=
  ⟨t.setReg r.num value, rfl, viewed.setReg r.num value⟩

theorem run_physRead (viewed : Viewed config s view t) {physical : Nat}
    (reached : (s.space config).physical physical = .word physical) :
    ∃ u, exec config (physRead physical) t = .ok (view.core physical) u ∧ Viewed config s view u := by
  obtain ⟨u, done, noted⟩ := mmsReadPhysicalMemory_noted (viewed.physical ▸ reached)
  refine ⟨u, ?_, viewed.toSameSetting.trans noted.setting, noted.tableView.trans viewed.view⟩
  rw [← viewed.view]
  exact (congrFun (exec_perform config (.physRead physical)) t).trans done

theorem run_physWrite (viewed : Viewed config s view t) {physical : Nat} (value : Word)
    (reached : (s.space config).physical physical = .word physical) :
    ∃ u, exec config (physWrite physical value) t = .ok () u ∧
      Viewed config s (view.putCore physical value) u := by
  obtain ⟨u, done, setting, written⟩ := mmsWritePhysicalMemory_viewed value (viewed.physical ▸ reached)
  exact ⟨u, (congrFun (exec_perform config (.physWrite physical value)) t).trans done,
    viewed.toSameSetting.trans setting, by rw [written, viewed.view]⟩

variable {address : Word}

theorem run_shadowRead (viewed : Viewed config s view t) (useApt : Bool)
    (visible : s.mmsIsAddressShadowMemory config.mmsType address.toNat false = true) :
    exec config (memRead address useApt) t =
      .ok (view.shadowRam (address.toNat - shadowRamAddress config.mmsType)) t := by
  rw [← viewed.view]
  exact (congrFun (exec_perform config (.memRead address useApt)) t).trans
    (mmsReadVirtualMemory_visible useApt (by rw [viewed.visible]; exact visible))

theorem run_shadowWrite (viewed : Viewed config s view t) (value : Word) (useApt : Bool)
    (visible : s.mmsIsAddressShadowMemory config.mmsType address.toNat false = true) :
    ∃ u, exec config (memWrite address value useApt .word) t = .ok () u ∧
      Viewed config s
        (view.putShadow (address.toNat - shadowRamAddress config.mmsType) value) u := by
  refine ⟨_, (congrFun (exec_perform config (.memWrite address value useApt .word)) t).trans
    (mmsWriteVirtualMemory_visible value useApt (by rw [viewed.visible]; exact visible)),
    viewed.toSameSetting.trans ⟨rfl, rfl, rfl, rfl, rfl⟩, ?_⟩
  rw [← viewed.view]
  rfl

end Viewed

end Nd100x
