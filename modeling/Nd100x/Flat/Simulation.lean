import Nd100x.Flat.SpaceFrame

namespace Nd100x

open Library

variable {World A : Type}

/-- The machine ends like the flat run, in the same address space. -/
def Follows (config : Config World) (space : Space) (flat : EStateM.Result FlatStop FlatState A)
    (machine : Outcome World A) : Prop :=
  match flat with
  | .ok value f => ∃ t, machine = .ok value t ∧ t.flat = f ∧ t.space config = space
  | .error .other _ => True
  | .error _ f => ∃ t, machine = .error .longjmp t ∧ t.flat = f ∧ t.space config = space

section Follows

variable {config : Config World} {space : Space} {s t : CpuState World}

theorem Follows.ok {value : A} {f : FlatState} {machine : Outcome World A}
    (follows : Follows config space (.ok value f) machine) :
    ∃ t, machine = .ok value t ∧ t.flat = f ∧ t.space config = space := follows

theorem Follows.pageFault {f : FlatState} {machine : Outcome World A}
    (follows : Follows config space (.error .pageFault f) machine) :
    ∃ t, machine = .error .longjmp t ∧ t.flat = f ∧ t.space config = space := follows

/-- The machine keeps following when the rest follows from every middle state. -/
theorem Follows.bind {B : Type} {flat : Flat A} {next : A → Flat B} {machine : Cpu World A}
    {rest : A → Cpu World B} {f : FlatState}
    (first : Follows config space (flat f) (machine s))
    (later : ∀ value t, t.space config = space →
      Follows config space (next value t.flat) (rest value t)) :
    Follows config space ((flat >>= next) f) ((machine >>= rest) s) := by
  change Follows config space (EStateM.bind flat next f) _
  unfold EStateM.bind
  cases ran : flat f with
  | ok value g =>
    rw [ran] at first
    obtain ⟨t, done, same, kept⟩ := first
    rw [Cpu.bind_ok done]
    subst same
    exact later value t kept
  | error stop g =>
    rw [ran] at first
    cases stop with
    | other => trivial
    | pageFault =>
      obtain ⟨t, stopped, same, kept⟩ := first
      rw [Cpu.bind_error stopped]
      exact ⟨t, rfl, same, kept⟩
    | violation =>
      obtain ⟨t, stopped, same, kept⟩ := first
      rw [Cpu.bind_error stopped]
      exact ⟨t, rfl, same, kept⟩

end Follows

section Physical

variable (config : Config World) (s : CpuState World)

theorem core_plain {physical : Nat} (plain : backed s.banks physical = false) :
    s.core physical = s.memory physical := by
  rw [CpuState.core, plain]
  rfl

theorem core_backed {physical : Nat} (window : backed s.banks physical = true) :
    s.core physical = s.window physical := by
  rw [CpuState.core, window]
  rfl

theorem outOfRange_flat (address : Nat) : (s.outOfRange address).flat = s.flat := rfl

theorem putIrq_space (irq : InterruptRegs) : (s.putIrq irq).space config = s.space config := rfl

theorem putFault_space (fault : FaultRegs) : (s.putFault fault).space config = s.space config := rfl

theorem putTset_space (tset : TsetLock) : (s.putTset tset).space config = s.space config := rfl

theorem raiseInterrupt_space (sub : Word) :
    (s.raiseInterrupt 14 sub).space config = s.space config := by
  rw [CpuState.raiseInterrupt, CpuState.recalcInternalInterruptBits, putIrq_space, putIrq_space]

theorem outOfRange_space (address : Nat) :
    (s.outOfRange address).space config = s.space config := by
  rw [CpuState.outOfRange, raiseInterrupt_space, CpuState.cpuSetPes, putFault_space,
    CpuState.cpuSetPea, putFault_space]

theorem consumeLatch_flat (physical : Nat) : (s.consumeLatch physical).flat = s.flat := by
  unfold CpuState.consumeLatch
  split <;> rfl

theorem consumeLatch_space (physical : Nat) :
    (s.consumeLatch physical).space config = s.space config := by
  unfold CpuState.consumeLatch
  split <;> rfl

/-- The error detection reports through the fault and the interrupt registers only. -/
theorem ndEccReadDetect_follows (physical : Nat) :
    Follows config (s.space config) (.ok () s.flat)
      (ndEccReadDetect config.ndMemsize physical s) := by
  have quiet : Follows config (s.space config) (.ok () s.flat) ((pure () : Cpu World Unit) s) :=
    ⟨s, rfl, rfl, rfl⟩
  unfold ndEccReadDetect
  simp only [Cpu.bind_apply, Cpu.get_apply]
  by_cases outside : config.ndMemsize ≤ physical
  · rw [if_pos outside]
    exact quiet
  rw [if_neg outside]
  by_cases clean : s.system.eccr &&& eccSimulateBits = 0 ∧ s.eccLatch physical = 0
  · rw [if_pos clean]
    exact quiet
  rw [if_neg clean]
  by_cases disabled : s.system.eccr.getLsbD 3 = true
  · rw [if_pos disabled]
    exact quiet
  rw [if_neg disabled]
  by_cases foreign : mmsGetPhysicalMemoryType s.banks physical ≠ .localRam
  · rw [if_pos foreign]
    exact quiet
  rw [if_neg foreign]
  by_cases unset : eccBitCount (s.system.eccr &&& eccSimulateBits ||| s.eccLatch physical) = 0
  · rw [if_pos unset]
    exact quiet
  rw [if_neg unset]
  by_cases corrected : eccBitCount (s.system.eccr &&& eccSimulateBits ||| s.eccLatch physical) = 1 ∧
      ¬ s.system.eccr.getLsbD 2 = true
  · rw [if_pos corrected]
    exact ⟨_, rfl, consumeLatch_flat s physical, consumeLatch_space config s physical⟩
  rw [if_neg corrected]
  refine ⟨_, rfl, consumeLatch_flat ((s.cpuSetPea _).cpuSetPes _) physical, ?_⟩
  rw [raiseInterrupt_space, consumeLatch_space, CpuState.cpuSetPes, putFault_space,
    CpuState.cpuSetPea, putFault_space]

theorem mmsReadPhysicalMemory_local (physical : Nat) (privileged : Bool)
    (visible : s.mmsIsAddressShadowMemory config.mmsType physical privileged = false)
    (plain : backed s.banks physical = false) :
    Follows config (s.space config)
      (Space.read (if config.ndMemsize ≤ physical then .nowhere else .word physical) s.flat)
      (mmsReadPhysicalMemory config physical privileged s) := by
  have unbacked : ((mmsMemoryBankLookup s.banks physical).any (·.read)) = false := plain
  unfold mmsReadPhysicalMemory
  simp only [Cpu.bind_apply, Cpu.get_apply, visible, unbacked, Bool.false_eq_true, if_false]
  by_cases outside : config.ndMemsize ≤ physical
  · simp only [outside, if_true, Cpu.bind_apply, mmsHandleMemoryOutOfRange_apply, Cpu.pure_apply]
    exact ⟨_, rfl, outOfRange_flat s physical, outOfRange_space config s physical⟩
  · simp only [outside, if_false, Cpu.bind_apply]
    obtain ⟨t, done, flat, same⟩ := ndEccReadDetect_follows config s physical
    rw [done]
    refine ⟨t, ?_, flat, same⟩
    change EStateM.Result.ok (s.memory physical) t = .ok (s.core physical) t
    rw [core_plain s plain]

/-- A read of the bus returns the word of its target. -/
theorem mmsReadPhysicalMemory_follows (physical : Nat) (privileged : Bool)
    (visible : s.mmsIsAddressShadowMemory config.mmsType physical privileged = false) :
    Follows config (s.space config)
      (Space.read (busTarget config.ndMemsize s.banks physical) s.flat)
      (mmsReadPhysicalMemory config physical privileged s) := by
  cases found : mmsMemoryBankLookup s.banks physical with
  | none =>
    rw [busTarget, found]
    exact mmsReadPhysicalMemory_local config s physical privileged visible
      (by rw [backed, found]; rfl)
  | some bank =>
    rw [busTarget, found]
    dsimp only
    by_cases both : bank.read = true ∧ bank.write = true
    · have window : backed s.banks physical = true := by
        rw [backed, found]
        exact both.1
      have backedHere : ((mmsMemoryBankLookup s.banks physical).any (·.read)) = true := window
      rw [if_pos both]
      unfold mmsReadPhysicalMemory
      simp only [Cpu.bind_apply, Cpu.get_apply, visible, backedHere, Bool.false_eq_true, if_false,
        if_true]
      refine ⟨s, ?_, rfl, rfl⟩
      change EStateM.Result.ok (s.window physical) s = .ok (s.core physical) s
      rw [core_backed s window]
    · rw [if_neg both]
      by_cases half : bank.read = true ∨ bank.write = true
      · rw [if_pos half]
        trivial
      · rw [if_neg half]
        have unread : bank.read = false := by simpa using fun read => half (.inl read)
        exact mmsReadPhysicalMemory_local config s physical privileged visible
          (by rw [backed, found]; exact unread)

theorem ndEccWriteLatch_eq (ndMemsize physical : Nat) :
    ∃ latch, s.ndEccWriteLatch ndMemsize physical = s.putEccLatch latch := by
  unfold CpuState.ndEccWriteLatch
  dsimp only
  split_ifs
  · exact ⟨s.eccLatch, rfl⟩
  · exact ⟨s.eccLatch, rfl⟩
  · exact ⟨s.eccLatch, rfl⟩
  · exact ⟨_, rfl⟩

/-- A write to the installed memory changes one word of the flat memory. -/
theorem core_putMemory (physical : Nat) (value : Word) (plain : backed s.banks physical = false) :
    (s.putMemory (Function.update s.memory physical value)).core =
      Function.update s.core physical value := by
  funext other
  by_cases same : other = physical
  · subst same
    rw [core_plain _ (by exact plain), Function.update_self]
    exact Function.update_self _ _ _
  · rw [Function.update_of_ne same]
    unfold CpuState.core
    rw [CpuState.putMemory_memory, Function.update_of_ne same]
    rfl

theorem core_putWindow (physical : Nat) (value : Word) (window : backed s.banks physical = true) :
    (s.putWindow (Function.update s.window physical value)).core =
      Function.update s.core physical value := by
  funext other
  by_cases same : other = physical
  · subst same
    rw [core_backed _ (by exact window), Function.update_self]
    exact Function.update_self _ _ _
  · rw [Function.update_of_ne same]
    unfold CpuState.core
    rw [CpuState.putWindow_window, Function.update_of_ne same]
    rfl

theorem writeLocal_follows (physical : Nat) (value : Word) (mode : WriteMode)
    (plain : backed s.banks physical = false)
    (single : (s.space config).exchange physical = false) :
    Follows config (s.space config)
      ((s.space config).write (if config.ndMemsize ≤ physical then .nowhere else .word physical)
        value mode s.flat)
      (mmsWritePhysicalMemoryWm.writeLocal config physical value mode s) := by
  unfold mmsWritePhysicalMemoryWm.writeLocal
  by_cases outside : config.ndMemsize ≤ physical
  · simp only [outside, if_true, mmsHandleMemoryOutOfRange_apply]
    exact ⟨_, rfl, outOfRange_flat s physical, outOfRange_space config s physical⟩
  · simp only [outside, if_false, Cpu.modify_apply]
    obtain ⟨latch, latched⟩ := ndEccWriteLatch_eq s config.ndMemsize physical
    refine ⟨_, rfl, ?_, ?_⟩
    · rw [latched]
      rw [Space.store, if_neg (by rw [single]; simp)]
      have memory := core_putMemory (s.putEccLatch latch) physical
        (mergeWord mode (s.memory physical) value) plain
      change FlatState.mk s.reg _ s.ring s.system s.tset = FlatState.mk _ _ _ _ _
      congr 1
      refine memory.trans ?_
      rw [← core_plain s plain]
      rfl
    · rw [latched]
      rfl

/-- A write to the bus changes the word of its target. -/
theorem mmsWritePhysicalMemoryWm_follows (physical : Nat) (value : Word) (privileged : Bool)
    (mode : WriteMode)
    (visible : s.mmsIsAddressShadowMemory config.mmsType physical privileged = false) :
    Follows config (s.space config)
      ((s.space config).write (busTarget config.ndMemsize s.banks physical) value mode s.flat)
      (mmsWritePhysicalMemoryWm config physical value privileged mode s) := by
  unfold mmsWritePhysicalMemoryWm
  simp only [Cpu.bind_apply, Cpu.get_apply, visible, Bool.false_eq_true, if_false]
  cases found : mmsMemoryBankLookup s.banks physical with
  | none =>
    rw [busTarget, found]
    refine writeLocal_follows config s physical value mode ?_ ?_
    · rw [backed, found]
      rfl
    · change (mmsMemoryBankLookup s.banks physical).any _ = false
      rw [found]
      rfl
  | some bank =>
    rw [busTarget, found]
    dsimp only
    by_cases both : bank.read = true ∧ bank.write = true
    · have window : backed s.banks physical = true := by
        rw [backed, found]
        exact both.1
      have exchange : (s.space config).exchange physical = bank.exchange := by
        change (mmsMemoryBankLookup s.banks physical).any _ = _
        rw [found]
        simp [both.2]
      rw [if_pos both, if_pos both.2]
      have memory := core_putWindow s physical (mergeWord mode (s.window physical) value) window
      rw [← core_backed s window] at memory
      refine ⟨_, rfl, ?_, ?_⟩
      · change (s.writeWindow bank physical value mode).flat =
          (s.space config).store physical value mode s.flat
        unfold CpuState.writeWindow
        rw [Space.store, exchange, ← core_backed s window]
        by_cases test : s.tset.held = true ∧ bank.exchange = true ∧ mode = .word
        · rw [if_pos test, if_pos (by exact test)]
          change FlatState.mk s.reg _ s.ring s.system _ = FlatState.mk _ _ _ _ _
          congr 1
        · rw [if_neg test, if_neg (by exact test)]
          change FlatState.mk s.reg _ s.ring s.system s.tset = FlatState.mk _ _ _ _ _
          congr 1
      · unfold CpuState.writeWindow
        dsimp only
        split <;> rfl
    · rw [if_neg both]
      by_cases half : bank.read = true ∨ bank.write = true
      · rw [if_pos half]
        trivial
      · have unread : bank.read = false := by simpa using fun read => half (.inl read)
        have unwritten : bank.write = false := by simpa using fun write => half (.inr write)
        rw [if_neg half, unwritten]
        refine writeLocal_follows config s physical value mode ?_ ?_
        · rw [backed, found]
          exact unread
        · change (mmsMemoryBankLookup s.banks physical).any _ = false
          rw [found]
          simp [unwritten]

end Physical

section Virtual

variable (config : Config World) (s : CpuState World) (am : AccessMode) (address : Word)
  (useApt : Bool)

theorem pageOf_selected :
    s.pageOf config.mmsType (s.pageTableMode && useApt) address =
      s.selectedPage config.mmsType address useApt := rfl

theorem access_eq :
    (s.space config).access s.flat am address useApt =
      s.virtualTarget config s.ring (s.pageTableMode && useApt) am address := rfl

theorem entered_plain (plain : s.pagingOn = false) :
    (s.space config).entered s.flat am address useApt = s.flat := by
  unfold Space.entered
  split
  · change s.flat.putRing (s.loweredRing config s.ring (s.pageTableMode && useApt) address) = _
    unfold CpuState.loweredRing
    simp only [plain, Bool.false_eq_true, false_and, if_false]
    rfl
  · rfl

theorem mmsDegrade_flat (t : CpuState World) (pageRing : BitVec 2) :
    (t.mmsDegrade am pageRing).flat =
      t.flat.putRing (if mmsDegrades am pageRing t.ring then pageRing else t.ring) := by
  rw [← mmsDegrade_ring]
  unfold CpuState.mmsDegrade
  split <;> rfl

theorem shadowAt_ring (t : CpuState World) (mmsType : MmsType) (physical : Nat) (privileged : Bool) :
    t.shadowAt mmsType t.ring physical privileged =
      t.mmsIsAddressShadowMemory mmsType physical privileged := rfl

/-- A trap changes the interrupt registers and gives the lock back. -/
theorem trapped_flat (t : CpuState World) (sub : Word) : (t.trapped sub).flat = t.flat.unlock := rfl

theorem trapped_space (t : CpuState World) (sub : Word) :
    (t.trapped sub).space config = t.space config :=
  (putTset_space config (t.raiseInterrupt 14 sub) _).trans (raiseInterrupt_space config t sub)

theorem updatePgs_flat (t : CpuState World) (pageTable vpn : Nat) (permitViolation : Bool) :
    (t.mmsUpdatePgs pageTable vpn am permitViolation).flat = t.flat := rfl

theorem updatePgs_space (t : CpuState World) (pageTable vpn : Nat) (permitViolation : Bool) :
    (t.mmsUpdatePgs pageTable vpn am permitViolation).space config = t.space config :=
  putFault_space config t _

/-- A refused access leaves the flat state with the lock given back. -/
theorem refused_flat (permitViolation : Bool) (sub : Word) :
    ((s.faultStatus config.mmsType address useApt am permitViolation).trapped sub).flat =
      s.flat.unlock := by
  rw [trapped_flat, CpuState.faultStatus, updatePgs_flat]

theorem refused_space (permitViolation : Bool) (sub : Word) :
    ((s.faultStatus config.mmsType address useApt am permitViolation).trapped sub).space config =
      s.space config := by
  rw [trapped_space, CpuState.faultStatus, updatePgs_space]

theorem enter_run (space : Space) (f : FlatState) :
    space.enter am address useApt f =
      match space.access f am address useApt with
      | .word physical => .ok (.word physical) (space.entered f am address useApt)
      | .nowhere => .ok .nowhere (space.entered f am address useApt)
      | target => .ok target f := by
  rw [Space.enter, Flat.bind_apply, Flat.get_apply]
  dsimp only
  cases space.access f am address useApt <;> rfl

/-- The bus never faults. -/
theorem busTarget_cases (ndMemsize : Nat) (banks : List NdMemoryBank) (physical : Nat) :
    busTarget ndMemsize banks physical = .word physical ∨
      busTarget ndMemsize banks physical = .nowhere ∨
        busTarget ndMemsize banks physical = .other := by
  unfold busTarget
  cases mmsMemoryBankLookup banks physical with
  | none =>
    dsimp only
    split <;> simp
  | some bank =>
    dsimp only
    split_ifs <;> simp

/-- The outcome of a translation before the bus is reached. -/
inductive Reaches (config : Config World) (s : CpuState World) (am : AccessMode) (address : Word)
    (useApt : Bool) : Prop where
  | hidden (found : (s.space config).access s.flat am address useApt = .other)
  | mapped (physical : Nat) (t : CpuState World)
      (visible : t.mmsIsAddressShadowMemory config.mmsType physical false = false)
      (found : (s.space config).access s.flat am address useApt =
        busTarget config.ndMemsize t.banks physical)
      (ran : mmsMapVirtualToPhysical config.mmsType address am useApt s = .ok (some physical) t)
      (flat : t.flat = (s.space config).entered s.flat am address useApt)
      (space : t.space config = s.space config)
  | nowhere (t : CpuState World)
      (found : (s.space config).access s.flat am address useApt = .nowhere)
      (ran : mmsMapVirtualToPhysical config.mmsType address am useApt s = .ok none t)
      (flat : t.flat = (s.space config).entered s.flat am address useApt)
      (space : t.space config = s.space config)
  | pageFault (t : CpuState World)
      (found : (s.space config).access s.flat am address useApt = .pageFault)
      (ran : mmsMapVirtualToPhysical config.mmsType address am useApt s = .error .longjmp t)
      (flat : t.flat = s.flat.unlock) (space : t.space config = s.space config)
  | violation (t : CpuState World)
      (found : (s.space config).access s.flat am address useApt = .violation)
      (ran : mmsMapVirtualToPhysical config.mmsType address am useApt s = .error .longjmp t)
      (flat : t.flat = s.flat.unlock) (space : t.space config = s.space config)

/-- Without paging the virtual address is the physical one. -/
theorem reaches_unpaged (plain : s.pagingOn = false)
    (visible : s.mmsIsAddressShadowMemory config.mmsType address.toNat false = false) :
    Reaches config s am address useApt := by
  have shadow : s.shadowAt config.mmsType s.ring address.toNat false = false := visible
  refine .mapped address.toNat s visible ?_ ?_ ?_ rfl
  · rw [access_eq, CpuState.virtualTarget, shadow, plain, CpuState.physicalTarget, shadow]
    simp
  · unfold mmsMapVirtualToPhysical
    simp only [Cpu.bind_apply, Cpu.get_apply, visible, plain, Bool.false_eq_true, and_false,
      not_false_eq_true, if_false, if_true, Cpu.pure_apply]
  · exact (entered_plain config s am address useApt plain).symm

variable (operand : am ≠ .fetch)

include operand

/-- The lowered ring is the ring of the machine after the access. -/
theorem entered_ring (paging : s.pagingOn = true) :
    (s.space config).entered s.flat am address useApt =
      s.flat.putRing (if mmsDegrades am (s.selectedPage config.mmsType address useApt).ring s.ring
        then (s.selectedPage config.mmsType address useApt).ring else s.ring) := by
  unfold Space.entered
  cases am with
  | readFetch =>
    rw [if_pos rfl]
    change s.flat.putRing (s.loweredRing config s.ring (s.pageTableMode && useApt) address) = _
    unfold CpuState.loweredRing
    rw [pageOf_selected]
    simp only [paging, true_and]
  | read => rfl
  | write => rfl
  | fetch => exact absurd rfl operand

theorem mapped_flat (paging : s.pagingOn = true) :
    (s.mapped config.mmsType address useApt am).flat =
      (s.space config).entered s.flat am address useApt := by
  rw [entered_ring config s am address useApt operand paging, ← mmsDegrade_flat]
  rfl

/-- The place that an outcome of the translation leads to. -/
def outcomeTarget (page : PageEntry) (physical : Nat) : PageOutcome → Target
  | .pageFault => .pageFault
  | .permitViolation => .violation
  | .ringViolation => .violation
  | .outOfRange => .nowhere
  | .mapped =>
    s.physicalTarget config (if mmsDegrades am page.ring s.ring then page.ring else s.ring)
      physical false

/-- With paging the selected page decides. -/
theorem reaches_paged (paging : s.pagingOn = true)
    (visible : s.mmsIsAddressShadowMemory config.mmsType address.toNat false = false) :
    Reaches config s am address useApt := by
  have shadow : s.shadowAt config.mmsType s.ring address.toNat false = false := visible
  have run := mmsMapVirtualToPhysical_run s config.mmsType address am useApt paging visible
  have target : (s.space config).access s.flat am address useApt =
      outcomeTarget config s am (s.selectedPage config.mmsType address useApt)
        (s.translatedAddress config.mmsType address useApt)
        (s.translationOutcome config.mmsType address useApt am) := by
    rw [access_eq, CpuState.virtualTarget, shadow, pageOf_selected, paging]
    rfl
  unfold translated at run
  cases outcome : s.translationOutcome config.mmsType address useApt am with
  | pageFault =>
    rw [outcome] at run target
    exact .pageFault _ target run (refused_flat config s am address useApt _ _)
      (refused_space config s am address useApt _ _)
  | permitViolation =>
    rw [outcome] at run target
    exact .violation _ target run (refused_flat config s am address useApt _ _)
      (refused_space config s am address useApt _ _)
  | ringViolation =>
    rw [outcome] at run target
    exact .violation _ target run (refused_flat config s am address useApt _ _)
      (refused_space config s am address useApt _ _)
  | outOfRange =>
    rw [outcome] at run target
    refine .nowhere _ target run ?_ ?_
    · rw [entered_ring config s am address useApt operand paging, ← mmsDegrade_flat,
        outOfRange_flat, updatePgs_flat]
    · rw [outOfRange_space, updatePgs_space]
      exact (mmsDegrade_sameTables s config.mmsType am _).space
  | mapped =>
    rw [outcome] at run target
    have tables := mapped_sameTables s config.mmsType address useApt am
    have ring : (s.mapped config.mmsType address useApt am).ring = _ :=
      mmsDegrade_ring s am (s.selectedPage config.mmsType address useApt).ring
    rw [outcomeTarget, ← ring, CpuState.physicalTarget, ← tables.shadowAt, ← tables.banks, shadowAt_ring] at target
    cases seen : (s.mapped config.mmsType address useApt am).mmsIsAddressShadowMemory config.mmsType
        (s.translatedAddress config.mmsType address useApt) false with
    | true =>
      rw [seen, if_pos rfl] at target
      exact .hidden target
    | false =>
      rw [seen, if_neg Bool.false_ne_true] at target
      exact .mapped _ _ seen target run
        (mapped_flat config s am address useApt operand paging) tables.space

theorem reaches : Reaches config s am address useApt := by
  by_cases visible : s.mmsIsAddressShadowMemory config.mmsType address.toNat false = true
  · refine .hidden ?_
    have shadow : s.shadowAt config.mmsType s.ring address.toNat false = true := visible
    rw [access_eq, CpuState.virtualTarget, if_pos shadow]
  · have hidden : s.mmsIsAddressShadowMemory config.mmsType address.toNat false = false := by
      simpa using visible
    cases paging : s.pagingOn with
    | false => exact reaches_unpaged config s am address useApt paging hidden
    | true => exact reaches_paged config s am address useApt operand paging hidden

/-- What follows on the bus follows from the virtual address. -/
theorem virtual_follows {A : Type} (flat : Target → Flat A) (hidden : ∀ f, flat .other f = .error .other f)
    (pageFault : ∀ f, flat .pageFault f = .error .pageFault f.unlock)
    (violation : ∀ f, flat .violation f = .error .violation f.unlock)
    (nothing : A) (nowhere : ∀ f, flat .nowhere f = .ok nothing f)
    (bus : Nat → Cpu World A)
    (onBus : ∀ (t : CpuState World) physical, t.space config = s.space config →
      t.mmsIsAddressShadowMemory config.mmsType physical false = false →
      Follows config (s.space config) (flat (busTarget config.ndMemsize t.banks physical) t.flat)
        (bus physical t)) :
    Follows config (s.space config) (((s.space config).enter am address useApt >>= flat) s.flat)
      ((mmsMapVirtualToPhysical config.mmsType address am useApt >>= fun mapped =>
        match mapped with
        | none => pure nothing
        | some physical => bus physical) s) := by
  have entering := enter_run am address useApt (s.space config) s.flat
  cases reaches config s am address useApt operand with
  | hidden found =>
    rw [found] at entering
    rw [Flat.bind_ok entering, hidden]
    trivial
  | mapped physical t visible found ran flat space =>
    rw [Cpu.bind_ok ran]
    have following := onBus t physical space visible
    rw [flat] at following
    rcases busTarget_cases config.ndMemsize t.banks physical with target | target | target
    · rw [found, target] at entering
      rw [target] at following
      rw [Flat.bind_ok entering]
      exact following
    · rw [found, target] at entering
      rw [target] at following
      rw [Flat.bind_ok entering]
      exact following
    · rw [found, target] at entering
      rw [Flat.bind_ok entering, hidden]
      trivial
  | nowhere t found ran flat space =>
    rw [found] at entering
    rw [Flat.bind_ok entering, nowhere, Cpu.bind_ok ran]
    exact ⟨t, rfl, flat, space⟩
  | pageFault t found ran flat space =>
    rw [found] at entering
    rw [Flat.bind_ok entering, pageFault, Cpu.bind_error ran]
    exact ⟨t, rfl, flat, space⟩
  | violation t found ran flat space =>
    rw [found] at entering
    rw [Flat.bind_ok entering, violation, Cpu.bind_error ran]
    exact ⟨t, rfl, flat, space⟩

theorem mmsReadVirtual_follows :
    Follows config (s.space config)
      (((s.space config).enter am address useApt >>= Space.read) s.flat)
      (mmsReadVirtual config am address useApt s) :=
  virtual_follows config s am address useApt operand Space.read (fun _ => rfl) (fun _ => rfl)
    (fun _ => rfl) 0 (fun _ => rfl) (fun physical => mmsReadPhysicalMemory config physical false)
    fun t physical space visible => by
      rw [← space]
      exact mmsReadPhysicalMemory_follows config t physical false visible

end Virtual

section Step

variable (config : Config World) (s : CpuState World)

theorem mmsWriteVirtualMemory_follows (address value : Word) (useApt : Bool) (mode : WriteMode) :
    Follows config (s.space config)
      (((s.space config).enter .write address useApt >>= fun target =>
        (s.space config).write target value mode) s.flat)
      (mmsWriteVirtualMemory config address value useApt mode s) :=
  virtual_follows config s .write address useApt (by decide)
    (fun target => (s.space config).write target value mode) (fun _ => rfl) (fun _ => rfl)
    (fun _ => rfl) () (fun _ => rfl)
    (fun physical => mmsWritePhysicalMemoryWm config physical value false mode)
    fun t physical space visible => by
      rw [← space]
      exact mmsWritePhysicalMemoryWm_follows config t physical value false mode visible

/-- A privileged access sees the shadow memory in every ring. -/
theorem visible_privileged (physical : Nat) :
    s.mmsIsAddressShadowMemory config.mmsType physical true =
      s.shadowAt config.mmsType 3 physical true := by
  unfold CpuState.mmsIsAddressShadowMemory CpuState.shadowAt
  simp

theorem physRead_follows (physical : Nat) :
    Follows config (s.space config) ((s.space config).step (.physRead physical) s.flat)
      (mmsReadPhysicalMemory config physical true s) := by
  change Follows config _ (Space.read ((s.space config).physical physical) s.flat) _
  have target : (s.space config).physical physical =
      if s.shadowAt config.mmsType 3 physical true then .other
      else busTarget config.ndMemsize s.banks physical := rfl
  rw [← visible_privileged] at target
  cases seen : s.mmsIsAddressShadowMemory config.mmsType physical true with
  | true =>
    rw [target, seen, if_pos rfl]
    trivial
  | false =>
    rw [target, seen, if_neg Bool.false_ne_true]
    exact mmsReadPhysicalMemory_follows config s physical true seen

theorem physWrite_follows (physical : Nat) (value : Word) :
    Follows config (s.space config) ((s.space config).step (.physWrite physical value) s.flat)
      (mmsWritePhysicalMemoryWm config physical value true .word s) := by
  change Follows config _
    ((s.space config).write ((s.space config).physical physical) value .word s.flat) _
  have target : (s.space config).physical physical =
      if s.shadowAt config.mmsType 3 physical true then .other
      else busTarget config.ndMemsize s.banks physical := rfl
  rw [← visible_privileged] at target
  cases seen : s.mmsIsAddressShadowMemory config.mmsType physical true with
  | true =>
    rw [target, seen, if_pos rfl]
    trivial
  | false =>
    rw [target, seen, if_neg Bool.false_ne_true]
    exact mmsWritePhysicalMemoryWm_follows config s physical value true .word seen

theorem getBit_flat (bit : Indicator) :
    s.cpuGetbit RegNum.sts bit = (s.flat.reg s.pil RegNum.sts).getLsbD bit := by
  have low := bit.isLt
  have masks : (0xFF00 : Word).getLsbD bit = false ∧ (0x00FF : Word).getLsbD bit = true := by
    revert bit
    decide
  unfold CpuState.cpuGetbit CpuState.stsWord
  rw [if_pos rfl, BitVec.getLsbD_or, BitVec.getLsbD_and, BitVec.getLsbD_and, masks.1, masks.2,
    Bool.and_false, Bool.false_or, Bool.and_true]
  rfl

theorem setBit_follows (bit : Indicator) (value : Bool) :
    Follows config (s.space config) (.ok () ((s.space config).setIndicator s.flat bit value))
      (.ok () (s.cpuSetbit RegNum.sts bit value)) := by
  have low : ¬ 7 < bit.val := by omega
  unfold CpuState.cpuSetbit
  rw [if_neg fun high => low high.2]
  dsimp only
  split
  · exact ⟨_, rfl, rfl, rfl⟩
  · exact ⟨_, rfl, rfl, rfl⟩

theorem checkPriv_follows :
    Follows config (s.space config) (.ok ((s.space config).privileged s.flat.ring) s.flat)
      (checkPriv s) := by
  have granted : (s.space config).privileged s.flat.ring =
      decide (¬ s.pagingOn ∨ s.ring = 2 ∨ s.ring = 3) := rfl
  rw [granted]
  unfold checkPriv
  simp only [Cpu.bind_apply, Cpu.get_apply]
  by_cases allowed : ¬ s.pagingOn ∨ s.ring = 2 ∨ s.ring = 3
  · rw [if_pos allowed, decide_eq_true allowed]
    exact ⟨s, rfl, rfl, rfl⟩
  · rw [if_neg allowed, decide_eq_false allowed]
    exact ⟨s.raiseInterrupt 14 ((1 : Word) <<< 6), rfl, rfl, raiseInterrupt_space config s _⟩

theorem tsetTakeOld_follows :
    Follows config (s.space config) (Space.takeOld s.flat) (mmsTsetTakeOld s) := by
  unfold Space.takeOld mmsTsetTakeOld
  rw [Flat.bind_apply, Flat.get_apply, Cpu.bind_apply, Cpu.get_apply]
  dsimp only
  by_cases valid : s.tset.oldValid = true
  · rw [if_pos (by exact valid), if_pos valid]
    exact ⟨s.putTset { s.tset with oldValid := false }, rfl, rfl, rfl⟩
  · rw [if_neg (by exact valid), if_neg valid]
    exact ⟨s, rfl, rfl, rfl⟩

/-- Every operation of a flat run is followed by the machine. -/
theorem dataStep_follows (op : DataOp) :
    Follows config (s.space config) ((s.space config).step op s.flat) (dataStep config op s) := by
  cases op with
  | getReg r => exact ⟨s, rfl, rfl, rfl⟩
  | setReg r value => exact ⟨s.setReg r.num value, rfl, rfl, rfl⟩
  | getRegAt level r => exact ⟨s, rfl, rfl, rfl⟩
  | setRegAt level r value => exact ⟨s.setRegAt level r.num value, rfl, rfl, rfl⟩
  | currLevel => exact ⟨s, rfl, rfl, rfl⟩
  | getBit bit => exact ⟨s, congrArg (EStateM.Result.ok · s) (getBit_flat s bit), rfl, rfl⟩
  | setBit bit value => exact setBit_follows config s bit value
  | memRead address useApt =>
    exact mmsReadVirtual_follows config s .read address useApt (by decide)
  | memReadIndirect address useApt =>
    exact mmsReadVirtual_follows config s .readFetch address useApt (by decide)
  | memWrite address value useApt mode =>
    exact mmsWriteVirtualMemory_follows config s address value useApt mode
  | physRead address => exact physRead_follows config s address
  | physWrite address value => exact physWrite_follows config s address value
  | checkPriv => exact checkPriv_follows config s
  | getSystem => exact ⟨s, rfl, rfl, rfl⟩
  | putSystem system => exact ⟨s.putSystem system, rfl, rfl, rfl⟩
  | setEffective address useApt => exact ⟨s.putSystem _, rfl, rfl, rfl⟩
  | tsetLockBegin => exact ⟨s.mmsTsetLockBegin config.tsetLock, rfl, rfl, rfl⟩
  | tsetTakeOld => exact tsetTakeOld_follows config s
  | tsetLockEnd => exact ⟨s.mmsTsetLockEnd, rfl, rfl, rfl⟩
  | interrupt _ | getAld | ioOp _ _ | ioIdent _ | iotOp _ _ _ | setRunMode _ | stop _ => trivial

/-- The machine ends like the flat run of the same program. -/
theorem exec_follows {A : Type} (instr : Instr A) (s : CpuState World) :
    Follows config (s.space config) ((s.space config).run instr s.flat) (exec config instr s) := by
  induction instr generalizing s with
  | pure value => exact ⟨s, rfl, rfl, rfl⟩
  | step op rest ih =>
    refine Follows.bind (dataStep_follows config s op) fun answer t space => ?_
    rw [← space]
    exact ih answer t

end Step

end Nd100x
