import Nd100x.Library.Frame
import Nd100x.Machine.Instr

namespace Nd100x

open Library

variable {World : Type} {related : CpuState World → CpuState World → Prop}

/-- The single updates of a memory access stay inside the relation. -/
structure MemoryStep (related : CpuState World → CpuState World → Prop) : Prop
    extends Composes related where
  fault : ∀ s value, related s (s.putFault value)
  shadowRam : ∀ s value, related s (s.putShadowRam value)
  degrade : ∀ s am ring, related s (s.mmsDegrade am ring)
  eccLatch : ∀ s value, related s (s.putEccLatch value)
  memory : ∀ s value, related s (s.putMemory value)
  window : ∀ s value, related s (s.putWindow value)
  tset : ∀ s value, related s (s.putTset value)
  interrupt : ∀ s sub, related s (s.raiseInterrupt 14 sub)

/-- An instruction also writes registers, indicators and devices. -/
structure DataStep (related : CpuState World → CpuState World → Prop) : Prop
    extends MemoryStep related where
  register : ∀ s level (r : GenReg) value, related s (s.setRegAt level r.num value)
  indicator : ∀ s (bit : Indicator) value, related s (s.cpuSetbit RegNum.sts bit value)
  system : ∀ s value, related s (s.putSystem value)
  runMode : ∀ s value, related s (s.putRunMode value)
  world : ∀ s value, related s (s.putWorld value)
  banks : ∀ s value, related s (s.putBanks value)
  dmaAccess : ∀ s value, related s (s.putDmaAccess value)

/-- A run inside the relation stops only by leaving the instruction. -/
abbrev Traps (related : CpuState World → CpuState World → Prop) {A : Type}
    (action : Cpu World A) : Prop :=
  Respects (fun stop => stop = Stop.longjmp) related action

section Memory

variable (rules : MemoryStep related)

include rules

theorem cpuInterrupt_traps (sub : Word) : Traps related (cpuInterrupt 14 sub : Cpu World Unit) := by
  refine .bind rules.toComposes (.modify fun s => rules.interrupt s sub) fun _ => ?_
  exact .ite (.bind rules.toComposes (.modify fun s => rules.tset s _) fun _ =>
    .throw rules.toComposes rfl) (.pure rules.toComposes _)

theorem mmsUpdatePgs_related (s : CpuState World) (pageTable vpn : Nat) (am : AccessMode)
    (permitViolation : Bool) : related s (s.mmsUpdatePgs pageTable vpn am permitViolation) :=
  rules.fault s _

theorem mmsHandleMemoryOutOfRange_traps (physicalAddress : Nat) :
    Traps related (mmsHandleMemoryOutOfRange physicalAddress : Cpu World Unit) :=
  .bind rules.toComposes
    (.modify fun s => rules.trans (rules.fault s _) (rules.fault _ _))
    fun _ => cpuInterrupt_traps rules _

/-- A refused access reports the page and answers without an address. -/
theorem refuse_traps {A : Type} (report : CpuState World → CpuState World)
    (reports : ∀ s, related s (report s)) {handler : Cpu World Unit}
    (handles : Traps related handler) {rest : Cpu World A} (continues : Traps related rest) :
    Traps related (do modify report; handler; rest) :=
  .bind rules.toComposes (.modify reports) fun _ => .bind rules.toComposes handles fun _ => continues

theorem mmsCheckPageProtection_traps (vpn pageTable : Nat) (pte : BitVec 32) (am : AccessMode) :
    Traps related (mmsCheckPageProtection vpn pageTable pte am : Cpu World Bool) := by
  unfold mmsCheckPageProtection
  have report := fun s => mmsUpdatePgs_related rules s pageTable vpn am true
  refine .ite ?_ (.ite ?_ (.pure rules.toComposes _))
  · exact refuse_traps rules _ report (cpuInterrupt_traps rules _) (.pure rules.toComposes _)
  · exact refuse_traps rules _ report (cpuInterrupt_traps rules _) (.pure rules.toComposes _)

theorem mmsSetPageUsed_related (s : CpuState World) (mmsType : MmsType) (pageTable vpn : Nat)
    (ptm : PageTableMode) (pte : BitVec 32) :
    related s (s.mmsSetPageUsed mmsType pageTable vpn ptm pte).1 := by
  unfold CpuState.mmsSetPageUsed
  split
  · exact rules.shadowRam s _
  · exact rules.refl s

theorem mmsSetPageWritten_related (s : CpuState World) (mmsType : MmsType) (pageTable vpn : Nat)
    (ptm : PageTableMode) (pte : BitVec 32) :
    related s (s.mmsSetPageWritten mmsType pageTable vpn ptm pte).1 := by
  unfold CpuState.mmsSetPageWritten
  split
  · exact rules.shadowRam s _
  · exact rules.refl s

theorem mmsMark_related (s : CpuState World) (mmsType : MmsType) (pageTable vpn : Nat)
    (ptm : PageTableMode) (pte : BitVec 32) (am : AccessMode) :
    related s (s.mmsMark mmsType pageTable vpn ptm pte am) := by
  unfold CpuState.mmsMark
  have used := mmsSetPageUsed_related rules s mmsType pageTable vpn ptm pte
  dsimp only
  split
  · exact rules.trans used (mmsSetPageWritten_related rules _ mmsType pageTable vpn ptm _)
  · exact used

theorem mmsMapThroughEntry_traps (mmsType : MmsType) (pageTable vpn dip : Nat)
    (ptm : PageTableMode) (pte : BitVec 32) (am : AccessMode) :
    Traps related (mmsMapThroughEntry mmsType pageTable vpn dip ptm pte am :
      Cpu World (Option Nat)) := by
  unfold mmsMapThroughEntry
  have report := fun s => mmsUpdatePgs_related rules s pageTable vpn am false
  refine .bind rules.toComposes (mmsCheckPageProtection_traps rules vpn pageTable pte am) fun passed => ?_
  refine .ite (.pure rules.toComposes _) (.bind rules.toComposes (.get rules.toComposes) fun s => ?_)
  refine .bind rules.toComposes (.modify fun s => rules.degrade s am _) fun _ => ?_
  refine .ite ?_ (.ite ?_ ?_)
  · exact refuse_traps rules _ report (cpuInterrupt_traps rules _) (.pure rules.toComposes _)
  · exact refuse_traps rules _ report (mmsHandleMemoryOutOfRange_traps rules _)
      (.pure rules.toComposes _)
  · exact .bind rules.toComposes (.modify fun s => mmsMark_related rules s _ _ _ _ _ _) fun _ =>
      .pure rules.toComposes _

theorem mmsMapVirtualToPhysical_traps (mmsType : MmsType) (virtualAddress : Word)
    (am : AccessMode) (useApt : Bool) :
    Traps related (mmsMapVirtualToPhysical mmsType virtualAddress am useApt :
      Cpu World (Option Nat)) :=
  .bind rules.toComposes (.get rules.toComposes) fun _ =>
    .ite (.pure rules.toComposes _) (.ite (.pure rules.toComposes _)
      (mmsMapThroughEntry_traps rules _ _ _ _ _ _ _))

theorem consumeLatch_related (s : CpuState World) (physicalAddress : Nat) :
    related s (s.consumeLatch physicalAddress) := by
  unfold CpuState.consumeLatch
  split
  · exact rules.eccLatch s _
  · exact rules.refl s

theorem ndEccReadDetect_traps (ndMemsize physicalAddress : Nat) :
    Traps related (ndEccReadDetect ndMemsize physicalAddress : Cpu World Unit) := by
  have nothing : Traps related (pure () : Cpu World Unit) := .pure rules.toComposes _
  unfold ndEccReadDetect
  refine .bind rules.toComposes (.get rules.toComposes) fun s => ?_
  refine .ite nothing (.ite nothing (.ite nothing (.ite nothing (.ite nothing (.ite ?_ ?_)))))
  · exact .modify fun s => consumeLatch_related rules s _
  · refine .bind rules.toComposes (.modify fun s => ?_) fun _ => cpuInterrupt_traps rules _
    exact rules.trans (rules.fault s _)
      (rules.trans (rules.fault _ _) (consumeLatch_related rules _ _))

variable (config : Config World)

theorem mmsReadPhysicalMemory_traps (physicalAddress : Nat) (privileged : Bool) :
    Traps related (mmsReadPhysicalMemory config physicalAddress privileged) :=
  .bind rules.toComposes (.get rules.toComposes) fun _ =>
    .ite (.pure rules.toComposes _) (.ite (.pure rules.toComposes _)
      (.ite
        (.bind rules.toComposes (mmsHandleMemoryOutOfRange_traps rules _) fun _ =>
          .pure rules.toComposes _)
        (.bind rules.toComposes (ndEccReadDetect_traps rules _ _) fun _ =>
          .pure rules.toComposes _)))

theorem mmsWrite_related (s : CpuState World) (mmsType : MmsType) (address : Nat) (value : Word) :
    related s (s.mmsWrite mmsType address value) := by
  unfold CpuState.mmsWrite
  split
  · exact rules.refl s
  · exact rules.shadowRam s _

theorem writeWindow_related (s : CpuState World) (bank : NdMemoryBank) (physicalAddress : Nat)
    (value : Word) (mode : WriteMode) :
    related s (s.writeWindow bank physicalAddress value mode) := by
  unfold CpuState.writeWindow
  dsimp only
  split
  · exact rules.trans (rules.window s _) (rules.tset _ _)
  · exact rules.window s _

theorem ndEccWriteLatch_related (s : CpuState World) (ndMemsize physicalAddress : Nat) :
    related s (s.ndEccWriteLatch ndMemsize physicalAddress) := by
  unfold CpuState.ndEccWriteLatch
  dsimp only
  split
  · exact rules.refl s
  · split
    · exact rules.refl s
    · split
      · exact rules.refl s
      · exact rules.eccLatch s _

theorem writeLocal_traps (physicalAddress : Nat) (value : Word) (mode : WriteMode) :
    Traps related (mmsWritePhysicalMemoryWm.writeLocal config physicalAddress value mode) :=
  .ite (mmsHandleMemoryOutOfRange_traps rules _)
    (.modify fun s => rules.trans (ndEccWriteLatch_related rules s _ _) (rules.memory _ _))

theorem mmsWritePhysicalMemoryWm_traps (physicalAddress : Nat) (value : Word) (privileged : Bool)
    (mode : WriteMode) :
    Traps related (mmsWritePhysicalMemoryWm config physicalAddress value privileged mode) := by
  unfold mmsWritePhysicalMemoryWm
  refine .bind rules.toComposes (.get rules.toComposes) fun s => ?_
  refine .ite (.modify fun s => mmsWrite_related rules s _ _ _) ?_
  cases mmsMemoryBankLookup s.banks physicalAddress with
  | none => exact writeLocal_traps rules config _ _ _
  | some bank =>
    exact .ite (.modify fun s => writeWindow_related rules s _ _ _ _)
      (writeLocal_traps rules config _ _ _)

theorem mmsReadVirtual_traps (am : AccessMode) (virtualAddress : Word) (useApt : Bool) :
    Traps related (mmsReadVirtual config am virtualAddress useApt) := by
  refine .bind rules.toComposes (mmsMapVirtualToPhysical_traps rules _ _ _ _) fun mapped => ?_
  cases mapped with
  | none => exact .pure rules.toComposes _
  | some physicalAddress => exact mmsReadPhysicalMemory_traps rules config _ _

theorem mmsWriteVirtualMemory_traps (virtualAddress value : Word) (useApt : Bool)
    (mode : WriteMode) :
    Traps related (mmsWriteVirtualMemory config virtualAddress value useApt mode) := by
  refine .bind rules.toComposes (mmsMapVirtualToPhysical_traps rules _ _ _ _) fun mapped => ?_
  cases mapped with
  | none => exact .pure rules.toComposes _
  | some physicalAddress => exact mmsWritePhysicalMemoryWm_traps rules config _ _ _ _

end Memory

section Data

variable (rules : DataStep related) (config : Config World)

include rules

theorem withDma_traps {A : Type} {access : Cpu World A} (inside : Traps related access) :
    Traps related (withDma access) :=
  .bind rules.toComposes (.modify fun s => rules.dmaAccess s _) fun _ =>
    .bind rules.toComposes inside fun _ =>
      .bind rules.toComposes (.modify fun s => rules.dmaAccess s _) fun _ => .pure rules.toComposes _

theorem busStep_traps (op : BusOp World) : Traps related (busStep config op) := by
  cases op with
  | dmaRead coreAddress =>
    exact withDma_traps rules (mmsReadPhysicalMemory_traps rules.toMemoryStep config _ _)
  | dmaWrite coreAddress data =>
    exact withDma_traps rules (mmsWritePhysicalMemoryWm_traps rules.toMemoryStep config _ _ _ _)
  | device act =>
    exact .bind rules.toComposes (.get rules.toComposes) fun _ =>
      .bind rules.toComposes (.modify fun s => rules.world s _) fun _ => .pure rules.toComposes _
  | rewire register => exact .modify fun s => rules.banks s _

theorem runBus_traps {A : Type} (program : Bus World A) : Traps related (runBus config program) :=
  Program.interpret_respects rules.toComposes (busStep config)
    (fun op _ => busStep_traps rules config op) (Program.all_of_forall (fun _ => trivial) program)

theorem checkPriv_traps : Traps related (checkPriv : Cpu World Bool) :=
  .bind rules.toComposes (.get rules.toComposes) fun _ =>
    .ite (.pure rules.toComposes _)
      (.bind rules.toComposes (cpuInterrupt_traps rules.toMemoryStep _) fun _ =>
        .pure rules.toComposes _)

theorem ioOp_traps (ioadd regA : Word) : Traps related (ioOp config ioadd regA) := by
  refine .ite ?_ ?_
  · refine .bind rules.toComposes (runBus_traps rules config _) fun known => ?_
    refine .ite (.bind rules.toComposes (cpuInterrupt_traps rules.toMemoryStep _) fun _ => ?_) ?_
    · exact .pure rules.toComposes _
    · exact .pure rules.toComposes _
  · refine .bind rules.toComposes (runBus_traps rules config _) fun answer => ?_
    cases answer with
    | none =>
      exact .bind rules.toComposes (cpuInterrupt_traps rules.toMemoryStep _) fun _ =>
        .pure rules.toComposes _
    | some value => exact .pure rules.toComposes _

/-- The operations that continue the instruction or leave it by a trap. -/
def DataOp.Returns : DataOp → Prop
  | .stop _ => False
  | _ => True

/-- Every operation of an instruction stays inside the relation. -/
theorem dataStep_traps (op : DataOp) (returns : op.Returns) : Traps related (dataStep config op) := by
  have read {A : Type} (view : CpuState World → A) :
      Traps related (do return view (← get) : Cpu World A) :=
    .bind rules.toComposes (.get rules.toComposes) fun _ => .pure rules.toComposes _
  have memory := rules.toMemoryStep
  cases op with
  | getReg r => exact read fun s => s.getReg r
  | setReg r value => exact .modify fun s => rules.register s _ r value
  | getRegAt level r => exact read fun s => s.reg level r
  | setRegAt level r value => exact .modify fun s => rules.register s level r value
  | currLevel => exact read fun s => s.pil
  | getBit bit => exact read fun s => s.cpuGetbit RegNum.sts bit
  | setBit bit value => exact .modify fun s => rules.indicator s bit value
  | memRead address useApt => exact mmsReadVirtual_traps memory config _ _ _
  | memReadIndirect address useApt => exact mmsReadVirtual_traps memory config _ _ _
  | memWrite address value useApt mode => exact mmsWriteVirtualMemory_traps memory config _ _ _ _
  | physRead address => exact mmsReadPhysicalMemory_traps memory config _ _
  | physWrite address value => exact mmsWritePhysicalMemoryWm_traps memory config _ _ _ _
  | checkPriv => exact checkPriv_traps rules
  | interrupt sub => exact cpuInterrupt_traps memory sub
  | getSystem => exact read fun s => s.system
  | putSystem system => exact .modify fun s => rules.system s system
  | setEffective address useApt => exact .modify fun s => rules.system s _
  | getAld => exact read fun s => s.panel.ald
  | tsetLockBegin => exact .modify fun s => rules.tset s _
  | tsetTakeOld =>
    exact .bind rules.toComposes (.get rules.toComposes) fun s =>
      .ite (.bind rules.toComposes (.modify fun s => rules.tset s _) fun _ =>
        .pure rules.toComposes _) (.pure rules.toComposes _)
  | tsetLockEnd => exact .modify fun s => rules.tset s _
  | ioOp address value => exact ioOp_traps rules config _ _
  | ioIdent level => exact runBus_traps rules config _
  | iotOp devno func value => exact runBus_traps rules config _
  | setRunMode mode => exact .modify fun s => rules.runMode s mode
  | stop stop => exact returns.elim

theorem exec_traps {A : Type} {instr : Instr A} (returns : instr.All DataOp.Returns) :
    Traps related (exec config instr) :=
  Program.interpret_respects rules.toComposes (dataStep config)
    (fun op returns => dataStep_traps rules config op returns) returns

end Data

end Nd100x
