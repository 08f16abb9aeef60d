import Nd100x.Machine.TestAndSet
import Nd100x.Machine.Reset
import Nd100x.Library.Frame
import Nd100x.Library.Program
import Nd100x.Library.Runs

namespace Nd100x

open Library

variable {World : Type}

/- The accesses that leave the lock alone. -/

/-- The lock is free when an instruction is left by a jump. -/
def LeftUnlocked (stop : Stop) (t : CpuState World) : Prop :=
  stop = .longjmp → t.tset.held = false

/-- The lock of the test-and-set and the shared memory are as before. -/
def Untouched (s t : CpuState World) : Prop := t.tset = s.tset ∧ t.window = s.window

theorem untouched_composes : Composes (@Untouched World) where
  refl := fun _ => ⟨rfl, rfl⟩
  trans := fun first second => ⟨second.1.trans first.1, second.2.trans first.2⟩

/-- An access that only reads the shared memory. -/
abbrev Reads {A : Type} (action : Cpu World A) : Prop := Ends Untouched LeftUnlocked action

section Reads

theorem Reads.pure {A : Type} (value : A) : Reads (pure value : Cpu World A) :=
  Ends.pure untouched_composes value

theorem Reads.get : Reads (get : Cpu World (CpuState World)) := Ends.get untouched_composes

theorem Reads.bind {A B : Type} {first : Cpu World A} {next : A → Cpu World B}
    (start : Reads first) (later : ∀ value, Reads (next value)) : Reads (first >>= next) :=
  Ends.bind untouched_composes start later

theorem Reads.modify {update : CpuState World → CpuState World}
    (updates : ∀ s, Untouched s (update s)) : Reads (modify update : Cpu World Unit) :=
  Ends.modify updates

theorem Reads.ite {A : Type} {condition : Prop} [Decidable condition] {first second : Cpu World A}
    (one : Reads first) (two : Reads second) : Reads (if condition then first else second) :=
  Ends.ite one two

theorem Reads.forM {Item : Type} (items : List Item) {action : Item → Cpu World PUnit}
    (each : ∀ item, Reads (action item)) : Reads (items.forM action) :=
  Ends.forM untouched_composes items each

theorem raiseInterrupt_untouched (s : CpuState World) (lvl : Level) (sub : Word) :
    Untouched s (s.raiseInterrupt lvl sub) := ⟨rfl, rfl⟩

/-- An interrupt that jumps gives the lock back first. -/
theorem cpuInterrupt_reads (lvl : Level) (sub : Word) :
    Reads (cpuInterrupt lvl sub : Cpu World Unit) := by
  refine .bind (.modify fun s => raiseInterrupt_untouched s lvl sub) fun _ => ?_
  split
  · constructor
    · intro s value t done
      cases done
    · intro s stop t stopped _
      cases stopped
      rfl
  · exact .pure ()

theorem mmsHandleMemoryOutOfRange_reads (physicalAddress : Nat) :
    Reads (mmsHandleMemoryOutOfRange physicalAddress : Cpu World Unit) :=
  .bind (.modify fun _ => ⟨rfl, rfl⟩) fun _ => cpuInterrupt_reads _ _

theorem mmsCheckPageProtection_reads (vpn pageTable : Nat) (pte : BitVec 32) (am : AccessMode) :
    Reads (mmsCheckPageProtection vpn pageTable pte am : Cpu World Bool) := by
  have refused : ∀ sub, Reads (do
      modify fun s => s.mmsUpdatePgs pageTable vpn am true
      cpuInterrupt 14 sub
      return false : Cpu World Bool) := fun sub =>
    .bind (.modify fun _ => ⟨rfl, rfl⟩) fun _ => .bind (cpuInterrupt_reads _ _) fun _ => .pure false
  exact .ite (refused _) (.ite (refused _) (.pure true))

theorem mmsMark_untouched (s : CpuState World) (mmsType : MmsType) (pageTable vpn : Nat)
    (ptm : PageTableMode) (pte : BitVec 32) (am : AccessMode) :
    Untouched s (s.mmsMark mmsType pageTable vpn ptm pte am) := by
  have used : Untouched s (s.mmsSetPageUsed mmsType pageTable vpn ptm pte).1 := by
    rw [CpuState.mmsSetPageUsed]
    split <;> exact ⟨rfl, rfl⟩
  have written : ∀ (t : CpuState World) marked,
      Untouched t (t.mmsSetPageWritten mmsType pageTable vpn ptm marked).1 := by
    intro t marked
    rw [CpuState.mmsSetPageWritten]
    split <;> exact ⟨rfl, rfl⟩
  rw [CpuState.mmsMark]
  dsimp only
  split
  · exact untouched_composes.trans used (written _ _)
  · exact used

theorem mmsDegrade_untouched (s : CpuState World) (am : AccessMode) (pageTableRing : BitVec 2) :
    Untouched s (s.mmsDegrade am pageTableRing) := by
  rw [CpuState.mmsDegrade]
  split <;> exact ⟨rfl, rfl⟩

theorem mmsMapThroughEntry_reads (mmsType : MmsType) (pageTable vpn dip : Nat)
    (ptm : PageTableMode) (pte : BitVec 32) (am : AccessMode) :
    Reads (mmsMapThroughEntry mmsType pageTable vpn dip ptm pte am : Cpu World (Option Nat)) := by
  have refused : ∀ handler : Cpu World Unit, Reads handler → Reads (do
      modify fun s => s.mmsUpdatePgs pageTable vpn am false
      handler
      return none : Cpu World (Option Nat)) := fun _ handles =>
    .bind (.modify fun _ => ⟨rfl, rfl⟩) fun _ => .bind handles fun _ => .pure none
  refine .bind (mmsCheckPageProtection_reads vpn pageTable pte am) fun passed => ?_
  refine .ite (.pure none) (.bind .get fun s => ?_)
  refine .bind (.modify fun s => mmsDegrade_untouched s am _) fun _ => ?_
  refine .ite (refused _ (cpuInterrupt_reads _ _)) (.ite (refused _ ?_) ?_)
  · exact mmsHandleMemoryOutOfRange_reads _
  · exact .bind (.modify fun s => mmsMark_untouched s _ _ _ _ _ _) fun _ => .pure _

theorem mmsMapVirtualToPhysical_reads (mmsType : MmsType) (virtualAddress : Word)
    (am : AccessMode) (useApt : Bool) :
    Reads (mmsMapVirtualToPhysical mmsType virtualAddress am useApt : Cpu World (Option Nat)) :=
  .bind .get fun _ =>
    .ite (.pure _) (.ite (.pure _) (mmsMapThroughEntry_reads _ _ _ _ _ _ _))

theorem consumeLatch_untouched (s : CpuState World) (physicalAddress : Nat) :
    Untouched s (s.consumeLatch physicalAddress) := by
  rw [CpuState.consumeLatch]
  split <;> exact ⟨rfl, rfl⟩

theorem ndEccReadDetect_reads (ndMemsize physicalAddress : Nat) :
    Reads (ndEccReadDetect ndMemsize physicalAddress : Cpu World Unit) := by
  have nothing : Reads (pure () : Cpu World Unit) := .pure ()
  refine .bind .get fun s => ?_
  refine .ite nothing (.ite nothing (.ite nothing (.ite nothing (.ite nothing (.ite ?_ ?_)))))
  · exact .modify fun s => consumeLatch_untouched s _
  · refine .bind (.modify fun s => ?_) fun _ => cpuInterrupt_reads _ _
    exact consumeLatch_untouched ((s.cpuSetPea _).cpuSetPes _) _

variable (config : Config World) (watch : Watch World)

theorem mmsReadPhysicalMemory_reads (physicalAddress : Nat) (privileged : Bool) :
    Reads (mmsReadPhysicalMemory config physicalAddress privileged) :=
  .bind .get fun _ => .ite (.pure _) (.ite (.pure _) (.ite
    (.bind (mmsHandleMemoryOutOfRange_reads _) fun _ => .pure _)
    (.bind (ndEccReadDetect_reads _ _) fun _ => .pure _)))

theorem mmsReadVirtual_reads (am : AccessMode) (virtualAddress : Word) (useApt : Bool) :
    Reads (mmsReadVirtual config am virtualAddress useApt) := by
  refine .bind (mmsMapVirtualToPhysical_reads _ _ _ _) fun mapped => ?_
  cases mapped with
  | none => exact .pure 0
  | some physicalAddress => exact mmsReadPhysicalMemory_reads config _ _

/-- What a watchpoint does besides stopping the machine only reads. -/
theorem cpuWatchpointTriggered_reads (depth : Nat) :
    Reads (cpuWatchpointTriggered config watch depth) := by
  induction depth with
  | zero => exact Ends.throw fun _ jump => Stop.noConfusion jump
  | succ depth ih =>
    rw [cpuWatchpointTriggered]
    refine .bind (.modify fun _ => ⟨rfl, rfl⟩) fun _ => ?_
    refine .ite ?_ (.pure ())
    refine .bind (.forM _ fun offset => ?_) fun _ =>
      .modify fun _ => ⟨rfl, rfl⟩
    refine .bind .get fun s => .bind (mmsMapVirtualToPhysical_reads _ _ _ _) fun mapped => ?_
    cases mapped with
    | none => exact .pure ()
    | some physicalAddress =>
      refine .bind .get fun s => ?_
      have last : Reads (do
          let _ ← mmsReadPhysicalMemory config physicalAddress false
          return () : Cpu World Unit) :=
        .bind (mmsReadPhysicalMemory_reads config _ _) fun _ => .pure ()
      exact .ite (.bind ih fun _ => last) last

theorem checkWatch_reads (triggers : CpuState World → Bool) :
    Reads (checkWatch config watch triggers) :=
  .bind .get fun _ => .ite (cpuWatchpointTriggered_reads config watch _) (.pure ())

theorem readPhysical_reads (physicalAddress : Nat) (privileged : Bool) :
    Reads (readPhysical config watch physicalAddress privileged) :=
  .bind (checkWatch_reads config watch _) fun _ => mmsReadPhysicalMemory_reads config _ _

theorem cpuMemoryRead_reads (address : Word) (useApt : Bool) :
    Reads (cpuMemoryRead config watch address useApt) := by
  refine .bind (checkWatch_reads config watch _) fun _ =>
    .bind (mmsMapVirtualToPhysical_reads _ _ _ _) fun mapped => ?_
  cases mapped with
  | none => exact .pure 0
  | some physicalAddress => exact readPhysical_reads config watch _ _

theorem locate_reads (address value : Word) (useApt : Bool) :
    Reads (locate config watch address value useApt) := by
  refine .bind (checkWatch_reads config watch _) fun _ =>
    .bind (mmsMapVirtualToPhysical_reads _ _ _ _) fun mapped => ?_
  cases mapped with
  | none => exact .pure none
  | some physicalAddress => exact .bind (checkWatch_reads config watch _) fun _ => .pure _

end Reads

/- The other operations do not hold the lock. -/

def HeldSame (s t : CpuState World) : Prop := t.tset.held = s.tset.held

theorem heldSame_composes : Composes (@HeldSame World) where
  refl := fun _ => rfl
  trans := fun first second => Eq.trans second first

/-- An operation that does not take the lock. -/
abbrev Holds {A : Type} (action : Cpu World A) : Prop := Ends HeldSame LeftUnlocked action

section Holds

theorem Reads.holds {A : Type} {action : Cpu World A} (reads : Reads action) : Holds action :=
  Ends.weaken reads fun _ _ untouched => congrArg TsetLock.held untouched.1

theorem Holds.pure {A : Type} (value : A) : Holds (pure value : Cpu World A) :=
  Ends.pure heldSame_composes value

theorem Holds.get : Holds (get : Cpu World (CpuState World)) := Ends.get heldSame_composes

theorem Holds.bind {A B : Type} {first : Cpu World A} {next : A → Cpu World B}
    (start : Holds first) (later : ∀ value, Holds (next value)) : Holds (first >>= next) :=
  Ends.bind heldSame_composes start later

theorem Holds.modify {update : CpuState World → CpuState World}
    (updates : ∀ s, HeldSame s (update s)) : Holds (modify update : Cpu World Unit) :=
  Ends.modify updates

theorem Holds.ite {A : Type} {condition : Prop} [Decidable condition] {first second : Cpu World A}
    (one : Holds first) (two : Holds second) : Holds (if condition then first else second) :=
  Ends.ite one two

/-- A part of the machine that is read. -/
theorem Holds.view {A : Type} (view : CpuState World → A) :
    Holds (do return view (← MonadState.get) : Cpu World A) :=
  .bind .get fun _ => .pure _

theorem writeWindow_held (s : CpuState World) (bank : NdMemoryBank) (physicalAddress : Nat)
    (value : Word) (mode : WriteMode) :
    HeldSame s (s.writeWindow bank physicalAddress value mode) := by
  rw [CpuState.writeWindow]
  dsimp only
  split <;> rfl

theorem ndEccWriteLatch_held (s : CpuState World) (ndMemsize physicalAddress : Nat) :
    HeldSame s (s.ndEccWriteLatch ndMemsize physicalAddress) := by
  rw [CpuState.ndEccWriteLatch]
  split_ifs <;> rfl

theorem mmsWrite_held (s : CpuState World) (mmsType : MmsType) (address : Nat) (value : Word) :
    HeldSame s (s.mmsWrite mmsType address value) := by
  rw [CpuState.mmsWrite]
  split_ifs <;> rfl

variable (config : Config World) (watch : Watch World)

theorem writeLocal_holds (physicalAddress : Nat) (value : Word) (mode : WriteMode) :
    Holds (mmsWritePhysicalMemoryWm.writeLocal config physicalAddress value mode) :=
  .ite (mmsHandleMemoryOutOfRange_reads _).holds
    (.modify fun s => ndEccWriteLatch_held s config.ndMemsize physicalAddress)

theorem mmsWritePhysicalMemoryWm_holds (physicalAddress : Nat) (value : Word) (privileged : Bool)
    (mode : WriteMode) :
    Holds (mmsWritePhysicalMemoryWm config physicalAddress value privileged mode) := by
  refine .bind .get fun s => .ite (.modify fun s => mmsWrite_held s _ _ _) ?_
  cases mmsMemoryBankLookup s.banks physicalAddress with
  | none => exact writeLocal_holds config _ _ _
  | some bank =>
    exact .ite (.modify fun s => writeWindow_held s _ _ _ _) (writeLocal_holds config _ _ _)

theorem cpuMemoryWrite_holds (address value : Word) (useApt : Bool) (mode : WriteMode) :
    Holds (cpuMemoryWrite config watch address value useApt mode) := by
  refine .bind (locate_reads config watch _ _ _).holds fun located => ?_
  cases located with
  | none => exact .pure ()
  | some physicalAddress => exact mmsWritePhysicalMemoryWm_holds config _ _ _ _

theorem writePhysical_holds (physicalAddress : Nat) (value : Word) :
    Holds (writePhysical config watch physicalAddress value) :=
  .bind (checkWatch_reads config watch _).holds fun _ =>
    mmsWritePhysicalMemoryWm_holds config _ _ _ _

theorem withDma_holds {A : Type} {access : Cpu World A} (inside : Holds access) :
    Holds (withDma access) :=
  .bind (.modify fun _ => rfl) fun _ => .bind inside fun _ =>
    .bind (.modify fun _ => rfl) fun _ => .pure _

theorem busStep_holds (op : BusOp World) : Holds (busStep config op) := by
  cases op with
  | dmaRead coreAddress => exact withDma_holds (mmsReadPhysicalMemory_reads config _ _).holds
  | dmaWrite coreAddress data => exact withDma_holds (mmsWritePhysicalMemoryWm_holds config _ _ _ _)
  | device act => exact .bind .get fun _ => .bind (.modify fun _ => rfl) fun _ => .pure _
  | rewire register => exact .modify fun _ => rfl

theorem runBus_holds {A : Type} (program : Bus World A) : Holds (runBus config program) :=
  Program.interpret_ends heldSame_composes (busStep config) (fun op _ => busStep_holds config op)
    (Program.all_of_forall (fun _ => trivial) program)

theorem checkPriv_holds : Holds (checkPriv : Cpu World Bool) :=
  .bind .get fun _ => .ite (.pure true) (.bind (cpuInterrupt_reads _ _).holds fun _ => .pure false)

theorem ioOp_holds (ioadd regA : Word) : Holds (ioOp config ioadd regA) := by
  have interrupt : Holds (cpuInterrupt 14 ((1 : Word) <<< 7) : Cpu World Unit) :=
    (cpuInterrupt_reads _ _).holds
  refine .ite (.bind (runBus_holds config _) fun known => ?_)
    (.bind (runBus_holds config _) fun answer => ?_)
  · exact .ite (.bind interrupt fun _ => .pure _) (.pure _)
  · cases answer with
    | none => exact .bind interrupt fun _ => .pure 0
    | some value => exact .pure value

theorem setReg_held (s : CpuState World) (bit : Indicator) (value : Bool) :
    HeldSame s (s.cpuSetbit RegNum.sts bit value) := by
  rw [CpuState.cpuSetbit]
  split_ifs <;> rfl

/-- No operation of another instruction takes the lock. -/
theorem watchedStep_holds {op : DataOp} (untested : op.Untested) :
    Holds (watchedStep config watch op) := by
  cases op with
  | getReg r => exact .view fun s => s.getReg r
  | setReg r value => exact .modify fun _ => rfl
  | getRegAt level r => exact .view fun s => s.reg level r
  | setRegAt level r value => exact .modify fun _ => rfl
  | currLevel => exact .view fun s => s.pil
  | getBit bit => exact .view fun s => s.cpuGetbit RegNum.sts bit
  | setBit bit value => exact .modify fun s => setReg_held s bit value
  | memRead address useApt => exact (cpuMemoryRead_reads config watch _ _).holds
  | memReadIndirect address useApt =>
    exact (mmsReadVirtual_reads config .readFetch _ _).holds
  | memWrite address value useApt mode => exact cpuMemoryWrite_holds config watch _ _ _ _
  | physRead address => exact (readPhysical_reads config watch _ _).holds
  | physWrite address value => exact writePhysical_holds config watch _ _
  | checkPriv => exact checkPriv_holds
  | interrupt sub => exact (cpuInterrupt_reads _ _).holds
  | getSystem => exact .view fun s => s.system
  | putSystem system => exact .modify fun _ => rfl
  | setEffective address useApt => exact .modify fun _ => rfl
  | getAld => exact .view fun s => s.panel.ald
  | tsetLockBegin => exact untested.elim
  | tsetTakeOld => exact untested.elim
  | tsetLockEnd => exact untested.elim
  | ioOp address value => exact ioOp_holds config _ _
  | ioIdent level => exact runBus_holds config _
  | iotOp devno func value => exact runBus_holds config _
  | setRunMode mode => exact .modify fun _ => rfl
  | stop stop => exact Ends.throw fun _ jump => absurd jump untested

end Holds

/- The store of a test-and-set. -/

section Stores

variable {config : Config World} {watch : Watch World} {s t : CpuState World} {word : Nat}

theorem sharedWord_bank {physicalAddress : Nat} {privileged : Bool}
    (shared : s.sharedWord config.mmsType physicalAddress privileged = some word) :
    physicalAddress = word ∧
      s.mmsIsAddressShadowMemory config.mmsType physicalAddress privileged = false ∧
      ∃ bank, mmsMemoryBankLookup s.banks physicalAddress = some bank ∧ bank.write = true ∧
        bank.exchange = true := by
  rw [CpuState.sharedWord] at shared
  split_ifs at shared with shadow bank
  rcases lookup : mmsMemoryBankLookup s.banks physicalAddress with - | found
  · rw [lookup] at bank
    exact absurd bank Bool.false_ne_true
  · rw [lookup] at bank
    have both := Bool.and_eq_true_iff.mp bank
    exact ⟨Option.some.inj shared, Bool.eq_false_iff.mpr shadow, found, rfl, both.1, both.2⟩

/-- The word is set, and under the lock the exchange keeps what it held. -/
structure Exchanged (s t : CpuState World) (word : Nat) : Prop where
  set : t.window word = 0xFFFF
  held : t.tset.held = s.tset.held
  kept : s.tset.held = true → t.tset.oldValid = true ∧ t.tset.old = s.window word

theorem writeShared_exchanged {physicalAddress : Nat} {privileged : Bool}
    (shared : s.sharedWord config.mmsType physicalAddress privileged = some word) :
    ∃ t, mmsWritePhysicalMemoryWm config physicalAddress 0xFFFF privileged .word s = .ok () t ∧
      Exchanged s t word := by
  obtain ⟨rfl, shadow, bank, lookup, write, exchange⟩ := sharedWord_bank shared
  refine ⟨s.writeWindow bank physicalAddress 0xFFFF .word, ?_, ?_, ?_, ?_⟩
  · rw [mmsWritePhysicalMemoryWm, Cpu.bind_ok (Cpu.get_apply s), shadow, if_neg Bool.false_ne_true,
      lookup]
    dsimp only
    rw [write]
    rfl
  · rw [CpuState.writeWindow]
    split_ifs
    · exact Function.update_self ..
    · exact Function.update_self ..
  · exact writeWindow_held s bank _ _ _
  · intro held
    rw [CpuState.writeWindow, if_pos ⟨held, exchange, rfl⟩]
    exact ⟨rfl, rfl⟩

/-- What a read before the store leaves, the store finds. -/
theorem Exchanged.after {u : CpuState World} (exchanged : Exchanged t u word)
    (untouched : Untouched s t) : Exchanged s u word where
  set := exchanged.set
  held := exchanged.held.trans (congrArg TsetLock.held untouched.1)
  kept := by
    rw [← untouched.1, ← untouched.2]
    exact exchanged.kept

theorem cpuMemoryWrite_exchanged {address : Word} {useApt : Bool} {physicalAddress : Nat}
    (located : locate config watch address 0xFFFF useApt s = .ok (some physicalAddress) t)
    (shared : t.sharedWord config.mmsType physicalAddress false = some word) :
    ∃ u, cpuMemoryWrite config watch address 0xFFFF useApt .word s = .ok () u ∧
      Exchanged s u word := by
  obtain ⟨u, stored, exchanged⟩ := writeShared_exchanged shared
  refine ⟨u, ?_, exchanged.after ((locate_reads config watch _ _ _).ok located)⟩
  rw [cpuMemoryWrite, Cpu.bind_ok located]
  exact stored

theorem writePhysical_exchanged {physicalAddress : Nat}
    (checked : checkWatch config watch (fun s => watch.physical s physicalAddress true) s =
      .ok () t)
    (shared : t.sharedWord config.mmsType physicalAddress true = some word) :
    ∃ u, writePhysical config watch physicalAddress 0xFFFF s = .ok () u ∧ Exchanged s u word := by
  obtain ⟨u, stored, exchanged⟩ := writeShared_exchanged shared
  refine ⟨u, ?_, exchanged.after ((checkWatch_reads config watch _).ok checked)⟩
  rw [writePhysical, Cpu.bind_ok checked]
  exact stored

/-- A store that reaches a shared word returns and exchanges it. -/
theorem setsWord_exchanged {op : DataOp} (sets : setsWord config watch s op = some word) :
    returned (watchedStep config watch op s) = true ∧
      Exchanged s (finalState (watchedStep config watch op s)) word := by
  have done : ∀ {outcome : Outcome World Unit} {u}, outcome = .ok () u → Exchanged s u word →
      returned outcome = true ∧ Exchanged s (finalState outcome) word := by
    intro outcome u ran exchanged
    rw [ran]
    exact ⟨rfl, exchanged⟩
  cases op with
  | memWrite address value useApt mode =>
    cases mode with
    | word =>
      rw [setsWord] at sets
      split_ifs at sets with ones
      split at sets
      · next physicalAddress t located =>
          rw [ones] at located ⊢
          obtain ⟨u, ran, exchanged⟩ := cpuMemoryWrite_exchanged located sets
          exact done ran exchanged
      · exact absurd sets.symm (Option.some_ne_none word)
    | msb => exact absurd sets.symm (Option.some_ne_none word)
    | lsb => exact absurd sets.symm (Option.some_ne_none word)
  | physWrite address value =>
    rw [setsWord] at sets
    split_ifs at sets with ones
    split at sets
    · next t checked =>
        rw [ones]
        obtain ⟨u, ran, exchanged⟩ := writePhysical_exchanged checked sets
        exact done ran exchanged
    · exact absurd sets.symm (Option.some_ne_none word)
  | _ => exact absurd sets.symm (Option.some_ne_none word)

end Stores

/- A test-and-set among the other processors. -/

namespace Tester

/-- The other processors change the shared memory alone. -/
def Others (m t : Tester World) : Prop :=
  t.progress = m.progress ∧ ∃ window, t.cpu = m.cpu.putWindow window

/-- The lock is free and nothing has been stored. -/
def Ready (m : Tester World) : Prop := m.progress = .testing ∧ m.cpu.tset.held = false

/-- The lock is held and nothing has been stored. -/
def Begun (m : Tester World) : Prop := m.progress = .testing ∧ m.cpu.tset.held = true

/-- The word that an exchange saw is kept. -/
def Wrote (m : Tester World) : Prop :=
  ∀ word seen, m.progress = .stored word seen →
    m.cpu.tset.oldValid = true ∧ m.cpu.tset.old = seen

/-- The word that an exchange saw is in A. -/
def Took (m : Tester World) : Prop :=
  ∀ word seen, m.progress = .stored word seen → m.cpu.getReg RegNum.a = seen

def Ended (m : Tester World) : Prop := m.cpu.tset.held = false ∧ m.Took

def Jumped (stop : Stop) (m : Tester World) : Prop := stop = .longjmp → m.Ended

variable {config : Config World} {watch : Watch World} {m t u : Tester World}

theorem Others.refl (m : Tester World) : Others m m := ⟨rfl, m.cpu.window, rfl⟩

theorem Others.trans (first : Others m t) (second : Others t u) : Others m u := by
  obtain ⟨progress, window, cpu⟩ := first
  obtain ⟨later, next, changed⟩ := second
  refine ⟨later.trans progress, next, ?_⟩
  rw [changed, cpu]
  rfl

theorem Others.ready (others : Others m t) (ready : m.Ready) : t.Ready := by
  obtain ⟨progress, window, cpu⟩ := others
  rw [Ready, progress, cpu]
  exact ready

theorem Others.begun (others : Others m t) (begun : m.Begun) : t.Begun := by
  obtain ⟨progress, window, cpu⟩ := others
  rw [Begun, progress, cpu]
  exact begun

theorem Others.wrote (others : Others m t) (wrote : m.Wrote) : t.Wrote := by
  obtain ⟨progress, window, cpu⟩ := others
  rw [Wrote, progress, cpu]
  exact wrote

theorem Others.took (others : Others m t) (took : m.Took) : t.Took := by
  obtain ⟨progress, window, cpu⟩ := others
  rw [Took, progress, cpu]
  exact took

theorem Others.ended (others : Others m t) (ended : m.Ended) : t.Ended := by
  refine ⟨?_, others.took ended.2⟩
  obtain ⟨-, window, cpu⟩ := others
  rw [cpu]
  exact ended.1

/-- An instruction that has stored nothing may end where the lock is free. -/
theorem Ready.ended (ready : m.Ready) : m.Ended := by
  refine ⟨ready.2, fun word seen stored => ?_⟩
  rw [ready.1] at stored
  exact TsetProgress.noConfusion stored

theorem perform_ok {op : DataOp} {answer : op.Answer}
    (ran : m.perform config watch op = .ok answer t) :
    watchedStep config watch op m.cpu = .ok answer t.cpu ∧
      t.progress = m.progressAfter config watch op := by
  rw [perform] at ran
  split at ran
  · next found s done =>
      obtain ⟨rfl, rfl⟩ := EStateM.Result.ok.inj ran
      exact ⟨done, rfl⟩
  · cases ran

theorem perform_error {op : DataOp} {stop : Stop}
    (ran : m.perform config watch op = .error stop t) :
    watchedStep config watch op m.cpu = .error stop t.cpu ∧ t.progress = m.progress := by
  rw [perform] at ran
  split at ran
  · cases ran
  · next found s done =>
      obtain ⟨rfl, rfl⟩ := EStateM.Result.error.inj ran
      exact ⟨done, rfl⟩

theorem progressAfter_same {op : DataOp} (tests : m.tests config watch op = none) :
    m.progressAfter config watch op = m.progress := by
  rw [progressAfter, tests]

theorem tests_none {op : DataOp} (sets : ∀ s, setsWord config watch s op = none) :
    m.tests config watch op = none := by
  rw [Tester.tests, sets, ite_self]

end Tester

section Safe

open Tester

variable (config : Config World) (watch : Watch World)

/-- Whatever the other processors do, the instruction ends as it should. -/
abbrev SafeInstr {A : Type} (post : A → Tester World → Prop) (instr : Instr A)
    (m : Tester World) : Prop :=
  instr.Safe (fun op m => m.perform (attached config) watch op) Others Jumped post m

variable {config watch} {m : Tester World}

theorem safe_step (op : DataOp) {post : op.Answer → Tester World → Prop}
    (ok : ∀ {t answer u}, Others m t → t.perform (attached config) watch op = .ok answer u →
      post answer u)
    (error : ∀ {t stop u}, Others m t → t.perform (attached config) watch op = .error stop u →
      Jumped stop u) :
    SafeInstr config watch post (Instr.perform op) m :=
  Program.safe_perform ok error

/-- A read before the store. -/
theorem safe_read (op : DataOp) (reads : Reads (watchedStep (attached config) watch op))
    (sets : ∀ s, setsWord (attached config) watch s op = none) (begun : m.Begun) :
    SafeInstr config watch (fun _ t => t.Begun) (Instr.perform op) m := by
  refine safe_step op ?_ ?_
  · intro t answer u others ran
    obtain ⟨done, progress⟩ := perform_ok ran
    have before := others.begun begun
    rw [progressAfter_same (tests_none sets)] at progress
    refine ⟨progress.trans before.1, ?_⟩
    rw [(reads.ok done).1]
    exact before.2
  · intro t stop u others ran jump
    obtain ⟨done, progress⟩ := perform_error ran
    refine ⟨reads.error done jump, ?_⟩
    intro word seen stored
    rw [progress, (others.begun begun).1] at stored
    exact TsetProgress.noConfusion stored

theorem safe_getReg (r : RegNum) (begun : m.Begun) :
    SafeInstr config watch (fun _ t => t.Begun) (Instr.getReg r) m :=
  safe_read (.getReg r) (.bind .get fun _ => .pure _) (fun _ => rfl) begun

theorem safe_memRead (address : Word) (useApt : Bool) (begun : m.Begun) :
    SafeInstr config watch (fun _ t => t.Begun) (Instr.memRead address useApt) m :=
  safe_read (.memRead address useApt) (cpuMemoryRead_reads _ watch _ _) (fun _ => rfl) begun

theorem safe_physRead (address : Nat) (begun : m.Begun) :
    SafeInstr config watch (fun _ t => t.Begun) (Instr.physRead address) m :=
  safe_read (.physRead address) (readPhysical_reads _ watch _ _) (fun _ => rfl) begun

theorem safe_setReg (r : GenReg) (value : Word) (begun : m.Begun) :
    SafeInstr config watch (fun _ t => t.Begun) (Instr.setReg r value) m :=
  safe_read (.setReg r value) (.modify fun _ => ⟨rfl, rfl⟩) (fun _ => rfl) begun

/-- The store keeps the word that its exchange saw. -/
theorem safe_write (op : DataOp) (holds : Holds (watchedStep (attached config) watch op))
    (begun : m.Begun) :
    SafeInstr config watch (fun _ t => t.Wrote) (Instr.perform op) m := by
  refine safe_step op ?_ ?_
  · intro t answer u others ran word seen stored
    obtain ⟨done, progress⟩ := perform_ok ran
    have before := others.begun begun
    rw [progressAfter, Tester.tests, if_pos before.1] at progress
    rcases sets : setsWord (attached config) watch t.cpu op with - | target
    · rw [sets] at progress
      rw [progress, before.1] at stored
      exact TsetProgress.noConfusion stored
    · rw [sets] at progress
      have exchanged := (setsWord_exchanged sets).2
      rw [done] at exchanged
      rw [progress] at stored
      obtain ⟨-, seen_⟩ := TsetProgress.stored.inj stored
      rw [← seen_]
      exact exchanged.kept before.2
  · intro t stop u others ran jump
    obtain ⟨done, progress⟩ := perform_error ran
    refine ⟨holds.error done jump, ?_⟩
    intro word seen stored
    rw [progress, (others.begun begun).1] at stored
    exact TsetProgress.noConfusion stored

theorem safe_memWrite (address value : Word) (useApt : Bool) (mode : WriteMode)
    (begun : m.Begun) :
    SafeInstr config watch (fun _ t => t.Wrote) (Instr.memWrite address value useApt mode) m :=
  safe_write (.memWrite address value useApt mode) (cpuMemoryWrite_holds _ watch _ _ _ _) begun

theorem safe_physWrite (address : Nat) (value : Word) (begun : m.Begun) :
    SafeInstr config watch (fun _ t => t.Wrote) (Instr.physWrite address value) m :=
  safe_write (.physWrite address value) (writePhysical_holds _ watch _ _) begun

theorem safe_begin (testing : m.progress = .testing) :
    SafeInstr config watch (fun _ t => t.Begun) Instr.tsetLockBegin m := by
  refine safe_step .tsetLockBegin ?_ ?_
  · intro t answer u others ran
    obtain ⟨done, progress⟩ := perform_ok ran
    rw [progressAfter_same (tests_none fun _ => rfl), others.1] at progress
    refine ⟨progress.trans testing, ?_⟩
    obtain ⟨-, state⟩ := EStateM.Result.ok.inj done
    rw [← state]
    exact Bool.or_true _
  · intro t stop u others ran
    cases (perform_error ran).1

/-- What was taken is the word that the exchange saw. -/
theorem safe_tsetTakeOld (wrote : m.Wrote) :
    SafeInstr config watch (fun old t => ∀ word seen, t.progress = .stored word seen →
      old = some seen) Instr.tsetTakeOld m := by
  refine safe_step .tsetTakeOld ?_ ?_
  · intro t answer u others ran word seen stored
    obtain ⟨done, progress⟩ := perform_ok ran
    rw [progressAfter_same (tests_none fun _ => rfl)] at progress
    obtain ⟨valid, old⟩ := others.wrote wrote word seen (progress.symm.trans stored)
    have taken : mmsTsetTakeOld t.cpu = .ok answer u.cpu := done
    rw [mmsTsetTakeOld, Cpu.bind_ok (Cpu.get_apply _), if_pos valid] at taken
    rw [← (EStateM.Result.ok.inj taken).1, old]
  · intro t stop u others ran jump
    have taken : mmsTsetTakeOld t.cpu = .error stop u.cpu := (perform_error ran).1
    rw [mmsTsetTakeOld, Cpu.bind_ok (Cpu.get_apply _)] at taken
    split_ifs at taken <;> cases taken

theorem safe_takeOld (wrote : m.Wrote) :
    SafeInstr config watch (fun _ t => t.Took) Instr.takeOld m := by
  refine (safe_tsetTakeOld wrote).bind fun old t taken => ?_
  rcases old with - | old
  · intro word seen stored
    exact absurd (taken word seen stored) (Option.some_ne_none seen).symm
  · refine safe_step (.setReg GenReg.a old) ?_ ?_
    · intro s answer u others ran word seen stored
      obtain ⟨done, progress⟩ := perform_ok ran
      rw [progressAfter_same (tests_none fun _ => rfl), others.1] at progress
      obtain ⟨-, state⟩ := EStateM.Result.ok.inj done
      rw [← state, ← Option.some.inj (taken word seen (progress.symm.trans stored))]
      exact s.cpu.getReg_setReg RegNum.a old
    · intro s stop u others ran
      cases (perform_error ran).1

theorem safe_end (took : m.Took) :
    SafeInstr config watch (fun _ t => t.Ended) Instr.tsetLockEnd m := by
  refine safe_step .tsetLockEnd ?_ ?_
  · intro t answer u others ran
    obtain ⟨done, progress⟩ := perform_ok ran
    rw [progressAfter_same (tests_none fun _ => rfl)] at progress
    have before := others.took took
    obtain ⟨-, state⟩ := EStateM.Result.ok.inj done
    refine ⟨congrArg (fun s => s.tset.held) state.symm, ?_⟩
    rw [Took, progress, ← state]
    exact before
  · intro t stop u others ran
    cases (perform_error ran).1

theorem testAndSet_safe {read : Instr Word} {write : Instr Unit}
    (reads : ∀ {m : Tester World}, m.Begun → SafeInstr config watch (fun _ t => t.Begun) read m)
    (writes : ∀ {m : Tester World}, m.Begun → SafeInstr config watch (fun _ t => t.Wrote) write m)
    (testing : m.progress = .testing) :
    SafeInstr config watch (fun _ t => t.Ended) (Instr.testAndSet read write) m := by
  refine (safe_begin testing).bind fun _ t begun => ?_
  refine (reads begun).bind fun value t begun => ?_
  refine (safe_setReg GenReg.a value begun).bind fun _ t begun => ?_
  refine (writes begun).bind fun _ t wrote => ?_
  exact (safe_takeOld wrote).bind fun _ t took => safe_end took

theorem doTset_safe (testing : m.progress = .testing) :
    SafeInstr config watch (fun _ t => t.Ended) Instr.doTset m :=
  testAndSet_safe
    (fun begun => (safe_getReg RegNum.t begun).bind fun address _ begun =>
      safe_memRead address true begun)
    (fun begun => (safe_getReg RegNum.t begun).bind fun address _ begun =>
      safe_memWrite address 0xFFFF true .word begun) testing

theorem safe_checkPriv (ready : m.Ready) :
    SafeInstr config watch (fun _ t => t.Ready) Instr.checkPriv m := by
  refine safe_step .checkPriv ?_ ?_
  · intro t answer u others ran
    obtain ⟨done, progress⟩ := perform_ok ran
    have before := others.ready ready
    rw [progressAfter_same (tests_none fun _ => rfl)] at progress
    exact ⟨progress.trans before.1, (checkPriv_holds.ok done).trans before.2⟩
  · intro t stop u others ran jump
    obtain ⟨done, progress⟩ := perform_error ran
    exact Ready.ended ⟨progress.trans (others.ready ready).1, checkPriv_holds.error done jump⟩

theorem safe_getReg_ready (r : RegNum) (testing : m.progress = .testing) :
    SafeInstr config watch (fun _ t => t.progress = .testing) (Instr.getReg r) m := by
  refine safe_step (.getReg r) ?_ ?_
  · intro t answer u others ran
    obtain ⟨-, progress⟩ := perform_ok ran
    rw [progressAfter_same (tests_none fun _ => rfl), others.1] at progress
    exact progress.trans testing
  · intro t stop u others ran
    cases (perform_error ran).1

/-- A refused instruction has not taken the lock. -/
theorem opcodeTsetp_safe (ready : m.Ready) :
    SafeInstr config watch (fun _ t => t.Ended) Instr.opcodeTsetp m := by
  refine (safe_checkPriv ready).bind fun allowed t ready => ?_
  cases allowed with
  | false => exact ready.ended
  | true =>
    refine (safe_getReg_ready RegNum.t ready.1).bind fun bank u testing => ?_
    refine (safe_getReg_ready RegNum.x testing).bind fun offset v testing => ?_
    exact testAndSet_safe (fun begun => safe_physRead _ begun)
      (fun begun => safe_physWrite _ 0xFFFF begun) testing

end Safe

/- The accesses to a word. -/

/-- Each test-and-set saw the word that the access before it left. -/
def Orderly : Word → List WordEvent → Word → Prop
  | value, [], final => value = final
  | _, .store _ value :: rest, final => Orderly value rest final
  | value, .exchange _ seen :: rest, final => seen = value ∧ Orderly 0xFFFF rest final

theorem orderly_append {value final : Word} {first more : List WordEvent} :
    Orderly value (first ++ more) final ↔
      ∃ middle, Orderly value first middle ∧ Orderly middle more final := by
  induction first generalizing value with
  | nil => exact ⟨fun later => ⟨value, rfl, later⟩, fun ⟨_, same, later⟩ => same ▸ later⟩
  | cons event rest ih =>
    cases event with
    | store owner stored => exact ih
    | exchange owner seen =>
      constructor
      · intro orderly
        obtain ⟨middle, one, two⟩ := ih.mp orderly.2
        exact ⟨middle, ⟨orderly.1, one⟩, two⟩
      · intro ⟨middle, one, two⟩
        exact ⟨one.1, ih.mpr ⟨middle, one.2, two⟩⟩

/-- Of the test-and-sets after a store the first alone sees what was stored. -/
theorem Orderly.competing {value final stored : Word} {before after : List WordEvent}
    {owner : Owner} {first : Owner × Word} {rest : List (Owner × Word)}
    (orderly : Orderly value (before ++ .store owner stored :: .exchange first.1 first.2 ::
      rest.map (fun test => .exchange test.1 test.2) ++ after) final) :
    first.2 = stored ∧ ∀ test ∈ rest, test.2 = 0xFFFF := by
  rw [List.append_assoc, orderly_append] at orderly
  obtain ⟨middle, -, later⟩ := orderly
  refine ⟨later.1, ?_⟩
  have set : ∀ {rest : List (Owner × Word)},
      Orderly 0xFFFF (rest.map (fun test => .exchange test.1 test.2) ++ after) final →
      ∀ test ∈ rest, test.2 = 0xFFFF := by
    intro rest
    induction rest with
    | nil => exact fun _ test member => absurd member List.not_mem_nil
    | cons test rest ih =>
      intro orderly other member
      rcases List.mem_cons.mp member with this_ | later
      · rw [this_]
        exact orderly.1
      · exact ih orderly.2 other later
  exact set later.2

namespace SharedBus

/-- A completed test-and-set reports the word that was there when it stored -1, the accesses to each
word are in order, and the lock is free outside a test-and-set. -/
structure Atomic (initial : Nat → Word) (b : SharedBus World) : Prop where
  free : b.instr = .pure () ∨ b.tester.progress = .ordinary →
    b.tester.cpu.tset.held = false ∧ b.lock ≠ some .nd100
  result : b.instr = .pure () → ∀ word seen, b.tester.progress = .stored word seen →
    b.tester.cpu.getReg RegNum.a = seen ∧ .exchange .nd100 seen ∈ b.log word
  orderly : ∀ word, Orderly (initial word) (b.log word) (b.tester.cpu.window word)
  competing : ∀ word before owner stored (first : Owner × Word) (rest : List (Owner × Word)) after,
    b.log word = before ++ .store owner stored :: .exchange first.1 first.2 ::
      rest.map (fun test => .exchange test.1 test.2) ++ after →
    first.2 = stored ∧ ∀ test ∈ rest, test.2 = 0xFFFF

/-- What holds between the steps. -/
structure Sound (config : Config World) (watch : Watch World) (initial : Nat → Word)
    (b : SharedBus World) : Prop where
  lock : b.lock = some .nd100 ↔ b.tester.cpu.tset.held = true
  running : (b.tester.progress = .ordinary ∧ b.tester.cpu.tset.held = false ∧
      b.instr.All DataOp.Untested) ∨
    (b.tester.progress ≠ .ordinary ∧ SafeInstr config watch (fun _ t => t.Ended) b.instr b.tester)
  logged : ∀ word seen, b.tester.progress = .stored word seen →
    .exchange .nd100 seen ∈ b.log word
  orderly : ∀ word, Orderly (initial word) (b.log word) (b.tester.cpu.window word)

variable {config : Config World} {watch : Watch World} {initial : Nat → Word} {b : SharedBus World}

theorem Sound.atomic (sound : b.Sound config watch initial) : b.Atomic initial where
  free := by
    intro outside
    have free : b.tester.cpu.tset.held = false := by
      rcases sound.running with ⟨-, free, -⟩ | ⟨testing, safe⟩
      · exact free
      · rcases outside with idle | ordinary
        · rw [idle] at safe
          exact safe.1
        · exact absurd ordinary testing
    refine ⟨free, fun held => ?_⟩
    rw [sound.lock, free] at held
    exact Bool.noConfusion held
  result := by
    intro idle word seen stored
    refine ⟨?_, sound.logged word seen stored⟩
    rcases sound.running with ⟨ordinary, -⟩ | ⟨-, safe⟩
    · rw [ordinary] at stored
      exact TsetProgress.noConfusion stored
    · rw [idle] at safe
      exact safe.2 word seen stored
  orderly := sound.orderly
  competing := by
    intro word before owner stored first rest after split_
    have orderly := sound.orderly word
    rw [split_] at orderly
    exact orderly.competing

theorem storeOther_sound (sound : b.Sound config watch initial) (word : Nat) (value : Word)
    (event : WordEvent)
    (orderly : Orderly (b.tester.cpu.window word) [event] value) :
    (b.storeOther word value event).Sound config watch initial := by
  have others : Tester.Others b.tester (b.storeOther word value event).tester := ⟨rfl, _, rfl⟩
  refine ⟨sound.lock, ?_, ?_, ?_⟩
  · rcases sound.running with ordinary | ⟨testing, safe⟩
    · exact .inl ordinary
    · exact .inr ⟨testing, safe.disturb others (fun _ _ _ => Tester.Others.trans)
        fun _ _ _ others ended => others.ended ended⟩
  · intro other seen stored
    have before := sound.logged other seen stored
    change _ ∈ Function.update b.log word (b.log word ++ [event]) other
    by_cases this_ : other = word
    · rw [this_, Function.update_self]
      exact List.mem_append_left _ (this_ ▸ before)
    · rw [Function.update_of_ne this_]
      exact before
  · intro other
    change Orderly (initial other) (Function.update b.log word (b.log word ++ [event]) other)
      (Function.update b.tester.cpu.window word value other)
    by_cases this_ : other = word
    · rw [this_, Function.update_self, Function.update_self]
      exact orderly_append.mpr ⟨_, sound.orderly word, orderly⟩
    · rw [Function.update_of_ne this_, Function.update_of_ne this_]
      exact sound.orderly other

/-- Only an idle machine takes up an instruction. -/
theorem issue_sound (sound : b.Sound config watch initial) {progress : TsetProgress}
    {instr : Instr Unit} (fresh : ∀ word seen, progress ≠ .stored word seen)
    (runs : b.tester.cpu.tset.held = false →
      (progress = .ordinary ∧ instr.All DataOp.Untested) ∨
      (progress ≠ .ordinary ∧
        SafeInstr config watch (fun _ t => t.Ended) instr { b.tester with progress := progress })) :
    (b.issue progress instr).Sound config watch initial := by
  cases running : b.instr with
  | pure value =>
    have free := (sound.atomic.free (.inl running)).1
    rw [issue, running]
    refine ⟨sound.lock, ?_, fun word seen stored => absurd stored (fresh word seen),
      sound.orderly⟩
    rcases runs free with ⟨ordinary, untested⟩ | testing
    · exact .inl ⟨ordinary, free, untested⟩
    · exact .inr testing
  | step op next =>
    rw [issue, running]
    exact sound

/-- The lock is the instruction's exactly while its flag is set. -/
theorem lockAfter_iff (b : SharedBus World) (t : CpuState World) :
    b.lockAfter t = some .nd100 ↔ t.tset.held = true := by
  by_cases held : t.tset.held = true
  · rw [lockAfter, if_pos held]
    exact iff_of_true rfl held
  · rw [lockAfter, if_neg held]
    refine iff_of_false ?_ held
    by_cases own : b.lock = some .nd100
    · rw [if_pos own]
      exact (Option.some_ne_none _).symm
    · rw [if_neg own]
      exact own

/-- Each operation is recorded at the words that it changed. -/
theorem accesses_orderly {m : Tester World} {op : DataOp} {t : CpuState World}
    (sets : ∀ word, m.tests config watch op = some word → t.window word = 0xFFFF) (word : Nat) :
    Orderly (m.cpu.window word) (m.accesses config watch op t word) (t.window word) := by
  rw [Tester.accesses]
  split_ifs with tests same
  · exact ⟨rfl, (sets word tests).symm⟩
  · exact same.symm
  · rfl

theorem after_sound (sound : b.Sound config watch initial) {op : DataOp} {t : Tester World}
    {rest : Instr Unit}
    (sets : ∀ word, b.tester.tests (attached config) watch op = some word →
      t.cpu.window word = 0xFFFF)
    (progress : t.progress = b.tester.progressAfter (attached config) watch op ∨
      t.progress = b.tester.progress)
    (runs : (t.progress = .ordinary ∧ t.cpu.tset.held = false ∧ rest.All DataOp.Untested) ∨
      (t.progress ≠ .ordinary ∧ SafeInstr config watch (fun _ t => t.Ended) rest t)) :
    (b.after (attached config) watch op t rest).Sound config watch initial where
  lock := b.lockAfter_iff t.cpu
  running := runs
  logged := by
    intro word seen stored
    have before : b.tester.progress = .stored word seen →
        WordEvent.exchange .nd100 seen ∈ (b.after (attached config) watch op t rest).log word :=
      fun here => List.mem_append_left _ (sound.logged word seen here)
    rcases progress with progress | progress
    · rw [Tester.progressAfter] at progress
      rcases tests : b.tester.tests (attached config) watch op with - | target
      · rw [tests] at progress
        exact before (progress.symm.trans stored)
      · rw [tests] at progress
        obtain ⟨rfl, rfl⟩ := TsetProgress.stored.inj (progress.symm.trans stored)
        refine List.mem_append_right _ ?_
        rw [Tester.accesses, if_pos tests]
        exact List.mem_singleton_self _
    · exact before (progress.symm.trans stored)
  orderly := fun word =>
    orderly_append.mpr ⟨_, sound.orderly word, accesses_orderly sets word⟩

/-- The operation of an instruction that returned. -/
theorem perform_sets {m t : Tester World} {op : DataOp} {answer : op.Answer}
    (ran : m.perform (attached config) watch op = .ok answer t) (word : Nat)
    (tests : m.tests (attached config) watch op = some word) : t.cpu.window word = 0xFFFF := by
  rw [Tester.tests] at tests
  split_ifs at tests
  have exchanged := (setsWord_exchanged tests).2
  rw [(Tester.perform_ok ran).1] at exchanged
  exact exchanged.set

/-- An operation that was left by a jump stored nothing. -/
theorem perform_unset {m t : Tester World} {op : DataOp} {stop : Stop}
    (ran : m.perform (attached config) watch op = .error stop t) :
    m.tests (attached config) watch op = none := by
  rcases tests : m.tests (attached config) watch op with - | word
  · rfl
  · rw [Tester.tests] at tests
    split_ifs at tests
    have done := (setsWord_exchanged tests).1
    rw [(Tester.perform_error ran).1] at done
    exact absurd done Bool.false_ne_true

theorem progressAfter_ordinary (m : Tester World) (op : DataOp) :
    m.progressAfter config watch op = .ordinary ↔ m.progress = .ordinary := by
  rw [Tester.progressAfter]
  rcases tests : m.tests config watch op with - | word
  · rfl
  · refine iff_of_false (fun same => TsetProgress.noConfusion same) fun ordinary => ?_
    rw [Tester.tests, ordinary] at tests
    exact absurd tests (Option.some_ne_none word).symm

theorem step_ok (sound : b.Sound config watch initial) {op : DataOp}
    {next : op.Answer → Instr Unit} (running : b.instr = .step op next) {answer : op.Answer}
    {t : Tester World}
    (ran : b.tester.perform (attached config) watch op = .ok answer t) :
    (b.after (attached config) watch op t (next answer)).Sound config watch initial := by
  obtain ⟨done, progress⟩ := Tester.perform_ok ran
  refine after_sound sound (perform_sets ran) (.inl progress) ?_
  rcases sound.running with ⟨ordinary, free, untested⟩ | ⟨testing, safe⟩
  · rw [running] at untested
    have ends := (watchedStep_holds (attached config) watch untested.1).ok done
    exact .inl ⟨progress.trans ((progressAfter_ordinary _ _).mpr ordinary), ends.trans free,
      untested.2 answer⟩
  · rw [running] at safe
    refine .inr ⟨fun ordinary => testing ?_, safe.ok (Tester.Others.refl _) ran⟩
    exact (progressAfter_ordinary _ _).mp (progress.symm.trans ordinary)

theorem step_jump (sound : b.Sound config watch initial) {op : DataOp}
    {next : op.Answer → Instr Unit} (running : b.instr = .step op next) {t : Tester World}
    (ran : b.tester.perform (attached config) watch op = .error .longjmp t) :
    (b.after (attached config) watch op t (.pure ())).Sound config watch initial := by
  obtain ⟨done, progress⟩ := Tester.perform_error ran
  refine after_sound sound (fun word tests => ?_) (.inr progress) ?_
  · exact absurd ((perform_unset ran).symm.trans tests) (Option.some_ne_none word).symm
  · rcases sound.running with ⟨ordinary, -, untested⟩ | ⟨testing, safe⟩
    · rw [running] at untested
      have ends := (watchedStep_holds (attached config) watch untested.1).error done rfl
      exact .inl ⟨progress.trans ordinary, ends, trivial⟩
    · rw [running] at safe
      exact .inr ⟨fun ordinary => testing (progress.symm.trans ordinary),
        safe.error (Tester.Others.refl _) ran rfl⟩

theorem advance_sound (sound : b.Sound config watch initial) :
    (b.advance (attached config) watch).Sound config watch initial := by
  rw [advance]
  cases running : b.instr with
  | pure value => exact sound
  | step op next =>
    dsimp only
    split_ifs
    · exact sound
    · split
      · next ran => exact step_ok sound running ran
      · next ran => exact step_jump sound running ran
      · exact sound

theorem step_sound (sound : b.Sound config watch initial) (event : BusEvent) :
    (b.step config watch event).Sound config watch initial := by
  cases event with
  | tset =>
    refine issue_sound sound (fun _ _ same => TsetProgress.noConfusion same) fun _ => .inr ?_
    exact ⟨fun same => TsetProgress.noConfusion same, doTset_safe rfl⟩
  | tsetp =>
    refine issue_sound sound (fun _ _ same => TsetProgress.noConfusion same) fun free => .inr ?_
    exact ⟨fun same => TsetProgress.noConfusion same, opcodeTsetp_safe ⟨rfl, free⟩⟩
  | ordinary instr untested =>
    exact issue_sound sound (fun _ _ same => TsetProgress.noConfusion same) fun _ =>
      .inl ⟨rfl, untested⟩
  | nd100 => exact advance_sound sound
  | takeLock cpu =>
    rw [step]
    split_ifs with free
    · refine ⟨?_, sound.running, sound.logged, sound.orderly⟩
      rw [← sound.lock, free]
      exact iff_of_false (fun same => Owner.noConfusion (Option.some.inj same))
        (Option.some_ne_none _).symm
    · exact sound
  | giveLock cpu =>
    rw [step]
    split_ifs with own
    · refine ⟨?_, sound.running, sound.logged, sound.orderly⟩
      rw [← sound.lock, own]
      exact iff_of_false (Option.some_ne_none _).symm fun same =>
        Owner.noConfusion (Option.some.inj same)
    · exact sound
  | exchange cpu word =>
    rw [step]
    split_ifs
    · exact storeOther_sound sound word 0xFFFF _ ⟨rfl, rfl⟩
    · exact sound
  | store cpu word value => exact storeOther_sound sound word value _ rfl

theorem start_sound (s : CpuState World) (free : s.tset.held = false) :
    (start s).Sound config watch s.window where
  lock := iff_of_false (Option.some_ne_none _).symm fun held => by
    rw [show (start s).tester.cpu.tset.held = false from free] at held
    exact Bool.noConfusion held
  running := .inl ⟨rfl, free, trivial⟩
  logged := fun _ _ stored => TsetProgress.noConfusion stored
  orderly := fun _ => rfl

/-- The bare machine with a shared bank, whose first word T and X name. -/
def sharedMachine : CpuState Unit :=
  ((((cpuInit bareMachine ()).putBanks [⟨0x210000, 0x1000, .mpm5, true, true, true⟩]).setReg
    RegNum.t 0x21).setReg RegNum.x 0)

end SharedBus

end Nd100x
