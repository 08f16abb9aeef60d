import Nd100x.Ethernet.Lance
import Nd100x.Library.Runs

namespace Nd100x.Ethernet

open Nd100x.Library Am7990Lance

/-- What happens to the chip and to the 68000 beside it. The levels of other devices leave level 2
alone. -/
inductive LanceEvent where
  | write (address : BitVec 32) (value : Byte)
  | enqueue (data : List Byte)
  | receive (frame : List Byte)
  | transmitPoll
  | clock
  | memoryError
  | stop
  | reset
  | cpuTick (cpuHalted : Bool)
  | cpuMask (mask : Nat)
  | enableInterrupts (enabled : Bool)
  | request (level : { level : Nat // level ≠ 2 }) (active : Bool)

namespace LanceBoard

/-- A new chip on its board. -/
def create (startAddress : BitVec 32) (swapByteLanes : Bool) (dram : Nat → Byte) (cpuMask : Nat) :
    LanceBoard where
  lance := cleared startAddress swapByteLanes
  dram := dram
  irq := EthIrq.cleared
  cpuMask := cpuMask
  reported := false
  accesses := []
  stores := []
  transmitted := []

/-- The 68000 takes a request and acknowledges it. -/
def cpuTick (m : LanceBoard) (cpuHalted : Bool) : LanceBoard :=
  let taken := m.irq.take m.cpuMask cpuHalted
  let m := { m with irq := taken.1 }
  if taken.2 = 0 then m
  else
    let m := { m with cpuMask := taken.2 }
    if taken.2 = 2 then m.handleLanceInterruptAck else m

def step (m : LanceBoard) : LanceEvent → LanceBoard
  | .write address value => m.write address value
  | .enqueue data => m.enqueueReceivedPacket data
  | .receive frame => m.receiveQueued frame
  | .transmitPoll => m.transmitPoll
  | .clock => m.clock
  | .memoryError => m.setMemoryError
  | .stop => m.executeStop
  | .reset => m.reset
  | .cpuTick cpuHalted => m.cpuTick cpuHalted
  | .cpuMask mask => { m with cpuMask := mask }
  | .enableInterrupts enabled => { m with irq := m.irq.enable enabled }
  | .request level active => { m with irq := m.irq.set level active m.cpuMask }

/-- The flags that ask for an interrupt, each with its mask. -/
def interruptFlags : List (Word × Word) :=
  [(Csr0.rint, Csr3.rintm), (Csr0.tint, Csr3.tintm), (Csr0.idon, Csr3.idonm),
    (Csr0.merr, Csr3.merrm), (Csr0.babl, Csr3.bablm), (Csr0.cerr, Csr3.cerrm),
    (Csr0.miss, Csr3.missm)]

/-- The error bit sums up the errors. -/
def ErrAgrees (m : LanceBoard) : Prop :=
  anyFlag m.lance.csr0 Csr0.err = true ↔
    ∃ flag ∈ [Csr0.babl, Csr0.cerr, Csr0.miss, Csr0.merr], anyFlag m.lance.csr0 flag = true

/-- The line is high exactly when an interrupt is enabled and not masked, and the 68000 is asked
whenever it is high. -/
structure LineAgrees (m : LanceBoard) : Prop where
  line : m.lance.irqAsserted = true ↔ anyFlag m.lance.csr0 Csr0.inea = true ∧
    ∃ flags ∈ interruptFlags,
      anyFlag m.lance.csr0 flags.1 = true ∧ anyFlag m.lance.csr3 flags.2 = false
  reported : m.reported = m.lance.irqAsserted
  active : m.lance.isInterruptActive = m.lance.irqAsserted
  requested : m.lance.irqAsserted = true → m.irq.pendingMask.getLsbD 2 = true

/-- The accesses to the memory that a step makes lie inside it. A step with the error bit set
cannot spoil it. -/
def StaysInside (m : LanceBoard) : LanceEvent → Prop
  | .memoryError => anyFlag m.lance.csr0 Csr0.err = true
  | .receive frame => anyFlag m.lance.csr0 Csr0.err = true ∨
      ∀ address ∈ (m.receiveQueued frame).accesses.drop m.accesses.length,
        dmaInside address = true
  | .transmitPoll => anyFlag m.lance.csr0 Csr0.err = true ∨
      ∀ address ∈ m.transmitPoll.accesses.drop m.accesses.length, dmaInside address = true
  | .clock => anyFlag m.lance.csr0 Csr0.err = true ∨
      ∀ address ∈ m.clock.accesses.drop m.accesses.length, dmaInside address = true
  | _ => True

end LanceBoard

/- Flags. -/

theorem anyFlag_or (word other flags : Word) :
    anyFlag (word ||| other) flags = (anyFlag word flags || anyFlag other flags) := by
  have joined : (word ||| other) &&& flags = (word &&& flags) ||| (other &&& flags) :=
    BitVec.and_or_distrib_right
  have zero : (word ||| other) &&& flags = 0 ↔ word &&& flags = 0 ∧ other &&& flags = 0 := by
    rw [joined]
    exact BitVec.or_eq_zero_iff
  rw [anyFlag, anyFlag, anyFlag, Bool.eq_iff_iff, Bool.or_eq_true, decide_eq_true_eq,
    decide_eq_true_eq, decide_eq_true_eq, Ne, zero, not_and_or]

theorem and_not_and {word dropped flags : Word} (apart : dropped &&& flags = 0) :
    word &&& ~~~dropped &&& flags = word &&& flags := by
  refine BitVec.eq_of_getLsbD_eq fun i inside => ?_
  have off := congrArg (BitVec.getLsbD · i) apart
  simp only [BitVec.getLsbD_and, BitVec.getLsbD_not, inside, decide_true, Bool.true_and] at off ⊢
  cases bit : flags.getLsbD i with
  | false => rw [Bool.and_false, Bool.and_false]
  | true =>
    rw [bit, Bool.and_true] at off
    rw [off.trans BitVec.getLsbD_zero, Bool.not_false, Bool.and_true]

theorem anyFlag_drop {word dropped flags : Word} (apart : dropped &&& flags = 0) :
    anyFlag (word &&& ~~~dropped) flags = anyFlag word flags := by
  rw [anyFlag, anyFlag, and_not_and apart]

theorem or_and_of_apart {word other flags : Word} (apart : other &&& flags = 0) :
    (word ||| other) &&& flags = word &&& flags := by
  rw [BitVec.and_or_distrib_right, apart]
  exact BitVec.or_zero

/-- Words that agree on some flags agree on fewer. -/
theorem and_eq_of_agree {word other flags fewer : Word} (agree : word &&& flags = other &&& flags)
    (inside : fewer &&& flags = fewer) : word &&& fewer = other &&& fewer := by
  have both (w : Word) : w &&& fewer = w &&& flags &&& fewer := by
    rw [BitVec.and_assoc, BitVec.and_comm flags, inside]
  rw [both word, both other, agree]

theorem anyFlag_of_agree {word other flags flag : Word} (agree : word &&& flags = other &&& flags)
    (inside : flag &&& flags = flag) : anyFlag word flag = anyFlag other flag := by
  rw [anyFlag, anyFlag, and_eq_of_agree agree inside]

/-- The flags that ask for an interrupt, with their enable bit. -/
def askFlags : Word :=
  Csr0.inea ||| Csr0.rint ||| Csr0.tint ||| Csr0.idon ||| Csr0.merr ||| Csr0.babl ||| Csr0.cerr |||
    Csr0.miss

def lineFlags : Word := askFlags ||| Csr0.intr

theorem shouldInterrupt_of_agree {csr0 other csr3 : Word}
    (agree : csr0 &&& askFlags = other &&& askFlags) :
    shouldInterrupt csr0 csr3 = shouldInterrupt other csr3 := by
  have same {flag : Word} (inside : flag &&& askFlags = flag) := anyFlag_of_agree agree inside
  rw [shouldInterrupt, shouldInterrupt, @same Csr0.inea (by decide), @same Csr0.rint (by decide),
    @same Csr0.tint (by decide), @same Csr0.idon (by decide), @same Csr0.merr (by decide),
    @same Csr0.babl (by decide), @same Csr0.cerr (by decide), @same Csr0.miss (by decide)]

theorem shouldInterrupt_iff {csr0 csr3 : Word} :
    shouldInterrupt csr0 csr3 = true ↔ anyFlag csr0 Csr0.inea = true ∧
      ∃ flags ∈ LanceBoard.interruptFlags,
        anyFlag csr0 flags.1 = true ∧ anyFlag csr3 flags.2 = false := by
  simp only [shouldInterrupt, LanceBoard.interruptFlags, List.exists_mem_cons_iff, List.not_mem_nil,
    Bool.and_eq_true, Bool.or_eq_true, Bool.not_eq_true', or_assoc, false_and, exists_false,
    or_false]

theorem shouldInterrupt_enabled {csr0 csr3 : Word} (should : shouldInterrupt csr0 csr3 = true) :
    anyFlag csr0 Csr0.inea = true :=
  (shouldInterrupt_iff.mp should).1

namespace LanceBoard

variable {m t u : LanceBoard}

/-- The chip compares its own flags with the line. -/
structure Settled (m : LanceBoard) : Prop where
  summary : anyFlag m.lance.csr0 Csr0.intr = shouldInterrupt m.lance.csr0 m.lance.csr3
  line : m.lance.irqAsserted = shouldInterrupt m.lance.csr0 m.lance.csr3

/-- The line is reported, and a high line asks the 68000. -/
structure Tracks (m : LanceBoard) : Prop where
  reported : m.reported = m.lance.irqAsserted
  requested : m.lance.irqAsserted = true → m.irq.pendingMask.getLsbD 2 = true

/-- The errors with their summary. -/
def errFlags : Word := Csr0.err ||| csr0ErrorFlags

/-- The summary of the errors agrees with them. -/
def ErrSummed (m : LanceBoard) : Prop :=
  anyFlag m.lance.csr0 Csr0.err = anyFlag m.lance.csr0 csr0ErrorFlags

/-- No error is dropped, and one that is not summed up comes from an access outside the memory. -/
structure Goes (m t : LanceBoard) : Prop where
  accesses : ∃ made, t.accesses = m.accesses ++ made ∧
    ((∀ address ∈ made, dmaInside address = true) → m.ErrSummed → t.ErrSummed)
  raised : anyFlag m.lance.csr0 Csr0.err = true → anyFlag t.lance.csr0 Csr0.err = true
  failed : anyFlag m.lance.csr0 csr0ErrorFlags = true →
    anyFlag t.lance.csr0 csr0ErrorFlags = true
  tracks : m.Tracks → t.Tracks

/-- A step keeps the line settled as well. -/
structure Steady (m t : LanceBoard) : Prop extends Goes m t where
  settled : m.Settled → t.Settled

/-- The fields that the line and the errors depend on. -/
structure SameLine (m t : LanceBoard) : Prop where
  csr0 : t.lance.csr0 = m.lance.csr0
  csr3 : t.lance.csr3 = m.lance.csr3
  irqAsserted : t.lance.irqAsserted = m.lance.irqAsserted
  irq : t.irq = m.irq
  reported : t.reported = m.reported
  accesses : t.accesses = m.accesses

theorem Tracks.changed (tracks : m.Tracks) (irqAsserted : t.lance.irqAsserted = m.lance.irqAsserted)
    (irq : t.irq = m.irq) (reported : t.reported = m.reported) : t.Tracks where
  reported := reported.trans (tracks.reported.trans irqAsserted.symm)
  requested := by
    rw [irqAsserted, irq]
    exact tracks.requested

theorem SameLine.steady (same : SameLine m t) : Steady m t where
  accesses := by
    refine ⟨[], same.accesses.trans (List.append_nil _).symm, fun _ summed => ?_⟩
    rw [ErrSummed, same.csr0]
    exact summed
  raised := by
    rw [same.csr0]
    exact id
  failed := by
    rw [same.csr0]
    exact id
  tracks := fun tracks => tracks.changed same.irqAsserted same.irq same.reported
  settled := by
    rintro ⟨summary, line⟩
    rw [← same.csr0, ← same.csr3] at summary line
    exact ⟨summary, same.irqAsserted.trans line⟩

theorem SameLine.refl (m : LanceBoard) : SameLine m m := ⟨rfl, rfl, rfl, rfl, rfl, rfl⟩

theorem Steady.refl (m : LanceBoard) : Steady m m := (SameLine.refl m).steady

theorem Goes.trans (first : Goes m t) (second : Goes t u) : Goes m u where
  accesses := by
    obtain ⟨made, before, summed⟩ := first.accesses
    obtain ⟨later, after, kept⟩ := second.accesses
    refine ⟨made ++ later, by rw [after, before, List.append_assoc], fun inside start => ?_⟩
    exact kept (fun address member => inside address (List.mem_append_right _ member))
      (summed (fun address member => inside address (List.mem_append_left _ member)) start)
  raised := second.raised ∘ first.raised
  failed := second.failed ∘ first.failed
  tracks := second.tracks ∘ first.tracks

theorem Steady.trans (first : Steady m t) (second : Steady t u) : Steady m u where
  toGoes := first.toGoes.trans second.toGoes
  settled := second.settled ∘ first.settled

/-- A step that ends in a check settles the line. -/
theorem Goes.steady (goes : Goes m t) (settled : t.Settled) : Steady m t where
  toGoes := goes
  settled := fun _ => settled

/-- What a step with accesses inside the memory does to the errors. -/
theorem Goes.errSummed (goes : Goes m t) (summed : m.ErrSummed)
    (inside : anyFlag m.lance.csr0 Csr0.err = true ∨
      ∀ address ∈ t.accesses.drop m.accesses.length, dmaInside address = true) :
    t.ErrSummed := by
  obtain ⟨made, after, kept⟩ := goes.accesses
  rcases inside with raised | inside
  · rw [ErrSummed, goes.raised raised, goes.failed (summed.symm.trans raised)]
  · rw [after, List.drop_left] at inside
    exact kept inside summed

theorem Goes.idle (goes : Goes m t) (summed : m.ErrSummed) (idle : t.accesses = m.accesses) :
    t.ErrSummed := by
  refine goes.errSummed summed (.inr fun address member => ?_)
  rw [idle, List.drop_length] at member
  exact absurd member List.not_mem_nil

/- Changes of the status register. -/

theorem orCsr0_goes (m : LanceBoard) {flags : Word}
    (whole : anyFlag flags Csr0.err = anyFlag flags csr0ErrorFlags) : Goes m (m.orCsr0 flags) where
  accesses := by
    refine ⟨[], (List.append_nil _).symm, fun _ summed => ?_⟩
    change anyFlag (m.lance.csr0 ||| flags) _ = anyFlag (m.lance.csr0 ||| flags) _
    rw [anyFlag_or, anyFlag_or, summed, whole]
  raised := fun raised => by
    change anyFlag (m.lance.csr0 ||| flags) _ = true
    rw [anyFlag_or, raised, Bool.true_or]
  failed := fun failed => by
    change anyFlag (m.lance.csr0 ||| flags) _ = true
    rw [anyFlag_or, failed, Bool.true_or]
  tracks := fun tracks => tracks.changed rfl rfl rfl

theorem orCsr0_steady (m : LanceBoard) {flags : Word} (apart : flags &&& errFlags = 0)
    (below : flags &&& lineFlags = 0) : Steady m (m.orCsr0 flags) where
  toGoes := by
    have none_ {flag : Word} (inside : flag &&& errFlags = flag) :
        anyFlag flags flag = anyFlag 0 flag :=
      anyFlag_of_agree (apart.trans BitVec.zero_and.symm) inside
    exact orCsr0_goes m
      ((@none_ Csr0.err (by decide)).trans (@none_ csr0ErrorFlags (by decide)).symm)
  settled := by
    rintro ⟨summary, line⟩
    have agree := @or_and_of_apart m.lance.csr0 _ _ below
    have should := @shouldInterrupt_of_agree _ _ m.lance.csr3 (and_eq_of_agree agree (by decide))
    exact ⟨(anyFlag_of_agree agree (by decide)).trans (summary.trans should.symm),
      line.trans should.symm⟩

theorem dropCsr0_goes (m : LanceBoard) {flags : Word}
    (apart : flags &&& errFlags = 0) : Goes m (m.dropCsr0 flags) := by
  have kept {flag : Word} (inside : flag &&& errFlags = flag) :
      anyFlag (m.lance.csr0 &&& ~~~flags) flag = anyFlag m.lance.csr0 flag :=
    anyFlag_of_agree (and_not_and apart) inside
  have err := @kept Csr0.err (by decide)
  have errors := @kept csr0ErrorFlags (by decide)
  exact ⟨⟨[], (List.append_nil _).symm, fun _ summed => err.trans (summed.trans errors.symm)⟩,
    err.trans, errors.trans, fun tracks => tracks.changed rfl rfl rfl⟩

theorem dropCsr0_steady (m : LanceBoard) {flags : Word}
    (apart : flags &&& errFlags = 0) (below : flags &&& lineFlags = 0) :
    Steady m (m.dropCsr0 flags) where
  toGoes := dropCsr0_goes m apart
  settled := by
    rintro ⟨summary, line⟩
    have agree := @and_not_and m.lance.csr0 _ _ below
    have should := @shouldInterrupt_of_agree _ _ m.lance.csr3 (and_eq_of_agree agree (by decide))
    exact ⟨(anyFlag_of_agree agree (by decide)).trans (summary.trans should.symm),
      line.trans should.symm⟩

/- The check of the interrupts. -/

theorem set_requests (irq : EthIrq) (cpuMask : Nat) :
    (irq.set 2 true cpuMask).pendingMask.getLsbD 2 = true := by
  change (irq.pendingMask ||| EthIrq.levelBit 2).getLsbD 2 = true
  rw [BitVec.getLsbD_or]
  exact Bool.or_true _

/-- A report of a line that differs from the last one. -/
theorem onLanceIrq_tracks (reports : m.lance.isInterruptActive = m.lance.irqAsserted) :
    m.onLanceIrq.Tracks where
  reported := reports
  requested := fun high => by
    have active : m.lance.isInterruptActive = true := reports.trans high
    change (m.irq.set 2 m.lance.isInterruptActive m.cpuMask).pendingMask.getLsbD 2 = true
    rw [active]
    exact set_requests m.irq m.cpuMask

/-- The summary bit is computed again. -/
def putSummary (m : LanceBoard) (should : Bool) : LanceBoard :=
  if should then m.orCsr0 Csr0.intr else m.dropCsr0 Csr0.intr

theorem putSummary_goes (m : LanceBoard) (should : Bool) : Goes m (m.putSummary should) := by
  cases should with
  | true => exact orCsr0_goes m (by decide)
  | false => exact dropCsr0_goes m (by decide)

theorem putSummary_asks (m : LanceBoard) (should : Bool) :
    (m.putSummary should).lance.csr0 &&& askFlags = m.lance.csr0 &&& askFlags := by
  cases should with
  | true => exact or_and_of_apart (by decide)
  | false => exact and_not_and (by decide)

theorem putSummary_intr (m : LanceBoard) (should : Bool) :
    anyFlag (m.putSummary should).lance.csr0 Csr0.intr = should := by
  cases should with
  | true =>
    change anyFlag (m.lance.csr0 ||| Csr0.intr) _ = true
    rw [anyFlag_or]
    exact Bool.or_true _
  | false =>
    change anyFlag (m.lance.csr0 &&& ~~~Csr0.intr) _ = false
    rw [anyFlag, BitVec.and_assoc]
    exact decide_eq_false (not_not.mpr BitVec.and_zero)

theorem putSummary_kept (m : LanceBoard) (should : Bool) :
    (m.putSummary should).lance.irqAsserted = m.lance.irqAsserted ∧
      (m.putSummary should).lance.csr3 = m.lance.csr3 := by
  cases should with
  | true => exact ⟨rfl, rfl⟩
  | false => exact ⟨rfl, rfl⟩

theorem checkInterrupts_eq (m : LanceBoard) :
    m.checkInterrupts =
      if shouldInterrupt m.lance.csr0 m.lance.csr3 ≠ m.lance.irqAsserted then
        ((m.putSummary (shouldInterrupt m.lance.csr0 m.lance.csr3)).putAsserted
          (shouldInterrupt m.lance.csr0 m.lance.csr3)).onLanceIrq
      else m.putSummary (shouldInterrupt m.lance.csr0 m.lance.csr3) := by
  rw [← (putSummary_kept m (shouldInterrupt m.lance.csr0 m.lance.csr3)).1]
  rfl

/-- The line is settled after a check whatever it was before. -/
theorem checkInterrupts_settled (m : LanceBoard) : m.checkInterrupts.Settled := by
  rw [checkInterrupts_eq]
  have kept := putSummary_kept m (shouldInterrupt m.lance.csr0 m.lance.csr3)
  have summary := putSummary_intr m (shouldInterrupt m.lance.csr0 m.lance.csr3)
  have asks := putSummary_asks m (shouldInterrupt m.lance.csr0 m.lance.csr3)
  generalize made : m.putSummary (shouldInterrupt m.lance.csr0 m.lance.csr3) = n
  rw [made] at kept summary asks
  have should : shouldInterrupt n.lance.csr0 n.lance.csr3 =
      shouldInterrupt m.lance.csr0 m.lance.csr3 := by
    rw [kept.2]
    exact shouldInterrupt_of_agree asks
  by_cases moved : shouldInterrupt m.lance.csr0 m.lance.csr3 = m.lance.irqAsserted
  · rw [if_neg (not_not.mpr moved)]
    exact ⟨summary.trans should.symm, kept.1.trans (moved.symm.trans should.symm)⟩
  · rw [if_pos moved]
    exact ⟨summary.trans should.symm, should.symm⟩

theorem checkInterrupts_goes (m : LanceBoard) : Goes m m.checkInterrupts := by
  rw [checkInterrupts_eq]
  have goes := putSummary_goes m (shouldInterrupt m.lance.csr0 m.lance.csr3)
  have summary := putSummary_intr m (shouldInterrupt m.lance.csr0 m.lance.csr3)
  have asks := putSummary_asks m (shouldInterrupt m.lance.csr0 m.lance.csr3)
  generalize made : m.putSummary (shouldInterrupt m.lance.csr0 m.lance.csr3) = n
  rw [made] at goes summary asks
  by_cases moved : shouldInterrupt m.lance.csr0 m.lance.csr3 = m.lance.irqAsserted
  · rw [if_neg (not_not.mpr moved)]
    exact goes
  · rw [if_pos moved]
    have enabled : anyFlag n.lance.csr0 Csr0.inea = anyFlag m.lance.csr0 Csr0.inea :=
      anyFlag_of_agree asks (by decide)
    have reports : (anyFlag n.lance.csr0 Csr0.intr && anyFlag n.lance.csr0 Csr0.inea) =
        shouldInterrupt m.lance.csr0 m.lance.csr3 := by
      rw [summary, enabled]
      cases should : shouldInterrupt m.lance.csr0 m.lance.csr3 with
      | true => rw [shouldInterrupt_enabled should, Bool.and_self]
      | false => rw [Bool.false_and]
    exact ⟨goes.accesses, goes.raised, goes.failed, fun _ => onLanceIrq_tracks reports⟩

/- The memory. -/

theorem setMemoryError_goes (m : LanceBoard) {address : BitVec 32}
    (outside : dmaInside address = false) : Goes m (m.noteAccess address).setMemoryError := by
  have goes := checkInterrupts_goes ((m.noteAccess address).orCsr0 Csr0.merr)
  obtain ⟨made, after, -⟩ := goes.accesses
  refine ⟨⟨address :: made, ?_, fun inside => ?_⟩, fun raised => goes.raised ?_,
    fun failed => goes.failed ?_, fun tracks => goes.tracks (tracks.changed rfl rfl rfl)⟩
  · rw [setMemoryError, after]
    exact List.append_assoc _ _ _
  · exact absurd (outside.symm.trans (inside address List.mem_cons_self)) Bool.false_ne_true
  · change anyFlag (m.lance.csr0 ||| Csr0.merr) _ = true
    rw [anyFlag_or, raised, Bool.true_or]
  · change anyFlag (m.lance.csr0 ||| Csr0.merr) _ = true
    rw [anyFlag_or, failed, Bool.true_or]

theorem setMemoryError_steady (m : LanceBoard) {address : BitVec 32}
    (outside : dmaInside address = false) : Steady m (m.noteAccess address).setMemoryError :=
  (setMemoryError_goes m outside).steady (checkInterrupts_settled _)

/-- An access inside the memory. -/
theorem noteAccess_steady (m : LanceBoard) (address : BitVec 32) (dram : Nat → Byte)
    (stores : List (Nat × Word)) :
    Steady m { m.noteAccess address with dram := dram, stores := stores } where
  accesses := ⟨[address], rfl, fun _ => id⟩
  raised := id
  failed := id
  tracks := fun tracks => tracks.changed rfl rfl rfl
  settled := fun settled => ⟨settled.summary, settled.line⟩

theorem dmaIn_steady (m : LanceBoard) (address : BitVec 32) : Steady m (m.dmaIn address).1 := by
  simp only [dmaIn]
  split_ifs with inside
  · exact noteAccess_steady m address m.dram m.stores
  · exact setMemoryError_steady m (Bool.eq_false_of_not_eq_true inside)

theorem dmaOut_steady (m : LanceBoard) (address : BitVec 32) (data : Word) :
    Steady m (m.dmaOut address data) := by
  simp only [dmaOut]
  split_ifs with inside
  · exact noteAccess_steady m address _ _
  · exact setMemoryError_steady m (Bool.eq_false_of_not_eq_true inside)

/-- A change of the chip beside its status. -/
theorem onLance_steady (m : LanceBoard) (change : Am7990Lance → Am7990Lance)
    (csr0 : (change m.lance).csr0 = m.lance.csr0) (csr3 : (change m.lance).csr3 = m.lance.csr3)
    (irqAsserted : (change m.lance).irqAsserted = m.lance.irqAsserted) :
    Steady m (m.onLance change) :=
  SameLine.steady ⟨csr0, csr3, irqAsserted, rfl, rfl, rfl⟩

theorem putPacket_steady (m : LanceBoard) (pos : Nat) (byte : Byte) :
    Steady m (m.putPacket pos byte) := by
  rw [putPacket]
  split_ifs
  · exact onLance_steady m _ rfl rfl rfl
  · exact .refl m

theorem readPair_steady (m : LanceBoard) (address : BitVec 32) (pos : Nat) :
    Steady m (m.readPair address pos) := by
  simp only [readPair]
  split_ifs
  · exact ((dmaIn_steady m address).trans (putPacket_steady _ _ _)).trans (putPacket_steady _ _ _)
  · exact ((dmaIn_steady m address).trans (putPacket_steady _ _ _)).trans (putPacket_steady _ _ _)
  · exact dmaIn_steady m address

theorem readPairs_steady (m : LanceBoard) (address : BitVec 32) (pos pairs : Nat) :
    Steady m (m.readPairs address pos pairs) := by
  induction pairs generalizing m address pos with
  | zero => exact .refl m
  | succ pairs ih =>
    exact (readPair_steady m address pos).trans (ih _ _ _)

theorem readEven_steady (m : LanceBoard) (address : BitVec 32) (pos length : Nat) :
    Steady m (m.readEven address pos length) := by
  have pairs := readPairs_steady m address pos (length / 2)
  simp only [readEven]
  split_ifs
  · exact (pairs.trans (dmaIn_steady _ _)).trans (putPacket_steady _ _ _)
  · exact pairs

theorem dmaReadBuffer_steady (m : LanceBoard) (address : BitVec 32) (offset length : Nat) :
    Steady m (m.dmaReadBuffer address offset length) := by
  rw [dmaReadBuffer]
  split_ifs
  · exact ((dmaIn_steady m _).trans (putPacket_steady _ _ _)).trans (readEven_steady _ _ _ _)
  · exact readEven_steady m address offset length

theorem writeEven_steady (m : LanceBoard) (address : BitVec 32) (bytes : List Byte) :
    Steady m (m.writeEven address bytes) := by
  induction m, address, bytes using writeEven.induct with
  | case1 m address => exact .refl m
  | case2 m address last => exact dmaOut_steady m address _
  | case3 m address first second rest ih =>
    exact (dmaOut_steady m address _).trans ih

theorem dmaWriteBuffer_steady (m : LanceBoard) (address : BitVec 32) (bytes : List Byte) :
    Steady m (m.dmaWriteBuffer address bytes) := by
  cases bytes with
  | nil =>
    simp only [dmaWriteBuffer]
    split_ifs
    · exact .refl m
    · exact writeEven_steady m address []
  | cons first rest =>
    simp only [dmaWriteBuffer]
    split_ifs
    · exact (dmaOut_steady m _ _).trans (writeEven_steady _ _ _)
    · exact writeEven_steady m address (first :: rest)

/- Receive. -/

theorem putRxMd1_steady (m : LanceBoard) (word : Word) : Steady m (m.putRxMd1 word) :=
  onLance_steady m _ rfl rfl rfl

theorem putTxMd1_steady (m : LanceBoard) (word : Word) : Steady m (m.putTxMd1 word) :=
  onLance_steady m _ rfl rfl rfl

theorem putRxRingPos_steady (m : LanceBoard) (pos : Byte) : Steady m (m.putRxRingPos pos) :=
  onLance_steady m _ rfl rfl rfl

theorem putTxRingPos_steady (m : LanceBoard) (pos : Byte) : Steady m (m.putTxRingPos pos) :=
  onLance_steady m _ rfl rfl rfl

theorem receiveBuffer_steady (m : LanceBoard) (ra : BitVec 32) (frame : List Byte) (offset : Nat) :
    Steady m (m.receiveBuffer ra frame offset).1 :=
  ((((dmaIn_steady m ra).trans (dmaIn_steady _ (ra ||| 4))).trans
    (onLance_steady _ _ rfl rfl rfl)).trans (dmaWriteBuffer_steady _ _ _)).trans
    (putRxMd1_steady _ _)

theorem receiveLoop_steady (frame : List Byte) (fuel : Nat) (m : LanceBoard) (ra : BitVec 32)
    (offset : Nat) : Steady m (receiveLoop frame fuel m ra offset).1 := by
  induction fuel generalizing m ra offset with
  | zero => exact .refl m
  | succ fuel ih =>
    have stored := receiveBuffer_steady m ra frame offset
    simp only [receiveLoop]
    split_ifs
    · exact ((((stored.trans (dmaIn_steady _ _)).trans (dmaOut_steady _ _ _)).trans
        (putRxRingPos_steady _ _)).trans (putRxMd1_steady _ _)).trans (ih _ _ _)
    · exact (stored.trans (dmaIn_steady _ _)).trans (putRxMd1_steady _ _)
    · exact stored
    · exact .refl m

/-- A missed frame leaves the line to the completion. -/
theorem receivePacket_goes (m : LanceBoard) (frame : List Byte) :
    Steady m (m.receivePacket frame).1 ∨
      (m.receivePacket frame).2 = -2 ∧ Goes m (m.receivePacket frame).1 := by
  have read := (dmaIn_steady m (m.rxRingAddr ||| 2)).trans
    (putRxMd1_steady _ (m.dmaIn (m.rxRingAddr ||| 2)).2)
  have looped (word : Word) := (read.trans (putRxMd1_steady _ word)).trans
    (receiveLoop_steady frame frame.length _ m.rxRingAddr 0)
  simp only [receivePacket]
  split_ifs <;> dsimp only
  · exact .inl (.refl m)
  · exact .inl (onLance_steady m _ rfl rfl rfl)
  · exact .inl (.refl m)
  · exact .inl (onLance_steady m _ rfl rfl rfl)
  · refine .inr ⟨rfl, (read.toGoes.trans (orCsr0_goes _ ?_)).trans
      (onLance_steady _ _ rfl rfl rfl).toGoes⟩
    decide
  · exact .inl (((looped _).trans (putRxMd1_steady _ _)).trans (onLance_steady _ _ rfl rfl rfl))
  · exact .inl ((looped _).trans (onLance_steady _ _ rfl rfl rfl))

theorem receiveComplete_steady (m : LanceBoard) (result : Int) :
    Steady m (m.receiveComplete result) := by
  have reported (n : LanceBoard) : Steady n (n.orCsr0 (Csr0.rint ||| Csr0.intr)).checkInterrupts :=
    ((orCsr0_goes n (by decide)).trans (checkInterrupts_goes _)).steady (checkInterrupts_settled _)
  simp only [receiveComplete]
  split_ifs
  · exact reported m
  · exact .refl m
  · exact (((dmaOut_steady m _ _).trans (dmaOut_steady _ _ _)).trans
      (putRxRingPos_steady _ _)).trans (reported _)
  · exact (((dmaOut_steady m _ _).trans (dmaOut_steady _ _ _)).trans
      (putRxRingPos_steady _ _)).trans (reported _)

/-- A frame that is received and completed. Between both the chip may change beside its status. -/
theorem received_steady (m : LanceBoard) (frame : List Byte)
    (change : Am7990Lance → Am7990Lance) (csr0 : ∀ l, (change l).csr0 = l.csr0)
    (csr3 : ∀ l, (change l).csr3 = l.csr3) (irqAsserted : ∀ l, (change l).irqAsserted = l.irqAsserted) :
    Steady m (((m.receivePacket frame).1.onLance change).receiveComplete
      (m.receivePacket frame).2) := by
  have changed := onLance_steady (m.receivePacket frame).1 change (csr0 _) (csr3 _) (irqAsserted _)
  rcases receivePacket_goes m frame with steady | ⟨missed, goes⟩
  · exact (steady.trans changed).trans (receiveComplete_steady _ _)
  · rw [missed, receiveComplete, if_pos rfl]
    exact (((goes.trans changed.toGoes).trans (orCsr0_goes _ (by decide))).trans
      (checkInterrupts_goes _)).steady (checkInterrupts_settled _)

theorem receiveQueued_steady (m : LanceBoard) (frame : List Byte) :
    Steady m (m.receiveQueued frame) := by
  simp only [receiveQueued]
  split_ifs with ignored
  · rcases receivePacket_goes m frame with steady | ⟨missed, -⟩
    · exact steady
    · exact absurd (ignored.symm.trans missed) (by decide)
  · exact received_steady m frame id (fun _ => rfl) (fun _ => rfl) fun _ => rfl

theorem drainQueue_steady (m : LanceBoard) : Steady m m.drainQueue := by
  have folded (queue : List (List Byte)) (n : LanceBoard) :
      Steady n (queue.foldl receiveQueued n) := by
    induction queue generalizing n with
    | nil => exact .refl n
    | cons frame rest ih =>
      exact (receiveQueued_steady n frame).trans (ih _)
  exact (onLance_steady m _ rfl rfl rfl).trans (folded _ _)

/- Transmit. -/

theorem transmitComplete_steady (m : LanceBoard) (result : Int) :
    Steady m (m.transmitComplete result) ∧ (m.transmitComplete result).Settled := by
  have reported (n : LanceBoard) (goes : Goes m n) (word : Word) (pos : Byte) (address : BitVec 32) :
      Goes m (((n.dmaOut address word).putTxRingPos pos).orCsr0
        (Csr0.tint ||| Csr0.intr)).checkInterrupts :=
    (((goes.trans (dmaOut_steady n _ _).toGoes).trans (putTxRingPos_steady _ _).toGoes).trans
      (orCsr0_goes _ (by decide))).trans (checkInterrupts_goes _)
  have failed (flag : Word) (address : BitVec 32) (word : LanceBoard → Word) :
      Goes m ((m.onLance fun l =>
        { l with txMd1 := l.txMd1 ||| Md1.err, txMd3 := l.txMd3 ||| flag }).dmaOut address
          (word (m.onLance fun l =>
            { l with txMd1 := l.txMd1 ||| Md1.err, txMd3 := l.txMd3 ||| flag }))) :=
    (onLance_steady m _ rfl rfl rfl).toGoes.trans (dmaOut_steady _ _ _).toGoes
  suffices goes : Goes m (m.transmitComplete result) from
    ⟨goes.steady (checkInterrupts_settled _), checkInterrupts_settled _⟩
  simp only [transmitComplete]
  split_ifs
  · exact reported _ (putTxMd1_steady m _).toGoes _ _ _
  · exact reported _ (failed _ _ fun n => n.lance.txMd3) _ _ _
  · exact reported _ (failed _ _ fun n => n.lance.txMd3) _ _ _
  · exact reported _ (Steady.refl m).toGoes _ _ _

theorem gatherBuffer_steady (m : LanceBoard) (ra : BitVec 32) (length : Nat) :
    Steady m (m.gatherBuffer ra length).1 := by
  have read := (dmaIn_steady m ra).trans (dmaIn_steady _ (ra ||| 4))
  simp only [gatherBuffer]
  split_ifs
  · dsimp only
    exact read.trans (onLance_steady _ _ rfl rfl rfl)
  · refine Steady.trans ?_ (dmaReadBuffer_steady _ _ _ _)
    exact read.trans (onLance_steady _ _ rfl rfl rfl)

theorem underflow_steady (m : LanceBoard) (ra : BitVec 32) : Steady m (m.underflow ra) := by
  simp only [underflow]
  refine Steady.trans (Steady.trans (Steady.trans ?_ (dmaOut_steady _ _ _))
    (dropCsr0_steady _ ?_ ?_)) (onLance_steady _ _ rfl rfl rfl)
  · exact onLance_steady m _ rfl rfl rfl
  · decide
  · decide

theorem transmitLoop_steady (fuel : Nat) (m : LanceBoard) (ra : BitVec 32) (length : Nat) :
    Steady m (transmitLoop fuel m ra length).1 := by
  induction fuel generalizing m ra length with
  | zero => exact .refl m
  | succ fuel ih =>
    have gathered := gatherBuffer_steady m ra length
    simp only [transmitLoop]
    split_ifs
    · exact (gathered.trans (dmaOut_steady _ _ _)).trans (putTxRingPos_steady _ _)
    · exact gathered
    · refine Steady.trans ?_ (ih _ _ _)
      exact (((gathered.trans (dmaIn_steady _ _)).trans (dmaOut_steady _ _ _)).trans
        (putTxRingPos_steady _ _)).trans (putTxMd1_steady _ _)
    · exact (gathered.trans (dmaIn_steady _ _)).trans (underflow_steady _ _)

theorem appendFcs_steady (m : LanceBoard) (length : Nat) : Steady m (m.appendFcs length).1 := by
  simp only [appendFcs]
  split_ifs
  · exact (((putPacket_steady m _ _).trans (putPacket_steady _ _ _)).trans
      (putPacket_steady _ _ _)).trans (putPacket_steady _ _ _)
  · exact .refl m

theorem putTransmitted_same (m : LanceBoard) (packets : List (List Byte)) :
    SameLine m { m with transmitted := packets } :=
  ⟨rfl, rfl, rfl, rfl, rfl, rfl⟩

theorem handOver_steady (m : LanceBoard) (wireLength length : Nat) :
    Steady m (m.handOver wireLength length) ∧ (m.handOver wireLength length).Settled := by
  have completed (n : LanceBoard) (steady : Steady m n) (result : Int) :
      Steady m (n.transmitComplete result) ∧ (n.transmitComplete result).Settled :=
    ⟨steady.trans (transmitComplete_steady n result).1, (transmitComplete_steady n result).2⟩
  simp only [handOver]
  split_ifs
  · exact completed m (.refl m) _
  · exact completed _ (onLance_steady m _ rfl rfl rfl) _
  · exact completed _ (putTransmitted_same m _).steady _

/-- A long frame is reported with its completion. -/
theorem sendGathered_steady (m : LanceBoard) (gathered : Nat) :
    Steady m (m.sendGathered gathered) := by
  have babbles : Goes m (m.babble gathered) := by
    rw [babble]
    split_ifs
    · exact orCsr0_goes m (by decide)
    · exact (Steady.refl m).toGoes
  have finished := babbles.trans
    (appendFcs_steady (m.babble gathered) (min gathered lancePacketBufferSize)).toGoes
  have completed := handOver_steady ((m.babble gathered).appendFcs
    (min gathered lancePacketBufferSize)).1 (min gathered lancePacketBufferSize)
    ((m.babble gathered).appendFcs (min gathered lancePacketBufferSize)).2
  exact (finished.trans completed.1.toGoes).steady completed.2

theorem transmit_steady (m : LanceBoard) : Steady m m.transmit := by
  have looped := transmitLoop_steady transmitFuel m m.txRingAddr 0
  rw [transmit]
  cases (transmitLoop transmitFuel m m.txRingAddr 0).2 with
  | emptyBuffer => exact looped
  | gathered length => exact looped.trans (sendGathered_steady _ length)
  | unfinished => exact looped

theorem pollLoopback_steady (m : LanceBoard) : Steady m m.pollLoopback := by
  simp only [pollLoopback]
  split_ifs
  · refine Steady.trans (onLance_steady m _ ?_ ?_ ?_)
      (received_steady _ _ _ (fun _ => rfl) (fun _ => rfl) fun _ => rfl)
    all_goals rfl
  · exact .refl m

theorem transmitPoll_steady (m : LanceBoard) : Steady m m.transmitPoll := by
  have demand : Steady m (m.dropCsr0 Csr0.tdmd) := dropCsr0_steady m (by decide) (by decide)
  have read := (demand.trans (dmaIn_steady _ ((m.dropCsr0 Csr0.tdmd).txRingAddr ||| 2))).trans
    (putTxMd1_steady _ ((m.dropCsr0 Csr0.tdmd).dmaIn ((m.dropCsr0 Csr0.tdmd).txRingAddr ||| 2)).2)
  simp only [transmitPoll]
  refine Steady.trans ?_ (pollLoopback_steady _)
  split_ifs
  · exact read
  · exact (read.trans (dmaOut_steady _ _ _)).trans (putTxRingPos_steady _ _)
  · exact read.trans (transmit_steady _)
  · exact demand

theorem clock_steady (m : LanceBoard) : Steady m m.clock := by
  have drained := drainQueue_steady m
  rw [clock, pollWhenPending]
  split_ifs
  · exact (drained.trans (onLance_steady _ _ rfl rfl rfl)).trans (transmitPoll_steady _)
  · exact drained

theorem enqueueReceivedPacket_steady (m : LanceBoard) (data : List Byte) :
    Steady m (m.enqueueReceivedPacket data) := by
  rw [enqueueReceivedPacket]
  split_ifs
  · exact .refl m
  · exact onLance_steady m _ rfl rfl rfl

/- Registers. -/

theorem executeStop_steady (m : LanceBoard) : Steady m m.executeStop := by
  refine Steady.trans (Steady.trans (orCsr0_steady m ?_ ?_) (dropCsr0_steady _ ?_ ?_))
    (onLance_steady _ _ rfl rfl rfl)
  all_goals decide

theorem readWords_steady (m : LanceBoard) (address : BitVec 32) (count : Nat) :
    Steady m (m.readWords address count).1 := by
  induction count generalizing m address with
  | zero => exact .refl m
  | succ count ih =>
    exact (dmaIn_steady m address).trans (ih _ _)

theorem executeInitialize_steady (m : LanceBoard) : Steady m m.executeInitialize := by
  simp only [executeInitialize]
  split_ifs
  · exact .refl m
  · refine Goes.steady (Goes.trans (Goes.trans (Goes.trans ?_ (orCsr0_goes _ ?_))
      (dropCsr0_goes _ ?_)) (checkInterrupts_goes _)) (checkInterrupts_settled _)
    · exact ((readWords_steady m _ 12).trans (onLance_steady _ _ rfl rfl rfl)).toGoes
    · decide
    · decide

theorem executeStart_steady (m : LanceBoard) : Steady m m.executeStart := by
  have turn (n : LanceBoard) (flags : Word) (on : Bool) (apart : flags &&& errFlags = 0)
      (below : flags &&& lineFlags = 0) :
      Steady n (if on = true then n.orCsr0 flags else n.dropCsr0 flags) := by
    split_ifs
    · exact orCsr0_steady n apart below
    · exact dropCsr0_steady n apart below
  have started : Steady m ((m.orCsr0 Csr0.strt).dropCsr0 Csr0.stop) :=
    (orCsr0_steady m (by decide) (by decide)).trans (dropCsr0_steady _ (by decide) (by decide))
  rw [executeStart]
  split_ifs
  · exact ((started.trans (turn _ _ _ (by decide) (by decide))).trans
      (turn _ _ _ (by decide) (by decide))).trans (onLance_steady _ _ rfl rfl rfl)
  · exact .refl m

/-- A step of the 68000 or of the registers. -/
structure Keeps (m t : LanceBoard) : Prop where
  tracks : m.Tracks → t.Tracks
  settled : m.Settled → t.Settled
  summed : m.ErrSummed → t.ErrSummed

theorem SameLine.keeps (same : SameLine m t) : Keeps m t where
  tracks := same.steady.tracks
  settled := same.steady.settled
  summed := fun summed => by
    rw [ErrSummed, same.csr0]
    exact summed

theorem Keeps.trans (first : Keeps m t) (second : Keeps t u) : Keeps m u :=
  ⟨second.tracks ∘ first.tracks, second.settled ∘ first.settled, second.summed ∘ first.summed⟩

theorem ErrSummed.of_agree (agree : t.lance.csr0 &&& errFlags = m.lance.csr0 &&& errFlags)
    (summed : m.ErrSummed) : t.ErrSummed :=
  ((anyFlag_of_agree agree (by decide)).trans summed).trans
    (anyFlag_of_agree agree.symm (by decide))

theorem checkInterrupts_errSummed (summed : m.ErrSummed) : m.checkInterrupts.ErrSummed := by
  have kept (should : Bool) : (m.putSummary should).ErrSummed := by
    cases should with
    | true => exact ErrSummed.of_agree (or_and_of_apart (by decide)) summed
    | false => exact ErrSummed.of_agree (and_not_and (by decide)) summed
  rw [checkInterrupts_eq]
  split_ifs
  · exact kept _
  · exact kept _

/-- A write to register 0 computes the summary of the errors again. -/
theorem summarize_errSummed (m : LanceBoard) (value : Word) : (m.summarize value).ErrSummed := by
  simp only [summarize]
  generalize (if anyFlag value Csr0.inea = true then m.orCsr0 Csr0.inea
    else m.dropCsr0 Csr0.inea) = n
  have summed : (if anyFlag n.lance.csr0 csr0ErrorFlags = true then n.orCsr0 Csr0.err
      else n.dropCsr0 Csr0.err).ErrSummed := by
    split_ifs with failed
    · have raised : anyFlag (n.lance.csr0 ||| Csr0.err) Csr0.err = true := by
        rw [anyFlag_or]
        exact Bool.or_true _
      have still : anyFlag (n.lance.csr0 ||| Csr0.err) csr0ErrorFlags = true := by
        rw [anyFlag_or, failed, Bool.true_or]
      exact raised.trans still.symm
    · have dropped : anyFlag (n.lance.csr0 &&& ~~~Csr0.err) Csr0.err = false := by
        rw [anyFlag, BitVec.and_assoc]
        exact decide_eq_false (not_not.mpr BitVec.and_zero)
      have none_ : anyFlag (n.lance.csr0 &&& ~~~Csr0.err) csr0ErrorFlags = false :=
        (anyFlag_drop (by decide)).trans (Bool.eq_false_of_not_eq_true failed)
      exact dropped.trans none_.symm
  generalize (if anyFlag n.lance.csr0 csr0ErrorFlags = true then n.orCsr0 Csr0.err
    else n.dropCsr0 Csr0.err) = k at summed ⊢
  split_ifs
  · exact ErrSummed.of_agree (or_and_of_apart (by decide)) summed
  · exact ErrSummed.of_agree (and_not_and (by decide)) summed

theorem summarize_tracks (tracks : m.Tracks) (value : Word) : (m.summarize value).Tracks := by
  have turned (n : LanceBoard) (tracks : n.Tracks) (flags : Word) (on : Bool) :
      (if on = true then n.orCsr0 flags else n.dropCsr0 flags).Tracks := by
    split_ifs
    · exact tracks.changed rfl rfl rfl
    · exact tracks.changed rfl rfl rfl
  exact turned _ (turned _ (turned m tracks _ _) _ _) _ _

theorem commandInit_tracks (tracks : m.Tracks) (value : Word) : (m.commandInit value).Tracks := by
  rw [commandInit]
  split_ifs
  · exact (executeInitialize_steady m).tracks tracks
  · exact tracks.changed rfl rfl rfl
  · exact tracks.changed rfl rfl rfl
  · exact tracks

theorem commandStart_tracks (tracks : m.Tracks) (value : Word) : (m.commandStart value).Tracks := by
  rw [commandStart]
  split_ifs
  · exact (executeStart_steady m).tracks tracks
  · exact tracks

theorem commandTransmit_tracks (tracks : m.Tracks) (value : Word) :
    (m.commandTransmit value).Tracks := by
  rw [commandTransmit]
  split_ifs
  · exact (transmitPoll_steady _).tracks (tracks.changed rfl rfl rfl)
  · exact tracks

theorem reset_lance (m : LanceBoard) :
    m.reset.lance.csr0 = Csr0.stop ∧ m.reset.lance.csr3 = 0 ∧
      m.reset.lance.irqAsserted = false := by
  simp only [reset]
  split_ifs
  · exact ⟨rfl, rfl, rfl⟩
  · exact ⟨rfl, rfl, rfl⟩

theorem stopped_inactive {l : Am7990Lance} (csr0 : l.csr0 = Csr0.stop) :
    l.isInterruptActive = false := by
  rw [isInterruptActive, csr0]
  decide

theorem reset_keeps (m : LanceBoard) : Keeps m m.reset := by
  obtain ⟨csr0, csr3, low⟩ := reset_lance m
  refine ⟨fun tracks => ?_, fun _ => ⟨?_, ?_⟩, fun _ => ?_⟩
  · simp only [reset] at low ⊢
    split_ifs with asserted
    · exact onLanceIrq_tracks (stopped_inactive rfl)
    · refine ⟨tracks.reported.trans (Bool.eq_false_of_not_eq_true asserted), fun high => ?_⟩
      exact absurd high Bool.false_ne_true
  · rw [csr0, csr3]
    decide
  · rw [csr0, csr3, low]
    decide
  · rw [ErrSummed, csr0]
    decide

theorem writeCsr0_keeps (m : LanceBoard) (value : Word) : Keeps m (m.writeCsr0 value) := by
  simp only [writeCsr0]
  split_ifs
  · exact ⟨id, id, id⟩
  · exact reset_keeps m
  · refine ⟨fun tracks => (checkInterrupts_goes _).tracks (summarize_tracks
      (commandTransmit_tracks (commandStart_tracks (commandInit_tracks ?_ _) _) _) _),
      fun _ => checkInterrupts_settled _,
      fun _ => checkInterrupts_errSummed (summarize_errSummed _ _)⟩
    exact tracks.changed rfl rfl rfl

theorem checkInterrupts_keeps (m : LanceBoard) : Keeps m m.checkInterrupts :=
  ⟨(checkInterrupts_goes m).tracks, fun _ => checkInterrupts_settled m, checkInterrupts_errSummed⟩

theorem writeCsr_keeps (m : LanceBoard) (csrNumber value : Word) :
    Keeps m (m.writeCsr csrNumber value) := by
  have same : Keeps m m := (SameLine.refl m).keeps
  have stored : Keeps m (m.onLance fun l => { l with csr3 := value &&& 0x0007 }).checkInterrupts :=
    have checked := checkInterrupts_keeps (m.onLance fun l => { l with csr3 := value &&& 0x0007 })
    ⟨fun tracks => checked.tracks (tracks.changed rfl rfl rfl), fun _ => checkInterrupts_settled _,
      checked.summed⟩
  rw [writeCsr]
  split_ifs
  · exact writeCsr0_keeps m value
  · exact SameLine.keeps ⟨rfl, rfl, rfl, rfl, rfl, rfl⟩
  · exact same
  · exact SameLine.keeps ⟨rfl, rfl, rfl, rfl, rfl, rfl⟩
  · exact same
  · exact stored
  · exact checkInterrupts_keeps m
  · exact same

theorem write_keeps (m : LanceBoard) (address : BitVec 32) (value : Byte) :
    Keeps m (m.write address value) := by
  have latched (change : Am7990Lance → Am7990Lance)
      (csr0 : (change m.lance).csr0 = m.lance.csr0) (csr3 : (change m.lance).csr3 = m.lance.csr3)
      (irqAsserted : (change m.lance).irqAsserted = m.lance.irqAsserted) :
      Keeps m (m.onLance change) :=
    SameLine.keeps ⟨csr0, csr3, irqAsserted, rfl, rfl, rfl⟩
  simp only [write]
  split_ifs
  · exact (latched _ rfl rfl rfl).trans (writeCsr_keeps _ _ _)
  · exact latched _ rfl rfl rfl
  · exact (SameLine.refl m).keeps
  · exact latched _ rfl rfl rfl
  · exact latched _ rfl rfl rfl
  · exact (SameLine.refl m).keeps

/- The 68000. -/

theorem levelBit_other {level : Nat} (other : level ≠ 2) :
    (EthIrq.levelBit level).getLsbD 2 = false := by
  change ((1 : Byte) <<< level).getLsbD 2 = false
  rw [BitVec.getLsbD_shiftLeft]
  by_cases above : 2 < level
  · simp [above]
  · have low : level = 0 ∨ level = 1 := by omega
    rcases low with rfl | rfl <;> decide

/-- Another level leaves the request of the chip alone. -/
theorem set_other {level : Nat} (other : level ≠ 2) (irq : EthIrq) (active : Bool) (cpuMask : Nat) :
    (irq.set level active cpuMask).pendingMask.getLsbD 2 = irq.pendingMask.getLsbD 2 := by
  have off := levelBit_other other
  rw [EthIrq.set]
  split_ifs
  · rfl
  · rfl
  · rw [BitVec.getLsbD_or, off, Bool.or_false]
  · rfl
  · rw [BitVec.getLsbD_and, BitVec.getLsbD_not, off, Bool.not_false, Bool.and_true]
    exact Bool.and_true _

theorem select_pendingMask (irq : EthIrq) (cpuMask : Nat) :
    (irq.select cpuMask).1.pendingMask = irq.pendingMask := by
  rw [EthIrq.select]
  split_ifs
  · rfl
  · rfl

theorem take_other (irq : EthIrq) (cpuMask : Nat) (cpuHalted : Bool)
    (other : (irq.take cpuMask cpuHalted).2 ≠ 2) :
    (irq.take cpuMask cpuHalted).1.pendingMask.getLsbD 2 = irq.pendingMask.getLsbD 2 := by
  simp only [EthIrq.take] at other ⊢
  split_ifs at other ⊢
  · rw [select_pendingMask]
  · rw [set_other other, select_pendingMask]

theorem Settled.active (settled : m.Settled) :
    m.lance.isInterruptActive = m.lance.irqAsserted := by
  rw [isInterruptActive, settled.summary, settled.line]
  cases should : shouldInterrupt m.lance.csr0 m.lance.csr3 with
  | true => rw [shouldInterrupt_enabled should, Bool.and_self]
  | false => exact Bool.false_and _

/-- The request is raised again by the acknowledge that dropped it. -/
theorem cpuTick_tracks (tracks : m.Tracks) (settled : m.Settled) (cpuHalted : Bool) :
    (m.cpuTick cpuHalted).Tracks ∧ (m.cpuTick cpuHalted).lance = m.lance := by
  simp only [cpuTick]
  split_ifs with none_ two
  · refine ⟨⟨tracks.reported, fun high => ?_⟩, rfl⟩
    exact (take_other _ _ _ (none_ ▸ by decide)).trans (tracks.requested high)
  · rw [handleLanceInterruptAck]
    split_ifs with active
    · exact ⟨⟨tracks.reported, fun _ => set_requests _ (m.irq.take m.cpuMask cpuHalted).2⟩, rfl⟩
    · refine ⟨⟨tracks.reported, fun high => ?_⟩, rfl⟩
      exact absurd (settled.active.trans high) active
  · refine ⟨⟨tracks.reported, fun high => ?_⟩, rfl⟩
    exact (take_other _ _ _ two).trans (tracks.requested high)

/- Runs. -/

theorem step_keeps (event : LanceEvent) (tracks : m.Tracks) (settled : m.Settled) :
    (m.step event).Tracks ∧ (m.step event).Settled := by
  have steady {t : LanceBoard} (kept : Steady m t) : t.Tracks ∧ t.Settled :=
    ⟨kept.tracks tracks, kept.settled settled⟩
  cases event with
  | write address value =>
    have kept := write_keeps m address value
    exact ⟨kept.tracks tracks, kept.settled settled⟩
  | enqueue data => exact steady (enqueueReceivedPacket_steady m data)
  | receive frame => exact steady (receiveQueued_steady m frame)
  | transmitPoll => exact steady (transmitPoll_steady m)
  | clock => exact steady (clock_steady m)
  | memoryError =>
    exact ⟨(checkInterrupts_goes _).tracks (tracks.changed rfl rfl rfl),
      checkInterrupts_settled _⟩
  | stop => exact steady (executeStop_steady m)
  | reset =>
    have kept := reset_keeps m
    exact ⟨kept.tracks tracks, kept.settled settled⟩
  | cpuTick cpuHalted =>
    obtain ⟨kept, lance⟩ := cpuTick_tracks tracks settled cpuHalted
    refine ⟨kept, ?_, ?_⟩
    · change anyFlag (m.cpuTick cpuHalted).lance.csr0 _ = _
      rw [step, lance]
      exact settled.summary
    · rw [step, lance]
      exact settled.line
  | cpuMask mask => exact ⟨⟨tracks.reported, tracks.requested⟩, settled.summary, settled.line⟩
  | enableInterrupts enabled =>
    exact ⟨⟨tracks.reported, tracks.requested⟩, settled.summary, settled.line⟩
  | request level active =>
    refine ⟨⟨tracks.reported, fun high => ?_⟩, settled.summary, settled.line⟩
    exact (set_other level.2 _ _ _).trans (tracks.requested high)

theorem setMemoryError_raised (raised : anyFlag m.lance.csr0 Csr0.err = true) :
    m.setMemoryError.ErrSummed := by
  refine checkInterrupts_errSummed ?_
  change anyFlag (m.lance.csr0 ||| Csr0.merr) _ = anyFlag (m.lance.csr0 ||| Csr0.merr) _
  rw [anyFlag_or, anyFlag_or, raised, Bool.true_or]
  exact (Bool.or_true _).symm

theorem step_errSummed (event : LanceEvent) (settled : m.Settled) (tracks : m.Tracks)
    (inside : m.StaysInside event) (summed : m.ErrSummed) : (m.step event).ErrSummed := by
  cases event with
  | write address value => exact (write_keeps m address value).summed summed
  | enqueue data =>
    refine (enqueueReceivedPacket_steady m data).idle summed ?_
    rw [enqueueReceivedPacket]
    split_ifs
    · rfl
    · rfl
  | receive frame => exact (receiveQueued_steady m frame).errSummed summed inside
  | transmitPoll => exact (transmitPoll_steady m).errSummed summed inside
  | clock => exact (clock_steady m).errSummed summed inside
  | memoryError => exact setMemoryError_raised inside
  | stop => exact (executeStop_steady m).idle summed rfl
  | reset => exact (reset_keeps m).summed summed
  | cpuTick cpuHalted =>
    have lance := (cpuTick_tracks tracks settled cpuHalted).2
    rw [ErrSummed, step, lance]
    exact summed
  | cpuMask mask => exact summed
  | enableInterrupts enabled => exact summed
  | request level active => exact summed

theorem anyFlag_flags_or (word first second : Word) :
    anyFlag word (first ||| second) = (anyFlag word first || anyFlag word second) := by
  have swapped (flags : Word) : anyFlag word flags = anyFlag flags word := by
    rw [anyFlag, anyFlag, BitVec.and_comm]
  rw [swapped, swapped, swapped, anyFlag_or]

theorem errAgrees_iff : m.ErrAgrees ↔ m.ErrSummed := by
  have errors : anyFlag m.lance.csr0 csr0ErrorFlags = true ↔
      ∃ flag ∈ [Csr0.babl, Csr0.cerr, Csr0.miss, Csr0.merr], anyFlag m.lance.csr0 flag = true := by
    rw [csr0ErrorFlags, anyFlag_flags_or, anyFlag_flags_or, anyFlag_flags_or]
    simp only [Bool.or_eq_true, List.exists_mem_cons_iff, List.not_mem_nil, false_and,
      exists_false, or_false, or_assoc]
  rw [ErrAgrees, ErrSummed, ← errors]
  exact Bool.eq_iff_iff.symm

theorem lineAgrees_of_keeps (tracks : m.Tracks) (settled : m.Settled) : m.LineAgrees where
  line := by
    rw [settled.line]
    exact shouldInterrupt_iff
  reported := tracks.reported
  active := settled.active
  requested := tracks.requested

/-- What holds between the steps. -/
structure Between (m : LanceBoard) : Prop where
  tracks : m.Tracks
  settled : m.Settled

theorem step_between (event : LanceEvent) (between : m.Between) : (m.step event).Between :=
  have kept := step_keeps event between.tracks between.settled
  ⟨kept.1, kept.2⟩

theorem run_errSummed (events : List LanceEvent) (between : m.Between) (summed : m.ErrSummed)
    (inside : EachStep step StaysInside m events) : EachState step ErrAgrees m events := by
  induction events generalizing m with
  | nil => exact errAgrees_iff.mpr summed
  | cons event rest ih =>
    exact ⟨errAgrees_iff.mpr summed, ih (step_between event between)
      (step_errSummed event between.settled between.tracks inside.1 summed) inside.2⟩

variable (startAddress : BitVec 32) (swapByteLanes : Bool) (dram : Nat → Byte) (cpuMask : Nat)

theorem create_between : (create startAddress swapByteLanes dram cpuMask).Between where
  tracks := ⟨rfl, fun high => absurd high Bool.false_ne_true⟩
  settled :=
    ⟨show anyFlag Csr0.stop Csr0.intr = shouldInterrupt Csr0.stop 0 by decide,
      show false = shouldInterrupt Csr0.stop 0 by decide⟩

theorem create_errSummed : (create startAddress swapByteLanes dram cpuMask).ErrSummed :=
  show anyFlag Csr0.stop Csr0.err = anyFlag Csr0.stop csr0ErrorFlags by decide

/-- The line of the chip agrees with its status throughout a run, and so does the error bit where
no step accesses anything outside the memory. -/
theorem status_agrees (events : List LanceEvent) :
    EachState step LineAgrees (create startAddress swapByteLanes dram cpuMask) events ∧
      (EachStep step StaysInside (create startAddress swapByteLanes dram cpuMask) events →
        EachState step ErrAgrees (create startAddress swapByteLanes dram cpuMask) events) := by
  have start := create_between startAddress swapByteLanes dram cpuMask
  constructor
  · exact (eachState_of_keeps (fun _ event between => step_between event between) start
      events).weaken fun _ between => lineAgrees_of_keeps between.tracks between.settled
  · exact run_errSummed events start (create_errSummed startAddress swapByteLanes dram cpuMask)

/-- The register of the status is selected and written. -/
def writeStatus (value : Byte) : List LanceEvent := [.write 0xEF00A0 0, .write 0xEF00A1 value]

/-- The chip is initialised from the block at 1000 hex and started. -/
def startChip : List LanceEvent :=
  [.write 0xEF00A2 0, .write 0xEF00A3 1, .write 0xEF00A0 0x10, .write 0xEF00A1 0,
    .write 0xEF00A2 0, .write 0xEF00A3 0] ++ writeStatus 0x01 ++ writeStatus 0x42

/-- The chip looks for a frame to send, and the 68000 takes the interrupt of the initialisation. -/
def pollOnce : List LanceEvent :=
  startChip ++ [.clock, .enableInterrupts true, .cpuMask 0, .cpuTick false]

theorem status_agrees_polled :
    EachState step ErrAgrees (create 0xEF00A0 true (fun _ => 0) 7) pollOnce := by
  refine (status_agrees 0xEF00A0 true (fun _ => 0) 7 pollOnce).2 ?_
  refine ⟨trivial, trivial, trivial, trivial, trivial, trivial, trivial, trivial, trivial, trivial,
    .inr (List.all_eq_true.mp ?_), trivial, trivial, trivial, trivial⟩
  decide +kernel

/-- The transmit ring of the block lies behind the memory. -/
def ringOutside (place : Nat) : Byte := if place = 0x1017 then 8 else 0

/-- The memory error of a poll is not summed up. -/
theorem memory_error_not_summed :
    ¬ EachState step ErrAgrees (create 0xEF00A0 true ringOutside 7) (startChip ++ [.clock]) := by
  intro each
  have last := errAgrees_iff.mp each.final
  revert last
  rw [ErrSummed]
  decide +kernel

end LanceBoard

end Nd100x.Ethernet
