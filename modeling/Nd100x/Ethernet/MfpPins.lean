import Nd100x.Ethernet.MfpLine

namespace Nd100x.Ethernet

open Nd100x.Library

section Purpose

/-- The registers of the pins and of the interrupts. -/
def pinRegisters : List MfpRegister :=
  [.gpdr, .aer, .ddr, .iera, .ierb, .ipra, .iprb, .isra, .isrb, .imra, .imrb]

inductive PinEvent where
  | pin (bit : Fin 8) (state : Bool)
  | write (register : MfpRegister) (listed : register ∈ pinRegisters) (value : Byte)
  | acknowledge (daisyChain : Option Byte)

/-- The pins, and what was last written to the three registers of the pins. -/
structure PinBench where
  mfp : Mfp
  pins : Fin 8 → Bool
  edges : Byte
  directions : Byte
  written : Byte

namespace Mfp

def pending (m : Mfp) (bit : Fin 8) : Bool := m.ipr &&& intMaskGpio bit ≠ 0
def enabled (m : Mfp) (bit : Fin 8) : Bool := m.ier &&& intMaskGpio bit ≠ 0

/-- The channel that an acknowledge answers. -/
def acknowledged (m : Mfp) : Option Nat :=
  if m.iei = false then none else mfpChannels.find? (serviceable m.ipr m.imr m.isr)

end Mfp

namespace PinBench

def of (m : Mfp) : PinBench := ⟨m, fun bit => m.gpioInput.getLsbD bit, m.aer, m.ddr, m.gpip⟩

def step (bench : PinBench) : PinEvent → PinBench
  | .pin bit state =>
    { bench with
      mfp := bench.mfp.gpioInputPin bit state
      pins := Function.update bench.pins bit state }
  | .write register _ value =>
    { bench with
      mfp := bench.mfp.writeRegister value register
      edges := if register = .aer then value else bench.edges
      directions := if register = .ddr then value else bench.directions
      written := if register = .gpdr then value else bench.written }
  | .acknowledge daisyChain => { bench with mfp := (bench.mfp.getVector daisyChain).1 }

/-- A pin comes to its active edge. -/
def Rises (before after : PinBench) (bit : Fin 8) : Prop :=
  before.pins bit ≠ before.edges.getLsbD bit ∧ after.pins bit = after.edges.getLsbD bit

/-- A channel that is disabled, cleared by hand or acknowledged is no longer pending. -/
def Clears (bench : PinBench) (event : PinEvent) (bit : Fin 8) : Prop :=
  match event with
  | .pin _ _ => False
  | .write register _ value =>
    (register = .iera ∧ putHigh bench.mfp.ier value &&& intMaskGpio bit = 0) ∨
    (register = .ierb ∧ putLow bench.mfp.ier value &&& intMaskGpio bit = 0) ∨
    (register = .ipra ∧ putHigh bench.mfp.ipr value &&& intMaskGpio bit = 0) ∨
    (register = .iprb ∧ putLow bench.mfp.ipr value &&& intMaskGpio bit = 0)
  | .acknowledge _ => ∃ channel, bench.mfp.acknowledged = some channel ∧
      channelBit channel = intMaskGpio bit

/-- A step makes an input pending exactly when it is enabled and its pin comes to its edge. -/
def EdgeLaw (bench : PinBench) (event : PinEvent) : Prop :=
  ∀ bit : Fin 8, bench.directions.getLsbD bit = false →
    ((bench.step event).mfp.pending bit = true ↔
      (bench.mfp.enabled bit = true ∧ bench.Rises (bench.step event) bit) ∨
      (bench.mfp.pending bit = true ∧ ¬bench.Clears event bit))

/-- An input is read from its pin, and an output as it was written. -/
def ReadsPins (bench : PinBench) : Prop :=
  ∀ bit : Fin 8, (bench.mfp.readRegister .gpdr).2.getLsbD bit =
    if bench.directions.getLsbD bit then bench.written.getLsbD bit else bench.pins bit

/-- The written data do not come to the active edge at an enabled input that is not pending. -/
def KeepsInputs (bench : PinBench) : PinEvent → Prop
  | .write .gpdr _ value => ∀ bit : Fin 8, bench.directions.getLsbD bit = false →
      bench.mfp.enabled bit = true → bench.written.getLsbD bit ≠ bench.edges.getLsbD bit →
      value.getLsbD bit = bench.edges.getLsbD bit → bench.mfp.pending bit = true
  | _ => True

end PinBench

end Purpose

section Channels

/-- The channel of a pin. -/
def gpioChannel : Fin 8 → Nat
  | 0 => 0
  | 1 => 1
  | 2 => 2
  | 3 => 3
  | 4 => 6
  | 5 => 7
  | 6 => 14
  | 7 => 15

theorem intMaskGpio_eq (bit : Fin 8) : intMaskGpio bit = BitVec.twoPow 16 (gpioChannel bit) := by
  revert bit
  decide

theorem gpioChannel_lt (bit : Fin 8) : gpioChannel bit < 16 := by
  revert bit
  decide

theorem gpioChannel_inj {first second : Fin 8} :
    gpioChannel first = gpioChannel second ↔ first = second := by
  revert first second
  decide

theorem mask_ne_zero (word : Word) (bit : Fin 8) :
    word &&& intMaskGpio bit ≠ 0 ↔ word.getLsbD (gpioChannel bit) = true := by
  have channel : intMaskGpio bit = channelBit (gpioChannel bit) := by
    revert bit
    decide
  rw [channel]
  exact channelBit_ne_zero (gpioChannel_lt bit)

namespace Mfp

variable {m : Mfp} {bit : Fin 8}

theorem pending_eq : m.pending bit = m.ipr.getLsbD (gpioChannel bit) := by
  rw [Bool.eq_iff_iff, pending, decide_eq_true_iff]
  exact mask_ne_zero _ _

theorem enabled_eq : m.enabled bit = m.ier.getLsbD (gpioChannel bit) := by
  rw [Bool.eq_iff_iff, enabled, decide_eq_true_iff]
  exact mask_ne_zero _ _

end Mfp

/-- A mask sets the bit of its own pin only. -/
theorem or_mask (word : Word) (pin bit : Fin 8) :
    (word ||| intMaskGpio pin).getLsbD (gpioChannel bit) =
      (word.getLsbD (gpioChannel bit) || decide (pin = bit)) := by
  rw [BitVec.getLsbD_or, intMaskGpio_eq, BitVec.getLsbD_twoPow,
    decide_eq_true (gpioChannel_lt pin), Bool.true_and]
  congr 1
  rw [Bool.eq_iff_iff, decide_eq_true_iff, decide_eq_true_iff, gpioChannel_inj]

end Channels

section Interrupts

namespace Mfp

variable {m : Mfp}

/-- The line and the interrupt bits are all that an interrupt changes. -/
structure Alarms (m t : Mfp) (ipr : Word) : Prop where
  ipr : t.ipr = ipr
  ier : t.ier = m.ier
  ddr : t.ddr = m.ddr
  aer : t.aer = m.aer
  gpip : t.gpip = m.gpip
  gpioInput : t.gpioInput = m.gpioInput

theorem checkInterrupts_alarms (m : Mfp) : Alarms m m.checkInterrupts m.ipr := by
  simp only [checkInterrupts]
  split_ifs <;> exact ⟨rfl, rfl, rfl, rfl, rfl, rfl⟩

theorem takeInterrupt_alarms (m : Mfp) (ivn : Word) :
    Alarms m (m.takeInterrupt ivn) (m.ipr ||| ivn) := by
  obtain ⟨ipr, ier, ddr, aer, gpip, gpioInput⟩ :=
    checkInterrupts_alarms { m with ipr := m.ipr ||| ivn }
  exact ⟨ipr, ier, ddr, aer, gpip, gpioInput⟩

theorem Alarms.trans {t u : Mfp} {first second : Word} (before : Alarms m t first)
    (after : Alarms t u second) : Alarms m u second :=
  ⟨after.ipr, after.ier.trans before.ier, after.ddr.trans before.ddr, after.aer.trans before.aer,
    after.gpip.trans before.gpip, after.gpioInput.trans before.gpioInput⟩

/-- The comparison of the edge routine finds a change to the active edge. -/
def Crosses (m : Mfp) (gpipOld gpipNew aerOld aerNew : Byte) (bit : Fin 8) : Prop :=
  m.ddr.getLsbD bit = false ∧ m.enabled bit = true ∧
    gpipOld.getLsbD bit ≠ aerOld.getLsbD bit ∧ gpipNew.getLsbD bit = aerNew.getLsbD bit

/-- One pin of the edge routine. -/
theorem updateGpipInterrupt_alarms (gpipOld gpipNew aerOld aerNew : Byte) (pin : Fin 8) :
    ∃ ipr, Alarms m (updateGpipInterrupt gpipOld gpipNew aerOld aerNew m pin) ipr ∧
      ∀ bit, ipr.getLsbD (gpioChannel bit) = true ↔ m.pending bit = true ∨
        (pin = bit ∧ m.Crosses gpipOld gpipNew aerOld aerNew bit) := by
  have kept (quiet : ¬m.Crosses gpipOld gpipNew aerOld aerNew pin) :
      ∃ ipr, Alarms m m ipr ∧ ∀ bit, ipr.getLsbD (gpioChannel bit) = true ↔ m.pending bit = true ∨
        (pin = bit ∧ m.Crosses gpipOld gpipNew aerOld aerNew bit) := by
    refine ⟨m.ipr, ⟨rfl, rfl, rfl, rfl, rfl, rfl⟩, fun bit => ?_⟩
    rw [pending_eq]
    exact ⟨.inl, fun either => either.elim id fun ⟨same, crosses⟩ => absurd (same ▸ crosses) quiet⟩
  rw [updateGpipInterrupt]
  split_ifs with output still active
  · exact kept fun crosses => absurd (output.symm.trans crosses.1) (by decide)
  · refine kept fun crosses => ?_
    rw [BitVec.getLsbD_xor, BitVec.getLsbD_xor, crosses.2.2.2, Bool.xor_self] at still
    exact crosses.2.2.1 (by simpa using still)
  · refine ⟨_, takeInterrupt_alarms m _, fun bit => ?_⟩
    rw [or_mask, Bool.or_eq_true, decide_eq_true_iff, pending_eq]
    refine or_congr_right ⟨fun same => ⟨same, ?_⟩, fun both => both.1⟩
    subst same
    refine ⟨Bool.eq_false_of_not_eq_true output, decide_eq_true active.2, fun same => still ?_,
      active.1⟩
    rw [BitVec.getLsbD_xor, BitVec.getLsbD_xor, same, active.1, Bool.xor_self, Bool.xor_self]
  · exact kept fun crosses => active ⟨crosses.2.2.2, of_decide_eq_true crosses.2.1⟩

/-- The edge routine makes the inputs pending that cross. -/
theorem updateGpipInterrupts_alarms (gpipOld gpipNew aerOld aerNew : Byte) :
    ∃ ipr, Alarms m (m.updateGpipInterrupts gpipOld gpipNew aerOld aerNew) ipr ∧
      ∀ bit, ipr.getLsbD (gpioChannel bit) = true ↔ m.pending bit = true ∨
        m.Crosses gpipOld gpipNew aerOld aerNew bit := by
  have listed (pins : List (Fin 8)) : ∃ ipr,
      Alarms m (pins.foldl (updateGpipInterrupt gpipOld gpipNew aerOld aerNew) m) ipr ∧
        ∀ bit, ipr.getLsbD (gpioChannel bit) = true ↔ m.pending bit = true ∨
          (bit ∈ pins ∧ m.Crosses gpipOld gpipNew aerOld aerNew bit) := by
    induction pins generalizing m with
    | nil =>
      refine ⟨m.ipr, ⟨rfl, rfl, rfl, rfl, rfl, rfl⟩, fun bit => ?_⟩
      rw [pending_eq]
      exact ⟨.inl, fun either => either.elim id fun both => absurd both.1 List.not_mem_nil⟩
    | cons pin pins ih =>
      obtain ⟨first, one, firstBits⟩ :=
        @updateGpipInterrupt_alarms m gpipOld gpipNew aerOld aerNew pin
      obtain ⟨ipr, others, bits⟩ :=
        @ih (updateGpipInterrupt gpipOld gpipNew aerOld aerNew m pin)
      refine ⟨ipr, one.trans others, fun bit => ?_⟩
      have crosses : (updateGpipInterrupt gpipOld gpipNew aerOld aerNew m pin).Crosses gpipOld
          gpipNew aerOld aerNew bit ↔ m.Crosses gpipOld gpipNew aerOld aerNew bit := by
        rw [Crosses, Crosses, enabled_eq, enabled_eq, one.ddr, one.ier]
      rw [bits, crosses, pending_eq, one.ipr, firstBits, List.mem_cons, or_assoc, ← or_and_right,
        @eq_comm _ pin bit]
  obtain ⟨ipr, alarms, bits⟩ := listed (List.finRange 8)
  refine ⟨ipr, alarms, fun bit => ?_⟩
  rw [bits]
  exact or_congr_right ⟨fun both => both.2, fun crosses => ⟨List.mem_finRange bit, crosses⟩⟩

end Mfp

end Interrupts

section Steps

variable {m : Mfp} {bench : PinBench}

namespace Mfp

/-- A pin that changes to its active edge is pending when it is enabled. -/
theorem gpioInputPin_alarms (pin : Fin 8) (state : Bool) :
    ∃ ipr pins, Alarms { m with gpioInput := pins } (m.gpioInputPin pin state) ipr ∧
      (∀ bit : Fin 8, pins.getLsbD bit = if bit = pin then state else m.gpioInput.getLsbD bit) ∧
      ∀ bit, ipr.getLsbD (gpioChannel bit) = true ↔ m.pending bit = true ∨
        (pin = bit ∧ m.enabled bit = true ∧ m.gpioInput.getLsbD bit ≠ m.aer.getLsbD bit ∧
          state = m.aer.getLsbD bit) := by
  rw [gpioInputPin]
  by_cases same : state = m.gpioInput.getLsbD pin
  · rw [if_pos same]
    refine ⟨m.ipr, m.gpioInput, ⟨rfl, rfl, rfl, rfl, rfl, rfl⟩, fun bit => ?_, fun bit => ?_⟩
    · split_ifs with own
      · rw [own, same]
      · rfl
    · rw [pending_eq]
      refine ⟨.inl, fun either => either.elim id ?_⟩
      rintro ⟨rfl, _, differs, reached⟩
      exact absurd (same.symm.trans reached) differs
  · rw [if_neg same]
    have pins (bit : Fin 8) : (if state then m.gpioInput ||| (1 : Byte) <<< pin.val
        else m.gpioInput &&& ~~~((1 : Byte) <<< pin.val)).getLsbD bit =
          if bit = pin then state else m.gpioInput.getLsbD bit := by
      have mask : ((1 : Byte) <<< pin.val).getLsbD bit = decide (bit = pin) := by
        clear same
        revert pin bit
        decide
      cases state with
      | true =>
        rw [if_pos rfl, BitVec.getLsbD_or, mask]
        by_cases own : bit = pin <;> simp [own]
      | false =>
        rw [if_neg Bool.false_ne_true, BitVec.getLsbD_and, BitVec.getLsbD_not, mask]
        by_cases own : bit = pin <;> simp [own]
    dsimp only
    by_cases active : state = m.aer.getLsbD pin ∧ m.ier &&& intMaskGpio pin ≠ 0
    · obtain ⟨ipr, ier, ddr, aer, gpip, gpioInput⟩ := takeInterrupt_alarms m (intMaskGpio pin)
      rw [if_pos active]
      refine ⟨m.ipr ||| intMaskGpio pin, if state then m.gpioInput ||| (1 : Byte) <<< pin.val
        else m.gpioInput &&& ~~~((1 : Byte) <<< pin.val), ⟨ipr, ier, ddr, aer, gpip, congrArg
          (fun old => if state then old ||| (1 : Byte) <<< pin.val
            else old &&& ~~~((1 : Byte) <<< pin.val)) gpioInput⟩, pins, fun bit => ?_⟩
      · rw [or_mask, Bool.or_eq_true, decide_eq_true_iff, pending_eq]
        refine or_congr_right ⟨?_, fun both => both.1⟩
        rintro rfl
        exact ⟨rfl, decide_eq_true active.2, fun equal => same (active.1.trans equal.symm), active.1⟩
    · rw [if_neg active]
      refine ⟨m.ipr, _, ⟨rfl, rfl, rfl, rfl, rfl, rfl⟩, pins, fun bit => ?_⟩
      rw [pending_eq]
      refine ⟨.inl, fun either => either.elim id ?_⟩
      rintro ⟨rfl, on, _, reached⟩
      exact absurd ⟨reached, of_decide_eq_true on⟩ active

/-- An acknowledge ends the interrupt of its channel. -/
theorem getVector_alarms (daisyChain : Option Byte) :
    ∃ ipr, Alarms m (m.getVector daisyChain).1 ipr ∧
      ∀ bit, ipr.getLsbD (gpioChannel bit) = true ↔ m.pending bit = true ∧
        ¬∃ channel, m.acknowledged = some channel ∧ channelBit channel = intMaskGpio bit := by
  rw [getVector, acknowledged]
  have kept (answer : Option Nat) (none : answer = .none) : ∃ ipr, Alarms m m ipr ∧
      ∀ bit, ipr.getLsbD (gpioChannel bit) = true ↔ m.pending bit = true ∧
        ¬∃ channel, answer = some channel ∧ channelBit channel = intMaskGpio bit := by
    refine ⟨m.ipr, ⟨rfl, rfl, rfl, rfl, rfl, rfl⟩, fun bit => ?_⟩
    rw [pending_eq]
    refine ⟨fun on => ⟨on, ?_⟩, And.left⟩
    rintro ⟨channel, found, _⟩
    rw [none] at found
    cases found
  by_cases closed : m.iei = false
  · rw [if_pos closed, if_pos closed]
    exact kept .none rfl
  · rw [if_neg closed, if_neg closed]
    cases found : mfpChannels.find? (serviceable m.ipr m.imr m.isr) with
    | none => exact kept .none rfl
    | some channel =>
      dsimp only
      have below : channel < 16 := mem_mfpChannels.mp (List.mem_of_find?_eq_some found)
      have bits (bit : Fin 8) : (m.ipr &&& ~~~channelBit channel).getLsbD (gpioChannel bit) = true ↔
          m.pending bit = true ∧
            ¬∃ other, some channel = some other ∧ channelBit other = intMaskGpio bit := by
        have own : channelBit channel = intMaskGpio bit ↔ channel = gpioChannel bit := by
          revert bit
          interval_cases channel <;> decide
        have mask : (channelBit channel).getLsbD (gpioChannel bit) =
            decide (channel = gpioChannel bit) := by
          revert bit
          interval_cases channel <;> decide
        rw [BitVec.getLsbD_and, BitVec.getLsbD_not, mask, Bool.and_eq_true, Bool.and_eq_true,
          pending_eq]
        simp [own, gpioChannel_lt]
      rw [acknowledge]
      refine ⟨m.ipr &&& ~~~channelBit channel, ?_, bits⟩
      split_ifs
      · obtain ⟨ipr, ier, ddr, aer, gpip, gpioInput⟩ := checkInterrupts_alarms
          ({ m with isr := m.isr ||| channelBit channel, ipr := m.ipr &&& ~~~channelBit channel }.onIrq
            false)
        exact ⟨ipr, ier, ddr, aer, gpip, gpioInput⟩
      · obtain ⟨ipr, ier, ddr, aer, gpip, gpioInput⟩ := checkInterrupts_alarms
          ({ m with ipr := m.ipr &&& ~~~channelBit channel }.onIrq false)
        exact ⟨ipr, ier, ddr, aer, gpip, gpioInput⟩

end Mfp

namespace Mfp

/-- A write changes its own register of the pins, and no pin. -/
theorem writeRegister_pins (m : Mfp) (value : Byte) (register : MfpRegister) :
    (m.writeRegister value register).aer = (if register = .aer then value else m.aer) ∧
      (m.writeRegister value register).ddr = (if register = .ddr then value else m.ddr) ∧
      (m.writeRegister value register).gpip = (if register = .gpdr then value else m.gpip) ∧
      (m.writeRegister value register).gpioInput = m.gpioInput := by
  have checked (t : Mfp) : t.checkInterrupts.aer = t.aer ∧ t.checkInterrupts.ddr = t.ddr ∧
      t.checkInterrupts.gpip = t.gpip ∧ t.checkInterrupts.gpioInput = t.gpioInput := by
    obtain ⟨_, _, ddr, aer, gpip, gpioInput⟩ := checkInterrupts_alarms t
    exact ⟨aer, ddr, gpip, gpioInput⟩
  cases register with
  | gpdr =>
    obtain ⟨_, alarms, _⟩ := @updateGpipInterrupts_alarms
      ({ m with gpip := value }.updateGpioOutput) m.gpip value m.aer m.aer
    exact ⟨alarms.aer, alarms.ddr, alarms.gpip, alarms.gpioInput⟩
  | aer =>
    obtain ⟨_, alarms, _⟩ := @updateGpipInterrupts_alarms { m with aer := value } m.gpioInput
      m.gpioInput m.aer value
    exact ⟨alarms.aer, alarms.ddr, alarms.gpip, alarms.gpioInput⟩
  | iera => exact checked _
  | ierb => exact checked _
  | ipra => exact checked _
  | iprb => exact checked _
  | imra => exact checked _
  | imrb => exact checked _
  | vr =>
    rw [writeRegister, putVr]
    by_cases leaves : m.vr.getLsbD 3 ≠ value.getLsbD 3 ∧ value.getLsbD 3 = false
    · rw [if_pos leaves]
      exact ⟨rfl, rfl, rfl, rfl⟩
    · rw [if_neg leaves]
      exact ⟨rfl, rfl, rfl, rfl⟩
  | _ => exact ⟨rfl, rfl, rfl, rfl⟩

/-- A word and another one have the bit of a pin. -/
theorem and_pending (ipr other : Word) (bit : Fin 8) :
    (ipr &&& other).getLsbD (gpioChannel bit) = true ↔
      ipr.getLsbD (gpioChannel bit) = true ∧ ¬other &&& intMaskGpio bit = 0 := by
  rw [BitVec.getLsbD_and, Bool.and_eq_true, ← mask_ne_zero other]

end Mfp

namespace PinBench

/-- The registers of the chip are those last written. -/
structure Matches (bench : PinBench) : Prop where
  pins : ∀ bit, bench.pins bit = bench.mfp.gpioInput.getLsbD bit
  edges : bench.edges = bench.mfp.aer
  directions : bench.directions = bench.mfp.ddr
  written : bench.written = bench.mfp.gpip

theorem matches_of (m : Mfp) : (PinBench.of m).Matches := ⟨fun _ => rfl, rfl, rfl, rfl⟩

theorem Matches.step (agrees : bench.Matches) (event : PinEvent) : (bench.step event).Matches := by
  cases event with
  | pin bit state =>
    obtain ⟨_, pins, alarms, bits, _⟩ := @Mfp.gpioInputPin_alarms bench.mfp bit state
    refine ⟨fun other => ?_, agrees.edges.trans alarms.aer.symm,
      agrees.directions.trans alarms.ddr.symm, agrees.written.trans alarms.gpip.symm⟩
    change Function.update bench.pins bit state other =
      (bench.mfp.gpioInputPin bit state).gpioInput.getLsbD other
    rw [alarms.gpioInput, bits, Function.update_apply, agrees.pins]
  | write register listed value =>
    obtain ⟨aer, ddr, gpip, gpioInput⟩ := Mfp.writeRegister_pins bench.mfp value register
    refine ⟨fun bit => ?_, ?_, ?_, ?_⟩
    · exact (agrees.pins bit).trans (congrArg (BitVec.getLsbD · bit.val) gpioInput.symm)
    · exact (congrArg (if register = .aer then value else ·) agrees.edges).trans aer.symm
    · exact (congrArg (if register = .ddr then value else ·) agrees.directions).trans ddr.symm
    · exact (congrArg (if register = .gpdr then value else ·) agrees.written).trans gpip.symm
  | acknowledge daisyChain =>
    obtain ⟨_, alarms, _⟩ := @Mfp.getVector_alarms bench.mfp daisyChain
    exact ⟨fun bit => (agrees.pins bit).trans (congrArg (BitVec.getLsbD · bit.val)
      alarms.gpioInput.symm), agrees.edges.trans alarms.aer.symm,
      agrees.directions.trans alarms.ddr.symm, agrees.written.trans alarms.gpip.symm⟩

theorem Matches.reads (agrees : bench.Matches) : bench.ReadsPins := by
  intro bit
  have value : (bench.mfp.readRegister .gpdr).2 =
      (bench.mfp.gpip &&& bench.mfp.ddr) ||| (bench.mfp.gpioInput &&& ~~~bench.mfp.ddr) := rfl
  rw [value, agrees.pins, agrees.directions, agrees.written, BitVec.getLsbD_or, BitVec.getLsbD_and,
    BitVec.getLsbD_and, BitVec.getLsbD_not, decide_eq_true bit.isLt, Bool.true_and]
  cases bench.mfp.ddr.getLsbD bit <;> simp

/-- No pin rises where neither the pins nor the edges change. -/
theorem not_rises {after : PinBench} {bit : Fin 8} (pins : after.pins = bench.pins)
    (edges : after.edges = bench.edges) : ¬bench.Rises after bit := by
  rintro ⟨differs, equal⟩
  rw [pins, edges] at equal
  exact differs equal

/-- A change of a pin keeps the law. -/
theorem pin_law (agrees : bench.Matches) (pin : Fin 8) (state : Bool) :
    bench.EdgeLaw (.pin pin state) := by
  intro bit _
  obtain ⟨ipr, pins, alarms, bits, pending⟩ := @Mfp.gpioInputPin_alarms bench.mfp pin state
  have after : (bench.step (.pin pin state)).mfp.pending bit = true ↔
      ipr.getLsbD (gpioChannel bit) = true := by
    rw [Mfp.pending_eq, ← alarms.ipr]
    rfl
  have rises : bench.Rises (bench.step (.pin pin state)) bit ↔ pin = bit ∧
      bench.mfp.gpioInput.getLsbD bit ≠ bench.mfp.aer.getLsbD bit ∧
        state = bench.mfp.aer.getLsbD bit := by
    change bench.pins bit ≠ bench.edges.getLsbD bit ∧
      Function.update bench.pins pin state bit = bench.edges.getLsbD bit ↔ _
    rw [agrees.pins, agrees.edges, Function.update_apply, agrees.pins]
    by_cases same : bit = pin
    · rw [if_pos same]
      exact ⟨fun both => ⟨same.symm, both⟩, And.right⟩
    · rw [if_neg same]
      exact ⟨fun both => absurd both.2 both.1, fun all => absurd all.1.symm same⟩
  have clears : ¬bench.Clears (.pin pin state) bit := id
  rw [after, pending, rises, iff_false_intro clears, not_false_eq_true, and_true, or_comm]
  refine or_congr_left ?_
  tauto

/-- An acknowledge keeps the law. -/
theorem acknowledge_law (bench : PinBench) (daisyChain : Option Byte) :
    bench.EdgeLaw (.acknowledge daisyChain) := by
  intro bit _
  obtain ⟨ipr, alarms, pending⟩ := @Mfp.getVector_alarms bench.mfp daisyChain
  have after : (bench.step (.acknowledge daisyChain)).mfp.pending bit = true ↔
      ipr.getLsbD (gpioChannel bit) = true := by
    rw [Mfp.pending_eq, ← alarms.ipr]
    rfl
  have quiet : ¬bench.Rises (bench.step (.acknowledge daisyChain)) bit := not_rises rfl rfl
  rw [after, pending]
  exact ⟨.inr, fun either => either.resolve_left fun both => quiet both.2⟩

variable {value : Byte}

/-- A write that makes nothing pending and clears what it should keeps the law. -/
theorem quiet_write {register : MfpRegister} {listed : register ∈ pinRegisters}
    (other : register ≠ .aer)
    (pending : ∀ bit, (bench.mfp.writeRegister value register).pending bit = true ↔
      bench.mfp.pending bit = true ∧ ¬bench.Clears (.write register listed value) bit) :
    bench.EdgeLaw (.write register listed value) := by
  intro bit _
  have quiet : ¬bench.Rises (bench.step (.write register listed value)) bit :=
    not_rises rfl (if_neg other)
  exact (pending bit).trans ⟨.inr, fun either => either.resolve_left fun both => quiet both.2⟩

/-- A write of the active edges keeps the law. -/
theorem edge_law (agrees : bench.Matches) (listed : .aer ∈ pinRegisters) :
    bench.EdgeLaw (.write .aer listed value) := by
  intro bit input
  obtain ⟨ipr, alarms, pending⟩ := @Mfp.updateGpipInterrupts_alarms
    { bench.mfp with aer := value } bench.mfp.gpioInput bench.mfp.gpioInput bench.mfp.aer value
  have after : (bench.step (.write .aer listed value)).mfp.pending bit = true ↔
      ipr.getLsbD (gpioChannel bit) = true := by
    rw [Mfp.pending_eq, ← alarms.ipr]
    rfl
  have rises : bench.Rises (bench.step (.write .aer listed value)) bit ↔
      bench.mfp.gpioInput.getLsbD bit ≠ bench.mfp.aer.getLsbD bit ∧
        bench.mfp.gpioInput.getLsbD bit = value.getLsbD bit := by
    change bench.pins bit ≠ bench.edges.getLsbD bit ∧ bench.pins bit = value.getLsbD bit ↔ _
    rw [agrees.pins, agrees.edges]
  have clears : ¬bench.Clears (.write .aer listed value) bit := by
    rintro (⟨other, _⟩ | ⟨other, _⟩ | ⟨other, _⟩ | ⟨other, _⟩) <;> cases other
  have direction : bench.mfp.ddr.getLsbD bit = false := agrees.directions ▸ input
  rw [after, pending, rises, iff_false_intro clears, not_false_eq_true, and_true, or_comm]
  exact or_congr_left ⟨fun crosses => ⟨crosses.2.1, crosses.2.2⟩,
    fun both => ⟨direction, both.1, both.2⟩⟩

/-- A write of the data keeps the law exactly when it keeps the inputs. -/
theorem data_law (agrees : bench.Matches) (listed : .gpdr ∈ pinRegisters) :
    bench.EdgeLaw (.write .gpdr listed value) ↔ bench.KeepsInputs (.write .gpdr listed value) := by
  obtain ⟨ipr, alarms, pending⟩ := @Mfp.updateGpipInterrupts_alarms
    ({ bench.mfp with gpip := value }.updateGpioOutput) bench.mfp.gpip value bench.mfp.aer
      bench.mfp.aer
  have after (bit : Fin 8) : (bench.step (.write .gpdr listed value)).mfp.pending bit = true ↔
      bench.mfp.pending bit = true ∨ (bench.directions.getLsbD bit = false ∧
        bench.mfp.enabled bit = true ∧ bench.written.getLsbD bit ≠ bench.edges.getLsbD bit ∧
        value.getLsbD bit = bench.edges.getLsbD bit) := by
    have bits : (bench.step (.write .gpdr listed value)).mfp.pending bit = true ↔
        ipr.getLsbD (gpioChannel bit) = true := by
      rw [Mfp.pending_eq, ← alarms.ipr]
      rfl
    rw [bits, pending, agrees.directions, agrees.written, agrees.edges]
    rfl
  have quiet (bit : Fin 8) : ¬bench.Rises (bench.step (.write .gpdr listed value)) bit :=
    not_rises rfl rfl
  have clears (bit : Fin 8) : ¬bench.Clears (.write .gpdr listed value) bit := by
    rintro (⟨other, _⟩ | ⟨other, _⟩ | ⟨other, _⟩ | ⟨other, _⟩) <;> cases other
  constructor
  · intro law bit input enabled differs reached
    have set := (law bit input).mp ((after bit).mpr (.inr ⟨input, enabled, differs, reached⟩))
    exact set.elim (fun both => absurd both.2 (quiet bit)) And.left
  · intro keeps bit input
    rw [after bit]
    constructor
    · rintro (already | ⟨_, enabled, differs, reached⟩)
      · exact .inr ⟨already, clears bit⟩
      · exact .inr ⟨keeps bit input enabled differs reached, clears bit⟩
    · exact fun either => either.elim (fun both => absurd both.2 (quiet bit)) fun both => .inl both.1

/-- A write that takes away pending bits keeps the law. -/
theorem masked_write {register : MfpRegister} {listed : register ∈ pinRegisters} {mask : Word}
    (other : register ≠ .aer)
    (ipr : (bench.mfp.writeRegister value register).ipr = bench.mfp.ipr &&& mask)
    (clears : ∀ bit, bench.Clears (.write register listed value) bit ↔ mask &&& intMaskGpio bit = 0) :
    bench.EdgeLaw (.write register listed value) := by
  refine quiet_write other fun bit => ?_
  rw [Mfp.pending_eq, ipr, Mfp.and_pending, clears, Mfp.pending_eq]

/-- A write of another register keeps the law. -/
theorem plain_write {register : MfpRegister} {listed : register ∈ pinRegisters}
    (other : register ≠ .aer)
    (ipr : (bench.mfp.writeRegister value register).ipr = bench.mfp.ipr)
    (clears : ∀ bit, ¬bench.Clears (.write register listed value) bit) :
    bench.EdgeLaw (.write register listed value) := by
  refine quiet_write other fun bit => ?_
  rw [Mfp.pending_eq, ipr, ← Mfp.pending_eq]
  exact ⟨fun on => ⟨on, clears bit⟩, And.left⟩

/-- A step keeps the law exactly when it keeps the inputs. -/
theorem law_iff (agrees : bench.Matches) (event : PinEvent) :
    bench.EdgeLaw event ↔ bench.KeepsInputs event := by
  cases event with
  | pin bit state => exact iff_of_true (pin_law agrees bit state) trivial
  | acknowledge daisyChain => exact iff_of_true (acknowledge_law bench daisyChain) trivial
  | write register listed value =>
    cases register with
    | gpdr => exact data_law agrees listed
    | aer => exact iff_of_true (edge_law agrees listed) trivial
    | iera =>
      exact iff_of_true (masked_write (by decide) (Mfp.checkInterrupts_alarms _).ipr
        fun bit => by simp [Clears]) trivial
    | ierb =>
      exact iff_of_true (masked_write (by decide) (Mfp.checkInterrupts_alarms _).ipr
        fun bit => by simp [Clears]) trivial
    | ipra =>
      exact iff_of_true (masked_write (by decide) (Mfp.checkInterrupts_alarms _).ipr
        fun bit => by simp [Clears]) trivial
    | iprb =>
      exact iff_of_true (masked_write (by decide) (Mfp.checkInterrupts_alarms _).ipr
        fun bit => by simp [Clears]) trivial
    | ddr => exact iff_of_true (plain_write (by decide) rfl fun bit => by simp [Clears]) trivial
    | imra =>
      exact iff_of_true (plain_write (by decide) (Mfp.checkInterrupts_alarms _).ipr
        fun bit => by simp [Clears]) trivial
    | imrb =>
      exact iff_of_true (plain_write (by decide) (Mfp.checkInterrupts_alarms _).ipr
        fun bit => by simp [Clears]) trivial
    | isra => exact iff_of_true (plain_write (by decide) rfl fun bit => by simp [Clears]) trivial
    | isrb => exact iff_of_true (plain_write (by decide) rfl fun bit => by simp [Clears]) trivial
    | _ => exact absurd listed (by decide)

end PinBench

end Steps

section Claims

/-- In every run the inputs become pending at their active edges exactly when the data writes keep
them, and the data register is read from the pins and from what was written. -/
theorem mfp_input_pins (m : Mfp) (events : List PinEvent) :
    (EachStep PinBench.step PinBench.EdgeLaw (.of m) events ↔
      EachStep PinBench.step PinBench.KeepsInputs (.of m) events) ∧
    EachState PinBench.step PinBench.ReadsPins (.of m) events := by
  have keeps (bench : PinBench) (event : PinEvent) (agrees : bench.Matches) :
      (bench.step event).Matches := agrees.step event
  refine ⟨?_, ?_⟩
  · exact @eachStep_iff_eachStep _ _ PinBench.step PinBench.Matches (fun _ => True) _ _ _ keeps
      (fun _ event agrees _ => PinBench.law_iff agrees event) (fun _ _ _ => trivial)
      (PinBench.matches_of m) trivial events
  · exact (eachState_of_keeps keeps (PinBench.matches_of m) events).weaken fun _ agrees =>
      agrees.reads

/-- Data are written twice, and no pin moves. -/
def writtenEdge : List PinEvent :=
  [.write .ierb (by decide) 1, .write .gpdr (by decide) 1, .write .gpdr (by decide) 0]

set_option maxRecDepth 4000 in
/-- The second write makes the channel of an input pending. -/
theorem mfp_pins_fail :
    ¬EachStep PinBench.step PinBench.EdgeLaw (.of Mfp.cardMfp) writtenEdge := by
  intro each
  obtain ⟨_, _, law, _⟩ := each
  rcases (law 0 rfl).mp (by decide) with ⟨_, differs, _⟩ | ⟨pending, _⟩
  · exact differs rfl
  · exact absurd pending (by decide)

end Claims

end Nd100x.Ethernet
