import Nd100x.Ethernet.Mfp
import Nd100x.Library.Runs
import Mathlib.Tactic.IntervalCases

namespace Nd100x.Ethernet

open Nd100x.Library

inductive MfpEvent where
  | write (address : BitVec 32) (value : Byte)
  | read (address : BitVec 32)
  | gpioInput (bit : Fin 8) (state : Bool)
  | timerInputA (newState : Bool)
  | timerInputB (newState : Bool)
  | clock
  | clockTimers
  | serialInput (state : Bool)
  | receiverClock (state : Bool)
  | transmitterClock (state : Bool)
  | receiveSerialByte (data : Byte)
  | softwareInterrupt (channel : Int) (vectorBase : Byte)
  | triggerPin (gpioPin : Int)
  | triggerTimerC
  | triggerReceive
  | triggerReceiveError
  | triggerTransmit
  | triggerTransmitError
  | acknowledge (daisyChain : Option Byte)
  deriving DecidableEq, Repr

/-- Some channel is pending, unmasked and not below a channel in service. -/
def Serves (ipr imr isr : Word) (channel : Nat) : Prop :=
  channel < 16 ∧ ipr.getLsbD channel = true ∧ imr.getLsbD channel = true ∧
    ∀ higher, channel < higher → isr.getLsbD higher = false

namespace Mfp

def step (m : Mfp) : MfpEvent → Mfp
  | .write address value => m.write address value
  | .read address => (m.read address).1
  | .gpioInput bit state => m.gpioInputPin bit state
  | .timerInputA newState => m.timerInputA newState
  | .timerInputB newState => m.timerInputB newState
  | .clock => m.clock
  | .clockTimers => m.clockTimers
  | .serialInput state => m.setSerialInput state
  | .receiverClock state => m.setReceiverClock state
  | .transmitterClock state => m.setTransmitterClock state
  | .receiveSerialByte data => m.receiveSerialByte data
  | .softwareInterrupt channel vectorBase => m.triggerSoftwareInterrupt channel vectorBase
  | .triggerPin gpioPin => m.triggerInterrupt gpioPin
  | .triggerTimerC => m.triggerTimerCInterrupt
  | .triggerReceive => m.triggerUsartReceiveInterrupt
  | .triggerReceiveError => m.triggerUsartReceiveError
  | .triggerTransmit => m.triggerUsartTransmitInterrupt
  | .triggerTransmitError => m.triggerUsartTransmitError
  | .acknowledge daisyChain => (m.getVector daisyChain).1

/-- The line is high exactly when some channel can be served. -/
def LineAgrees (m : Mfp) : Prop := m.line = true ↔ ∃ channel, Serves m.ipr m.imr m.isr channel

/-- The in-service bits after a write. -/
def writtenIsr (m : Mfp) (value : Byte) : MfpRegister → Word
  | .isra => m.isr &&& putHigh m.isr value
  | .isrb => m.isr &&& putLow m.isr value
  | .vr => if m.vr.getLsbD 3 = true ∧ value.getLsbD 3 = false then 0 else m.isr
  | _ => m.isr

/-- A write that clears in-service bits lets no channel through when all were blocked. -/
def UnblocksNone (m : Mfp) : MfpEvent → Prop
  | .write address value => ∀ register, m.map2register address = some register →
      (∃ channel, Serves m.ipr m.imr (m.writtenIsr value register) channel) →
        ∃ channel, Serves m.ipr m.imr m.isr channel
  | _ => True

/-- An acknowledge of a high line answers the highest channel that can be served. Only its pending
bit is cleared, and it is in service exactly in the software end-of-interrupt mode. -/
def AnswersHighest (m : Mfp) : MfpEvent → Prop
  | .acknowledge daisyChain => m.line = true → ∃ channel,
      Serves m.ipr m.imr m.isr channel ∧
      (∀ other, Serves m.ipr m.imr m.isr other → other ≤ channel) ∧
      (m.getVector daisyChain).2 = m.vectorOf channel ∧
      (m.getVector daisyChain).1.ipr = m.ipr &&& ~~~channelBit channel ∧
      (m.getVector daisyChain).1.isr =
        if m.vr.getLsbD 3 then m.isr ||| channelBit channel else m.isr
  | _ => True

end Mfp

/- The channels of the loops. -/

theorem getLsbD_zero_word (i : Nat) : (0 : Word).getLsbD i = false := BitVec.getLsbD_zero

theorem mem_mfpChannels {channel : Nat} : channel ∈ mfpChannels ↔ channel < 16 := by
  constructor
  · revert channel
    decide
  · intro below
    interval_cases channel <;> decide

theorem channelBit_ne_zero {word : Word} {channel : Nat} (below : channel < 16) :
    word &&& channelBit channel ≠ 0 ↔ word.getLsbD channel = true := by
  have bit : channelBit channel = BitVec.twoPow 16 channel := by
    interval_cases channel <;> rfl
  rw [bit]
  constructor
  · intro some_
    by_contra off
    refine some_ (BitVec.eq_of_getLsbD_eq fun i inside => ?_)
    rw [BitVec.getLsbD_and, BitVec.getLsbD_twoPow, getLsbD_zero_word]
    by_cases here : channel = i
    · subst here
      rw [Bool.eq_false_of_not_eq_true off, Bool.false_and]
    · simp [here]
  · intro on zero
    have off := congrArg (BitVec.getLsbD · channel) zero
    rw [BitVec.getLsbD_and, BitVec.getLsbD_twoPow, on, getLsbD_zero_word] at off
    simp [below] at off

theorem higherPriorityMask_getLsbD {channel : Nat} (below : channel < 16) (i : Nat) (inside : i < 16) :
    (higherPriorityMask channel).getLsbD i = decide (channel < i) := by
  interval_cases channel <;> interval_cases i <;> rfl

theorem higherPriorityMask_zero {isr : Word} {channel : Nat} (below : channel < 16) :
    isr &&& higherPriorityMask channel = 0 ↔
      ∀ higher, channel < higher → isr.getLsbD higher = false := by
  constructor
  · intro zero higher above
    by_cases inside : higher < 16
    · have off := congrArg (BitVec.getLsbD · higher) zero
      rw [BitVec.getLsbD_and, higherPriorityMask_getLsbD below higher inside, decide_eq_true above,
        Bool.and_true] at off
      exact off.trans (getLsbD_zero_word higher)
    · exact BitVec.getLsbD_of_ge isr higher (Nat.le_of_not_lt inside)
  · intro none_
    refine BitVec.eq_of_getLsbD_eq fun i inside => ?_
    rw [BitVec.getLsbD_and, higherPriorityMask_getLsbD below i inside, getLsbD_zero_word]
    by_cases above : channel < i
    · rw [none_ i above, Bool.false_and]
    · rw [decide_eq_false above, Bool.and_false]

theorem serviceable_iff {ipr imr isr : Word} {channel : Nat} (below : channel < 16) :
    serviceable ipr imr isr channel = true ↔ Serves ipr imr isr channel := by
  rw [serviceable, Bool.and_eq_true, decide_eq_true_eq, decide_eq_true_eq,
    channelBit_ne_zero below, higherPriorityMask_zero below, BitVec.getLsbD_and, Bool.and_eq_true,
    Serves, and_assoc]
  exact ⟨fun all => ⟨below, all⟩, And.right⟩

theorem anyServiceable_iff {ipr imr isr : Word} :
    anyServiceable ipr imr isr = true ↔ ∃ channel, Serves ipr imr isr channel := by
  rw [anyServiceable, List.any_eq_true]
  constructor
  · rintro ⟨channel, member, serves⟩
    exact ⟨channel, (serviceable_iff (mem_mfpChannels.mp member)).mp serves⟩
  · rintro ⟨channel, serves⟩
    exact ⟨channel, mem_mfpChannels.mpr serves.1, (serviceable_iff serves.1).mpr serves⟩

/-- Fewer channels in service block fewer channels. -/
theorem Serves.fewer {ipr imr isr fewer : Word} {channel : Nat} (serves : Serves ipr imr isr channel)
    (less : ∀ i, fewer.getLsbD i = true → isr.getLsbD i = true) :
    Serves ipr imr fewer channel := by
  obtain ⟨below, pending, unmasked, none_⟩ := serves
  refine ⟨below, pending, unmasked, fun higher above => ?_⟩
  by_contra on
  have blocked := less higher (Bool.eq_true_of_not_eq_false on)
  rw [none_ higher above] at blocked
  exact Bool.false_ne_true blocked

namespace Mfp

/-- The last report is remembered, and a high line has a channel to serve. -/
structure Tracks (m : Mfp) : Prop where
  iei : m.iei = true
  remembered : m.lastIrqState = m.line
  raised : m.line = true → anyServiceable m.ipr m.imr m.isr = true

/-- A step keeps the line in agreement. -/
structure Steady (m t : Mfp) : Prop where
  tracks : m.Tracks → t.Tracks
  agrees : m.Tracks → m.LineAgrees → t.LineAgrees

/-- The fields that the line depends on. -/
structure SameLine (m t : Mfp) : Prop where
  ipr : t.ipr = m.ipr
  imr : t.imr = m.imr
  isr : t.isr = m.isr
  iei : t.iei = m.iei
  lastIrqState : t.lastIrqState = m.lastIrqState
  line : t.line = m.line

variable {m t u : Mfp}

theorem lineAgrees_iff : m.LineAgrees ↔ m.line = anyServiceable m.ipr m.imr m.isr := by
  rw [LineAgrees, ← anyServiceable_iff]
  exact Bool.eq_iff_iff.symm

theorem SameLine.agrees (same : SameLine m t) : t.LineAgrees ↔ m.LineAgrees := by
  rw [LineAgrees, LineAgrees, same.ipr, same.imr, same.isr, same.line]

theorem SameLine.tracks (same : SameLine m t) (tracks : m.Tracks) : t.Tracks where
  iei := same.iei.trans tracks.iei
  remembered := same.lastIrqState.trans (tracks.remembered.trans same.line.symm)
  raised := by
    rw [same.line, same.ipr, same.imr, same.isr]
    exact tracks.raised

theorem SameLine.steady (same : SameLine m t) : Steady m t :=
  ⟨same.tracks, fun _ => same.agrees.mpr⟩

theorem SameLine.refl (m : Mfp) : SameLine m m := ⟨rfl, rfl, rfl, rfl, rfl, rfl⟩

theorem Steady.refl (m : Mfp) : Steady m m := (SameLine.refl m).steady

theorem Steady.trans (first : Steady m t) (second : Steady t u) : Steady m u :=
  ⟨fun tracks => second.tracks (first.tracks tracks),
    fun tracks agrees => second.agrees (first.tracks tracks) (first.agrees tracks agrees)⟩

/- One check of the interrupts. -/

/-- A check leaves all registers as they are. -/
theorem checkInterrupts_registers (m : Mfp) :
    m.checkInterrupts.ipr = m.ipr ∧ m.checkInterrupts.imr = m.imr ∧
      m.checkInterrupts.isr = m.isr ∧ m.checkInterrupts.vr = m.vr ∧
      m.checkInterrupts.iei = m.iei ∧
      m.checkInterrupts.useSystemVectorMapping = m.useSystemVectorMapping := by
  simp only [checkInterrupts]
  split_ifs <;> exact ⟨rfl, rfl, rfl, rfl, rfl, rfl⟩

theorem checkInterrupts_settles (iei : m.iei = true) (remembered : m.lastIrqState = m.line) :
    m.checkInterrupts.Tracks ∧ m.checkInterrupts.LineAgrees := by
  obtain ⟨ipr, imr, isr, -, kept, -⟩ := checkInterrupts_registers m
  have line : m.checkInterrupts.line = anyServiceable m.ipr m.imr m.isr ∧
      m.checkInterrupts.lastIrqState = anyServiceable m.ipr m.imr m.isr := by
    rw [checkInterrupts, iei, if_neg (by decide)]
    by_cases moved : anyServiceable m.ipr m.imr m.isr = m.lastIrqState
    · rw [if_neg (not_not.mpr moved), moved]
      exact ⟨remembered.symm, rfl⟩
    · rw [if_pos moved]
      exact ⟨rfl, rfl⟩
  refine ⟨⟨kept.trans iei, line.2.trans line.1.symm, fun high => ?_⟩, lineAgrees_iff.mpr ?_⟩
  · rw [ipr, imr, isr]
    exact line.1.symm.trans high
  · rw [ipr, imr, isr]
    exact line.1

/-- A check after a change of the registers settles the line. -/
theorem Steady.check (iei : t.iei = m.iei) (last : t.lastIrqState = m.lastIrqState)
    (line : t.line = m.line) : Steady m t.checkInterrupts :=
  have settles (tracks : m.Tracks) := @checkInterrupts_settles t (iei.trans tracks.iei)
    (last.trans (tracks.remembered.trans line.symm))
  ⟨fun tracks => (settles tracks).1, fun tracks _ => (settles tracks).2⟩

theorem takeInterrupt_steady (m : Mfp) (ivn : Word) : Steady m (m.takeInterrupt ivn) :=
  .check rfl rfl rfl

theorem tryTakeInterrupt_steady (m : Mfp) (ivn : Word) : Steady m (m.tryTakeInterrupt ivn) := by
  rw [tryTakeInterrupt]
  split_ifs
  · exact takeInterrupt_steady m ivn
  · exact .refl m

theorem foldl_tryTakeInterrupt_steady (m : Mfp) (vectors : List Word) :
    Steady m (vectors.foldl tryTakeInterrupt m) := by
  induction vectors generalizing m with
  | nil => exact .refl m
  | cons ivn rest ih =>
    exact (tryTakeInterrupt_steady m ivn).trans (ih _)

theorem onUsart_steady (m : Mfp) (asks : Usart.Asks) : Steady m (m.onUsart asks) := by
  have changed : SameLine m { m with usart := asks.1 } := ⟨rfl, rfl, rfl, rfl, rfl, rfl⟩
  exact changed.steady.trans (foldl_tryTakeInterrupt_steady _ asks.2)

/- Registers. -/

theorem updateGpipInterrupts_steady (m : Mfp) (gpipOld gpipNew aerOld aerNew : Byte) :
    Steady m (m.updateGpipInterrupts gpipOld gpipNew aerOld aerNew) := by
  rw [updateGpipInterrupts]
  generalize List.finRange 8 = pins
  induction pins generalizing m with
  | nil => exact .refl m
  | cons bit rest ih =>
    refine Steady.trans ?_ (ih _)
    rw [updateGpipInterrupt]
    split_ifs
    · exact .refl m
    · exact .refl m
    · exact takeInterrupt_steady m _
    · exact .refl m

theorem readRegister_steady (m : Mfp) (register : MfpRegister) :
    Steady m (m.readRegister register).1 := by
  cases register with
  | rsr => exact SameLine.steady ⟨rfl, rfl, rfl, rfl, rfl, rfl⟩
  | tsr => exact SameLine.steady ⟨rfl, rfl, rfl, rfl, rfl, rfl⟩
  | udr => exact onUsart_steady m _
  | _ => exact .refl m

theorem read_steady (m : Mfp) (address : BitVec 32) : Steady m (m.read address).1 := by
  rw [read]
  cases m.map2register address with
  | none => exact .refl m
  | some register => exact readRegister_steady m register

theorem less_putIsr (isr mask : Word) (i : Nat) (on : (isr &&& mask).getLsbD i = true) :
    isr.getLsbD i = true := by
  rw [BitVec.getLsbD_and, Bool.and_eq_true] at on
  exact on.1

theorem writtenIsr_less (m : Mfp) (value : Byte) (register : MfpRegister) (i : Nat)
    (on : (m.writtenIsr value register).getLsbD i = true) : m.isr.getLsbD i = true := by
  cases register with
  | isra => exact less_putIsr _ _ i on
  | isrb => exact less_putIsr _ _ i on
  | vr =>
    rw [writtenIsr] at on
    split_ifs at on
    · rw [getLsbD_zero_word] at on
      exact absurd on Bool.false_ne_true
    · exact on
  | _ => exact on

/-- A write keeps the line in agreement, or it only changes the in-service bits. -/
theorem writeRegister_cases (m : Mfp) (value : Byte) (register : MfpRegister) :
    Steady m (m.writeRegister value register) ∧ m.writtenIsr value register = m.isr ∨
      SameLine { m with isr := m.writtenIsr value register } (m.writeRegister value register) := by
  have same {t : Mfp} (kept : SameLine m t) : Steady m t := kept.steady
  cases register with
  | gpdr =>
    refine .inl ⟨Steady.trans ?_ (updateGpipInterrupts_steady _ _ _ _ _), rfl⟩
    exact same ⟨rfl, rfl, rfl, rfl, rfl, rfl⟩
  | aer =>
    refine .inl ⟨Steady.trans ?_ (updateGpipInterrupts_steady _ _ _ _ _), rfl⟩
    exact same ⟨rfl, rfl, rfl, rfl, rfl, rfl⟩
  | iera => exact .inl ⟨.check rfl rfl rfl, rfl⟩
  | ierb => exact .inl ⟨.check rfl rfl rfl, rfl⟩
  | ipra => exact .inl ⟨.check rfl rfl rfl, rfl⟩
  | iprb => exact .inl ⟨.check rfl rfl rfl, rfl⟩
  | imra => exact .inl ⟨.check rfl rfl rfl, rfl⟩
  | imrb => exact .inl ⟨.check rfl rfl rfl, rfl⟩
  | isra => exact .inr ⟨rfl, rfl, rfl, rfl, rfl, rfl⟩
  | isrb => exact .inr ⟨rfl, rfl, rfl, rfl, rfl, rfl⟩
  | vr =>
    right
    rw [writeRegister, putVr, writtenIsr]
    by_cases leaves : m.vr.getLsbD 3 = true ∧ value.getLsbD 3 = false
    · rw [if_pos leaves, if_pos ⟨by rw [leaves.1, leaves.2]; decide, leaves.2⟩]
      exact ⟨rfl, rfl, rfl, rfl, rfl, rfl⟩
    · rw [if_neg leaves, if_neg fun both => leaves ⟨by
        rw [both.2] at both
        exact Bool.eq_true_of_not_eq_false both.1, both.2⟩]
      exact ⟨rfl, rfl, rfl, rfl, rfl, rfl⟩
  | _ => exact .inl ⟨same ⟨rfl, rfl, rfl, rfl, rfl, rfl⟩, rfl⟩

theorem write_tracks (tracks : m.Tracks) (address : BitVec 32) (value : Byte) :
    (m.write address value).Tracks := by
  rw [write]
  cases m.map2register address with
  | none => exact tracks
  | some register =>
    rcases writeRegister_cases m value register with ⟨steady, -⟩ | same
    · exact steady.tracks tracks
    · refine same.tracks ⟨tracks.iei, tracks.remembered, fun high => ?_⟩
      obtain ⟨channel, serves⟩ := anyServiceable_iff.mp (tracks.raised high)
      exact anyServiceable_iff.mpr ⟨channel, serves.fewer (writtenIsr_less m value register)⟩

/-- A write that clears in-service bits keeps the agreement exactly when it lets nothing through. -/
theorem write_agrees (tracks : m.Tracks) (agrees : m.LineAgrees) (address : BitVec 32)
    (value : Byte) :
    (m.write address value).LineAgrees ↔ m.UnblocksNone (.write address value) := by
  rw [UnblocksNone, write]
  cases mapped : m.map2register address with
  | none => exact iff_of_true agrees fun register same => absurd same (by simp)
  | some register =>
    have only : (∀ other, some register = some other →
        (∃ channel, Serves m.ipr m.imr (m.writtenIsr value other) channel) →
          ∃ channel, Serves m.ipr m.imr m.isr channel) ↔
        ((∃ channel, Serves m.ipr m.imr (m.writtenIsr value register) channel) →
          ∃ channel, Serves m.ipr m.imr m.isr channel) := by
      constructor
      · intro all
        exact all register rfl
      · rintro one other same
        rw [← Option.some.inj same]
        exact one
    rw [only]
    rcases writeRegister_cases m value register with ⟨steady, kept⟩ | same
    · rw [kept]
      exact iff_of_true (steady.agrees tracks agrees) id
    · rw [same.agrees, LineAgrees]
      dsimp only
      have less := writtenIsr_less m value register
      constructor
      · intro agreed open_
        exact agrees.mp (agreed.mpr open_)
      · intro none_
        refine ⟨fun high => ?_, fun open_ => agrees.mpr (none_ open_)⟩
        obtain ⟨channel, serves⟩ := agrees.mp high
        exact ⟨channel, serves.fewer less⟩

/- The other steps. -/

theorem putGpioInput_same (m : Mfp) (pins : Byte) : SameLine m { m with gpioInput := pins } :=
  ⟨rfl, rfl, rfl, rfl, rfl, rfl⟩

theorem gpioInputPin_steady (m : Mfp) (bit : Fin 8) (state : Bool) :
    Steady m (m.gpioInputPin bit state) := by
  rw [gpioInputPin]
  by_cases same : state = m.gpioInput.getLsbD bit
  · rw [if_pos same]
    exact .refl m
  · rw [if_neg same]
    by_cases active : state = m.aer.getLsbD bit ∧ m.ier &&& intMaskGpio bit ≠ 0
    · rw [if_pos active]
      exact (takeInterrupt_steady m _).trans (putGpioInput_same _ _).steady
    · rw [if_neg active]
      exact (putGpioInput_same m _).steady

theorem putTimer_same (m : Mfp) (timer : MfpTimer) : SameLine m (m.putTimer timer) := by
  rw [putTimer]
  cases timer.timerName <;> exact ⟨rfl, rfl, rfl, rfl, rfl, rfl⟩

theorem onTimer_steady (m : Mfp) (counted : MfpTimer × Bool) : Steady m (m.onTimer counted) := by
  rw [onTimer]
  split_ifs
  · exact (putTimer_same m _).steady.trans (tryTakeInterrupt_steady _ _)
  · exact (putTimer_same m _).steady

theorem timerInput_steady (m : Mfp) (timer : MfpTimer) (bit : Fin 8) (newState : Bool) :
    Steady m (m.timerInput timer bit newState) := by
  simp only [timerInput]
  split_ifs
  · exact onTimer_steady m _
  · exact (putTimer_same m _).steady
  · exact (putTimer_same m _).steady.trans (tryTakeInterrupt_steady _ _)
  · exact (putTimer_same m _).steady
  · exact (putTimer_same m _).steady

theorem clockTimers_steady (m : Mfp) : Steady m m.clockTimers :=
  (((onTimer_steady m _).trans (onTimer_steady _ _)).trans (onTimer_steady _ _)).trans
    (onTimer_steady _ _)

theorem triggerSoftwareInterrupt_steady (m : Mfp) (channel : Int) (vectorBase : Byte) :
    Steady m (m.triggerSoftwareInterrupt channel vectorBase) := by
  rw [triggerSoftwareInterrupt]
  split_ifs
  · exact .refl m
  · exact .check rfl rfl rfl

/- An acknowledge. -/

theorem acknowledge_settles (tracks : m.Tracks) (channel : Nat) :
    (m.acknowledge channel).Tracks ∧ (m.acknowledge channel).LineAgrees := by
  rw [acknowledge]
  split_ifs
  · exact checkInterrupts_settles tracks.iei rfl
  · exact checkInterrupts_settles tracks.iei rfl

theorem acknowledge_registers (m : Mfp) (channel : Nat) :
    (m.acknowledge channel).ipr = m.ipr &&& ~~~channelBit channel ∧
      (m.acknowledge channel).isr =
        (if m.vr.getLsbD 3 then m.isr ||| channelBit channel else m.isr) ∧
      (m.acknowledge channel).vectorOf channel = m.vectorOf channel := by
  rw [acknowledge]
  split_ifs
  · obtain ⟨ipr, -, isr, vr, -, mapping⟩ := checkInterrupts_registers
      ({ m with isr := m.isr ||| channelBit channel, ipr := m.ipr &&& ~~~channelBit channel }.onIrq
        false)
    refine ⟨ipr, isr, ?_⟩
    rw [vectorOf, vectorOf, mapMfpVectorToSystem, mapMfpVectorToSystem, vr, mapping]
    rfl
  · obtain ⟨ipr, -, isr, vr, -, mapping⟩ := checkInterrupts_registers
      ({ m with ipr := m.ipr &&& ~~~channelBit channel }.onIrq false)
    refine ⟨ipr, isr, ?_⟩
    rw [vectorOf, vectorOf, mapMfpVectorToSystem, mapMfpVectorToSystem, vr, mapping]
    rfl

theorem getVector_steady (m : Mfp) (daisyChain : Option Byte) :
    Steady m (m.getVector daisyChain).1 := by
  rw [getVector]
  split_ifs
  · exact .refl m
  · cases mfpChannels.find? (serviceable m.ipr m.imr m.isr) with
    | none => exact .refl m
    | some channel =>
      exact ⟨fun tracks => (acknowledge_settles tracks channel).1,
        fun tracks _ => (acknowledge_settles tracks channel).2⟩

/-- The search from the highest channel down finds the highest one. -/
theorem find_highest {channel : Nat}
    (found : mfpChannels.find? (serviceable m.ipr m.imr m.isr) = some channel) :
    Serves m.ipr m.imr m.isr channel ∧
      ∀ other, Serves m.ipr m.imr m.isr other → other ≤ channel := by
  obtain ⟨serves, before, after, split_, none_⟩ := List.find?_eq_some_iff_append.mp found
  have inside : channel ∈ mfpChannels := by
    rw [split_]
    exact List.mem_append_right _ List.mem_cons_self
  have below := mem_mfpChannels.mp inside
  refine ⟨(serviceable_iff below).mp serves, fun other served => ?_⟩
  have member : other ∈ before ++ channel :: after := split_ ▸ mem_mfpChannels.mpr served.1
  have sorted : (before ++ channel :: after).Pairwise (· > ·) := by
    rw [← split_]
    decide
  rcases List.mem_append.mp member with early | late
  · have refused := none_ other early
    rw [(serviceable_iff served.1).mpr served] at refused
    exact absurd refused (by decide)
  · rcases List.mem_cons.mp late with same | later
    · exact same.le
    · exact ((List.pairwise_cons.mp (List.pairwise_append.mp sorted).2.1).1 other later).le

theorem triggerInterrupt_steady (m : Mfp) (gpioPin : Int) :
    Steady m (m.triggerInterrupt gpioPin) := by
  rw [triggerInterrupt]
  split_ifs
  · exact tryTakeInterrupt_steady m _
  · exact .refl m

theorem clock_steady (m : Mfp) : Steady m m.clock := by
  rw [clock]
  split_ifs
  · exact .refl m
  · exact clockTimers_steady m

theorem setSerialInput_same (m : Mfp) (state : Bool) : SameLine m (m.setSerialInput state) :=
  ⟨rfl, rfl, rfl, rfl, rfl, rfl⟩

/-- Every step but a register write keeps the line in agreement. -/
theorem step_steady (m : Mfp) (event : MfpEvent) :
    (∃ address value, event = .write address value) ∨
      Steady m (m.step event) ∧ m.UnblocksNone event := by
  cases event with
  | write address value => exact .inl ⟨address, value, rfl⟩
  | read address => exact .inr ⟨read_steady m address, trivial⟩
  | gpioInput bit state => exact .inr ⟨gpioInputPin_steady m bit state, trivial⟩
  | timerInputA newState => exact .inr ⟨timerInput_steady m _ _ newState, trivial⟩
  | timerInputB newState => exact .inr ⟨timerInput_steady m _ _ newState, trivial⟩
  | clock => exact .inr ⟨clock_steady m, trivial⟩
  | clockTimers => exact .inr ⟨clockTimers_steady m, trivial⟩
  | serialInput state => exact .inr ⟨(setSerialInput_same m state).steady, trivial⟩
  | receiverClock state => exact .inr ⟨onUsart_steady m _, trivial⟩
  | transmitterClock state => exact .inr ⟨onUsart_steady m _, trivial⟩
  | receiveSerialByte data => exact .inr ⟨onUsart_steady m _, trivial⟩
  | softwareInterrupt channel vectorBase =>
    exact .inr ⟨triggerSoftwareInterrupt_steady m channel vectorBase, trivial⟩
  | triggerPin gpioPin => exact .inr ⟨triggerInterrupt_steady m gpioPin, trivial⟩
  | triggerTimerC => exact .inr ⟨tryTakeInterrupt_steady m _, trivial⟩
  | triggerReceive => exact .inr ⟨tryTakeInterrupt_steady m _, trivial⟩
  | triggerReceiveError => exact .inr ⟨tryTakeInterrupt_steady m _, trivial⟩
  | triggerTransmit => exact .inr ⟨tryTakeInterrupt_steady m _, trivial⟩
  | triggerTransmitError => exact .inr ⟨tryTakeInterrupt_steady m _, trivial⟩
  | acknowledge daisyChain => exact .inr ⟨getVector_steady m daisyChain, trivial⟩

theorem step_tracks (event : MfpEvent) (tracks : m.Tracks) : (m.step event).Tracks := by
  rcases step_steady m event with ⟨address, value, rfl⟩ | ⟨steady, -⟩
  · exact write_tracks tracks address value
  · exact steady.tracks tracks

theorem step_lineAgrees (event : MfpEvent) (tracks : m.Tracks) (agrees : m.LineAgrees) :
    (m.step event).LineAgrees ↔ m.UnblocksNone event := by
  rcases step_steady m event with ⟨address, value, rfl⟩ | ⟨steady, none_⟩
  · exact write_agrees tracks agrees address value
  · exact iff_of_true (steady.agrees tracks agrees) none_

theorem step_answers (event : MfpEvent) (tracks : m.Tracks) : m.AnswersHighest event := by
  cases event with
  | acknowledge daisyChain =>
    intro high
    rw [getVector, tracks.iei, if_neg (by decide)]
    cases found : mfpChannels.find? (serviceable m.ipr m.imr m.isr) with
    | none =>
      have none_ := List.find?_eq_none.mp found
      obtain ⟨channel, member, serves⟩ := List.any_eq_true.mp (tracks.raised high)
      exact absurd serves (none_ channel member)
    | some channel =>
      obtain ⟨serves, highest⟩ := find_highest found
      obtain ⟨ipr, isr, vector⟩ := acknowledge_registers m channel
      exact ⟨channel, serves, highest, vector, ipr, isr⟩
  | _ => exact trivial

/-- The line agrees throughout a run exactly when no write of the run lets a blocked channel
through. Every acknowledge of a high line answers the highest channel. -/
theorem line_agrees_iff (chainIn : m.iei = true) (low : m.line = false)
    (events : List MfpEvent) :
    (EachState step LineAgrees m.reset events ↔ EachStep step UnblocksNone m.reset events) ∧
      EachStep step AnswersHighest m.reset events := by
  have low' : m.reset.line = false := low
  have tracks : m.reset.Tracks :=
    ⟨chainIn, low.symm, fun high => absurd (low'.symm.trans high) Bool.false_ne_true⟩
  have idle : anyServiceable m.reset.ipr m.reset.imr m.reset.isr = false :=
    show anyServiceable 0 0 0 = false by decide
  have agrees : m.reset.LineAgrees := lineAgrees_iff.mpr (low'.trans idle.symm)
  exact ⟨eachState_iff_eachStep (fun _ event tracks => step_tracks event tracks)
    (fun _ event tracks agrees => step_lineAgrees event tracks agrees) tracks agrees events,
    eachStep_of_keeps (fun _ event tracks => step_tracks event tracks)
      (fun _ event tracks => step_answers event tracks) tracks events⟩

/-- The chip of a card before its first reset. -/
def cardMfp : Mfp := cleared 0xEF00C0 default

/-- The vector register selects the software end-of-interrupt mode, channel 1 is acknowledged, and
channel 0 becomes pending below it. -/
def blockedChannel : List MfpEvent :=
  [.write 0xEF00D7 0x48, .write 0xEF00C9 0x03, .write 0xEF00D5 0x03, .triggerPin 1,
    .acknowledge none, .triggerPin 0]

theorem line_agrees_blocked : EachState step LineAgrees cardMfp.reset blockedChannel := by
  refine (line_agrees_iff rfl rfl blockedChannel).1.mpr ?_
  have kept (m : Mfp) (address : BitVec 32) (value : Byte)
      (same : ∀ register, m.map2register address = some register →
        m.writtenIsr value register = m.isr) : m.UnblocksNone (.write address value) := by
    intro register mapped open_
    rwa [same register mapped] at open_
  refine ⟨kept _ _ _ ?_, kept _ _ _ ?_, kept _ _ _ ?_, trivial, trivial, trivial, trivial⟩
  · rintro register mapped
    obtain rfl := Option.some.inj mapped
    rfl
  · rintro register mapped
    obtain rfl := Option.some.inj mapped
    rfl
  · rintro register mapped
    obtain rfl := Option.some.inj mapped
    rfl

/-- A write to the in-service register lets channel 0 through, and the line stays low. -/
theorem line_stays_low : ¬ EachState step LineAgrees cardMfp.reset
    (blockedChannel ++ [.write 0xEF00D1 0xFD]) := by
  intro each
  have last := lineAgrees_iff.mp each.final
  revert last
  decide

end Mfp

end Nd100x.Ethernet
