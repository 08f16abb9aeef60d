import Nd100x.Ethernet.Card

namespace Nd100x.Ethernet

open Nd100x.Library Nd100x.Devices

inductive NdEvent where
  | write (address : BitVec 32) (value : Word)
  | read (address : BitVec 32)
  | ident (level : Nat)
  | reset
  | tick (requests : Nat)
  | scip
  deriving DecidableEq, Repr

namespace EthDevice

variable {Board : Type} (ops : BoardOps Board)

def step (device : EthDevice Board) : NdEvent → EthDevice Board
  | .write address value => device.write ops address value
  | .read _ => device
  | .ident level => (device.ident level).1
  | .reset => device.reset ops
  | .tick requests => device.tick ops requests
  | .scip => device.onNdInterrupt

/-- A request is pending and interrupts are enabled. -/
def wantsInterrupt (device : EthDevice Board) : Bool :=
  device.data.scipPending && device.data.interruptEnabled

def Agrees (device : EthDevice Board) : Prop := device.interruptBit = device.wantsInterrupt

/-- A control word raises the reset bit. -/
def raisesReset (device : EthDevice Board) (address : BitVec 32) (value : Word) : Bool :=
  device.takesControl address && value.getLsbD 4 && !device.data.reset

/-- A reset of either kind finds no request that is enabled. -/
def ResetsIdle (device : EthDevice Board) : NdEvent → Prop
  | .reset => device.wantsInterrupt = false
  | .write address value => device.raisesReset address value = true →
      (device.data.scipPending && value.getLsbD 0) = false
  | _ => True

/-- The steps that may drop a request. -/
def Answers (device : EthDevice Board) : NdEvent → Prop
  | .ident level => (device.ident level).2 = device.data.identCode ∧
      device.interruptBits.getLsbD level = true
  | .reset => True
  | .write address value => device.raisesReset address value = true
  | _ => False

/-- A pending request is dropped only by an answer. -/
def DropsByAnswer (device : EthDevice Board) (event : NdEvent) : Prop :=
  device.data.scipPending = true → (device.step ops event).data.scipPending = false →
    device.Answers event

/-- No level but the level of the card is requested. -/
def OneLevel (device : EthDevice Board) : Prop :=
  ∀ level, level ≠ ethInterruptLevel → device.interruptBits.getLsbD level = false

/- The interrupt bit. -/

section Bits

variable (device : EthDevice Board)

@[simp] theorem setInterruptBit_data (active : Bool) :
    (device.setInterruptBit active).data = device.data :=
  Device.setInterruptStatus_data _ _ _

theorem setInterruptBit_bits (active : Bool) (level : Nat) :
    (device.setInterruptBit active).interruptBits.getLsbD level =
      if level = ethInterruptLevel then active else device.interruptBits.getLsbD level := by
  have inside : 10 ≤ ethInterruptLevel ∧ ethInterruptLevel ≤ 13 := by decide
  cases active with
  | true =>
    change (device.generateInterrupt ethInterruptLevel).interruptBits.getLsbD level = _
    rw [Device.generateInterrupt, if_pos inside]
    dsimp only
    rw [BitVec.getLsbD_or, BitVec.getLsbD_twoPow]
    by_cases here : level = ethInterruptLevel
    · subst here
      simp [ethInterruptLevel]
    · have other : ethInterruptLevel ≠ level := Ne.symm here
      simp [here, other]
  | false =>
    change (device.clearInterrupt ethInterruptLevel).interruptBits.getLsbD level = _
    rw [Device.clearInterrupt, if_pos inside]
    dsimp only
    rw [BitVec.getLsbD_and, BitVec.getLsbD_not, BitVec.getLsbD_twoPow]
    by_cases here : level = ethInterruptLevel
    · subst here
      simp
    · have other : ethInterruptLevel ≠ level := Ne.symm here
      by_cases bound : level < 16
      · simp [here, other, bound]
      · simp [here, bound, BitVec.getLsbD_of_ge _ level (Nat.le_of_not_lt bound)]

theorem onNdInterrupt_data :
    device.onNdInterrupt.data = { device.data with scipPending := true } := by
  rw [onNdInterrupt]
  split_ifs
  · exact setInterruptBit_data _ _
  · rfl

theorem onNdInterrupt_bits (level : Nat) :
    device.onNdInterrupt.interruptBits.getLsbD level =
      if level = ethInterruptLevel ∧ device.data.interruptEnabled = true then true
      else device.interruptBits.getLsbD level := by
  rw [onNdInterrupt]
  by_cases enabled : device.data.interruptEnabled = true
  · rw [if_pos (show (device.putScip true).data.interruptEnabled = true from enabled),
      setInterruptBit_bits]
    simp only [enabled, and_true]
    rfl
  · rw [if_neg (show ¬ (device.putScip true).data.interruptEnabled = true from enabled),
      if_neg fun both => enabled both.2]
    rfl

theorem updateScip_data : device.updateScip.data = device.data := by
  rw [updateScip]
  split_ifs
  · rfl
  · exact setInterruptBit_data _ _
  · exact setInterruptBit_data _ _
  · rfl
  · rfl

theorem updateScip_bits (level : Nat) :
    device.updateScip.interruptBits.getLsbD level =
      if level = ethInterruptLevel ∧ device.data.scipPending = true
      then device.data.interruptEnabled
      else device.interruptBits.getLsbD level := by
  have same (active : Bool) (held : device.interruptBit = active) :
      device.interruptBits.getLsbD level =
        if level = ethInterruptLevel then active else device.interruptBits.getLsbD level := by
    split_ifs with here
    · rw [here]
      exact held
    · rfl
  rw [updateScip]
  by_cases pending : device.data.scipPending = true
  · rw [if_pos pending]
    simp only [pending, and_true]
    by_cases enabled : device.data.interruptEnabled = true
    · rw [if_pos enabled, enabled]
      by_cases high : device.interruptBit = true
      · rw [if_pos high]
        exact same true high
      · rw [if_neg high]
        exact setInterruptBit_bits device true level
    · rw [if_neg enabled, Bool.eq_false_of_not_eq_true enabled]
      by_cases high : device.interruptBit = true
      · rw [if_pos high]
        exact setInterruptBit_bits device false level
      · rw [if_neg high]
        exact same false (Bool.eq_false_of_not_eq_true high)
  · rw [if_neg pending, if_neg fun both => pending both.2]

theorem followReset_bits : (device.followReset ops).interruptBits = device.interruptBits := by
  rw [followReset]
  split_ifs <;> rfl

theorem followReset_scip : (device.followReset ops).data.scipPending =
    (device.data.scipPending && !(device.data.reset && !device.data.previousReset)) := by
  rw [followReset]
  split_ifs with rising falling
  · rw [rising, Bool.not_true, Bool.and_false]
    rfl
  · rw [Bool.eq_false_of_not_eq_true rising, Bool.not_false, Bool.and_true]
    rfl
  · rw [Bool.eq_false_of_not_eq_true rising, Bool.not_false, Bool.and_true]

theorem followReset_enabled :
    (device.followReset ops).data.interruptEnabled = device.data.interruptEnabled := by
  rw [followReset]
  split_ifs <;> rfl

end Bits

section Writes

variable {device : EthDevice Board} {address : BitVec 32} {value : Word}

theorem write_bits (taken : device.takesControl address = true) (level : Nat) :
    (device.write ops address value).interruptBits.getLsbD level =
      if level = ethInterruptLevel ∧ device.data.scipPending = true then value.getLsbD 0
      else device.interruptBits.getLsbD level := by
  rw [write, if_pos taken]
  change ((device.storeControl value).updateScip.followReset ops).interruptBits.getLsbD level = _
  rw [followReset_bits, updateScip_bits]
  rfl

theorem write_scip (taken : device.takesControl address = true) :
    (device.write ops address value).data.scipPending =
      (device.data.scipPending && !device.raisesReset address value) := by
  rw [write, if_pos taken]
  change ((device.storeControl value).updateScip.followReset ops).data.scipPending = _
  rw [followReset_scip, updateScip_data, raisesReset, taken, Bool.true_and]
  rfl

theorem write_enabled (taken : device.takesControl address = true) :
    (device.write ops address value).data.interruptEnabled = value.getLsbD 0 := by
  rw [write, if_pos taken]
  change ((device.storeControl value).updateScip.followReset ops).data.interruptEnabled = _
  rw [followReset_enabled, updateScip_data]
  rfl

theorem write_other (taken : ¬ device.takesControl address = true) :
    device.write ops address value = device := by
  rw [write, if_neg taken]

end Writes

/- One step. -/

section Steps

variable {device : EthDevice Board}

theorem onNdInterrupt_agrees (agrees : device.Agrees) : device.onNdInterrupt.Agrees := by
  rw [Agrees, interruptBit, onNdInterrupt_bits, wantsInterrupt, onNdInterrupt_data]
  by_cases enabled : device.data.interruptEnabled = true
  · rw [if_pos ⟨rfl, enabled⟩]
    exact enabled.symm
  · have disabled := Bool.eq_false_of_not_eq_true enabled
    rw [if_neg fun both => enabled both.2]
    refine agrees.trans ?_
    rw [wantsInterrupt, disabled, Bool.and_false]
    rfl

theorem requests_agree (requests : Nat) (agrees : device.Agrees) :
    (onNdInterrupt^[requests] device).Agrees := by
  induction requests generalizing device with
  | zero => exact agrees
  | succ requests ih => exact ih (onNdInterrupt_agrees agrees)

theorem requests_scip (requests : Nat) (pending : device.data.scipPending = true) :
    (onNdInterrupt^[requests] device).data.scipPending = true := by
  induction requests generalizing device with
  | zero => exact pending
  | succ requests ih =>
    refine ih ?_
    rw [onNdInterrupt_data]

theorem requests_oneLevel (requests : Nat) (one : device.OneLevel) :
    (onNdInterrupt^[requests] device).OneLevel := by
  induction requests generalizing device with
  | zero => exact one
  | succ requests ih =>
    refine ih fun level other => ?_
    rw [onNdInterrupt_bits, if_neg fun both => other both.1]
    exact one level other

theorem ident_agrees (one : device.OneLevel) (agrees : device.Agrees) (level : Nat) :
    (device.ident level).1.Agrees := by
  rw [ident]
  split_ifs with requested
  · have here : level = ethInterruptLevel := by
      by_contra other
      rw [one level other] at requested
      exact Bool.false_ne_true requested
    subst here
    rw [Agrees, wantsInterrupt]
    dsimp only
    rw [Device.setInterruptStatus_data]
    exact setInterruptBit_bits _ false _
  · exact agrees

theorem step_oneLevel (event : NdEvent) (one : device.OneLevel) :
    (device.step ops event).OneLevel := by
  cases event with
  | write address value =>
    by_cases taken : device.takesControl address = true
    · intro level other
      rw [step, write_bits ops taken, if_neg fun both => other both.1]
      exact one level other
    · rw [step, write_other ops taken]
      exact one
  | read address => exact one
  | ident level =>
    rw [step, ident]
    split_ifs with requested
    · have here : level = ethInterruptLevel := by
        by_contra other
        rw [one level other] at requested
        exact Bool.false_ne_true requested
      subst here
      intro level other
      refine (setInterruptBit_bits _ false _).trans ?_
      rw [if_neg other]
      exact one level other
    · exact one
  | reset => exact one
  | tick requests =>
    rw [step, tick]
    split_ifs
    · exact one
    · exact requests_oneLevel requests one
  | scip => exact requests_oneLevel 1 one

/-- After a step the bit agrees exactly when no reset dropped an enabled request. -/
theorem step_agrees (event : NdEvent) (one : device.OneLevel) (agrees : device.Agrees) :
    (device.step ops event).Agrees ↔ device.ResetsIdle event := by
  cases event with
  | write address value =>
    by_cases taken : device.takesControl address = true
    · rw [ResetsIdle, step, Agrees, interruptBit, wantsInterrupt, write_bits ops taken,
        write_scip ops taken, write_enabled ops taken]
      by_cases pending : device.data.scipPending = true
      · rw [if_pos ⟨rfl, pending⟩, pending, Bool.true_and, Bool.true_and]
        cases value.getLsbD 0 <;> cases device.raisesReset address value <;> decide
      · have idle := Bool.eq_false_of_not_eq_true pending
        rw [if_neg fun both => pending both.2, idle]
        refine iff_of_true (agrees.trans ?_) fun _ => rfl
        rw [wantsInterrupt, idle]
        rfl
    · rw [step, write_other ops taken]
      refine iff_of_true agrees fun raised => ?_
      rw [raisesReset, Bool.eq_false_of_not_eq_true taken] at raised
      exact absurd raised Bool.false_ne_true
  | read address => exact iff_of_true agrees trivial
  | ident level => exact iff_of_true (ident_agrees one agrees level) trivial
  | reset =>
    rw [ResetsIdle, ← agrees]
    rfl
  | tick requests =>
    refine iff_of_true ?_ trivial
    rw [step, tick]
    split_ifs
    · exact agrees
    · exact requests_agree requests agrees
  | scip => exact iff_of_true (onNdInterrupt_agrees agrees) trivial

theorem step_drops (event : NdEvent) : device.DropsByAnswer ops event := by
  intro pending dropped
  cases event with
  | write address value =>
    by_cases taken : device.takesControl address = true
    · rw [step, write_scip ops taken, pending, Bool.true_and, Bool.not_eq_false'] at dropped
      exact dropped
    · rw [step, write_other ops taken, pending] at dropped
      exact absurd dropped.symm Bool.false_ne_true
  | read address => exact absurd (pending.symm.trans dropped).symm Bool.false_ne_true
  | ident level =>
    rw [Answers]
    rw [step, ident] at dropped
    rw [ident]
    split_ifs at dropped ⊢ with requested
    · refine ⟨?_, requested⟩
      dsimp only
      rw [Device.setInterruptStatus_data]
      rfl
    · rw [pending] at dropped
      exact absurd dropped.symm Bool.false_ne_true
  | reset => exact trivial
  | tick requests =>
    rw [step, tick] at dropped
    split_ifs at dropped
    · exact absurd (pending.symm.trans dropped).symm Bool.false_ne_true
    · refine absurd (?_ : _ = true) (Bool.not_eq_true _ ▸ dropped)
      exact requests_scip requests pending
  | scip =>
    rw [step, onNdInterrupt_data] at dropped
    exact absurd dropped.symm Bool.false_ne_true

end Steps

section Runs

variable {thumbwheel memoryBankStrap : Nat} {windowMapped : Bool} {device : EthDevice Board}

theorem create_idle
    (created : create ops thumbwheel memoryBankStrap windowMapped = some device) :
    device.interruptBits = 0 ∧ device.data.scipPending = false := by
  rw [create] at created
  by_cases valid : thumbwheel < 4
  · rw [dif_pos valid] at created
    by_cases refused : memoryBankStrap % 4 ≠ 0 ∨ windowMapped = false
    · rw [if_pos refused] at created
      exact absurd created (Option.some_ne_none device).symm
    · rw [if_neg refused] at created
      obtain rfl := Option.some.inj created
      exact ⟨rfl, rfl⟩
  · rw [dif_neg valid] at created
    exact absurd created (Option.some_ne_none device).symm

/-- The interrupt bit follows the request throughout a run exactly when every reset finds no
enabled request. Requests are dropped by answers in every run. -/
theorem level12_agrees_iff
    (created : create ops thumbwheel memoryBankStrap windowMapped = some device)
    (events : List NdEvent) :
    (EachState (step ops) Agrees device events ↔
      EachStep (step ops) ResetsIdle device events) ∧
    EachStep (step ops) (DropsByAnswer ops) device events := by
  obtain ⟨bits, pending⟩ := create_idle ops created
  have one : device.OneLevel := fun level _ => by
    rw [bits]
    exact BitVec.getLsbD_zero
  have agrees : device.Agrees := by
    rw [Agrees, interruptBit, wantsInterrupt, bits, pending]
    rfl
  constructor
  · exact eachState_iff_eachStep (fun s event held => step_oneLevel ops event held)
      (fun s event held first => step_agrees ops event held first) one agrees events
  · exact eachStep_of_keeps (fun s event (held : True) => held)
      (fun s event _ => step_drops ops event) trivial events

/-- A board without behaviour. -/
def idleBoard : BoardOps Unit :=
  { create := fun _ => ()
    reset := id
    initializeMfpFromFirmware := id
    cpuReset := id
    gpioInput := fun _ _ => id
    setInterrupt := fun _ _ => id
    enableInterrupts := fun _ => id
    clock := id
    cpuTick := fun _ => id
    pollNetwork := id }

theorem level12_agrees_answered : ∃ device,
    create idleBoard 0 0 true = some device ∧
      EachState (step idleBoard) Agrees device
        [.write 0o140363 1, .tick 1, .read 0o140362, .ident 12, .reset] := by
  refine ⟨_, rfl, ?_⟩
  refine (@level12_agrees_iff Unit idleBoard 0 0 true _ rfl _).1.mpr ?_
  simp only [EachStep, ResetsIdle]
  decide

/-- A request that a reset of the device drops stays on the interrupt line. -/
theorem reset_leaves_interrupt : ∃ device,
    create idleBoard 0 0 true = some device ∧
      ¬ EachState (step idleBoard) Agrees device [.write 0o140363 1, .tick 1, .reset] := by
  refine ⟨_, rfl, fun each => ?_⟩
  have final := each.final
  revert final
  rw [Agrees]
  decide

end Runs

end EthDevice

end Nd100x.Ethernet
