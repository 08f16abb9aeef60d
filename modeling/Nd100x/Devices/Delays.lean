import Nd100x.Devices.TickAll

namespace Nd100x.Devices

section Announced

variable {n : Nat} {κ δ : Type} {table : DeviceTable n κ δ}

/-- The need of a tick depends on the data of the devices only. -/
def DeviceTable.NeedsByData (table : DeviceTable n κ δ) : Prop :=
  ∀ d needed, table.tickNeeded d = some needed → ∀ first second : DeviceArray n κ δ,
    (∀ e, (first e).data = (second e).data) → needed first = needed second

theorem announced_same {before : DeviceArray n κ δ} {wanted dirty : Bool} :
    table.Announced before ⟨before, wanted, dirty⟩ where
  work := fun _ _ none_ some_ => Bool.noConfusion (none_.symm.trans some_)
  bits := fun _ moved => absurd rfl moved

theorem announced_wanted {before after : DeviceArray n κ δ} {dirty : Bool}
    (bits : ∀ d, (after d).interruptBits = (before d).interruptBits) :
    table.Announced before ⟨after, true, dirty⟩ where
  work := fun _ _ _ _ => rfl
  bits := fun d moved => absurd (bits d) moved

theorem announced_andThen {first second : Effect n κ δ} {devices : DeviceArray n κ δ}
    (start : table.Announced devices (first devices))
    (later : table.Announced (first devices).devices (second (first devices).devices)) :
    table.Announced devices (first.andThen second devices) where
  work := by
    intro d conditional none_ some_
    change (_ || _) = true
    rw [Bool.or_eq_true]
    by_cases middle : table.hasWork (first devices).devices d = true
    · exact .inl (start.work d conditional none_ middle)
    · exact .inr (later.work d conditional (Bool.eq_false_iff.mpr middle) some_)
  bits := by
    intro d moved
    change (_ || _) = true
    rw [Bool.or_eq_true]
    by_cases middle :
        ((first devices).devices d).interruptBits = (devices d).interruptBits
    · exact .inr (later.bits d fun same => moved (same.trans middle))
    · exact .inl (start.bits d middle)

/-- A device that keeps its data gets work only by a delay. -/
theorem hasWork_delays (needs : table.NeedsByData) {before after : DeviceArray n κ δ}
    (data : ∀ e, (after e).data = (before e).data) {d : Fin n}
    (fewer : (after d).ioDelays.length ≤ (before d).ioDelays.length)
    (none_ : table.hasWork before d = false) : table.hasWork after d = false := by
  rw [DeviceTable.hasWork, Bool.or_eq_false_iff, decide_eq_false_iff_not] at none_ ⊢
  refine ⟨by omega, ?_⟩
  rcases need : table.tickNeeded d with _ | needed
  · rfl
  · have same := none_.2
    rw [need] at same
    exact (needs d needed need after before data).trans same

section Update

variable {devices : DeviceArray n κ δ} {d : Fin n} {device : Device κ δ}

theorem update_data (data : device.data = (devices d).data) (e : Fin n) :
    (Function.update devices d device e).data = (devices e).data := by
  by_cases same : e = d
  · rw [same, Function.update_self, data]
  · rw [Function.update_of_ne same]

theorem update_fewer (fewer : device.ioDelays.length ≤ (devices d).ioDelays.length) (e : Fin n) :
    (Function.update devices d device e).ioDelays.length ≤ (devices e).ioDelays.length := by
  by_cases same : e = d
  · rw [same, Function.update_self]
    exact fewer
  · rw [Function.update_of_ne same]

end Update

theorem announced_moveBits (needs : table.NeedsByData) {d : Fin n}
    {change : Device κ δ → Device κ δ} {devices : DeviceArray n κ δ}
    (data : (change (devices d)).data = (devices d).data)
    (delays : (change (devices d)).ioDelays = (devices d).ioDelays) :
    table.Announced devices (Effect.moveBits d change devices) where
  work := fun e _ none_ some_ => absurd some_ (Bool.eq_false_iff.mp
    (hasWork_delays needs (update_data data) (update_fewer (by rw [delays]) e) none_))
  bits := by
    intro e moved
    refine decide_eq_true fun same => moved ?_
    change (Function.update devices d (change (devices d)) e).interruptBits = _
    by_cases here : e = d
    · rw [here, Function.update_self, same]
    · rw [Function.update_of_ne here]

theorem announced_generateInterrupt (needs : table.NeedsByData) (d : Fin n) (level : Nat)
    (devices : DeviceArray n κ δ) :
    table.Announced devices (Effect.generateInterrupt d level devices) :=
  announced_moveBits needs (Device.generateInterrupt_kept _ _).1
    (Device.generateInterrupt_kept _ _).2

theorem announced_setDelays (needs : table.NeedsByData) {d : Fin n}
    {change : List (DelayedIo κ) → List (DelayedIo κ)} {devices : DeviceArray n κ δ}
    (fewer : (change (devices d).ioDelays).length ≤ (devices d).ioDelays.length) :
    table.Announced devices (Effect.setDelays d change devices) where
  work := by
    intro e _ none_ some_
    have changed := hasWork_delays needs
      (@update_data n κ δ devices d { devices d with ioDelays := change (devices d).ioDelays } rfl)
      (update_fewer fewer e) none_
    exact Bool.noConfusion (changed.symm.trans some_)
  bits := by
    intro e moved
    refine absurd ?_ moved
    change (Function.update devices d _ e).interruptBits = _
    by_cases here : e = d
    · rw [here, Function.update_self]
    · rw [Function.update_of_ne here]

theorem announces_queueIoDelay (d : Fin n) (ticks : BitVec 32) (callback : κ) (level : Nat) :
    table.Announces (Effect.queueIoDelay d ticks callback level) := by
  refine fun devices => announced_wanted fun e => ?_
  change (Function.update devices d _ e).interruptBits = _
  by_cases here : e = d
  · rw [here, Function.update_self]
  · rw [Function.update_of_ne here]

end Announced

section TickIoDelay

variable {n : Nat} {κ δ : Type} {table : DeviceTable n κ δ}
  {call : κ → DeviceArray n κ δ → Outcome n κ δ × Bool} {d : Fin n}

theorem announced_fired (needs : table.NeedsByData) (index : Nat) (triggered : Bool)
    (devices : DeviceArray n κ δ) :
    table.Announced devices (Effect.fired d index triggered devices) := by
  refine announced_andThen ?_ (announced_setDelays needs (List.length_eraseIdx_le _ _))
  split_ifs
  · exact announced_generateInterrupt needs d _ devices
  · exact announced_same

/-- The ticks of the delays announce what their callbacks announce. -/
theorem announces_tickDelaysFrom (needs : table.NeedsByData)
    (calls : ∀ callback, table.Announces fun devices => (call callback devices).1) (fuel : Nat)
    (index : Nat) : table.Announces (Effect.tickDelaysFrom call d fuel index) := by
  induction fuel generalizing index with
  | zero => exact fun _ => announced_same
  | succ fuel ih =>
    intro devices
    rw [Effect.tickDelaysFrom]
    dsimp only
    rcases found : (devices d).ioDelays[index]? with _ | delay
    · exact announced_same
    · have counted : table.Announced devices (Effect.setDelays d
          (List.set · index { delay with delayTicks := delay.delayTicks - 1 }) devices) :=
        announced_setDelays needs (Nat.le_of_eq List.length_set)
      dsimp only
      split_ifs
      · refine announced_andThen ?_ (announced_andThen (announced_fired needs _ _ _)
          (ih _ _))
        exact @announced_andThen _ _ _ _ _ (fun devices => (call delay.callback devices).1) _
          counted (calls delay.callback _)
      · exact announced_andThen counted (ih _ _)

/-- These devices count their delays and do nothing else in a tick. -/
def delayTable (fits : n ≤ initialDeviceCapacity)
    (call : κ → DeviceArray n κ δ → Outcome n κ δ × Bool) (fuel : Nat) : DeviceTable n κ δ where
  fits := fits
  tick := fun d => some (Effect.tickIoDelay call d fuel)
  tickAlways := fun _ => false
  tickNeeded := fun _ => none

theorem delayTable_lawful (fits : n ≤ initialDeviceCapacity) (fuel : Nat)
    (calls : ∀ callback, (delayTable fits call fuel).Announces fun devices =>
      (call callback devices).1) : (delayTable fits call fuel).Lawful where
  idle := by
    intro devices d _ idle
    rw [DeviceTable.hasWork, Bool.or_eq_false_iff, decide_eq_false_iff_not] at idle
    have empty : (devices d).ioDelays = [] :=
      List.length_eq_zero_iff.mp (Nat.eq_zero_of_not_pos idle.1)
    change (Effect.tickDelaysFrom call d fuel 0 devices).devices = devices
    cases fuel with
    | zero => rfl
    | succ fuel =>
      rw [Effect.tickDelaysFrom]
      dsimp only
      rw [empty]
      rfl
  announces := fun d => announces_tickDelaysFrom
    (fun _ _ found => absurd found (Option.some_ne_none _).symm) calls fuel 0

end TickIoDelay

section Demand

variable {n : Nat} {κ δ : Type} {table : DeviceTable n κ δ}

/-- Ticks on demand are ticks of every device. -/
theorem run_eq_runAll {table : DeviceTable n κ δ} (lawful : table.Lawful)
    {manager : Manager n κ δ} (ready : manager.Ready table) (steps : List (ManagerStep n κ δ))
    (announced : ∀ effect, .event effect ∈ steps → table.Announces effect) :
    ∃ last, manager.run table steps = some last ∧
      last.1.devices = (table.runAll steps manager.devices).1 ∧
      List.Forall₂ TickReport.Agrees last.2 (table.runAll steps manager.devices).2 := by
  induction steps generalizing manager with
  | nil => exact ⟨_, rfl, rfl, .nil⟩
  | cons step steps ih =>
    have later : ∀ effect, .event effect ∈ steps → table.Announces effect :=
      fun effect member => announced effect (List.mem_cons_of_mem _ member)
    cases step with
    | event effect =>
      have announces := announced effect List.mem_cons_self
      exact ih
        (fun built => Manager.perform_valid announces (ready built)) later
    | tick =>
      obtain ⟨after, result, ticked⟩ := Manager.tick_spec lawful ready
      obtain ⟨last, rest, devices, reports⟩ :=
        ih (fun _ => ticked.valid) later
      refine ⟨(last.1, ⟨after.2.1, after.2.2⟩ :: last.2), ?_, ?_, ?_⟩
      · rw [Manager.run, result, Option.bind_some, rest]
        rfl
      · rw [devices, ticked.devices]
        rfl
      · rw [ticked.devices] at reports
        exact .cons ⟨ticked.bits, ticked.once, ticked.working⟩ reports

/-- A callback on the first device queues a delay on the second one, which then interrupts. -/
def pairCall (queues : Bool) (devices : DeviceArray 2 Bool Unit) : Outcome 2 Bool Unit × Bool :=
  if queues then (Effect.queueIoDelay 1 2 false 12 devices, false)
  else (Effect.nothing devices, true)

def pairTable : DeviceTable 2 Bool Unit := delayTable (by decide) pairCall 8

def pairManager : Manager 2 Bool Unit where
  devices := fun _ => ⟨0, [], ()⟩
  tickWanted := true
  irqDirty := true
  inTickList := fun _ => false
  tickOrder := fun _ => 0
  tickList := []
  tickListDevices := none
  irqBits := 0

def pairSteps : List (ManagerStep 2 Bool Unit) :=
  [.tick, .event (Effect.queueIoDelay 0 2 true 0), .tick, .tick, .tick]

/-- The second delay loses its first tick in the pass that queued it. -/
example : (pairManager.run pairTable pairSteps).map
    (fun last => last.2.map fun report => (report.bits, report.ticked)) =
      some [(0, []), (0, [0]), (0, [0, 1]), (0x1000, [1])] := by decide

theorem run_eq_runAll_pair :
    ∃ last, pairManager.run pairTable pairSteps = some last ∧
      last.1.devices = (pairTable.runAll pairSteps pairManager.devices).1 ∧
      List.Forall₂ TickReport.Agrees last.2
        (pairTable.runAll pairSteps pairManager.devices).2 := by
  have calls : ∀ queues, pairTable.Announces fun devices => (pairCall queues devices).1 := by
    intro queues devices
    cases queues
    · exact announced_same
    · exact announces_queueIoDelay 1 2 false 12 devices
  refine run_eq_runAll (delayTable_lawful (by decide) 8 calls)
    (fun built => absurd built (Option.some_ne_none _).symm) pairSteps fun effect member => ?_
  have queued : effect = Effect.queueIoDelay 0 2 true 0 := by
    simpa [pairSteps] using member
  rw [queued]
  exact announces_queueIoDelay 0 2 true 0

end Demand

end Nd100x.Devices
