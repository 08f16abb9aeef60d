import Mathlib.Data.List.Basic

namespace Nd100x.Library

section Runs

variable {State Event : Type} (step : State → Event → State)

/-- A property of single steps holds of every step of a run. -/
def EachStep (holds : State → Event → Prop) : State → List Event → Prop
  | _, [] => True
  | s, event :: rest => holds s event ∧ EachStep holds (step s event) rest

/-- A property of states holds of every state that a run reaches. -/
def EachState (holds : State → Prop) : State → List Event → Prop
  | s, [] => holds s
  | s, event :: rest => holds s ∧ EachState holds (step s event) rest

variable {step} {invariant good : State → Prop} {allowed : State → Event → Prop} {s : State}

theorem EachState.start {events : List Event} (each : EachState step good s events) : good s := by
  cases events with
  | nil => exact each
  | cons event rest => exact each.1

theorem EachState.final {events : List Event} (each : EachState step good s events) :
    good (events.foldl step s) := by
  induction events generalizing s with
  | nil => exact each
  | cons event rest ih => exact ih each.2

theorem EachState.weaken {better : State → Prop} {events : List Event}
    (each : EachState step good s events) (gives : ∀ s, good s → better s) :
    EachState step better s events := by
  induction events generalizing s with
  | nil => exact gives s each
  | cons event rest ih => exact ⟨gives s each.1, ih each.2⟩

theorem EachStep.weaken {more : State → Event → Prop} {events : List Event}
    (each : EachStep step allowed s events) (gives : ∀ {s} event, allowed s event → more s event) :
    EachStep step more s events := by
  induction events generalizing s with
  | nil => exact trivial
  | cons event rest ih =>
    exact ⟨gives event each.1, ih each.2⟩

/-- An invariant that every step keeps holds throughout a run. -/
theorem eachState_of_keeps (keeps : ∀ s event, good s → good (step s event))
    (start : good s) (events : List Event) : EachState step good s events := by
  induction events generalizing s with
  | nil => exact start
  | cons event rest ih =>
    exact ⟨start, ih (keeps s event start)⟩

/-- What the invariant gives of one step holds of every step. -/
theorem eachStep_of_keeps (keeps : ∀ s event, invariant s → invariant (step s event))
    (gives : ∀ s event, invariant s → allowed s event) (start : invariant s)
    (events : List Event) : EachStep step allowed s events := by
  induction events generalizing s with
  | nil => exact trivial
  | cons event rest ih =>
    exact ⟨gives s event start, ih (keeps s event start)⟩

/-- Where the allowed steps are those that stay in the good states, the good runs are those of
allowed steps. -/
theorem eachState_iff_eachStep (keeps : ∀ s event, invariant s → invariant (step s event))
    (exact_ : ∀ s event, invariant s → good s → (good (step s event) ↔ allowed s event))
    (start : invariant s) (first : good s) (events : List Event) :
    EachState step good s events ↔ EachStep step allowed s events := by
  induction events generalizing s with
  | nil => exact iff_of_true first trivial
  | cons event rest ih =>
    have next := exact_ s event start first
    have later := fun reached => ih (keeps s event start) reached
    constructor
    · intro each
      have reached := each.2.start
      exact ⟨next.mp reached, (later reached).mp each.2⟩
    · intro each
      have reached := next.mpr each.1
      exact ⟨first, (later reached).mpr each.2⟩

/-- Where a good step leads to a good state, the runs of good steps are those of allowed steps. -/
theorem eachStep_iff_eachStep {holds : State → Event → Prop}
    (keeps : ∀ s event, invariant s → invariant (step s event))
    (exact_ : ∀ s event, invariant s → good s → (holds s event ↔ allowed s event))
    (leads : ∀ s event, holds s event → good (step s event))
    (start : invariant s) (first : good s) (events : List Event) :
    EachStep step holds s events ↔ EachStep step allowed s events := by
  induction events generalizing s with
  | nil => exact Iff.rfl
  | cons event rest ih =>
    have now := exact_ s event start first
    have later := fun leads => ih (keeps s event start) leads
    constructor
    · intro each
      exact ⟨now.mp each.1, (later (leads s event each.1)).mp each.2⟩
    · intro each
      have here := now.mpr each.1
      exact ⟨here, (later (leads s event here)).mpr each.2⟩

end Runs

end Nd100x.Library
