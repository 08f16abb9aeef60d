import Nd100x.Breakpoints.Manager
import Mathlib.Data.List.Basic
import Mathlib.Tactic.SplitIfs
import Mathlib.Tactic.Tauto

namespace Nd100x.Breakpoints

open BreakpointManager

/-- The debugger changes the breakpoints, and the running program arrives at instructions. What the
condition of an entry is worth depends on the state at the arrival. -/
inductive Action where
  | add (address : Word) (type : BreakpointType) (condition hitCondition logMessage : Option Text)
  | remove (address : Word) (type : Option BreakpointType)
  | clear
  | clearType (type : BreakpointType)
  | stepOne
  | arrive (pc : Word) (evaluate : Text → Option Bool)

namespace BreakpointManager

def entriesAt (m : BreakpointManager) (address : Word) : List BreakpointEntry :=
  (m.buckets (hashAddress address)).filter fun entry => entry.address = address

def act (m : BreakpointManager) : Action → BreakpointManager
  | .add address type condition hitCondition logMessage =>
    m.add address type condition hitCondition logMessage
  | .remove address type => m.remove address type
  | .clear => m.clear
  | .clearType type => m.clearType type
  | .stepOne => m.stepOne
  | .arrive pc evaluate => (m.checkHit pc evaluate).1

end BreakpointManager

/-- The ledger counts for each entry the arrivals at which its condition held. -/
structure Ledger where
  manager : BreakpointManager
  held : Nat → Nat

namespace Ledger

def init : Ledger := ⟨BreakpointManager.init, fun _ => 0⟩

def act (ledger : Ledger) (action : Action) : Ledger where
  manager := ledger.manager.act action
  held :=
    match action with
    | .arrive pc evaluate => fun serial =>
      ledger.held serial + if (ledger.manager.entriesAt pc).any fun entry =>
        entry.serial = serial ∧ conditionOk evaluate entry then 1 else 0
    | _ => ledger.held

def run (actions : List Action) : Ledger := actions.foldl act init

/-- The entry has no log message, and its condition holds. -/
def Speaks (evaluate : Text → Option Bool) (entry : BreakpointEntry) : Prop :=
  entry.logMessage = none ∧ conditionOk evaluate entry

/-- The entry asks for this arrival. -/
def Due (ledger : Ledger) (entry : BreakpointEntry) : Prop :=
  ∀ text, entry.hitCondition = some text → hitValue text = ledger.held entry.serial + 1

/-- This is what the breakpoints at an instruction are for. -/
def ShouldStop (ledger : Ledger) (pc : Word) (evaluate : Text → Option Bool) : Prop :=
  ledger.manager.stepCount = 1 ∨
    ∃ entry ∈ ledger.manager.entriesAt pc, Speaks evaluate entry ∧ ledger.Due entry

def Stops (ledger : Ledger) (pc : Word) (evaluate : Text → Option Bool) : Prop :=
  (ledger.manager.checkHit pc evaluate).2.stopReason.isSome = true

/-- A step or a listed entry without a hit condition stops, or otherwise a listed entry has the hit
condition zero exactly when an entry is due. -/
def Agrees (ledger : Ledger) (pc : Word) (evaluate : Text → Option Bool) : Prop :=
  ledger.manager.stepCount = 1 ∨
    (∃ entry ∈ ledger.manager.check pc, Speaks evaluate entry ∧ entry.hitCondition = none) ∨
    ((∃ entry ∈ ledger.manager.check pc, Speaks evaluate entry ∧
        ∃ text, entry.hitCondition = some text ∧ hitValue text = 0) ↔
      ∃ entry ∈ ledger.manager.entriesAt pc, Speaks evaluate entry ∧ ledger.Due entry)

end Ledger

namespace BreakpointManager

variable {m : BreakpointManager}

/-- No entry was ever counted. -/
def Uncounted (m : BreakpointManager) : Prop :=
  ∀ hash, ∀ entry ∈ m.buckets hash, entry.hitCount = 0

section Uncounted

theorem Uncounted.of_subset {t : BreakpointManager} (uncounted : m.Uncounted)
    (fewer : ∀ hash, ∀ entry ∈ t.buckets hash, entry ∈ m.buckets hash) : t.Uncounted :=
  fun hash entry inside => uncounted hash entry (fewer hash entry inside)

theorem Uncounted.add (uncounted : m.Uncounted) (address : Word) (type : BreakpointType)
    (condition hitCondition logMessage : Option Text) :
    (m.add address type condition hitCondition logMessage).Uncounted := by
  simp only [BreakpointManager.add]
  split_ifs
  · exact uncounted
  · intro hash entry inside
    dsimp only at inside
    by_cases same : hash = hashAddress address
    · subst same
      rw [Function.update_self, List.mem_cons] at inside
      rcases inside with rfl | older
      · rfl
      · exact uncounted _ entry older
    · rw [Function.update_of_ne same] at inside
      exact uncounted hash entry inside

theorem Uncounted.remove (uncounted : m.Uncounted) (address : Word)
    (type : Option BreakpointType) : (m.remove address type).Uncounted := by
  apply uncounted.of_subset
  intro hash entry inside
  by_cases same : hash = hashAddress address
  · subst same
    simp only [BreakpointManager.remove, bitmapRebuild, Function.update_self] at inside
    exact (List.mem_filter.mp inside).1
  · simpa only [BreakpointManager.remove, bitmapRebuild, Function.update_of_ne same] using inside

theorem Uncounted.visit {state : BreakpointManager × Hit} (uncounted : state.1.Uncounted)
    (pc : Word) (evaluate : Text → Option Bool) (bp : BreakpointEntry) :
    (BreakpointManager.visit pc evaluate state bp).1.Uncounted := by
  have told : ({ state.1 with lastHit := some pc } : BreakpointManager).Uncounted := uncounted
  simp only [BreakpointManager.visit]
  split_ifs <;> first
    | exact uncounted.remove _ _
    | exact told.remove _ _
    | exact uncounted

theorem Uncounted.visits {state : BreakpointManager × Hit} (uncounted : state.1.Uncounted)
    (pc : Word) (evaluate : Text → Option Bool) (entries : List BreakpointEntry) :
    (entries.foldl (BreakpointManager.visit pc evaluate) state).1.Uncounted := by
  induction entries generalizing state with
  | nil => exact uncounted
  | cons entry entries ih =>
    exact ih (uncounted.visit pc evaluate entry)

theorem Uncounted.act (uncounted : m.Uncounted) (action : Action) : (m.act action).Uncounted := by
  cases action with
  | add => exact uncounted.add _ _ _ _ _
  | remove => exact uncounted.remove _ _
  | clear => exact fun _ _ inside => absurd inside List.not_mem_nil
  | clearType type => exact uncounted.of_subset fun _ _ inside => (List.mem_filter.mp inside).1
  | stepOne => exact uncounted
  | arrive pc evaluate =>
    simp only [BreakpointManager.act, checkHit]
    split_ifs
    · exact uncounted
    · have stepped : ({ m with stepCount := m.stepCount - 1 } : BreakpointManager).Uncounted :=
        uncounted
      exact @Uncounted.visits (_, ⟨none, 0⟩) stepped pc evaluate _

end Uncounted

end BreakpointManager

namespace BreakpointManager

variable {m : BreakpointManager}

section Check

theorem mem_collect {address : Word} {bucket temps users : List BreakpointEntry}
    {entry : BreakpointEntry}
    (inside : entry ∈ (collect address bucket temps users).1 ∨
      entry ∈ (collect address bucket temps users).2) :
    entry ∈ temps ∨ entry ∈ users ∨ entry ∈ bucket ∧ entry.address = address := by
  induction bucket generalizing temps users with
  | nil =>
    rcases inside with temp | user
    · exact .inl temp
    · exact .inr (.inl user)
  | cons first rest ih =>
    have here (taken : entry ∈ temps ∨ entry ∈ users ∨ entry = first)
        (there : first.address = address) :
        entry ∈ temps ∨ entry ∈ users ∨ entry ∈ first :: rest ∧ entry.address = address := by
      rcases taken with temp | user | rfl
      · exact .inl temp
      · exact .inr (.inl user)
      · exact .inr (.inr ⟨List.mem_cons_self, there⟩)
    rw [collect] at inside
    split_ifs at inside with there isTemporary
    · rw [List.mem_append, List.mem_singleton] at inside
      exact here (by tauto) there
    · rcases ih inside with temp | user | behind
      · rw [List.mem_append, List.mem_singleton] at temp
        exact here (by tauto) there
      · exact .inr (.inl user)
      · exact .inr (.inr ⟨List.mem_cons_of_mem _ behind.1, behind.2⟩)
    · rw [List.mem_append, List.mem_singleton] at inside
      exact here (by tauto) there
    · rcases ih inside with temp | user | behind
      · exact .inl temp
      · rw [List.mem_append, List.mem_singleton] at user
        exact here (by tauto) there
      · exact .inr (.inr ⟨List.mem_cons_of_mem _ behind.1, behind.2⟩)
    · rcases ih inside with temp | user | behind
      · exact .inl temp
      · exact .inr (.inl user)
      · exact .inr (.inr ⟨List.mem_cons_of_mem _ behind.1, behind.2⟩)

/-- Only entries of the address are listed. -/
theorem check_subset {address : Word} {entry : BreakpointEntry} (listed : entry ∈ m.check address) :
    entry ∈ m.entriesAt address := by
  have inside : entry ∈ (collect address (m.buckets (hashAddress address)) [] []).1 ∨
      entry ∈ (collect address (m.buckets (hashAddress address)) [] []).2 := by
    simp only [check] at listed
    split_ifs at listed
    · exact .inl listed
    · exact .inr listed
  rcases mem_collect inside with none_ | none_ | ⟨stored, there⟩
  · cases none_
  · cases none_
  · exact List.mem_filter.mpr ⟨stored, decide_eq_true there⟩

end Check

section Visit

/-- An entry stops when it speaks and its hit condition is met. -/
theorem visit_stops {state : BreakpointManager × Hit} {pc : Word} {evaluate : Text → Option Bool}
    {bp : BreakpointEntry} : (visit pc evaluate state bp).2.stopReason.isSome = true ↔
      state.2.stopReason.isSome = true ∨ Ledger.Speaks evaluate bp ∧ hitOk bp = true := by
  simp only [visit, Ledger.Speaks]
  rcases logged : bp.logMessage with _ | message
  · split_ifs <;> simp_all
  · split_ifs <;> simp_all

theorem visits_stop {state : BreakpointManager × Hit} {pc : Word} {evaluate : Text → Option Bool}
    {entries : List BreakpointEntry} :
    (entries.foldl (visit pc evaluate) state).2.stopReason.isSome = true ↔
      state.2.stopReason.isSome = true ∨
        ∃ bp ∈ entries, Ledger.Speaks evaluate bp ∧ hitOk bp = true := by
  induction entries generalizing state with
  | nil => simp
  | cons entry entries ih =>
    rw [List.foldl_cons, ih, visit_stops, List.exists_mem_cons_iff, or_assoc]

theorem checkHit_stops {pc : Word} {evaluate : Text → Option Bool} :
    (m.checkHit pc evaluate).2.stopReason.isSome = true ↔
      m.stepCount = 1 ∨ ∃ bp ∈ m.check pc, Ledger.Speaks evaluate bp ∧ hitOk bp = true := by
  rw [checkHit]
  by_cases step : m.stepCount = 1
  · simp [step]
  · rw [if_neg step, visits_stop]
    simp [step]
    rfl

end Visit

end BreakpointManager

namespace Ledger

/-- What a run has counted is never in an entry. -/
theorem run_uncounted (actions : List Action) : (run actions).manager.Uncounted := by
  have kept (actions : List Action) (ledger : Ledger) (uncounted : ledger.manager.Uncounted) :
      (actions.foldl act ledger).manager.Uncounted := by
    induction actions generalizing ledger with
    | nil => exact uncounted
    | cons action actions ih =>
      exact ih _ (uncounted.act action)
  exact kept actions init fun _ _ inside => absurd inside List.not_mem_nil

/-- An entry that was never counted is met without a hit condition or at the value zero. -/
theorem hitOk_iff {entry : BreakpointEntry} (uncounted : entry.hitCount = 0) : hitOk entry = true ↔
    entry.hitCondition = none ∨ ∃ text, entry.hitCondition = some text ∧ hitValue text = 0 := by
  rcases asked : entry.hitCondition with _ | text
  · simp [hitOk, asked]
  · simp [hitOk, asked, uncounted, eq_comm]

end Ledger

end Nd100x.Breakpoints
