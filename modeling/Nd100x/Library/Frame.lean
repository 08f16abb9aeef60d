import Nd100x.Library.Program

namespace Nd100x.Library

variable {Error State A B : Type}

/-- The relation joins the first and the last state of every run, and a run stops only
with an expected error. -/
structure Respects (expected : Error → Prop) (related : State → State → Prop)
    (action : EStateM Error State A) : Prop where
  ok : ∀ {s value t}, action s = .ok value t → related s t
  error : ∀ {s stop t}, action s = .error stop t → related s t ∧ expected stop

/-- A frame relation composes along a run. -/
structure Composes (related : State → State → Prop) : Prop where
  refl : ∀ s, related s s
  trans : ∀ {s t u}, related s t → related t u → related s u

namespace Respects

variable {expected : Error → Prop} {related : State → State → Prop}

theorem pure (composes : Composes related) (value : A) :
    Respects expected related (Pure.pure value : EStateM Error State A) where
  ok := by
    intro s found t done
    cases done
    exact composes.refl _
  error := by
    intro s stop t stopped
    cases stopped

theorem get (composes : Composes related) :
    Respects expected related (MonadState.get : EStateM Error State State) where
  ok := by
    intro s found t done
    cases done
    exact composes.refl _
  error := by
    intro s stop t stopped
    cases stopped

theorem modify {update : State → State} (updates : ∀ s, related s (update s)) :
    Respects expected related (modifyGet fun s => ((), update s) : EStateM Error State Unit) where
  ok := by
    intro s found t done
    cases done
    exact updates s
  error := by
    intro s stop t stopped
    cases stopped

theorem throw (composes : Composes related) {stop : Error} (known : expected stop) :
    Respects expected related (MonadExcept.throw stop : EStateM Error State A) where
  ok := by
    intro s found t done
    cases done
  error := by
    intro s found t stopped
    cases stopped
    exact ⟨composes.refl _, known⟩

theorem bind (composes : Composes related) {first : EStateM Error State A}
    {next : A → EStateM Error State B} (start : Respects expected related first)
    (later : ∀ value, Respects expected related (next value)) :
    Respects expected related (first >>= next) where
  ok := by
    intro s found t done
    change EStateM.bind first next s = _ at done
    unfold EStateM.bind at done
    cases ran : first s with
    | ok value middle =>
      rw [ran] at done
      exact composes.trans (start.ok ran) ((later value).ok done)
    | error stop middle =>
      rw [ran] at done
      cases done
  error := by
    intro s found t stopped
    change EStateM.bind first next s = _ at stopped
    unfold EStateM.bind at stopped
    cases ran : first s with
    | ok value middle =>
      rw [ran] at stopped
      exact ⟨composes.trans (start.ok ran) ((later value).error stopped).1,
        ((later value).error stopped).2⟩
    | error stop middle =>
      rw [ran] at stopped
      cases stopped
      exact start.error ran

theorem ite {condition : Prop} [Decidable condition] {first second : EStateM Error State A}
    (one : Respects expected related first) (two : Respects expected related second) :
    Respects expected related (if condition then first else second) := by
  split
  · exact one
  · exact two

end Respects

/-- A run that returns keeps the relation, and a run that stops leaves a state of its own kind. -/
structure Ends (kept : State → State → Prop) (left : Error → State → Prop)
    (action : EStateM Error State A) : Prop where
  ok : ∀ {s value t}, action s = .ok value t → kept s t
  error : ∀ {s stop t}, action s = .error stop t → left stop t

namespace Ends

variable {kept : State → State → Prop} {left : Error → State → Prop}

theorem weaken {more : State → State → Prop} {action : EStateM Error State A}
    (ends : Ends kept left action) (gives : ∀ s t, kept s t → more s t) :
    Ends more left action where
  ok := fun done => gives _ _ (ends.ok done)
  error := ends.error

theorem pure (composes : Composes kept) (value : A) :
    Ends kept left (Pure.pure value : EStateM Error State A) where
  ok := by
    intro s found t done
    cases done
    exact composes.refl _
  error := by
    intro s stop t stopped
    cases stopped

theorem get (composes : Composes kept) :
    Ends kept left (MonadState.get : EStateM Error State State) where
  ok := by
    intro s found t done
    cases done
    exact composes.refl _
  error := by
    intro s stop t stopped
    cases stopped

theorem modify {update : State → State} (updates : ∀ s, kept s (update s)) :
    Ends kept left (modifyGet fun s => ((), update s) : EStateM Error State Unit) where
  ok := by
    intro s found t done
    cases done
    exact updates s
  error := by
    intro s stop t stopped
    cases stopped

theorem throw {stop : Error} (leaves : ∀ s, left stop s) :
    Ends kept left (MonadExcept.throw stop : EStateM Error State A) where
  ok := by
    intro s found t done
    cases done
  error := by
    intro s found t stopped
    cases stopped
    exact leaves _

theorem bind (composes : Composes kept) {first : EStateM Error State A}
    {next : A → EStateM Error State B} (start : Ends kept left first)
    (later : ∀ value, Ends kept left (next value)) : Ends kept left (first >>= next) where
  ok := by
    intro s found t done
    change EStateM.bind first next s = _ at done
    unfold EStateM.bind at done
    cases ran : first s with
    | ok value middle =>
      rw [ran] at done
      exact composes.trans (start.ok ran) ((later value).ok done)
    | error stop middle =>
      rw [ran] at done
      cases done
  error := by
    intro s found t stopped
    change EStateM.bind first next s = _ at stopped
    unfold EStateM.bind at stopped
    cases ran : first s with
    | ok value middle =>
      rw [ran] at stopped
      exact (later value).error stopped
    | error stop middle =>
      rw [ran] at stopped
      cases stopped
      exact start.error ran

theorem ite {condition : Prop} [Decidable condition] {first second : EStateM Error State A}
    (one : Ends kept left first) (two : Ends kept left second) :
    Ends kept left (if condition then first else second) := by
  split
  · exact one
  · exact two

theorem forM (composes : Composes kept) {Item : Type} (items : List Item)
    {action : Item → EStateM Error State PUnit} (each : ∀ item, Ends kept left (action item)) :
    Ends kept left (items.forM action) := by
  induction items with
  | nil => exact .pure composes _
  | cons item rest ih =>
    exact .bind composes (each item) fun _ => ih

end Ends

/-- A program ends as its operations do. -/
theorem Program.interpret_ends {Op : Type} {Answer : Op → Type} {allowed : Op → Prop}
    {kept : State → State → Prop} {left : Error → State → Prop} (composes : Composes kept)
    (handler : (op : Op) → EStateM Error State (Answer op))
    (each : ∀ op, allowed op → Ends kept left (handler op))
    {program : Program Op Answer A} (all : program.All allowed) :
    Ends kept left (program.interpret handler) := by
  induction program with
  | pure value => exact .pure composes value
  | step op rest ih =>
    exact .bind composes (each op all.1) fun answer =>
      ih answer (all.2 answer)

/-- A program respects what its operations respect. -/
theorem Program.interpret_respects {Op : Type} {Answer : Op → Type} {allowed : Op → Prop}
    {expected : Error → Prop} {related : State → State → Prop} (composes : Composes related)
    (handler : (op : Op) → EStateM Error State (Answer op))
    (each : ∀ op, allowed op → Respects expected related (handler op))
    {program : Program Op Answer A} (all : program.All allowed) :
    Respects expected related (program.interpret handler) := by
  induction program with
  | pure value => exact .pure composes value
  | step op rest ih =>
    exact .bind composes (each op all.1) fun answer =>
      ih answer (all.2 answer)

end Nd100x.Library
