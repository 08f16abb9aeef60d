import Mathlib.Data.List.Basic

namespace Nd100x.Library

variable {State Input Output : Type}

/-- Each input moves the state and gives at most one output. -/
def transduce (step : State → Input → State × Option Output) :
    State → List Input → State × List Output
  | state, [] => (state, [])
  | state, input :: rest =>
    let moved := step state input
    let later := transduce step moved.1 rest
    (later.1, moved.2.toList ++ later.2)

section Transduce

variable (step : State → Input → State × Option Output)

@[simp] theorem transduce_nil (state : State) : transduce step state [] = (state, []) := rfl

theorem transduce_append (state : State) (first second : List Input) :
    transduce step state (first ++ second) =
      let before := transduce step state first
      let after := transduce step before.1 second
      (after.1, before.2 ++ after.2) := by
  induction first generalizing state with
  | nil => rfl
  | cons input rest ih =>
    simp only [List.cons_append, transduce, ih, List.append_assoc]

variable {step}

/-- A silent input only moves the state. -/
theorem transduce_cons_silent {state next : State} {input : Input} (rest : List Input)
    (moved : step state input = (next, none)) :
    transduce step state (input :: rest) = transduce step next rest := by
  simp [transduce, moved]

theorem transduce_cons_output {state next : State} {input : Input} {output : Output}
    (rest : List Input) (moved : step state input = (next, some output)) :
    transduce step state (input :: rest) =
      ((transduce step next rest).1, output :: (transduce step next rest).2) := by
  simp [transduce, moved]

/-- Silent inputs only move the state. -/
theorem transduce_append_silent {state next : State} {first : List Input} (second : List Input)
    (silent : transduce step state first = (next, [])) :
    transduce step state (first ++ second) = transduce step next second := by
  rw [transduce_append, silent]
  rfl

theorem transduce_singleton_silent {state next : State} {input : Input}
    (moved : step state input = (next, none)) : transduce step state [input] = (next, []) := by
  rw [transduce_cons_silent [] moved, transduce_nil]

/-- The first of some silent inputs is silent. -/
theorem transduce_cons_inv {state next : State} {input : Input} {rest : List Input}
    (silent : transduce step state (input :: rest) = (next, [])) :
    ∃ middle, step state input = (middle, none) ∧ transduce step middle rest = (next, []) := by
  rcases moved : step state input with ⟨middle, output⟩
  cases output with
  | none => exact ⟨middle, rfl, (transduce_cons_silent rest moved).symm.trans silent⟩
  | some output =>
    rw [transduce_cons_output rest moved] at silent
    cases congrArg Prod.snd silent

/-- What every step keeps holds after any inputs. -/
theorem transduce_keeps {Keeps : State → Prop}
    (kept : ∀ state input, Keeps state → Keeps (step state input).1) {state : State}
    (initially : Keeps state) (inputs : List Input) : Keeps (transduce step state inputs).1 := by
  induction inputs generalizing state with
  | nil => exact initially
  | cons input inputs ih =>
    exact ih (kept state input initially)

end Transduce

end Nd100x.Library
