import Mathlib.Logic.Function.Basic

namespace Nd100x.Library

/-- A program issues operations and continues with each answer. -/
inductive Program (Op : Type) (Answer : Op → Type) (A : Type) where
  | pure (value : A)
  | step (op : Op) (next : Answer op → Program Op Answer A)

namespace Program

variable {Op : Type} {Answer : Op → Type} {A B C : Type}

/-- The second program starts from the value of the first. -/
def bind : Program Op Answer A → (A → Program Op Answer B) → Program Op Answer B
  | .pure value, next => next value
  | .step op rest, next => .step op fun answer => (rest answer).bind next

instance : Monad (Program Op Answer) where
  pure := .pure
  bind := .bind

/-- The one-operation program returns the answer of its operation. -/
def perform (op : Op) : Program Op Answer (Answer op) := .step op .pure

theorem bindPure (program : Program Op Answer A) : program.bind .pure = program := by
  induction program with
  | pure value => rfl
  | step op rest ih => simp only [bind, ih]

theorem bindAssoc (program : Program Op Answer A) (f : A → Program Op Answer B)
    (g : B → Program Op Answer C) :
    (program.bind f).bind g = program.bind fun value => (f value).bind g := by
  induction program with
  | pure value => rfl
  | step op rest ih => simp only [bind, ih]

instance : LawfulMonad (Program Op Answer) := 
  LawfulMonad.mk' _ (fun program => bindPure program) (fun _ _ => rfl)
    (fun program f g => bindAssoc program f g)

/-- The interpretation runs each operation in the target monad. -/
def interpret {M : Type → Type} [Monad M] (handler : (op : Op) → M (Answer op)) :
    Program Op Answer A → M A
  | .pure value => Pure.pure value
  | .step op rest => handler op >>= fun answer => (rest answer).interpret handler

/-- Every operation that a run can issue satisfies the predicate. -/
def All (allowed : Op → Prop) : Program Op Answer A → Prop
  | .pure _ => True
  | .step op rest => allowed op ∧ ∀ answer, (rest answer).All allowed

section All

variable {allowed : Op → Prop}

@[simp] theorem all_perform (op : Op) :
    (perform op : Program Op Answer (Answer op)).All allowed ↔ allowed op :=
  ⟨fun all => all.1, fun holds => ⟨holds, fun _ => trivial⟩⟩

theorem All.bind {program : Program Op Answer A} {next : A → Program Op Answer B}
    (first : program.All allowed) (later : ∀ value, (next value).All allowed) :
    (program >>= next).All allowed := by
  change (program.bind next).All allowed
  induction program with
  | pure value => exact later value
  | step op rest ih =>
    exact ⟨first.1, fun answer => ih answer (first.2 answer)⟩

theorem all_of_forall (holds : ∀ op, allowed op) (program : Program Op Answer A) :
    program.All allowed := by
  induction program with
  | pure value => trivial
  | step op rest ih => exact ⟨holds op, ih⟩

end All

section Interpret

variable {M : Type → Type} [Monad M] (handler : (op : Op) → M (Answer op))

@[simp] theorem interpret_perform [LawfulMonad M] (op : Op) :
    (perform op : Program Op Answer (Answer op)).interpret handler = handler op := by
  change (handler op >>= fun answer => Pure.pure answer) = handler op
  exact bind_pure _

@[simp] theorem interpret_bind [LawfulMonad M] (program : Program Op Answer A)
    (next : A → Program Op Answer B) :
    (program >>= next).interpret handler =
      program.interpret handler >>= fun value => (next value).interpret handler := by
  change (program.bind next).interpret handler = _
  induction program with
  | pure value => simp [bind, interpret]
  | step op rest ih => simp only [bind, interpret, ih, LawfulMonad.bind_assoc]

end Interpret

end Program

end Nd100x.Library

namespace Nd100x.Library

namespace Program

section Safe

variable {Op : Type} {Answer : Op → Type} {Error State A B : Type}
variable (perform : (op : Op) → State → EStateM.Result Error State (Answer op))
variable (rely : State → State → Prop) (left : Error → State → Prop)

/-- Before each operation the others may change the state as far as the program relies on them.
Whatever they do, the program ends as it should. -/
def Safe (post : A → State → Prop) : Program Op Answer A → State → Prop
  | .pure value, s => post value s
  | .step op next, s => ∀ t, rely s t → match perform op t with
      | .ok answer u => Safe post (next answer) u
      | .error stop u => left stop u

variable {perform rely left} {post : A → State → Prop} {s t : State}

/-- What the others do between two operations does not harm a safe program. -/
theorem Safe.disturb {program : Program Op Answer A}
    (safe : program.Safe perform rely left post s) (others : rely s t)
    (composes : ∀ s t u, rely s t → rely t u → rely s u)
    (stable : ∀ value s t, rely s t → post value s → post value t) :
    program.Safe perform rely left post t := by
  cases program with
  | pure value => exact stable value s t others safe
  | step op next => exact fun u later => safe u (composes s t u others later)

theorem Safe.ok {op : Op} {next : Answer op → Program Op Answer A} {answer : Answer op}
    (safe : (Program.step op next).Safe perform rely left post s) (others : rely s t)
    {u : State} (ran : perform op t = .ok answer u) :
    (next answer).Safe perform rely left post u := by
  have now := safe t others
  rw [ran] at now
  exact now

theorem Safe.error {op : Op} {next : Answer op → Program Op Answer A} {stop : Error}
    (safe : (Program.step op next).Safe perform rely left post s) (others : rely s t)
    {u : State} (ran : perform op t = .error stop u) : left stop u := by
  have now := safe t others
  rw [ran] at now
  exact now

/-- The second program is safe where the first one ends. -/
theorem Safe.bind {middle : A → State → Prop} {post : B → State → Prop}
    {first : Program Op Answer A} {next : A → Program Op Answer B}
    (safe : first.Safe perform rely left middle s)
    (later : ∀ value t, middle value t → (next value).Safe perform rely left post t) :
    (first >>= next).Safe perform rely left post s := by
  change (first.bind next).Safe perform rely left post s
  induction first generalizing s with
  | pure value => exact later value s safe
  | step op rest ih =>
    intro t others
    cases ran : perform op t with
    | ok answer u => exact ih answer (safe.ok others ran)
    | error stop u => exact safe.error others ran

/-- One operation is safe where it returns rightly after what the others did. -/
theorem safe_perform {op : Op} {post : Answer op → State → Prop}
    (ok : ∀ {t answer u}, rely s t → perform op t = .ok answer u → post answer u)
    (error : ∀ {t stop u}, rely s t → perform op t = .error stop u → left stop u) :
    (Program.perform op : Program Op Answer (Answer op)).Safe perform rely left post s := by
  intro t others
  cases ran : perform op t with
  | ok answer u => exact ok others ran
  | error stop u => exact error others ran

end Safe

end Program

end Nd100x.Library
