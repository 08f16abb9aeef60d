import Mathlib.Data.List.Count
import Mathlib.Data.List.TakeDrop
import Mathlib.Order.Bounds.Defs
import Mathlib.Tactic.Common

namespace Nd100x.PulseTrain

/-- A reading gives a pulse or none. -/
abbrev Readings := List (ℕ × Bool)

def pulses (readings : Readings) : ℕ := readings.countP Prod.snd

/-- A reading gives a pulse when its time has come to the next due one. -/
def Paced (due period : ℕ) (readings : Readings) : Prop :=
  ∀ index reading, readings[index]? = some reading →
    (reading.2 = true ↔ due + pulses (readings.take index) * period ≤ reading.1)

/-- No reading is later than the slack after the next due time. -/
def Prompt (due period slack : ℕ) (readings : Readings) : Prop :=
  ∀ index reading, readings[index]? = some reading →
    reading.1 ≤ due + pulses (readings.take index) * period + slack

def GivesPulse (readings : Readings) (number index : ℕ) : Prop :=
  ∃ time, readings[index]? = some (time, true) ∧ pulses (readings.take index) + 1 = number

/-- The reading is late enough for this pulse and comes after the pulse before it. -/
def DueAt (origin period : ℕ) (readings : Readings) (number index : ℕ) : Prop :=
  ∃ reading, readings[index]? = some reading ∧ origin + number * period ≤ reading.1 ∧
    (number = 1 ∨ ∃ earlier < index, GivesPulse readings (number - 1) earlier)

variable {readings : Readings}

theorem pulses_take_succ {index : ℕ} {reading : ℕ × Bool}
    (here : readings[index]? = some reading) :
    pulses (readings.take (index + 1)) =
      pulses (readings.take index) + if reading.2 then 1 else 0 := by
  rw [pulses, List.take_add_one, here, Option.toList_some, List.countP_append,
    List.countP_singleton]
  rfl

theorem pulses_mono {first last : ℕ} (order : first ≤ last) :
    pulses (readings.take first) ≤ pulses (readings.take last) :=
  List.Sublist.countP_le (List.take_sublist_take_left order)

/-- The pulses so far were given one after another. -/
theorem exists_gives {number index : ℕ} (given : number + 1 ≤ pulses (readings.take index)) :
    ∃ earlier < index, GivesPulse readings (number + 1) earlier := by
  induction index with
  | zero =>
    rw [List.take_zero] at given
    exact absurd given (Nat.not_succ_le_zero _)
  | succ index ih =>
    by_cases before : number + 1 ≤ pulses (readings.take index)
    · obtain ⟨earlier, order, gives⟩ := ih before
      exact ⟨earlier, Nat.lt_succ_of_lt order, gives⟩
    · rcases here : readings[index]? with _ | reading
      · rw [List.take_add_one, here, Option.toList_none, List.append_nil] at given
        exact absurd given before
      · rw [pulses_take_succ here] at given
        rcases reading with ⟨time, pulsed⟩
        cases pulsed with
        | false => exact absurd given before
        | true =>
          dsimp only at given
          rw [if_pos rfl] at given
          exact ⟨index, Nat.lt_succ_self _, time, here, by omega⟩

theorem GivesPulse.count {number index : ℕ} (gives : GivesPulse readings number index) :
    pulses (readings.take (index + 1)) = number := by
  obtain ⟨time, here, count⟩ := gives
  rw [pulses_take_succ here]
  exact count

theorem DueAt.count {origin period number index : ℕ}
    (due : DueAt origin period readings number index) :
    number ≤ pulses (readings.take index) + 1 := by
  obtain ⟨_, _, _, rfl | ⟨earlier, order, gives⟩⟩ := due
  · exact Nat.le_add_left _ _
  · have := gives.count ▸ pulses_mono order
    omega

theorem Paced.dueAt {origin period number index : ℕ}
    (paced : Paced (origin + period) period readings)
    (gives : GivesPulse readings number index) : DueAt origin period readings number index := by
  obtain ⟨time, here, rfl⟩ := gives
  refine ⟨_, here, ?_, ?_⟩
  · have := (paced index _ here).mp rfl
    rw [Nat.add_mul, Nat.one_mul]
    omega
  · rcases given : pulses (readings.take index) with _ | number
    · exact .inl rfl
    · exact .inr (exists_gives (Nat.le_of_eq given.symm))

/-- Each pulse comes at the first reading that is late enough for it and after the one before. -/
theorem Paced.gives_iff {origin period number index : ℕ}
    (paced : Paced (origin + period) period readings) :
    GivesPulse readings (number + 1) index ↔
      IsLeast { index | DueAt origin period readings (number + 1) index } index := by
  constructor
  · intro gives
    refine ⟨paced.dueAt gives, fun other due => ?_⟩
    by_contra early
    have before := @pulses_mono readings _ _ (Nat.not_le.mp early)
    obtain ⟨_, _, count⟩ := gives
    have atLeast := due.count
    obtain ⟨reading, here, late, _⟩ := due
    have fewer := @pulses_mono readings _ _ (Nat.le_of_lt (Nat.not_le.mp early))
    have exact_ : pulses (readings.take other) = number := by omega
    have pulsed := (paced other reading here).mpr (by
      rw [exact_]
      rw [Nat.add_mul, Nat.one_mul] at late
      omega)
    rw [pulses_take_succ here, pulsed] at before
    rw [if_pos rfl] at before
    omega
  · rintro ⟨due, least⟩
    have atLeast := due.count
    by_cases more : number + 1 ≤ pulses (readings.take index)
    · obtain ⟨earlier, order, gives⟩ := exists_gives more
      exact absurd (least (paced.dueAt gives)) (Nat.not_le.mpr order)
    · obtain ⟨⟨time, pulsed⟩, here, late, _⟩ := due
      have count : pulses (readings.take index) = number := by omega
      have now := (paced index _ here).mpr (by
        rw [count]
        rw [Nat.add_mul, Nat.one_mul] at late
        dsimp only at late ⊢
        omega)
      dsimp only at now
      subst now
      exact ⟨time, here, by rw [count]⟩

/-- The next due time moves on by a period with each pulse. -/
theorem due_cons (due period : ℕ) (reading : ℕ × Bool) (index : ℕ) :
    due + pulses ((reading :: readings).take (index + 1)) * period =
      (due + if reading.2 then period else 0) + pulses (readings.take index) * period := by
  rw [List.take_succ_cons, pulses, List.countP_cons, ← pulses]
  split_ifs
  · rw [Nat.add_mul, Nat.one_mul]
    omega
  · rw [Nat.add_zero, Nat.add_zero]

theorem prompt_cons {due period slack : ℕ} {reading : ℕ × Bool} :
    Prompt due period slack (reading :: readings) ↔ reading.1 ≤ due + slack ∧
      Prompt (due + if reading.2 then period else 0) period slack readings := by
  constructor
  · intro prompt
    refine ⟨?_, fun index other here => ?_⟩
    · have := prompt 0 reading rfl
      rw [List.take_zero, pulses, List.countP_nil, Nat.zero_mul, Nat.add_zero] at this
      exact this
    · rw [← due_cons]
      exact prompt (index + 1) other here
  · rintro ⟨first, rest⟩ index other here
    cases index with
    | zero =>
      obtain rfl := Option.some.inj here
      rw [List.take_zero, pulses, List.countP_nil, Nat.zero_mul, Nat.add_zero]
      exact first
    | succ index =>
      rw [due_cons]
      exact rest index other here

theorem prompt_nil (due period slack : ℕ) : Prompt due period slack [] :=
  fun _ _ none_ => absurd none_ (Option.some_ne_none _).symm

theorem paced_cons {due period : ℕ} {reading : ℕ × Bool} :
    Paced due period (reading :: readings) ↔ (reading.2 = true ↔ due ≤ reading.1) ∧
      Paced (due + if reading.2 then period else 0) period readings := by
  constructor
  · intro paced
    refine ⟨?_, fun index other here => ?_⟩
    · have := paced 0 reading rfl
      rw [List.take_zero, pulses, List.countP_nil, Nat.zero_mul, Nat.add_zero] at this
      exact this
    · rw [← due_cons]
      exact paced (index + 1) other here
  · rintro ⟨first, rest⟩ index other here
    cases index with
    | zero =>
      obtain rfl := Option.some.inj here
      rw [List.take_zero, pulses, List.countP_nil, Nat.zero_mul, Nat.add_zero]
      exact first
    | succ index =>
      rw [due_cons]
      exact rest index other here

end Nd100x.PulseTrain
