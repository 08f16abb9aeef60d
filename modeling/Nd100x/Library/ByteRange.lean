import Mathlib.Data.List.Basic
import Mathlib.Tactic

namespace Nd100x.Library

variable {A : Type}

/-- These are the values from a position on. -/
def range (f : Nat → A) (start length : Nat) : List A :=
  (List.range length).map fun k => f (start + k)

/-- The values replace those from a position on. -/
def putRange (f : Nat → A) (start : Nat) (values : List A) : Nat → A :=
  fun position =>
    if position < start then f position else (values[position - start]?).getD (f position)

section Range

variable (f : Nat → A) (start : Nat)

@[simp] theorem range_length (length : Nat) : (range f start length).length = length := by
  simp [range]

@[simp] theorem range_zero : range f start 0 = [] := rfl

theorem range_getElem {length k : Nat} (inside : k < (range f start length).length) :
    (range f start length)[k] = f (start + k) := by
  simp [range]

theorem range_append (first second : Nat) :
    range f start (first + second) = range f start first ++ range f (start + first) second := by
  simp only [range, List.range_add, List.map_append, List.map_map]
  congr 1
  apply List.map_congr_left
  intro k _
  simp only [Function.comp_apply, Nat.add_assoc]

/-- Two functions have the same values in a range. -/
theorem range_congr {f g : Nat → A} {start length : Nat}
    (same : ∀ position, start ≤ position → position < start + length → f position = g position) :
    range f start length = range g start length := by
  apply List.map_congr_left
  intro k inside
  have low := List.mem_range.mp inside
  exact same (start + k) (by omega) (by omega)

theorem range_eq_iff {values : List A} :
    range f start values.length = values ↔
      ∀ k (inside : k < values.length), f (start + k) = values[k] := by
  constructor
  · intro same k inside
    have value := List.getElem_of_eq same (i := k) (by simpa using inside)
    rw [range_getElem] at value
    exact value
  · intro each
    apply List.ext_getElem (range_length f start _)
    intro k _ inside
    rw [range_getElem, each k inside]

/-- A known run of values is known piece by piece. -/
theorem range_pieces {front middle back : List A}
    (whole : range f start (front ++ (middle ++ back)).length = front ++ (middle ++ back)) :
    range f start front.length = front ∧ range f (start + front.length) middle.length = middle ∧
      range f (start + front.length + middle.length) back.length = back := by
  rw [List.length_append, List.length_append, range_append, range_append] at whole
  obtain ⟨first, later⟩ := List.append_inj whole (range_length f start _)
  obtain ⟨second, third⟩ := List.append_inj later (range_length f _ _)
  exact ⟨first, second, third⟩

end Range

section PutRange

variable {f : Nat → A} {start : Nat} {values : List A}

@[simp] theorem putRange_nil : putRange f start [] = f := by
  funext position
  simp [putRange]

theorem putRange_outside {position : Nat}
    (outside : position < start ∨ start + values.length ≤ position) :
    putRange f start values position = f position := by
  rw [putRange]
  split_ifs with before
  · rfl
  · rw [List.getElem?_eq_none (by omega), Option.getD_none]

theorem putRange_inside {k : Nat} (inside : k < values.length) :
    putRange f start values (start + k) = values[k] := by
  have index : start + k - start = k := Nat.add_sub_cancel_left start k
  rw [putRange, if_neg (by omega), index, List.getElem?_eq_getElem inside, Option.getD_some]

theorem range_putRange : range (putRange f start values) start values.length = values :=
  (range_eq_iff _ _).mpr fun _ inside => putRange_inside inside

theorem range_putRange_apart {other length : Nat}
    (apart : other + length ≤ start ∨ start + values.length ≤ other) :
    range (putRange f start values) other length = range f other length := by
  apply range_congr
  intro position after before
  exact putRange_outside (by omega)

/-- Values may be put in two pieces. -/
theorem putRange_append (first second : List A) :
    putRange f start (first ++ second) =
      putRange (putRange f start first) (start + first.length) second := by
  funext position
  rcases Nat.lt_or_ge position (start + first.length) with early | late
  · rw [@putRange_outside _ _ (start + first.length) _ _ (.inl early)]
    rcases Nat.lt_or_ge position start with before | after
    · rw [putRange_outside (.inl before), putRange_outside (.inl before)]
    · obtain ⟨k, rfl⟩ := Nat.exists_eq_add_of_le after
      have inside : k < first.length := by omega
      rw [putRange_inside (by rw [List.length_append]; omega), putRange_inside inside,
        List.getElem_append_left inside]
  · obtain ⟨k, rfl⟩ := Nat.exists_eq_add_of_le late
    by_cases inside : k < second.length
    · have shift : start + first.length + k = start + (first.length + k) := Nat.add_assoc _ _ _
      rw [putRange_inside inside, shift, putRange_inside (by rw [List.length_append]; omega),
        List.getElem_append_right (Nat.le_add_right _ _)]
      simp only [Nat.add_sub_cancel_left]
    · rw [putRange_outside (.inr (by rw [List.length_append]; omega)),
        putRange_outside (.inr (by omega)), putRange_outside (.inr (by omega))]

/-- Values are put over the values that were there. -/
theorem putRange_over {first second : List A} (covers : first.length ≤ second.length) :
    putRange (putRange f start first) start second = putRange f start second := by
  funext position
  rcases Nat.lt_or_ge position start with before | after
  · rw [putRange_outside (.inl before), putRange_outside (.inl before),
      putRange_outside (.inl before)]
  · obtain ⟨k, rfl⟩ := Nat.exists_eq_add_of_le after
    by_cases inside : k < second.length
    · rw [putRange_inside inside, putRange_inside inside]
    · rw [putRange_outside (.inr (by omega)), putRange_outside (.inr (by omega)),
        putRange_outside (.inr (by omega))]

end PutRange

end Nd100x.Library
