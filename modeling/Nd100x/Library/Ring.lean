import Mathlib.Data.Nat.ModEq
import Mathlib.Data.List.Basic
import Mathlib.Logic.Function.Basic
import Mathlib.Tactic.Common

namespace Nd100x.Library

/-- A ring keeps its values in order from its head on. -/
structure Ring (α : Type) (size : Nat) where
  slots : Nat → α
  head : Nat
  count : Nat
  inside : head < size
  fits : count ≤ size

namespace Ring

variable {α : Type} {size : Nat} (ring : Ring α size)

def values : List α := (List.range ring.count).map fun k => ring.slots ((ring.head + k) % size)

/-- A ring with room takes a value behind the others. -/
def put (value : α) (room : ring.count < size) : Ring α size where
  slots := Function.update ring.slots ((ring.head + ring.count) % size) value
  head := ring.head
  count := ring.count + 1
  inside := ring.inside
  fits := room

def first : α := ring.slots ring.head

def take : Ring α size where
  slots := ring.slots
  head := (ring.head + 1) % size
  count := ring.count - 1
  inside := Nat.mod_lt _ (Nat.zero_lt_of_lt ring.inside)
  fits := (Nat.sub_le _ _).trans ring.fits

def clear : Ring α size where
  slots := ring.slots
  head := 0
  count := 0
  inside := Nat.zero_lt_of_lt ring.inside
  fits := Nat.zero_le _

@[simp] theorem values_length : ring.values.length = ring.count := by
  rw [values, List.length_map, List.length_range]

@[simp] theorem put_count (value : α) (room : ring.count < size) :
    (ring.put value room).count = ring.count + 1 := rfl

@[simp] theorem take_count : ring.take.count = ring.count - 1 := rfl

/-- Two places of a ring differ. -/
theorem place_ne {head first second : Nat} (below : first < second) (inside : second < size) :
    (head + first) % size ≠ (head + second) % size := by
  intro same
  have equal : first % size = second % size := Nat.ModEq.add_left_cancel' head same
  rw [Nat.mod_eq_of_lt (below.trans inside), Nat.mod_eq_of_lt inside] at equal
  omega

theorem put_values (value : α) (room : ring.count < size) :
    (ring.put value room).values = ring.values ++ [value] := by
  rw [values, values, put_count, List.range_succ, List.map_append, List.map_singleton]
  congr 1
  · refine List.map_congr_left fun k member => ?_
    exact Function.update_of_ne (place_ne (List.mem_range.mp member) room) _ _
  · rw [List.singleton_inj]
    exact Function.update_self _ _ _

theorem values_take (some_ : ring.count ≠ 0) : ring.values = ring.first :: ring.take.values := by
  obtain ⟨count, same⟩ := Nat.exists_eq_succ_of_ne_zero some_
  have left : ring.take.count = count := by
    rw [take_count, same]
    rfl
  rw [values, values, left, same, List.range_succ_eq_map, List.map_cons, List.map_map]
  congr 1
  · rw [Nat.add_zero, Nat.mod_eq_of_lt ring.inside]
    rfl
  · refine List.map_congr_left fun k _ => ?_
    change ring.slots ((ring.head + (k + 1)) % size) =
      ring.slots (((ring.head + 1) % size + k) % size)
    rw [Nat.mod_add_mod, Nat.add_assoc, Nat.add_comm 1 k]

theorem values_eq_nil : ring.values = [] ↔ ring.count = 0 := by
  rw [← List.length_eq_zero_iff, values_length]

end Ring

end Nd100x.Library

namespace Nd100x.Library

variable {A : Type}

/-- These are the values from a place on, around the end of a circular store. -/
def circular (size : Nat) (store : Nat → A) (start length : Nat) : List A :=
  (List.range length).map fun k => store ((start + k) % size)

/-- The values are put one after the other, around the end. -/
def putCircular (size : Nat) (store : Nat → A) (start : Nat) : List A → Nat → A
  | [] => store
  | value :: rest =>
    putCircular size (Function.update store (start % size) value) (start + 1) rest

variable {size : Nat} {store : Nat → A} {start : Nat}

theorem circular_append (first second : Nat) :
    circular size store start (first + second) =
      circular size store start first ++ circular size store (start + first) second := by
  simp only [circular, List.range_add, List.map_append, List.map_map]
  congr 1
  refine List.map_congr_left fun k _ => ?_
  rw [Function.comp_apply, Nat.add_assoc]

theorem circular_succ (length : Nat) :
    circular size store start (length + 1) =
      store (start % size) :: circular size store (start + 1) length := by
  rw [Nat.add_comm length 1, circular_append]
  rfl

theorem putCircular_append (first second : List A) :
    putCircular size store start (first ++ second) =
      putCircular size (putCircular size store start first) (start + first.length) second := by
  induction first generalizing store start with
  | nil => rfl
  | cons value first ih =>
    rw [List.cons_append, putCircular, ih, putCircular, List.length_cons,
      Nat.add_assoc, Nat.add_comm 1]

/-- A place that no value goes to is kept. -/
theorem putCircular_other {values : List A} {place : Nat}
    (apart : ∀ k < values.length, place ≠ (start + k) % size) :
    putCircular size store start values place = store place := by
  induction values generalizing store start with
  | nil => rfl
  | cons value values ih =>
    rw [putCircular, ih]
    · exact Function.update_of_ne (apart 0 (Nat.succ_pos _)) _ _
    · intro k inside
      rw [Nat.add_assoc, Nat.add_comm 1]
      exact apart (k + 1) (Nat.succ_lt_succ inside)

/-- A stream that fits is read back. -/
theorem circular_putCircular {values : List A} (fits : values.length ≤ size) :
    circular size (putCircular size store start values) start values.length = values := by
  induction values generalizing store start with
  | nil => rfl
  | cons value values ih =>
    rw [List.length_cons] at fits
    rw [List.length_cons, circular_succ, putCircular,
      ih (Nat.le_of_succ_le fits)]
    congr 1
    rw [putCircular_other]
    · exact Function.update_self _ _ _
    · intro k inside
      rw [Nat.add_assoc, Nat.add_comm 1]
      exact Ring.place_ne (Nat.succ_pos k) (by omega)

/-- A known stream is known value by value. -/
theorem circular_getElem {values : List A}
    (known : circular size store start values.length = values) {k : Nat} {value : A}
    (here : values[k]? = some value) : store ((start + k) % size) = value := by
  obtain ⟨inside, _⟩ := List.getElem?_eq_some_iff.mp here
  rw [← known, circular, List.getElem?_map, List.getElem?_range inside, Option.map_some] at here
  exact Option.some.inj here

end Nd100x.Library
