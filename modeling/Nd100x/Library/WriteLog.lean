import Mathlib.Data.List.Nodup
import Mathlib.Logic.Function.Basic

namespace Nd100x.Library

variable {Place A : Type} [DecidableEq Place]

/-- The writes are made one after the other. -/
def applyWrites : List (Place × A) → (Place → A) → Place → A
  | [], memory => memory
  | (place, value) :: rest, memory => applyWrites rest (Function.update memory place value)

variable {writes : List (Place × A)} {memory : Place → A} {place : Place} {value : A}

theorem applyWrites_append (first second : List (Place × A)) (memory : Place → A) :
    applyWrites (first ++ second) memory = applyWrites second (applyWrites first memory) := by
  induction first generalizing memory with
  | nil => rfl
  | cons write rest ih => exact ih _

/-- A place without a write is kept. -/
theorem applyWrites_other (outside : ∀ write ∈ writes, place ≠ write.1) :
    applyWrites writes memory place = memory place := by
  induction writes generalizing memory with
  | nil => rfl
  | cons write rest ih =>
    rw [applyWrites, ih fun other member => outside other (List.mem_cons_of_mem _ member),
      Function.update_of_ne (outside write List.mem_cons_self)]

/-- With one write for each place, every write is read back. -/
theorem applyWrites_same (distinct : (writes.map Prod.fst).Nodup) (member : (place, value) ∈ writes) :
    applyWrites writes memory place = value := by
  induction writes generalizing memory with
  | nil => exact absurd member List.not_mem_nil
  | cons write rest ih =>
    obtain ⟨fresh, later⟩ := List.nodup_cons.mp distinct
    rcases List.mem_cons.mp member with rfl | member
    · rw [applyWrites, applyWrites_other, Function.update_self]
      rintro other inside rfl
      exact fresh (List.mem_map.mpr ⟨other, inside, rfl⟩)
    · exact ih later member

end Nd100x.Library
