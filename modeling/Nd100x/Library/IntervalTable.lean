import Mathlib.Data.List.Find
import Mathlib.Data.List.Perm.Basic
import Mathlib.Data.List.Pairwise

namespace Nd100x.Library

/-- A table of non-empty intervals that do not overlap, in any order. -/
structure Separate {A : Type} (lo hi : A → Nat) (table : List A) : Prop where
  nonempty : ∀ x ∈ table, lo x < hi x
  apart : table.Pairwise fun x y => hi x ≤ lo y ∨ hi y ≤ lo x

namespace Separate

variable {A : Type} {lo hi : A → Nat} {table other : List A} {x y : A} {address : Nat}

theorem nil : Separate lo hi [] := ⟨fun _ none => absurd none List.not_mem_nil, .nil⟩

theorem cons_iff : Separate lo hi (x :: table) ↔
    lo x < hi x ∧ (∀ y ∈ table, hi x ≤ lo y ∨ hi y ≤ lo x) ∧ Separate lo hi table := by
  constructor
  · intro separate
    obtain ⟨here, rest⟩ := List.pairwise_cons.mp separate.apart
    exact ⟨separate.nonempty x List.mem_cons_self, here,
      fun y member => separate.nonempty y (List.mem_cons_of_mem x member), rest⟩
  · rintro ⟨some, here, rest⟩
    refine ⟨fun y member => ?_, List.pairwise_cons.mpr ⟨here, rest.apart⟩⟩
    rcases List.mem_cons.mp member with rfl | member
    · exact some
    · exact rest.nonempty y member

theorem perm (separate : Separate lo hi table) (same : table.Perm other) : Separate lo hi other where
  nonempty x member := separate.nonempty x (same.mem_iff.mpr member)
  apart := (same.pairwise_iff fun apart => apart.symm).mp separate.apart

/-- Two entries that meet are one. -/
theorem eq_of_meet (separate : Separate lo hi table) (first : x ∈ table) (second : y ∈ table)
    (left : lo x < hi y) (right : lo y < hi x) : x = y := by
  induction table with
  | nil => exact absurd first List.not_mem_nil
  | cons z rest ih =>
    obtain ⟨-, here, later⟩ := cons_iff.mp separate
    rcases List.mem_cons.mp first with rfl | inner
    · rcases List.mem_cons.mp second with rfl | other
      · rfl
      · have apart := here y other
        omega
    · rcases List.mem_cons.mp second with rfl | other
      · have apart := here x inner
        omega
      · exact ih later inner other

/-- The entries apart from one. -/
theorem exists_rest (member : x ∈ table) : ∃ rest, table.Perm (x :: rest) := by
  obtain ⟨before, after, rfl⟩ := List.append_of_mem member
  exact ⟨before ++ after, List.perm_middle⟩

/-- An entry gives way to pieces of itself that do not overlap. -/
theorem replace {pieces : List A} (separate : Separate lo hi (x :: table))
    (inner : Separate lo hi pieces) (within : ∀ y ∈ pieces, lo x ≤ lo y ∧ hi y ≤ hi x) :
    Separate lo hi (pieces ++ table) := by
  obtain ⟨-, here, rest⟩ := cons_iff.mp separate
  refine ⟨fun y member => ?_, List.pairwise_append.mpr ⟨inner.apart, rest.apart, fun y member z other => ?_⟩⟩
  · rcases List.mem_append.mp member with member | member
    · exact inner.nonempty y member
    · exact rest.nonempty y member
  · have apart := here z other
    have inside := within y member
    omega

/-- The first entry that holds an address is the only one. -/
theorem find_iff (separate : Separate lo hi table) :
    table.find? (fun x => decide (lo x ≤ address ∧ address < hi x)) = some x ↔
      x ∈ table ∧ lo x ≤ address ∧ address < hi x := by
  constructor
  · intro found
    have holds := List.find?_some found
    exact ⟨List.mem_of_find?_eq_some found, decide_eq_true_iff.mp holds⟩
  · rintro ⟨member, low, high⟩
    cases found : table.find? (fun x => decide (lo x ≤ address ∧ address < hi x)) with
    | none =>
      have none := List.find?_eq_none.mp found x member
      exact absurd (decide_eq_true ⟨low, high⟩) none
    | some y =>
      have holds := List.find?_some found
      obtain ⟨lowY, highY⟩ := decide_eq_true_iff.mp holds
      rw [separate.eq_of_meet (List.mem_of_find?_eq_some found) member (by omega) (by omega)]

end Separate

end Nd100x.Library
