import Mathlib.Data.List.Perm.Basic
import Mathlib.Data.List.Nodup

namespace Nd100x.Library

section KeyedArray

variable {ε κ : Type*}

/-- The last entry takes the place of a removed one. -/
def swapRemove (entries : List ε) (place : Nat) : List ε :=
  match entries.getLast? with
  | some last => (entries.set place last).dropLast
  | none => entries

variable {key : ε → κ} {entries : List ε} {wanted : κ} [DecidableEq κ]

/-- The place of the first entry with a key. -/
def findKey (key : ε → κ) (entries : List ε) (wanted : κ) : Option Nat :=
  entries.findIdx? fun entry => key entry = wanted

theorem findKey_eq_none :
    findKey key entries wanted = none ↔ ∀ entry ∈ entries, key entry ≠ wanted := by
  simp [findKey, List.findIdx?_eq_none_iff]

end KeyedArray

end Nd100x.Library
