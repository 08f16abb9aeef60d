import Mathlib.Data.Nat.Digits.Lemmas
import Mathlib.Tactic.Ring

namespace Nd100x.Library

/-- The value of a numeral whose first digit is the most significant one. -/
def numeral (base : ℕ) (digits : List ℕ) : ℕ := Nat.ofDigits base digits.reverse

/-- Every digit is below the base. -/
def Digits (base : ℕ) (digits : List ℕ) : Prop := ∀ digit ∈ digits, digit < base

variable {base : ℕ} {digits rest : List ℕ} {digit : ℕ}

namespace Digits

theorem nil : Digits base [] := fun _ member => nomatch member

theorem cons (first : digit < base) (others : Digits base rest) : Digits base (digit :: rest) := by
  intro d member
  rcases List.mem_cons.mp member with rfl | member
  · exact first
  · exact others d member

theorem head (all : Digits base (digit :: rest)) : digit < base := all digit (by simp)

theorem tail (all : Digits base (digit :: rest)) : Digits base rest := fun d member => all d (by simp [member])

theorem append (first : Digits base digits) (second : Digits base rest) : Digits base (digits ++ rest) := by
  intro d member
  rcases List.mem_append.mp member with member | member
  · exact first d member
  · exact second d member

theorem zeros (some : 0 < base) (count : ℕ) : Digits base (List.replicate count 0) := by
  intro d member
  rw [List.eq_of_mem_replicate member]
  exact some

theorem take (all : Digits base digits) (count : ℕ) : Digits base (digits.take count) :=
  fun d member => all d (List.mem_of_mem_take member)

theorem reverse (all : Digits base digits) : ∀ digit ∈ digits.reverse, digit < base :=
  fun d member => all d (List.mem_reverse.mp member)

end Digits

theorem numeral_cons : numeral base (digit :: rest) = digit * base ^ rest.length + numeral base rest := by
  rw [numeral, Nat.ofDigits_reverse_cons, numeral]
  ring

theorem numeral_append : numeral base (digits ++ rest) = numeral base digits * base ^ rest.length + numeral base rest := by
  rw [numeral, List.reverse_append, Nat.ofDigits_append, List.length_reverse, numeral, numeral]
  ring

@[simp] theorem numeral_zeros (count : ℕ) : numeral base (List.replicate count 0) = 0 := by
  rw [numeral, List.reverse_replicate, Nat.ofDigits_replicate_zero]

/-- Leading zeros do not count. -/
theorem numeral_padded (count : ℕ) : numeral base (List.replicate count 0 ++ digits) = numeral base digits := by
  rw [numeral_append, numeral_zeros, Nat.zero_mul, Nat.zero_add]

/-- Trailing zeros scale a numeral. -/
theorem numeral_scaled (count : ℕ) :
    numeral base (digits ++ List.replicate count 0) = numeral base digits * base ^ count := by
  rw [numeral_append, numeral_zeros, List.length_replicate, Nat.add_zero]

section Places

variable (radix : 1 < base) (all : Digits base digits)

include radix all

theorem numeral_lt : numeral base digits < base ^ digits.length := by
  have bound := Nat.ofDigits_lt_base_pow_length radix all.reverse
  rwa [List.length_reverse] at bound

/-- The digits above a place are the quotient by its weight. -/
theorem numeral_div (place : ℕ) :
    numeral base digits / base ^ place = Nat.ofDigits base (digits.reverse.drop place) :=
  Nat.ofDigits_div_pow_eq_ofDigits_drop place (by omega) digits.reverse all.reverse

/-- A digit of a numeral counts from the least significant end. -/
theorem numeral_digit (place : ℕ) : numeral base digits / base ^ place % base = digits.reverse.getD place 0 := by
  rw [numeral_div radix all, List.getD_eq_getElem?_getD, ← List.head?_drop]
  have below : ∀ digit ∈ digits.reverse.drop place, digit < base :=
    fun d member => all.reverse d (List.mem_of_mem_drop member)
  generalize digits.reverse.drop place = upper at below ⊢
  cases upper with
  | nil => simp
  | cons digit others =>
    rw [Nat.ofDigits_cons, Nat.add_mul_mod_self_left, Nat.mod_eq_of_lt (below digit (by simp))]
    rfl

omit radix all in
theorem ofDigits_eq_zero (some : 0 < base) : Nat.ofDigits base digits = 0 ↔ ∀ digit ∈ digits, digit = 0 := by
  induction digits with
  | nil => simp
  | cons digit others ih =>
    rw [Nat.ofDigits_cons, Nat.add_eq_zero_iff, Nat.mul_eq_zero, ih]
    simp [some.ne']

omit all in
theorem numeral_eq_zero : numeral base digits = 0 ↔ ∀ digit ∈ digits, digit = 0 := by
  rw [numeral, ofDigits_eq_zero (by omega)]
  simp

/-- A digit above a place is not zero exactly where the numeral reaches the weight of the place. -/
theorem numeral_reaches (place : ℕ) :
    base ^ place ≤ numeral base digits ↔ ∃ digit ∈ digits.reverse.drop place, digit ≠ 0 := by
  have weight : 0 < base ^ place := Nat.pow_pos (by omega)
  have quotient : base ^ place ≤ numeral base digits ↔ numeral base digits / base ^ place ≠ 0 := by
    rw [Nat.div_ne_zero_iff]
    exact ⟨fun reaches => ⟨weight.ne', reaches⟩, fun both => both.2⟩
  rw [quotient, numeral_div radix all, ne_eq, ofDigits_eq_zero (by omega)]
  push Not
  rfl

end Places

/-- The first digits are the quotient by the weight of the others. -/
theorem numeral_take (radix : 1 < base) (all : Digits base digits) (count : ℕ) :
    numeral base (digits.take (digits.length - count)) = numeral base digits / base ^ count := by
  rw [numeral_div radix all, List.drop_reverse, numeral]

end Nd100x.Library
