import Mathlib.Logic.Function.Iterate
import Mathlib.Tactic.Common

namespace Nd100x.Library

variable {width : Nat}

/-- The bits of a register are counted from the end to which it moves. -/
def fromEnd (right : Bool) (x : BitVec width) (k : Nat) : Bool :=
  if right then x.getLsbD k else x.getLsbD (width - 1 - k)

/-- The register shows a stream of bits from one position on. -/
def StreamShows (right : Bool) (stream : Nat → Bool) (first : Nat) (x : BitVec width) : Prop :=
  ∀ k < width, fromEnd right x k = stream (first + k)

section StreamShows

variable {right : Bool} {stream : Nat → Bool} {first : Nat} {x y : BitVec width}

/-- A move by one place shows the stream from the next position on. -/
theorem StreamShows.move {fill : Bool} (shown : StreamShows right stream first x)
    (moved : ∀ k < width, fromEnd right y k = if k + 1 < width then fromEnd right x (k + 1) else fill)
    (filled : fill = stream (first + width)) : StreamShows right stream (first + 1) y := by
  intro k inside
  rw [moved k inside]
  split
  · next within =>
      rw [shown _ within]
      congr 1
      omega
  · next last =>
      rw [filled]
      congr 1
      omega

theorem StreamShows.leaving (shown : StreamShows right stream first x) (some : 0 < width) :
    fromEnd right x 0 = stream first := shown 0 some

/-- Every round moves by one place and keeps the bit that left. -/
theorem shows_rounds (round : BitVec width × Bool → BitVec width × Bool) (m : Bool)
    (start : StreamShows right stream 0 x)
    (moves : ∀ first state, StreamShows right stream first state.1 →
      StreamShows right stream (first + 1) (round state).1 ∧ (round state).2 = stream first) (count : Nat) :
    StreamShows right stream count (round^[count] (x, m)).1 ∧
      (round^[count] (x, m)).2 = if count = 0 then m else stream (count - 1) := by
  induction count with
  | zero => exact ⟨start, rfl⟩
  | succ count ih =>
    rw [Function.iterate_succ_apply']
    exact moves count _ ih.1

/-- The bits of the register come first in the stream. -/
def StartsWith (right : Bool) (x : BitVec width) (stream : Nat → Bool) : Prop :=
  ∀ k < width, stream k = fromEnd right x k

theorem StartsWith.shows (starts : StartsWith right x stream) : StreamShows right stream 0 x := by
  intro k inside
  rw [Nat.zero_add, starts k inside]

/-- Behind the register the stream is a function of the position. -/
theorem StreamShows.bit_right {count : Nat} (shown : StreamShows true stream count y)
    (starts : StartsWith true x stream) {bit : Nat} (inside : bit < width) :
    y.getLsbD bit = if bit + count < width then x.getLsbD (bit + count) else stream (bit + count) := by
  have found : y.getLsbD bit = stream (count + bit) := shown bit inside
  rw [found, Nat.add_comm]
  split
  · next within => exact starts _ within
  · rfl

theorem StreamShows.bit_left {count : Nat} (shown : StreamShows false stream count y)
    (starts : StartsWith false x stream) {bit : Nat} (inside : bit < width) :
    y.getLsbD bit =
      if count ≤ bit then x.getLsbD (bit - count) else stream (count + (width - 1 - bit)) := by
  have mirrored : width - 1 - (width - 1 - bit) = bit := by omega
  have found : y.getLsbD (width - 1 - (width - 1 - bit)) = stream (count + (width - 1 - bit)) :=
    shown (width - 1 - bit) (by omega)
  rw [mirrored] at found
  rw [found]
  split
  · next within =>
      have place : width - 1 - (count + (width - 1 - bit)) = bit - count := by omega
      have first : stream (count + (width - 1 - bit)) =
          x.getLsbD (width - 1 - (count + (width - 1 - bit))) := starts _ (by omega)
      rw [first, place]
  · rfl

end StreamShows

section Closed

variable {stream : Nat → Bool} {count : Nat} {x y : BitVec width}

theorem StreamShows.shiftLeft (shown : StreamShows false stream count y) (starts : StartsWith false x stream)
    (fills : ∀ k, width ≤ k → stream k = false) : y = x <<< count := by
  apply BitVec.eq_of_getLsbD_eq
  intro bit inside
  rw [shown.bit_left starts inside, BitVec.getLsbD_shiftLeft]
  split
  · next within => simp [inside, within]
  · next low =>
      rw [fills _ (by omega)]
      simp [show bit < count by omega]

theorem StreamShows.ushiftRight (shown : StreamShows true stream count y) (starts : StartsWith true x stream)
    (fills : ∀ k, width ≤ k → stream k = false) : y = x >>> count := by
  apply BitVec.eq_of_getLsbD_eq
  intro bit inside
  rw [shown.bit_right starts inside, BitVec.getLsbD_ushiftRight, Nat.add_comm count]
  split
  · rfl
  · next above => rw [fills _ (by omega), BitVec.getLsbD_of_ge _ _ (by omega)]

theorem StreamShows.sshiftRight (shown : StreamShows true stream count y) (starts : StartsWith true x stream)
    (fills : ∀ k, width ≤ k → stream k = x.msb) : y = x.sshiftRight count := by
  apply BitVec.eq_of_getLsbD_eq
  intro bit inside
  rw [shown.bit_right starts inside, BitVec.getLsbD_sshiftRight, Nat.add_comm count]
  split
  · next within => simp [inside, within]
  · next above => simp [fills _ (Nat.le_of_not_lt above), inside]

theorem StreamShows.rotateRight (shown : StreamShows true stream count y) (starts : StartsWith true x stream)
    (fills : ∀ k, width ≤ k → stream k = x.getLsbD (k % width)) : y = x.rotateRight count := by
  apply BitVec.eq_of_getLsbD_eq
  intro bit inside
  have around : y.getLsbD bit = x.getLsbD ((bit + count) % width) := by
    rw [shown.bit_right starts inside]
    split
    · next within => rw [Nat.mod_eq_of_lt within]
    · next above => rw [fills _ (by omega)]
  have less : count % width < width := Nat.mod_lt _ (by omega)
  rw [around, BitVec.getLsbD_rotateRight, Nat.add_mod, Nat.mod_eq_of_lt inside]
  by_cases within : bit + count % width < width
  · rw [Nat.mod_eq_of_lt within, decide_eq_true (by omega : bit < width - count % width), cond_true,
      Nat.add_comm]
  · have reduced : (bit + count % width) % width = bit - (width - count % width) := by
      rw [Nat.mod_eq_sub_mod (by omega), Nat.mod_eq_of_lt (by omega)]
      omega
    rw [reduced, decide_eq_false (by omega : ¬ bit < width - count % width), cond_false,
      decide_eq_true inside, Bool.true_and]

theorem StreamShows.rotateLeft (shown : StreamShows false stream count y) (starts : StartsWith false x stream)
    (fills : ∀ k, width ≤ k → stream k = x.getLsbD (width - 1 - k % width)) :
    y = x.rotateLeft count := by
  apply BitVec.eq_of_getLsbD_eq
  intro bit inside
  have less : count % width < width := Nat.mod_lt _ (by omega)
  have around : y.getLsbD bit = x.getLsbD (width - 1 - (count + (width - 1 - bit)) % width) := by
    rw [shown.bit_left starts inside]
    split
    · next within =>
        rw [Nat.mod_eq_of_lt (by omega : count + (width - 1 - bit) < width)]
        congr 1
        omega
    · next low => rw [fills _ (by omega)]
  rw [around, BitVec.getLsbD_rotateLeft, Nat.add_mod, Nat.mod_eq_of_lt (by omega : width - 1 - bit < width)]
  by_cases wraps : bit < count % width
  · have reduced : (count % width + (width - 1 - bit)) % width = count % width - 1 - bit := by
      rw [Nat.mod_eq_sub_mod (by omega), Nat.mod_eq_of_lt (by omega)]
      omega
    rw [reduced, decide_eq_true wraps, cond_true]
    congr 1
    omega
  · rw [Nat.mod_eq_of_lt (by omega), decide_eq_false wraps, cond_false, decide_eq_true inside,
      Bool.true_and]
    congr 1
    omega

end Closed

end Nd100x.Library
