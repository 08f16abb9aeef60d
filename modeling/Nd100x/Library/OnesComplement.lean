import Mathlib.Data.Nat.ModEq
import Mathlib.Tactic.Ring

namespace Nd100x.Library

section Words

variable {bytes : List (BitVec 8)} {index start length other : Nat} {value : BitVec 16}

/-- The sum of the big-endian words of a string. A last odd byte is padded with zero. -/
def wordSum : List (BitVec 8) → Nat
  | [] => 0
  | [high] => (high ++ 0#8 : BitVec 16).toNat
  | high :: low :: rest => (high ++ low : BitVec 16).toNat + wordSum rest

/-- The word at an index, with zeros behind the end. -/
def wordAt (bytes : List (BitVec 8)) (index : Nat) : BitVec 16 :=
  bytes.getD index 0 ++ bytes.getD (index + 1) 0

def setWord (bytes : List (BitVec 8)) (index : Nat) (value : BitVec 16) : List (BitVec 8) :=
  (bytes.set index (value.extractLsb' 8 8)).set (index + 1) (value.setWidth 8)

/-- The part of a string from `start` on. -/
def window (bytes : List (BitVec 8)) (start length : Nat) : List (BitVec 8) :=
  (bytes.drop start).take length

theorem join_halves (value : BitVec 16) : value.extractLsb' 8 8 ++ value.setWidth 8 = value := by
  apply BitVec.eq_of_getLsbD_eq
  intro bit inside
  simp only [BitVec.getLsbD_append, BitVec.getLsbD_setWidth, BitVec.getLsbD_extractLsb']
  by_cases low : bit < 8
  · simp [low]
  · simp [low, show bit - 8 < 8 by omega, show 8 + (bit - 8) = bit by omega]

@[simp] theorem length_setWord : (setWord bytes index value).length = bytes.length := by
  simp [setWord]

theorem getElem?_setWord_ne (away : other ≠ index) (next : other ≠ index + 1) :
    (setWord bytes index value)[other]? = bytes[other]? := by
  simp [setWord, Ne.symm away, Ne.symm next]

theorem getD_setWord_ne (away : other ≠ index) (next : other ≠ index + 1) :
    (setWord bytes index value).getD other 0 = bytes.getD other 0 := by
  simp only [List.getD_eq_getElem?_getD, getElem?_setWord_ne away next]

theorem wordAt_setWord (inside : index + 1 < bytes.length) :
    wordAt (setWord bytes index value) index = value := by
  have here : (setWord bytes index value).getD index 0 = value.extractLsb' 8 8 := by
    simp [setWord, List.getD_eq_getElem?_getD, show index < bytes.length by omega]
  have next : (setWord bytes index value).getD (index + 1) 0 = value.setWidth 8 := by
    simp [setWord, List.getD_eq_getElem?_getD, inside]
  rw [wordAt, here, next, join_halves]

theorem wordAt_setWord_ne (away : other + 1 < index ∨ index + 1 < other) :
    wordAt (setWord bytes index value) other = wordAt bytes other := by
  rw [wordAt, wordAt, getD_setWord_ne (by omega) (by omega), getD_setWord_ne (by omega) (by omega)]

theorem setWord_wordAt (inside : index + 1 < bytes.length) :
    setWord bytes index (wordAt bytes index) = bytes := by
  have halves (high low : BitVec 8) :
      (high ++ low).extractLsb' 8 8 = high ∧ (high ++ low).setWidth 8 = low := by
    constructor
    · apply BitVec.eq_of_getLsbD_eq
      intro bit small
      rw [BitVec.getLsbD_extractLsb', BitVec.getLsbD_append]
      simp [small]
    · apply BitVec.eq_of_getLsbD_eq
      intro bit small
      rw [BitVec.getLsbD_setWidth, BitVec.getLsbD_append]
      simp [small]
  rw [setWord, wordAt, (halves _ _).1, (halves _ _).2]
  apply List.ext_getElem?
  intro position
  rcases Nat.lt_trichotomy position (index + 1) with below | same | above
  · by_cases first : position = index
    · subst first
      simp [List.getD_eq_getElem?_getD, show position < bytes.length by omega]
    · simp [Ne.symm first, show index + 1 ≠ position by omega]
  · subst same
    simp [List.getD_eq_getElem?_getD, inside]
  · simp [show index ≠ position by omega, show index + 1 ≠ position by omega]

theorem setWord_setWord (old : BitVec 16) :
    setWord (setWord bytes index old) index value = setWord bytes index value := by
  apply List.ext_getElem?
  intro position
  simp only [setWord, List.getElem?_set, List.length_set]
  split <;> split <;> simp_all

end Words

section Sum

variable {bytes : List (BitVec 8)} {index start length : Nat} {value : BitVec 16}

theorem wordSum_le (bytes : List (BitVec 8)) : wordSum bytes ≤ 65535 * ((bytes.length + 1) / 2) := by
  induction bytes using wordSum.induct with
  | case1 => simp [wordSum]
  | case2 high =>
    have bound := (high ++ 0#8 : BitVec 16).isLt
    simp only [wordSum, List.length_singleton]
    omega
  | case3 high low rest ih =>
    have bound := (high ++ low : BitVec 16).isLt
    simp only [wordSum, List.length_cons]
    omega

/-- A word at an even index enters the sum as it is. -/
theorem wordSum_setWord (bytes : List (BitVec 8)) (index : Nat) (even : index % 2 = 0)
    (inside : index + 1 < bytes.length) :
    wordSum (setWord bytes index value) + (wordAt bytes index).toNat = wordSum bytes + value.toNat := by
  induction bytes using wordSum.induct generalizing index with
  | case1 => simp at inside
  | case2 high => simp at inside
  | case3 high low rest ih =>
    rcases index with _ | _ | index
    · simp only [setWord, wordAt, wordSum, List.set_cons_zero, List.set_cons_succ, List.getD_cons_zero,
        List.getD_cons_succ, Nat.zero_add, join_halves]
      omega
    · omega
    · have tail := ih index (by omega) (by simpa using inside)
      simp only [setWord, wordAt, List.set_cons_succ, List.getD_cons_succ, wordSum] at tail ⊢
      omega

theorem window_setWord :
    window (setWord bytes (start + index) value) start length =
      setWord (window bytes start length) index value := by
  simp only [window, setWord, List.drop_set, List.take_set, show ¬start + index < start by omega,
    show ¬start + index + 1 < start by omega, if_false, show start + index - start = index by omega,
    show start + index + 1 - start = index + 1 by omega]

theorem window_setWord_apart (apart : index + 1 < start ∨ start + length ≤ index) :
    window (setWord bytes index value) start length = window bytes start length := by
  apply List.ext_getElem?
  intro position
  simp only [window, List.getElem?_take, List.getElem?_drop]
  split
  · exact getElem?_setWord_ne (by omega) (by omega)
  · rfl

theorem length_window (inside : start + length ≤ bytes.length) :
    (window bytes start length).length = length := by
  simp only [window, List.length_take, List.length_drop]
  omega

theorem window_succ (inside : start < bytes.length) :
    window bytes start (length + 1) = bytes.getD start 0 :: window bytes (start + 1) length := by
  rw [window, List.drop_eq_getElem_cons inside, List.take_succ_cons, window]
  simp [List.getD_eq_getElem?_getD, inside]

end Sum

section Fold

/-- The carries of a sum are added back until none is left. -/
def foldSum (sum : Nat) : Nat := if sum = 0 then 0 else (sum - 1) % 65535 + 1

/-- A sum with its checksum is all ones when it is folded. -/
def Verifies (sum : Nat) : Prop := foldSum sum = 0xFFFF

instance (sum : Nat) : Decidable (Verifies sum) := inferInstanceAs (Decidable (_ = _))

variable {sum : Nat}

theorem foldSum_le : foldSum sum ≤ 0xFFFF := by
  unfold foldSum
  split <;> omega

theorem foldSum_small (small : sum < 0x10000) : foldSum sum = sum := by
  unfold foldSum
  split <;> omega

/-- One step of the fold keeps the sum. -/
theorem foldSum_carry (sum : Nat) : foldSum (sum % 0x10000 + sum / 0x10000) = foldSum sum := by
  unfold foldSum
  split <;> split <;> omega

theorem verifies_iff : Verifies sum ↔ sum ≠ 0 ∧ sum % 65535 = 0 := by
  unfold Verifies foldSum
  split <;> omega

/-- A sum verifies with the complement of its fold. -/
theorem verifies_complement (sum : Nat) : Verifies (sum + (0xFFFF - foldSum sum)) := by
  rw [verifies_iff]
  unfold foldSum
  split <;> omega

/-- The complement is zero only when the sum verifies, and then all ones do as well. -/
theorem verifies_ones (zero : 0xFFFF - foldSum sum = 0) : Verifies (sum + 0xFFFF) := by
  have whole : Verifies sum := by
    have bound := @foldSum_le sum
    unfold Verifies
    omega
  rw [verifies_iff] at whole ⊢
  omega

end Fold

end Nd100x.Library
