import Nd100x.Library.WordBits
import Mathlib.Logic.Function.Basic
import Mathlib.Data.List.Pairwise
import Mathlib.Data.List.Nodup

namespace Nd100x.Library

/-- Each word holds two bytes, and the even one is the high half. -/
def byteAt (words : Nat → BitVec 16) (index : Nat) : BitVec 8 :=
  if index % 2 = 0 then (words (index / 2) >>> 8).setWidth 8 else (words (index / 2)).setWidth 8

/-- A byte is merged into one half of its word. -/
def mergeByte (word : BitVec 16) (index : Nat) (data : BitVec 8) : BitVec 16 :=
  if index % 2 = 0 then (word &&& 0x00FF#16) ||| (data.setWidth 16 <<< 8)
  else (word &&& 0xFF00#16) ||| data.setWidth 16

def putByte (words : Nat → BitVec 16) (index : Nat) (data : BitVec 8) : Nat → BitVec 16 :=
  Function.update words (index / 2) (mergeByte (words (index / 2)) index data)

section Halves

variable (word : BitVec 16) (data : BitVec 8)

theorem widened_ushiftRight : data.setWidth 16 >>> 8 = 0#16 := by
  apply BitVec.eq_of_getLsbD_eq
  intro bit below
  simp

theorem widened_shiftLeft_low : (data.setWidth 16 <<< 8).setWidth 8 = 0#8 := by
  apply BitVec.eq_of_getLsbD_eq
  intro bit below
  simp [below]

theorem widened_shiftLeft_high : ((data.setWidth 16 <<< 8) >>> 8).setWidth 8 = data := by
  apply BitVec.eq_of_getLsbD_eq
  intro bit below
  have reached : 8 + bit < 16 := by omega
  have inside : bit < 16 := by omega
  simp [below, reached, inside]

theorem highByte_mergeHigh :
    (((word &&& 0x00FF#16) ||| (data.setWidth 16 <<< 8)) >>> 8).setWidth 8 = data := by
  have mask : (0x00FF#16) >>> 8 = 0#16 := by decide
  rw [BitVec.ushiftRight_or_distrib, BitVec.ushiftRight_and_distrib, mask, BitVec.and_zero,
    BitVec.zero_or, widened_shiftLeft_high]

theorem lowByte_mergeHigh :
    ((word &&& 0x00FF#16) ||| (data.setWidth 16 <<< 8)).setWidth 8 = word.setWidth 8 := by
  have mask : (0x00FF#16).setWidth 8 = BitVec.allOnes 8 := by decide
  rw [BitVec.setWidth_or, BitVec.setWidth_and, mask, BitVec.and_allOnes, widened_shiftLeft_low,
    BitVec.or_zero]

theorem lowByte_mergeLow : ((word &&& 0xFF00#16) ||| data.setWidth 16).setWidth 8 = data := by
  have mask : (0xFF00#16).setWidth 8 = 0#8 := by decide
  rw [BitVec.setWidth_or, BitVec.setWidth_and, mask, BitVec.and_zero, BitVec.zero_or,
    BitVec.setWidth_setWidth_of_le _ (by omega), BitVec.setWidth_eq]

theorem highByte_mergeLow :
    (((word &&& 0xFF00#16) ||| data.setWidth 16) >>> 8).setWidth 8 = (word >>> 8).setWidth 8 := by
  have mask : ((0xFF00#16) >>> 8).setWidth 8 = BitVec.allOnes 8 := by decide
  rw [BitVec.ushiftRight_or_distrib, widened_ushiftRight, BitVec.or_zero,
    BitVec.ushiftRight_and_distrib, BitVec.setWidth_and, mask, BitVec.and_allOnes]

/-- A word is its two halves. -/
theorem word_eq_of_halves {first second : BitVec 16}
    (high : ((first >>> 8).setWidth 8 : BitVec 8) = (second >>> 8).setWidth 8)
    (low : (first.setWidth 8 : BitVec 8) = second.setWidth 8) : first = second := by
  apply BitVec.eq_of_getLsbD_eq
  intro bit below
  by_cases small : bit < 8
  · have same := congrArg (fun half => half.getLsbD bit) low
    simpa [small] using same
  · have same := congrArg (fun half => half.getLsbD (bit - 8)) high
    have inside : bit - 8 < 8 := by omega
    have back : 8 + (bit - 8) = bit := by omega
    simpa [inside, back] using same

end Halves

section Bytes

variable (words : Nat → BitVec 16)

@[simp] theorem byteAt_putByte_same (index : Nat) (data : BitVec 8) :
    byteAt (putByte words index data) index = data := by
  by_cases even : index % 2 = 0
  · simp only [byteAt, putByte, mergeByte, even, if_true, Function.update_self, highByte_mergeHigh]
  · simp only [byteAt, putByte, mergeByte, even, if_false, Function.update_self, lowByte_mergeLow]

/-- A byte write keeps every other byte. -/
theorem byteAt_putByte_other {index other : Nat} (data : BitVec 8) (apart : other ≠ index) :
    byteAt (putByte words index data) other = byteAt words other := by
  by_cases same : other / 2 = index / 2
  · by_cases even : index % 2 = 0
    · have odd : ¬ other % 2 = 0 := by omega
      simp only [byteAt, putByte, mergeByte, even, odd, same, if_true, if_false,
        Function.update_self, lowByte_mergeHigh]
    · have otherEven : other % 2 = 0 := by omega
      simp only [byteAt, putByte, mergeByte, even, otherEven, same, if_true, if_false,
        Function.update_self, highByte_mergeLow]
  · simp only [byteAt, putByte, Function.update_of_ne same]

/-- A word write keeps the bytes of the other words. -/
theorem byteAt_update_other {address other : Nat} (data : BitVec 16) (apart : other / 2 ≠ address) :
    byteAt (Function.update words address data) other = byteAt words other := by
  simp only [byteAt, Function.update_of_ne apart]

theorem putByte_other_word {index address : Nat} (data : BitVec 8) (apart : address ≠ index / 2) :
    putByte words index data address = words address :=
  Function.update_of_ne apart _ _

variable {words}

/-- Two memories that agree on both bytes of a word agree on the word. -/
theorem word_eq_of_byteAt {others : Nat → BitVec 16} {address : Nat}
    (high : byteAt words (2 * address) = byteAt others (2 * address))
    (low : byteAt words (2 * address + 1) = byteAt others (2 * address + 1)) :
    words address = others address := by
  have even : 2 * address % 2 = 0 := by omega
  have odd : ¬ (2 * address + 1) % 2 = 0 := by omega
  have first : 2 * address / 2 = address := by omega
  have second : (2 * address + 1) / 2 = address := by omega
  simp only [byteAt, even, odd, first, second, if_true, if_false] at high low
  exact word_eq_of_halves high low

end Bytes

section CopyAll

variable {A : Type} (source dest : Nat → Nat)

/-- Cells are copied one after the other. -/
def copyAll : List Nat → (Nat → A) → Nat → A
  | [], memory => memory
  | k :: rest, memory => copyAll rest (Function.update memory (dest k) (memory (source k)))

/-- No cell is overwritten before it is read. -/
def ReadFirst (indices : List Nat) : Prop :=
  indices.Pairwise fun earlier later => dest earlier ≠ source later

variable {source dest} {indices : List Nat} {memory : Nat → A} {place : Nat}

theorem copyAll_other (outside : ∀ k ∈ indices, place ≠ dest k) :
    copyAll source dest indices memory place = memory place := by
  induction indices generalizing memory with
  | nil => rfl
  | cons k rest ih =>
    rw [copyAll, ih fun j member => outside j (List.mem_cons_of_mem k member),
      Function.update_of_ne (outside k List.mem_cons_self)]

/-- Every cell that is read before it is overwritten is copied. -/
theorem copyAll_copied (readFirst : ReadFirst source dest indices)
    (distinct : indices.Pairwise fun earlier later => dest earlier ≠ dest later) {k : Nat}
    (member : k ∈ indices) : copyAll source dest indices memory (dest k) = memory (source k) := by
  induction indices generalizing memory with
  | nil => exact absurd member List.not_mem_nil
  | cons j rest ih =>
    obtain ⟨reads, laterReads⟩ := List.pairwise_cons.mp readFirst
    obtain ⟨apart, laterApart⟩ := List.pairwise_cons.mp distinct
    rw [copyAll]
    rcases List.mem_cons.mp member with rfl | member
    · rw [copyAll_other apart, Function.update_self]
    · rw [ih laterReads laterApart member,
        Function.update_of_ne (reads k member).symm]

end CopyAll

/-- A byte write changes one byte. -/
theorem byteAt_putByte (words : Nat → BitVec 16) (index : Nat) (data : BitVec 8) :
    byteAt (putByte words index data) = Function.update (byteAt words) index data := by
  funext other
  by_cases same : other = index
  · rw [same, byteAt_putByte_same, Function.update_self]
  · rw [byteAt_putByte_other words data same, Function.update_of_ne same]

end Nd100x.Library
