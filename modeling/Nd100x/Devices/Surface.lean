import Nd100x.Hdlc.ControlBlocks
import Nd100x.Library.ByteImage

namespace Nd100x.Devices

open Nd100x.Hdlc (CoreMemory)
open Nd100x.Library

/-- The words of a disc in memory. -/
abbrev Surface := Nat → BitVec 16

section Loops

/-- The words of the surface go to memory. -/
def storeWords (surface : Surface) : (count core offset : Nat) → CoreMemory → CoreMemory
  | 0, _, _, memory => memory
  | count + 1, core, offset, memory =>
    storeWords surface count (core + 1) (offset + 1) (memory.dmaWrite core (surface offset))

/-- The words of memory go to the surface. -/
def fetchWords (memory : CoreMemory) : (count core offset : Nat) → Surface → Surface
  | 0, _, _, surface => surface
  | count + 1, core, offset, surface =>
    fetchWords memory count (core + 1) (offset + 1)
      (Function.update surface offset (memory.dmaRead core))

def wordsDiffer (memory : CoreMemory) (surface : Surface) : (count core offset : Nat) → Bool
  | 0, _, _ => false
  | count + 1, core, offset =>
    (memory.dmaRead core ≠ surface offset : Bool) ||
      wordsDiffer memory surface count (core + 1) (offset + 1)

end Loops

/-- The file of a device: no path was set, the path has no file yet, or it has one. -/
inductive BackingPath where
  | unset
  | missing
  | existing (image : ByteImage)

inductive DiscOperation where
  | read
  | write
  | verify
  | compare
  deriving DecidableEq, Repr

def DiscOperation.ofBits (code : BitVec 2) : DiscOperation :=
  match code.toFin with
  | 0 => .read
  | 1 => .write
  | 2 => .verify
  | 3 => .compare

section Lemmas

variable {memory : CoreMemory} {surface : Surface} {count core offset : Nat}

theorem dmaWrite_size (data : BitVec 16) : (memory.dmaWrite core data).size = memory.size := by
  rw [CoreMemory.dmaWrite]
  split_ifs <;> rfl

theorem dmaWrite_words (fits : core < 2 ^ 24) (data : BitVec 16) (address : Nat) :
    (memory.dmaWrite core data).words address =
      if address = core ∧ core < memory.size then data else memory.words address := by
  rw [CoreMemory.dmaWrite, Nat.mod_eq_of_lt fits]
  by_cases installed : core < memory.size
  · rw [if_pos installed]
    by_cases same : address = core
    · rw [if_pos ⟨same, installed⟩]
      exact same ▸ Function.update_self ..
    · rw [if_neg (fun both => same both.1)]
      exact Function.update_of_ne same ..
  · rw [if_neg installed, if_neg (fun both => installed both.2)]

theorem storeWords_size : (storeWords surface count core offset memory).size = memory.size := by
  induction count generalizing core offset memory with
  | zero => rfl
  | succ count ih =>
    rw [storeWords, ih, dmaWrite_size]

/-- The installed words of the range are those of the surface. -/
theorem storeWords_words (fits : core + count ≤ 2 ^ 24) (address : Nat) :
    (storeWords surface count core offset memory).words address =
      if core ≤ address ∧ address < core + count ∧ address < memory.size then
        surface (offset + (address - core))
      else memory.words address := by
  induction count generalizing core offset memory with
  | zero => rw [storeWords, if_neg (by omega)]
  | succ count ih =>
    rw [storeWords, ih (by omega), dmaWrite_size,
      dmaWrite_words (show core < 2 ^ 24 by omega)]
    by_cases later : core + 1 ≤ address ∧ address < core + 1 + count ∧ address < memory.size
    · rw [if_pos later, if_pos (by omega)]
      congr 1
      omega
    · rw [if_neg later]
      by_cases first : address = core ∧ core < memory.size
      · obtain ⟨rfl, installed⟩ := first
        rw [if_pos ⟨rfl, installed⟩, if_pos (by omega), Nat.sub_self, Nat.add_zero]
      · rw [if_neg first, if_neg (by omega)]

theorem fetchWords_eq (place : Nat) :
    fetchWords memory count core offset surface place =
      if offset ≤ place ∧ place < offset + count then memory.dmaRead (core + (place - offset))
      else surface place := by
  induction count generalizing core offset surface with
  | zero => rw [fetchWords, if_neg (by omega)]
  | succ count ih =>
    rw [fetchWords, ih]
    by_cases first : place = offset
    · subst first
      rw [if_neg (by omega), Function.update_self, if_pos (by omega), Nat.sub_self, Nat.add_zero]
    · rw [Function.update_of_ne first]
      by_cases later : offset + 1 ≤ place ∧ place < offset + 1 + count
      · rw [if_pos later, if_pos (by omega)]
        congr 1
        omega
      · rw [if_neg later, if_neg (by omega)]

theorem wordsDiffer_iff :
    wordsDiffer memory surface count core offset = true ↔
      ∃ index < count, memory.dmaRead (core + index) ≠ surface (offset + index) := by
  induction count generalizing core offset with
  | zero => exact iff_of_false Bool.false_ne_true (fun ⟨_, below, _⟩ => Nat.not_lt_zero _ below)
  | succ count ih =>
    rw [wordsDiffer, Bool.or_eq_true, ih, decide_eq_true_iff]
    constructor
    · rintro (first | ⟨index, below, differs⟩)
      · exact ⟨0, Nat.succ_pos _, first⟩
      · refine ⟨index + 1, Nat.succ_lt_succ below, ?_⟩
        rwa [← Nat.add_assoc, Nat.add_right_comm, ← Nat.add_assoc offset, Nat.add_right_comm offset]
    · rintro ⟨index, below, differs⟩
      cases index with
      | zero => exact Or.inl differs
      | succ index =>
        refine Or.inr ⟨index, Nat.lt_of_succ_lt_succ below, ?_⟩
        rwa [Nat.add_right_comm, Nat.add_assoc, Nat.add_right_comm offset, Nat.add_assoc offset]

end Lemmas

end Nd100x.Devices
