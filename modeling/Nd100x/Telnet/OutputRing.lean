import Nd100x.Library.Ring
import Mathlib.Data.BitVec
import Mathlib.Tactic.SplitIfs

namespace Nd100x.Telnet

open Nd100x.Library

abbrev Byte := BitVec 8

def telnetOutputBufSize : Nat := 4096

/-- The ring between the emulation thread and the thread of a client. -/
structure OutputRing where
  outputBuf : Nat → Byte
  outputHead : Nat
  outputTail : Nat

namespace OutputRing

def next (place : Nat) : Nat := (place + 1) % telnetOutputBufSize

/-- A full ring drops the byte. -/
def ringbufWrite (ring : OutputRing) (byte : Byte) : OutputRing :=
  if next ring.outputHead ≠ ring.outputTail then
    { ring with
      outputBuf := Function.update ring.outputBuf ring.outputHead byte
      outputHead := next ring.outputHead }
  else ring

def ringbufRead (ring : OutputRing) : (maxlen : Nat) → List Byte × OutputRing
  | 0 => ([], ring)
  | maxlen + 1 =>
    if ring.outputTail ≠ ring.outputHead then
      let later := ringbufRead { ring with outputTail := next ring.outputTail } maxlen
      (ring.outputBuf ring.outputTail :: later.1, later.2)
    else ([], ring)

def clear (ring : OutputRing) : OutputRing := { ring with outputHead := 0, outputTail := 0 }

/-- The unsent bytes, the oldest first. -/
def contents (ring : OutputRing) : List Byte :=
  (List.range ((ring.outputHead + telnetOutputBufSize - ring.outputTail) % telnetOutputBufSize)).map
    fun k => ring.outputBuf ((ring.outputTail + k) % telnetOutputBufSize)

/-- Both places are inside the buffer. -/
structure Inside (ring : OutputRing) : Prop where
  head : ring.outputHead < telnetOutputBufSize
  tail : ring.outputTail < telnetOutputBufSize

variable {ring : OutputRing}

theorem size_pos : 0 < telnetOutputBufSize := by decide

theorem next_lt (place : Nat) : next place < telnetOutputBufSize := Nat.mod_lt _ size_pos

theorem Inside.clear (ring : OutputRing) : ring.clear.Inside := ⟨size_pos, size_pos⟩

@[simp] theorem clear_contents : ring.clear.contents = [] := by
  have none_ : (0 + telnetOutputBufSize - 0) % telnetOutputBufSize = 0 := by decide
  rw [contents, clear, none_, List.range_zero, List.map_nil]

/-- The ring as its first place and the number of its bytes. -/
def Inside.toRing (inside : ring.Inside) : Ring Byte telnetOutputBufSize where
  slots := ring.outputBuf
  head := ring.outputTail
  count := (ring.outputHead + telnetOutputBufSize - ring.outputTail) % telnetOutputBufSize
  inside := inside.tail
  fits := (Nat.mod_lt _ size_pos).le

theorem contents_length : ring.contents.length =
    (ring.outputHead + telnetOutputBufSize - ring.outputTail) % telnetOutputBufSize := by
  rw [contents, List.length_map, List.length_range]

/-- The ring is full with one place left. -/
theorem full_iff (inside : ring.Inside) : next ring.outputHead = ring.outputTail ↔
    ring.contents.length = telnetOutputBufSize - 1 := by
  have head := inside.head
  have tail := inside.tail
  rw [contents_length, next]
  simp only [telnetOutputBufSize] at head tail ⊢
  omega

theorem empty_iff (inside : ring.Inside) : ring.outputTail = ring.outputHead ↔
    ring.contents = [] := by
  have head := inside.head
  have tail := inside.tail
  rw [← List.length_eq_zero_iff, contents_length]
  simp only [telnetOutputBufSize] at head tail ⊢
  omega

theorem ringbufWrite_inside (inside : ring.Inside) (byte : Byte) :
    (ring.ringbufWrite byte).Inside := by
  rw [ringbufWrite]
  split_ifs
  · exact ⟨next_lt _, inside.tail⟩
  · exact inside

theorem ringbufWrite_contents (inside : ring.Inside) (byte : Byte) :
    (ring.ringbufWrite byte).contents =
      ring.contents ++ if ring.contents.length = telnetOutputBufSize - 1 then [] else [byte] := by
  rw [ringbufWrite]
  by_cases full : ring.contents.length = telnetOutputBufSize - 1
  · rw [if_neg (not_not.mpr ((full_iff inside).mpr full)), if_pos full, List.append_nil]
  · have open_ : next ring.outputHead ≠ ring.outputTail := fun met => full ((full_iff inside).mp met)
    rw [if_pos open_, if_neg full]
    have head := inside.head
    have tail := inside.tail
    have room : inside.toRing.count < telnetOutputBufSize := Nat.mod_lt _ size_pos
    refine Eq.trans ?_ (inside.toRing.put_values byte room)
    have place : (ring.outputTail + inside.toRing.count) % telnetOutputBufSize =
        ring.outputHead := by
      simp only [Inside.toRing, telnetOutputBufSize] at head tail ⊢
      omega
    have count : (next ring.outputHead + telnetOutputBufSize - ring.outputTail) %
        telnetOutputBufSize = inside.toRing.count + 1 := by
      rw [next] at open_ ⊢
      simp only [Inside.toRing, telnetOutputBufSize] at head tail open_ ⊢
      omega
    rw [contents, Ring.values, Ring.put_count]
    dsimp only
    rw [count, ← place]
    rfl

theorem ringbufRead_inside (inside : ring.Inside) (maxlen : Nat) :
    (ring.ringbufRead maxlen).2.Inside := by
  induction maxlen generalizing ring with
  | zero => exact inside
  | succ maxlen ih =>
    rw [ringbufRead]
    split_ifs
    · exact ih ⟨inside.head, next_lt _⟩
    · exact inside

/-- What is read and what stays are the unsent bytes. -/
theorem ringbufRead_contents (inside : ring.Inside) (maxlen : Nat) :
    (ring.ringbufRead maxlen).1 ++ (ring.ringbufRead maxlen).2.contents = ring.contents := by
  induction maxlen generalizing ring with
  | zero => rfl
  | succ maxlen ih =>
    rw [ringbufRead]
    by_cases empty : ring.outputTail = ring.outputHead
    · rw [if_neg (not_not.mpr empty)]
      rfl
    · rw [if_pos empty]
      dsimp only
      have moved : Inside { ring with outputTail := next ring.outputTail } :=
        ⟨inside.head, next_lt _⟩
      have some_ : inside.toRing.count ≠ 0 := fun zero => empty ((empty_iff inside).mpr
        (inside.toRing.values_eq_nil.mpr zero))
      rw [List.cons_append, ih moved]
      refine Eq.trans ?_ (inside.toRing.values_take some_).symm
      have head := inside.head
      have tail := inside.tail
      have count : (ring.outputHead + telnetOutputBufSize - next ring.outputTail) %
          telnetOutputBufSize = inside.toRing.count - 1 := by
        rw [next]
        simp only [Inside.toRing, telnetOutputBufSize] at head tail ⊢
        omega
      rw [contents, Ring.values, Ring.take_count]
      dsimp only
      rw [count]
      rfl

end OutputRing

end Nd100x.Telnet
