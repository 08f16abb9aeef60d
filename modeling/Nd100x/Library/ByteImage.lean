import Nd100x.Library.ByteMemory
import Nd100x.Library.ByteRange
import Mathlib.Tactic.SplitIfs

namespace Nd100x.Library

/-- A file of bytes. A place that was never written reads as zero once it is inside. -/
@[ext]
structure ByteImage where
  length : Nat
  byte : Nat → BitVec 8
  blank : ∀ position, length ≤ position → byte position = 0

section Halves

def joinHalves (high low : BitVec 8) : BitVec 16 := high.setWidth 16 <<< 8 ||| low.setWidth 16

/-- A word is joined again from its two halves. -/
theorem joinHalves_halves (word : BitVec 16) :
    joinHalves ((word >>> 8).setWidth 8) (word.setWidth 8) = word := by
  apply BitVec.eq_of_getLsbD_eq
  intro bit below
  simp only [joinHalves, BitVec.getLsbD_or, BitVec.getLsbD_shiftLeft, BitVec.getLsbD_setWidth,
    BitVec.getLsbD_ushiftRight, below, decide_true, Bool.true_and]
  by_cases low : bit < 8
  · simp [low]
  · have high : bit - 8 < 8 := by omega
    have inside : bit - 8 < 16 := by omega
    have back : 8 + (bit - 8) = bit := by omega
    simp [low, high, inside, back]

end Halves

namespace ByteImage

def empty : ByteImage := ⟨0, fun _ => 0, fun _ _ => rfl⟩

def getByte (image : ByteImage) (position : Nat) : Option (BitVec 8) :=
  if position < image.length then some (image.byte position) else none

/-- A byte past the end makes the file longer. -/
def putByte (image : ByteImage) (position : Nat) (data : BitVec 8) : ByteImage where
  length := max image.length (position + 1)
  byte := Function.update image.byte position data
  blank := by
    intro other past
    rw [Function.update_of_ne (by omega)]
    exact image.blank other (by omega)

/-- The bytes replace those from a position on. -/
def putBytes (image : ByteImage) (position : Nat) (bytes : List (BitVec 8)) : ByteImage where
  length := if bytes = [] then image.length else max image.length (position + bytes.length)
  byte := putRange image.byte position bytes
  blank := by
    intro other past
    by_cases none : bytes = []
    · rw [if_pos none] at past
      rw [none, putRange_nil]
      exact image.blank other past
    · rw [if_neg none] at past
      rw [putRange_outside (by omega)]
      exact image.blank other (by omega)

/-- The words of a file are big-endian. -/
def word (image : ByteImage) (index : Nat) : BitVec 16 :=
  joinHalves (image.byte (2 * index)) (image.byte (2 * index + 1))

def putWord (image : ByteImage) (index : Nat) (data : BitVec 16) : ByteImage :=
  (image.putByte (2 * index) ((data >>> 8).setWidth 8)).putByte (2 * index + 1) (data.setWidth 8)

/-- The words of a surface are written one after the other. -/
def putWords (surface : Nat → BitVec 16) : (count index : Nat) → ByteImage → ByteImage
  | 0, _, image => image
  | count + 1, index, image =>
    putWords surface count (index + 1) (image.putWord index (surface index))

/-- The words are read one after the other until the file ends. -/
def loadWords (image : ByteImage) :
    (count index : Nat) → (Nat → BitVec 16) → (Nat → BitVec 16)
  | 0, _, surface => surface
  | count + 1, index, surface =>
    match image.getByte (2 * index), image.getByte (2 * index + 1) with
    | some high, some low =>
      loadWords image count (index + 1) (Function.update surface index (joinHalves high low))
    | _, _ => surface

variable {image : ByteImage} {index other count : Nat} {data : BitVec 16}

theorem word_putWord :
    (image.putWord index data).word other = if other = index then data else image.word other := by
  rw [word, putWord]
  simp only [putByte]
  split_ifs with same
  · subst same
    rw [Function.update_of_ne (by omega), Function.update_self, Function.update_self,
      joinHalves_halves]
  · rw [Function.update_of_ne (by omega), Function.update_of_ne (by omega),
      Function.update_of_ne (by omega), Function.update_of_ne (by omega), word]

theorem length_putWord :
    (image.putWord index data).length = max image.length (2 * index + 2) := by
  simp only [putWord, putByte]
  omega

/-- The words of the range are those of the surface, and every other word is kept. -/
theorem word_putWords (surface : Nat → BitVec 16) :
    (putWords surface count index image).word other =
      if index ≤ other ∧ other < index + count then surface other else image.word other := by
  induction count generalizing index image with
  | zero => rw [putWords, if_neg (by omega)]
  | succ count ih =>
    rw [putWords, ih, word_putWord]
    by_cases first : other = index
    · subst first
      rw [if_neg (by omega), if_pos rfl, if_pos (by omega)]
    · rw [if_neg first]
      by_cases inside : index + 1 ≤ other ∧ other < index + 1 + count
      · rw [if_pos inside, if_pos (by omega)]
      · rw [if_neg inside, if_neg (by omega)]

theorem length_putWords (surface : Nat → BitVec 16) :
    (putWords surface count index image).length =
      if count = 0 then image.length else max image.length (2 * (index + count)) := by
  induction count generalizing index image with
  | zero => rfl
  | succ count ih =>
    rw [putWords, ih, length_putWord, if_neg (Nat.succ_ne_zero count)]
    split_ifs <;> omega

/-- The words inside the file are loaded, and the surface past its end is kept. -/
theorem loadWords_eq (surface : Nat → BitVec 16) :
    loadWords image count index surface other =
      if index ≤ other ∧ other < index + count ∧ 2 * other + 1 < image.length then
        image.word other
      else surface other := by
  induction count generalizing index surface with
  | zero => rw [loadWords, if_neg (by omega)]
  | succ count ih =>
    rw [loadWords]
    by_cases inside : 2 * index + 1 < image.length
    · have high : image.getByte (2 * index) = some (image.byte (2 * index)) :=
        if_pos (by omega)
      have low : image.getByte (2 * index + 1) = some (image.byte (2 * index + 1)) :=
        if_pos inside
      rw [high, low]
      dsimp only
      rw [ih]
      by_cases first : other = index
      · subst first
        rw [if_neg (by omega), Function.update_self, if_pos (by omega), word]
      · rw [Function.update_of_ne first]
        by_cases loaded : index + 1 ≤ other ∧ other < index + 1 + count ∧
            2 * other + 1 < image.length
        · rw [if_pos loaded, if_pos (by omega)]
        · rw [if_neg loaded, if_neg (by omega)]
    · have low : image.getByte (2 * index + 1) = none := if_neg inside
      rw [low, if_neg (by omega)]
      cases image.getByte (2 * index) <;> rfl

/-- In a file of whole words a word past the end is zero. -/
theorem word_past (whole : image.length % 2 = 0) (past : image.length ≤ 2 * other + 1) :
    image.word other = 0 := by
  have high : image.byte (2 * other) = 0 := image.blank _ (by omega)
  have low : image.byte (2 * other + 1) = 0 := image.blank _ past
  rw [word, high, low]
  decide

end ByteImage

end Nd100x.Library
