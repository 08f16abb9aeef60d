import Mathlib.Data.BitVec
import Mathlib.Data.List.Infix
import Mathlib.Tactic.Linarith

namespace Nd100x.Library

section FrameStream

/-- A length in two bytes, the high one first. -/
def lengthBytes (length : Nat) : List (BitVec 8) :=
  [BitVec.ofNat 8 (length / 256), BitVec.ofNat 8 length]

def joinLength (high low : BitVec 8) : Nat := high.toNat * 256 + low.toNat

def framed (frame : List (BitVec 8)) : List (BitVec 8) := lengthBytes frame.length ++ frame

def frameStream (frames : List (List (BitVec 8))) : List (BitVec 8) := frames.flatMap framed

/-- A frame of at least one byte and at most so many. -/
def FrameFits (most : Nat) (frame : List (BitVec 8)) : Prop := 0 < frame.length ∧ frame.length ≤ most

/-- No whole frame is in front. -/
def Cut (most : Nat) (rest : List (BitVec 8)) : Prop :=
  ∀ frame later, FrameFits most frame → rest ≠ framed frame ++ later

/-- Some bytes of a frame, but not all. -/
def Broken (most : Nat) (part : List (BitVec 8)) : Prop :=
  ∃ frame, FrameFits most frame ∧ part <+: framed frame ∧ part ≠ framed frame

variable {most : Nat} {frame other first second rest broken : List (BitVec 8)}
  {frames offered : List (List (BitVec 8))}

theorem joinLength_lengthBytes {length : Nat} (small : length < 65536) :
    joinLength (BitVec.ofNat 8 (length / 256)) (BitVec.ofNat 8 length) = length := by
  rw [joinLength, BitVec.toNat_ofNat, BitVec.toNat_ofNat]
  omega

theorem lengthBytes_joinLength (high low : BitVec 8) :
    lengthBytes (joinLength high low) = [high, low] := by
  have highEnd : high.toNat < 256 := high.isLt
  have lowEnd : low.toNat < 256 := low.isLt
  have first : joinLength high low / 256 = high.toNat := by
    rw [joinLength]
    omega
  have second : BitVec.ofNat 8 (joinLength high low) = low := by
    refine BitVec.eq_of_toNat_eq ?_
    rw [BitVec.toNat_ofNat, joinLength]
    omega
  rw [lengthBytes, first, second, BitVec.ofNat_toNat, BitVec.setWidth_eq]

@[simp] theorem framed_length : (framed frame).length = frame.length + 2 := by
  rw [framed, List.length_append, lengthBytes, List.length_cons, List.length_singleton, Nat.add_comm]

theorem frameStream_append :
    frameStream (frames ++ offered) = frameStream frames ++ frameStream offered :=
  List.flatMap_append

theorem frameStream_concat :
    frameStream (frames ++ [frame]) = frameStream frames ++ framed frame := by
  rw [frameStream_append]
  exact congrArg _ (List.append_nil _)

/-- The length in front tells where a frame ends. -/
theorem framed_cancel (small : frame.length < 65536) (otherSmall : other.length < 65536)
    (same : framed frame ++ first = framed other ++ second) : frame = other ∧ first = second := by
  rw [framed, framed, lengthBytes, lengthBytes, List.cons_append, List.cons_append,
    List.cons_append, List.cons_append] at same
  injection same with high later
  injection later with low bytes
  have lengths : frame.length = other.length := by
    rw [← joinLength_lengthBytes small, ← joinLength_lengthBytes otherSmall, high, low]
  exact List.append_inj bytes lengths

theorem Broken.cut (small : most < 65536) (cut : Broken most broken) : Cut most broken := by
  obtain ⟨whole, fits, ⟨missing, together⟩, proper⟩ := cut
  intro frame later fit same
  rw [same, List.append_assoc] at together
  have wholeEnd : framed whole = framed whole ++ [] := (List.append_nil _).symm
  rw [wholeEnd] at together
  obtain ⟨rfl, none_⟩ := framed_cancel (lt_of_le_of_lt fit.2 small) (lt_of_le_of_lt fits.2 small)
    together
  rw [(List.append_eq_nil_iff.mp none_).1, List.append_nil] at same
  exact proper same

/-- Two bytes are no frame. -/
theorem cut_of_short (short : rest.length ≤ 2) : Cut most rest := by
  rintro frame later fits rfl
  rw [List.length_append, framed_length] at short
  have some_ := fits.1
  omega

/-- A length is no frame until as many bytes follow. -/
theorem cut_of_missing {length : Nat} (small : most < 65536) (inside : length ≤ most)
    (missing : rest.length < length) : Cut most (lengthBytes length ++ rest) := by
  intro frame later fits same
  rw [framed, List.append_assoc] at same
  have lengths := (List.append_inj same rfl).1
  have bytes := (List.append_inj same rfl).2
  rw [lengthBytes, lengthBytes] at lengths
  injection lengths with high rest_
  injection rest_ with low
  have equal : length = frame.length := by
    rw [← joinLength_lengthBytes (lt_of_le_of_lt inside small),
      ← joinLength_lengthBytes (lt_of_le_of_lt fits.2 small), high, low]
  rw [bytes, List.length_append] at missing
  omega

/-- The frames in front of two streams with the same beginning. -/
theorem frameStream_begins (small : most < 65536) (fits : ∀ frame ∈ frames, FrameFits most frame)
    (offeredFits : ∀ frame ∈ offered, FrameFits most frame) (cut : Cut most broken)
    (begins : frameStream offered ++ rest <+: frameStream frames ++ broken) : offered <+: frames := by
  induction offered generalizing frames with
  | nil => exact List.nil_prefix
  | cons one later ih =>
    obtain ⟨missing, together⟩ := begins
    have oneFits := offeredFits one List.mem_cons_self
    cases frames with
    | nil =>
      have whole : broken = framed one ++ (frameStream later ++ rest ++ missing) := by
        simpa [frameStream, List.append_assoc] using together.symm
      exact absurd whole (cut one _ oneFits)
    | cons two after =>
      have twoFits := fits two List.mem_cons_self
      have split : framed one ++ (frameStream later ++ rest ++ missing) =
          framed two ++ (frameStream after ++ broken) := by
        simpa [frameStream, List.append_assoc] using together
      obtain ⟨rfl, tails⟩ := framed_cancel (lt_of_le_of_lt oneFits.2 small)
        (lt_of_le_of_lt twoFits.2 small) split
      have step := ih
        (fun frame member => fits frame (List.mem_cons_of_mem _ member))
        (fun frame member => offeredFits frame (List.mem_cons_of_mem _ member)) ⟨missing, tails⟩
      exact List.cons_prefix_cons.mpr ⟨rfl, step⟩

/-- A stream is taken apart in one way. -/
theorem frameStream_inj (small : most < 65536) (fits : ∀ frame ∈ frames, FrameFits most frame)
    (offeredFits : ∀ frame ∈ offered, FrameFits most frame) (cut : Cut most broken)
    (restCut : Cut most rest)
    (same : frameStream offered ++ rest = frameStream frames ++ broken) : offered = frames := by
  have begins := frameStream_begins small fits offeredFits cut ⟨[], (List.append_nil _).trans same⟩
  have back := frameStream_begins small offeredFits fits restCut ⟨[], (List.append_nil _).trans same.symm⟩
  exact begins.eq_of_length (le_antisymm begins.length_le back.length_le)

end FrameStream

end Nd100x.Library
