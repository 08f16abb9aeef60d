import Nd100x.Gunzip.Format
import Nd100x.Gunzip.Decoder

namespace Nd100x.Gunzip

open Nd100x.Library

namespace GzState

/-- The bytes that are not loaded yet. -/
def left (s : GzState) : List Byte := (s.input.take s.inLen).drop s.inPos

def ahead (s : GzState) : List Bool := natBits s.bitCnt s.bitBuf ++ bytesBits s.left

def flow (s : GzState) : Flow := ⟨s.out, s.ahead⟩

/-- Less than a byte is loaded, and the positions are inside the input and the output. -/
structure Ready (cap : Nat) (s : GzState) : Prop where
  loaded : s.bitCnt < 8
  held : s.bitBuf < 2 ^ s.bitCnt
  behind : s.inPos ≤ s.inLen
  inside : s.inLen ≤ s.input.length
  fits : s.out.length ≤ cap
  outCap : s.outCap = cap

def load (s : GzState) (inPos bitCnt : Nat) : GzState := { s with inPos := inPos, bitCnt := bitCnt }

theorem left_length {s : GzState} (inside : s.inLen ≤ s.input.length) :
    s.left.length = s.inLen - s.inPos := by
  rw [left, List.length_drop, List.length_take, Nat.min_eq_left inside]

theorem left_cons {s : GzState} (inside : s.inLen ≤ s.input.length) (more : s.inPos < s.inLen) :
    ∃ byte, s.input[s.inPos]? = some byte ∧
      s.left = byte :: (s.load (s.inPos + 1) (s.bitCnt + 8)).left := by
  have here : s.inPos < s.input.length := more.trans_le inside
  have taken : s.inPos < (s.input.take s.inLen).length := by
    rw [List.length_take, Nat.min_eq_left inside]
    exact more
  refine ⟨s.input[s.inPos], List.getElem?_eq_getElem here, ?_⟩
  rw [left, List.drop_eq_getElem_cons taken, List.getElem_take]
  rfl

theorem ahead_length (s : GzState) : s.ahead.length = s.bitCnt + 8 * s.left.length := by
  rw [ahead, List.length_append, natBits_length, bytesBits_length]

end GzState

/-- A byte that is loaded comes after the loaded bits. -/
theorem load_byte {bitCnt val : Nat} (byte : Byte) (rest : List Byte) (held : val < 2 ^ bitCnt) :
    val ||| byte.toNat <<< bitCnt < 2 ^ (bitCnt + 8) ∧
      natBits (bitCnt + 8) (val ||| byte.toNat <<< bitCnt) ++ bytesBits rest =
        natBits bitCnt val ++ bytesBits (byte :: rest) := by
  have sum : val ||| byte.toNat <<< bitCnt = val + byte.toNat * 2 ^ bitCnt := by
    rw [Nat.or_comm, ← Nat.shiftLeft_add_eq_or_of_lt held, Nat.shiftLeft_eq, Nat.add_comm]
  have small : byte.toNat + 1 ≤ 2 ^ 8 := byte.isLt
  constructor
  · calc val ||| byte.toNat <<< bitCnt
        < (byte.toNat + 1) * 2 ^ bitCnt := by rw [sum, Nat.add_mul, Nat.one_mul]; omega
      _ ≤ 2 ^ 8 * 2 ^ bitCnt := Nat.mul_le_mul_right _ small
      _ = 2 ^ (bitCnt + 8) := by rw [Nat.pow_add, Nat.mul_comm]
  · rw [sum, natBits_add 8 val byte.toNat held, bytesBits_cons, List.append_assoc]

/-- Enough bits are loaded, and no byte more than needed. -/
structure Filled (n : Nat) (bits : List Bool) (s : GzState) (val : Nat) : Prop where
  enough : n ≤ s.bitCnt
  few : s.bitCnt < n + 8
  held : val < 2 ^ s.bitCnt
  behind : s.inPos ≤ s.inLen
  same : natBits s.bitCnt val ++ bytesBits s.left = bits

theorem gzFill_filled {n fuel val : Nat} {s : GzState} (held : val < 2 ^ s.bitCnt)
    (behind : s.inPos ≤ s.inLen) (inside : s.inLen ≤ s.input.length) (few : s.bitCnt < n + 8)
    (steps : n ≤ s.bitCnt + 8 * fuel) (enough : n ≤ s.bitCnt + 8 * s.left.length) :
    ∃ inPos bitCnt filled, gzFill n fuel s val = some (s.load inPos bitCnt, some filled) ∧
      Filled n (natBits s.bitCnt val ++ bytesBits s.left) (s.load inPos bitCnt) filled := by
  induction fuel generalizing s val with
  | zero =>
    have loaded : n ≤ s.bitCnt := by omega
    rw [gzFill, if_neg (Nat.not_lt.mpr loaded)]
    exact ⟨s.inPos, s.bitCnt, val, rfl, loaded, few, held, behind, rfl⟩
  | succ fuel ih =>
    rw [gzFill]
    by_cases missing : s.bitCnt < n
    · have length := GzState.left_length inside
      have more : s.inPos < s.inLen := by omega
      obtain ⟨byte, here, first⟩ := s.left_cons inside more
      obtain ⟨below, bits⟩ := load_byte byte (s.load (s.inPos + 1) (s.bitCnt + 8)).left held
      rw [if_pos missing, if_neg (by omega), here, Option.bind_some]
      have next := ih (s := s.load (s.inPos + 1) (s.bitCnt + 8)) below more
        inside (by change s.bitCnt + 8 < n + 8; omega)
        (by change n ≤ s.bitCnt + 8 + 8 * fuel; omega)
        (by
          rw [first, List.length_cons] at enough
          change n ≤ s.bitCnt + 8 + 8 * _
          omega)
      change ∃ inPos bitCnt filled, gzFill n fuel (s.load (s.inPos + 1) (s.bitCnt + 8)) _ = _ ∧ _
      rw [first, ← bits]
      exact next
    · have loaded : n ≤ s.bitCnt := Nat.not_lt.mp missing
      rw [if_neg missing]
      exact ⟨s.inPos, s.bitCnt, val, rfl, loaded, few, held, behind, rfl⟩

theorem gzFill_cut {n fuel val : Nat} {s : GzState} (inside : s.inLen ≤ s.input.length)
    (steps : n ≤ s.bitCnt + 8 * fuel) (cut : s.bitCnt + 8 * s.left.length < n) :
    ∃ next, gzFill n fuel s val = some (next, none) ∧ (n ≤ 8 → next = s) := by
  induction fuel generalizing s val with
  | zero => omega
  | succ fuel ih =>
    rw [gzFill, if_pos (by omega)]
    have length := GzState.left_length inside
    by_cases last : s.inLen ≤ s.inPos
    · exact ⟨s, if_pos last, fun _ => rfl⟩
    · obtain ⟨byte, here, first⟩ := s.left_cons inside (by omega)
      rw [first, List.length_cons] at cut
      rw [if_neg last, here, Option.bind_some]
      obtain ⟨next, filled, -⟩ := @ih
        (val ||| byte.toNat <<< s.bitCnt) (s.load (s.inPos + 1) (s.bitCnt + 8)) inside
        (by change n ≤ s.bitCnt + 8 + 8 * fuel; omega)
        (by change s.bitCnt + 8 + 8 * _ < n; omega)
      exact ⟨next, filled, fun _ => by omega⟩

/-- A number is read as it stands in the bits, or the bits have no such number. -/
def Yields (cap : Nat) (s : GzState) (result : Option (GzState × Int))
    (value : Option (Nat × List Bool)) : Prop :=
  (∃ (next : GzState) (number : Nat), result = some (next, (number : Int)) ∧ next.Ready cap ∧
    next.out = s.out ∧ value = some (number, next.ahead)) ∨
  ∃ next, result = some (next, -1) ∧ value = none

theorem gzBits_yields {cap : Nat} {s : GzState} (ready : s.Ready cap) (n : Nat) :
    Yields cap s (gzBits s n) (takeNumber n s.ahead) := by
  have length := s.ahead_length
  rw [gzBits]
  by_cases enough : n ≤ s.ahead.length
  · obtain ⟨inPos, bitCnt, val, filled, fill⟩ := @gzFill_filled _ n _ _ ready.held ready.behind
      ready.inside (ready.loaded.trans_le (Nat.le_add_left 8 n)) (by omega) (length ▸ enough)
    rw [filled, Option.map_some, takeNumber, if_pos enough]
    have few : bitCnt < n + 8 := fill.few
    have loaded : n ≤ bitCnt := fill.enough
    have held : val < 2 ^ bitCnt := fill.held
    have bits : s.ahead = natBits bitCnt val ++ bytesBits (s.load inPos bitCnt).left :=
      fill.same.symm
    have short : n ≤ (natBits bitCnt val).length := by rw [natBits_length]; exact loaded
    have masked : val &&& (1 <<< n - 1) = val % 2 ^ n := by
      rw [Nat.shiftLeft_eq, Nat.one_mul, Nat.and_two_pow_sub_one_eq_mod]
    refine Or.inl ⟨{ s.load inPos (bitCnt - n) with bitBuf := val >>> n }, val % 2 ^ n, ?_,
      ⟨?_, ?_, fill.behind, ready.inside, ready.fits, ready.outCap⟩, rfl, ?_⟩
    · rw [← masked]
      rfl
    · change bitCnt - n < 8
      omega
    · change val >>> n < 2 ^ (bitCnt - n)
      rw [Nat.shiftRight_eq_div_pow]
      refine Nat.div_lt_of_lt_mul ?_
      rw [← Nat.pow_add, Nat.add_sub_cancel' loaded]
      exact held
    · rw [bits, List.take_append_of_le_length short, List.drop_append_of_le_length short,
        take_natBits loaded, drop_natBits loaded, number_natBits, ← Nat.shiftRight_eq_div_pow]
      rfl
  · obtain ⟨next, filled, -⟩ := @gzFill_cut n n s.bitBuf _ ready.inside (by omega) (by omega)
    rw [filled, Option.map_some, takeNumber, if_neg enough]
    exact Or.inr ⟨next, rfl, rfl⟩

/-- A short number that is cut leaves the state as it is. -/
theorem gzBits_cut {cap n : Nat} {s : GzState} (ready : s.Ready cap) (short : n ≤ 8)
    (cut : takeNumber n s.ahead = none) : gzBits s n = some (s, -1) := by
  have length := s.ahead_length
  have missing : s.ahead.length < n := by
    rw [takeNumber] at cut
    split_ifs at cut with enough
    omega
  obtain ⟨next, filled, same⟩ := @gzFill_cut n n s.bitBuf _ ready.inside (by omega) (by omega)
  rw [gzBits, filled, Option.map_some, same short]

theorem gzBits_short {cap n : Nat} {s : GzState} (ready : s.Ready cap) (short : n ≤ 8) :
    (∃ (next : GzState) (number : Nat), gzBits s n = some (next, (number : Int)) ∧
      next.Ready cap ∧ next.out = s.out ∧ takeNumber n s.ahead = some (number, next.ahead)) ∨
    gzBits s n = some (s, -1) ∧ takeNumber n s.ahead = none := by
  rcases gzBits_yields ready n with read | ⟨_, _, none_⟩
  · exact Or.inl read
  · exact Or.inr ⟨gzBits_cut ready short none_, none_⟩

theorem gzBits_ready {cap n : Nat} {s : GzState} (ready : s.Ready cap) (short : n ≤ 8) :
    ∃ next value, gzBits s n = some (next, value) ∧ next.Ready cap := by
  rcases gzBits_short ready short with ⟨next, number, result, ready_, _⟩ | ⟨result, _⟩
  · exact ⟨next, number, result, ready_⟩
  · exact ⟨s, -1, result, ready⟩

end Nd100x.Gunzip
