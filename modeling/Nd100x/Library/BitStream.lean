import Mathlib.Data.BitVec
import Mathlib.Tactic.Ring

namespace Nd100x.Library

/-- The low bits of a number, with the lowest first. -/
def natBits : Nat → Nat → List Bool
  | 0, _ => []
  | width + 1, value => decide (value % 2 = 1) :: natBits width (value / 2)

/-- The first bit is the lowest. -/
def number : List Bool → Nat
  | [] => 0
  | bit :: bits => bit.toNat + 2 * number bits

/-- The first bit is the highest. -/
def valueOf (bits : List Bool) : Nat := bits.foldl (fun value bit => 2 * value + bit.toNat) 0

def bytesBits (bytes : List (BitVec 8)) : List Bool :=
  bytes.flatMap fun byte => natBits 8 byte.toNat

/-- A field is taken from the front when it is there. -/
def takeNumber (width : Nat) (bits : List Bool) : Option (Nat × List Bool) :=
  if width ≤ bits.length then some (number (bits.take width), bits.drop width) else none

section Bits

@[simp] theorem natBits_length (width value : Nat) : (natBits width value).length = width := by
  induction width generalizing value with
  | zero => rfl
  | succ width ih =>
    rw [natBits, List.length_cons, ih]

theorem natBits_xor (width first second : Nat) :
    natBits width (first ^^^ second) =
      List.zipWith xor (natBits width first) (natBits width second) := by
  induction width generalizing first second with
  | zero => rfl
  | succ width ih =>
    have low := Nat.testBit_xor first second 0
    rw [Nat.testBit_zero, Nat.testBit_zero, Nat.testBit_zero] at low
    rw [natBits, natBits, natBits, low, Nat.xor_div_two, ih,
      List.zipWith_cons_cons]

theorem natBits_append (low high value : Nat) :
    natBits (low + high) value = natBits low value ++ natBits high (value / 2 ^ low) := by
  induction low generalizing value with
  | zero => rw [Nat.zero_add, Nat.pow_zero, Nat.div_one, natBits, List.nil_append]
  | succ low ih =>
    rw [Nat.succ_add, natBits, natBits, ih, Nat.div_div_eq_div_mul,
      List.cons_append, Nat.pow_succ']

/-- The low bits come from the part below. -/
theorem natBits_mod (width value : Nat) :
    natBits width (value % 2 ^ width) = natBits width value := by
  induction width generalizing value with
  | zero => rfl
  | succ width ih =>
    have low : value % 2 ^ (width + 1) % 2 = value % 2 :=
      Nat.mod_mod_of_dvd value (Dvd.intro_left _ rfl)
    have high : value % 2 ^ (width + 1) / 2 = value / 2 % 2 ^ width := by
      rw [Nat.pow_succ', Nat.mod_mul_right_div_self]
    rw [natBits, natBits, low, high, ih]

/-- A part that is put above the low bits follows them. -/
theorem natBits_add {low : Nat} (high value above : Nat) (fits : value < 2 ^ low) :
    natBits (low + high) (value + above * 2 ^ low) = natBits low value ++ natBits high above := by
  have below : (value + above * 2 ^ low) % 2 ^ low = value := by
    rw [Nat.add_mul_mod_self_right, Nat.mod_eq_of_lt fits]
  have higher : (value + above * 2 ^ low) / 2 ^ low = above := by
    rw [Nat.add_mul_div_right _ _ (Nat.two_pow_pos low), Nat.div_eq_of_lt fits, Nat.zero_add]
  rw [natBits_append, higher, ← natBits_mod, below]

theorem number_natBits (width value : Nat) : number (natBits width value) = value % 2 ^ width := by
  induction width generalizing value with
  | zero => rw [natBits, number, Nat.pow_zero, Nat.mod_one]
  | succ width ih =>
    rw [natBits, number, ih, Nat.pow_succ', Nat.mod_mul]
    rcases Nat.mod_two_eq_zero_or_one value with even | odd
    · rw [even]
      rfl
    · rw [odd]
      rfl

theorem natBits_number (bits : List Bool) : natBits bits.length (number bits) = bits := by
  induction bits with
  | nil => rfl
  | cons bit bits ih =>
    have low : decide ((bit.toNat + 2 * number bits) % 2 = 1) = bit := by
      rw [Nat.add_mul_mod_self_left]
      cases bit <;> rfl
    have high : (bit.toNat + 2 * number bits) / 2 = number bits := by
      have := Bool.toNat_le bit
      omega
    rw [List.length_cons, natBits, number, low, high, ih]

theorem number_ne_zero {bits : List Bool} (some_ : true ∈ bits) : number bits ≠ 0 := by
  induction bits with
  | nil => exact absurd some_ List.not_mem_nil
  | cons bit bits ih =>
    rw [number]
    rcases List.mem_cons.mp some_ with rfl | later
    · simp
    · have := ih later
      omega

theorem take_natBits {width total : Nat} (inside : width ≤ total) (value : Nat) :
    (natBits total value).take width = natBits width value := by
  obtain ⟨rest, rfl⟩ := Nat.exists_eq_add_of_le inside
  rw [natBits_append, List.take_left' (natBits_length width value)]

theorem drop_natBits {width total : Nat} (inside : width ≤ total) (value : Nat) :
    (natBits total value).drop width = natBits (total - width) (value / 2 ^ width) := by
  obtain ⟨rest, rfl⟩ := Nat.exists_eq_add_of_le inside
  rw [natBits_append, List.drop_left' (natBits_length width value), Nat.add_sub_cancel_left]

theorem bytesBits_cons (byte : BitVec 8) (bytes : List (BitVec 8)) :
    bytesBits (byte :: bytes) = natBits 8 byte.toNat ++ bytesBits bytes := rfl

theorem bytesBits_zipWith {first second : List (BitVec 8)} (same : first.length = second.length) :
    bytesBits (List.zipWith (· ^^^ ·) first second) =
      List.zipWith xor (bytesBits first) (bytesBits second) := by
  induction first generalizing second with
  | nil => rfl
  | cons byte first ih =>
    cases second with
    | nil => cases same
    | cons other second =>
      rw [List.zipWith_cons_cons, bytesBits_cons, bytesBits_cons, bytesBits_cons,
        List.zipWith_append (by rw [natBits_length, natBits_length]), BitVec.toNat_xor,
        natBits_xor, ih (Nat.succ.inj same)]

@[simp] theorem bytesBits_length (bytes : List (BitVec 8)) :
    (bytesBits bytes).length = 8 * bytes.length := by
  induction bytes with
  | nil => rfl
  | cons byte bytes ih =>
    rw [bytesBits_cons, List.length_append, natBits_length, ih,
      List.length_cons]
    ring

theorem takeNumber_one (bit : Bool) (bits : List Bool) :
    takeNumber 1 (bit :: bits) = some (bit.toNat, bits) := by
  have some_ : 1 ≤ (bit :: bits).length := by
    rw [List.length_cons]
    omega
  rw [takeNumber, if_pos some_]
  rfl

theorem takeNumber_length {width value : Nat} {bits rest : List Bool}
    (taken : takeNumber width bits = some (value, rest)) : rest.length + width = bits.length := by
  rw [takeNumber] at taken
  split_ifs at taken with inside
  rw [Option.some.injEq, Prod.mk.injEq] at taken
  rw [← taken.2, List.length_drop, Nat.sub_add_cancel inside]

/-- A field that was put in front is taken again. -/
theorem takeNumber_natBits (width value : Nat) (rest : List Bool) :
    takeNumber width (natBits width value ++ rest) = some (value % 2 ^ width, rest) := by
  have inside : width ≤ (natBits width value ++ rest).length := by
    rw [List.length_append, natBits_length]
    exact Nat.le_add_right _ _
  rw [takeNumber, if_pos inside, List.take_left' (natBits_length width value),
    List.drop_left' (natBits_length width value), number_natBits]

end Bits

section Values

theorem valueOf_append_bit (bits : List Bool) (bit : Bool) :
    valueOf (bits ++ [bit]) = 2 * valueOf bits + bit.toNat := by
  rw [valueOf, List.foldl_append]
  rfl

/-- Reversed bits have their value. -/
theorem valueOf_reverse (bits : List Bool) : valueOf bits.reverse = number bits := by
  induction bits with
  | nil => rfl
  | cons bit bits ih =>
    rw [List.reverse_cons, valueOf_append_bit, ih, number, Nat.add_comm]

theorem valueOf_lt (bits : List Bool) : valueOf bits < 2 ^ bits.length := by
  induction bits using List.reverseRecOn with
  | nil => exact Nat.one_pos
  | append_singleton bits bit ih =>
    have small : bit.toNat ≤ 1 := Bool.toNat_le bit
    rw [valueOf_append_bit, List.length_append, List.length_singleton, Nat.pow_succ]
    omega

theorem takeNumber_lt {width value : Nat} {bits rest : List Bool}
    (taken : takeNumber width bits = some (value, rest)) : value < 2 ^ width := by
  rw [takeNumber] at taken
  split_ifs at taken with inside
  rw [Option.some.injEq, Prod.mk.injEq] at taken
  have small := valueOf_lt (bits.take width).reverse
  rw [valueOf_reverse, List.length_reverse, List.length_take, Nat.min_eq_left inside] at small
  exact taken.1 ▸ small

/-- Words of the same length are told apart by their values. -/
theorem valueOf_injective {first second : List Bool} (length : first.length = second.length)
    (same : valueOf first = valueOf second) : first = second := by
  induction first using List.reverseRecOn generalizing second with
  | nil => exact (List.length_eq_zero_iff.mp length.symm).symm
  | append_singleton first bit ih =>
    rcases List.eq_nil_or_concat second with rfl | ⟨before, last, rfl⟩
    · rw [List.length_append] at length
      cases length
    · rw [List.concat_eq_append] at length same ⊢
      rw [List.length_append, List.length_append] at length
      rw [valueOf_append_bit, valueOf_append_bit] at same
      have bits : bit = last := by
        cases bit <;> cases last <;> simp only [Bool.toNat_true, Bool.toNat_false] at same <;>
          first | rfl | omega
      subst bits
      rw [ih (Nat.add_right_cancel length) (by omega)]

end Values

end Nd100x.Library
