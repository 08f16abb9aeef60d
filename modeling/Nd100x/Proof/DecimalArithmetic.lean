import Nd100x.Library.Numeral
import Nd100x.Proof.DecimalDigits

namespace Nd100x

open Library

section Loops

variable {a b : List Nat}

/-- The carry of an addition stands before the digits of the sum. -/
structure DigitSum (a b : List Nat) (result : List Nat × Nat) : Prop where
  length : result.1.length = a.length
  digits : Digits 10 result.1
  carry : result.2 ≤ 1
  number : numeral 10 result.1 + result.2 * 10 ^ a.length = numeral 10 a + numeral 10 b

theorem bcdAddMagnitude_spec (same : a.length = b.length) (first : Digits 10 a) (second : Digits 10 b) :
    DigitSum a b (bcdAddMagnitude a b) := by
  induction a generalizing b with
  | nil =>
    obtain rfl : b = [] := List.length_eq_zero_iff.mp same.symm
    exact ⟨rfl, .nil, by decide, rfl⟩
  | cons x as ih =>
    obtain ⟨y, bs, rfl⟩ := List.exists_cons_of_length_pos (l := b) (by rw [← same]; simp)
    have lengths : as.length = bs.length := Nat.succ.inj same
    obtain ⟨length, digits, carry, number⟩ := ih lengths first.tail second.tail
    have x10 := first.head
    have y10 := second.head
    rw [bcdAddMagnitude]
    generalize bcdAddMagnitude as bs = tail at length digits carry number ⊢
    obtain ⟨rest, k⟩ := tail
    dsimp only at length digits carry number ⊢
    by_cases large : 10 ≤ x + y + k
    · rw [if_pos large]
      refine ⟨by simp [length], .cons (by omega) digits, by simp, ?_⟩
      have split : x + y + k = x + y + k - 10 + 10 := by omega
      dsimp only
      generalize x + y + k - 10 = digit at split ⊢
      rw [numeral_cons, numeral_cons, numeral_cons, List.length_cons, length, ← lengths]
      calc digit * 10 ^ as.length + numeral 10 rest + 1 * 10 ^ (as.length + 1)
          = (digit + 10) * 10 ^ as.length + numeral 10 rest := by ring
        _ = (x + y) * 10 ^ as.length + (numeral 10 rest + k * 10 ^ as.length) := by
            rw [← split]
            ring
        _ = x * 10 ^ as.length + numeral 10 as + (y * 10 ^ as.length + numeral 10 bs) := by
            rw [number]
            ring
    · rw [if_neg large]
      refine ⟨by simp [length], .cons (by omega) digits, by simp, ?_⟩
      dsimp only
      rw [numeral_cons, numeral_cons, numeral_cons, length, ← lengths]
      calc (x + y + k) * 10 ^ as.length + numeral 10 rest + 0 * 10 ^ (x :: as).length
          = (x + y) * 10 ^ as.length + (numeral 10 rest + k * 10 ^ as.length) := by ring
        _ = x * 10 ^ as.length + numeral 10 as + (y * 10 ^ as.length + numeral 10 bs) := by
            rw [number]
            ring

/-- The borrow of a subtraction is missing before the digits of the difference. -/
structure DigitDifference (a b : List Nat) (result : List Nat × Nat) : Prop where
  length : result.1.length = a.length
  digits : Digits 10 result.1
  borrow : result.2 ≤ 1
  number : numeral 10 result.1 + numeral 10 b = numeral 10 a + result.2 * 10 ^ a.length

theorem bcdSubMagnitude_spec (same : a.length = b.length) (first : Digits 10 a) (second : Digits 10 b) :
    DigitDifference a b (bcdSubMagnitude a b) := by
  induction a generalizing b with
  | nil =>
    obtain rfl : b = [] := List.length_eq_zero_iff.mp same.symm
    exact ⟨rfl, .nil, by decide, rfl⟩
  | cons x as ih =>
    obtain ⟨y, bs, rfl⟩ := List.exists_cons_of_length_pos (l := b) (by rw [← same]; simp)
    have lengths : as.length = bs.length := Nat.succ.inj same
    obtain ⟨length, digits, borrow, number⟩ := ih lengths first.tail second.tail
    have x10 := first.head
    have y10 := second.head
    rw [bcdSubMagnitude]
    generalize bcdSubMagnitude as bs = tail at length digits borrow number ⊢
    obtain ⟨rest, k⟩ := tail
    dsimp only at length digits borrow number ⊢
    by_cases negative : (x : Int) - y - k < 0
    · rw [if_pos negative]
      refine ⟨by simp [length], .cons (by omega) digits, by simp, ?_⟩
      have split : (((x : Int) - y - k + 10) % 256).toNat + y + k = x + 10 := by omega
      dsimp only
      generalize (((x : Int) - y - k + 10) % 256).toNat = digit at split ⊢
      rw [numeral_cons, numeral_cons, numeral_cons, List.length_cons, length, ← lengths]
      calc digit * 10 ^ as.length + numeral 10 rest + (y * 10 ^ as.length + numeral 10 bs)
          = (digit + y) * 10 ^ as.length + (numeral 10 rest + numeral 10 bs) := by ring
        _ = (digit + y + k) * 10 ^ as.length + numeral 10 as := by
            rw [number]
            ring
        _ = x * 10 ^ as.length + numeral 10 as + 1 * 10 ^ (as.length + 1) := by
            rw [split]
            ring
    · rw [if_neg negative]
      refine ⟨by simp [length], .cons (by omega) digits, by simp, ?_⟩
      have split : ((x : Int) - y - k).toNat + y + k = x := by omega
      dsimp only
      generalize ((x : Int) - y - k).toNat = digit at split ⊢
      rw [numeral_cons, numeral_cons, numeral_cons, length, ← lengths]
      calc digit * 10 ^ as.length + numeral 10 rest + (y * 10 ^ as.length + numeral 10 bs)
          = (digit + y) * 10 ^ as.length + (numeral 10 rest + numeral 10 bs) := by ring
        _ = (digit + y + k) * 10 ^ as.length + numeral 10 as := by
            rw [number]
            ring
        _ = x * 10 ^ as.length + numeral 10 as + 0 * 10 ^ (x :: as).length := by
            rw [split]
            ring

/-- No borrow is left where the smaller magnitude is subtracted. -/
theorem bcdSubMagnitude_number (same : a.length = b.length) (first : Digits 10 a) (second : Digits 10 b)
    (smaller : numeral 10 b ≤ numeral 10 a) : numeral 10 (bcdSubMagnitude a b).1 = numeral 10 a - numeral 10 b := by
  obtain ⟨length, digits, borrow, number⟩ := bcdSubMagnitude_spec same first second
  have bound := numeral_lt (by decide) digits
  rw [length] at bound
  obtain none | one : (bcdSubMagnitude a b).2 = 0 ∨ (bcdSubMagnitude a b).2 = 1 := by omega
  · rw [none] at number
    omega
  · rw [one] at number
    omega

/-- The order of two magnitudes is the order of their numbers. -/
theorem bcdCmpMagnitude_eq (same : a.length = b.length) (first : Digits 10 a) (second : Digits 10 b) :
    bcdCmpMagnitude a b = ((numeral 10 a : Int) - numeral 10 b).sign := by
  induction a generalizing b with
  | nil =>
    obtain rfl : b = [] := List.length_eq_zero_iff.mp same.symm
    rfl
  | cons x as ih =>
    obtain ⟨y, bs, rfl⟩ := List.exists_cons_of_length_pos (l := b) (by rw [← same]; simp)
    have lengths : as.length = bs.length := Nat.succ.inj same
    have low := numeral_lt (by decide) first.tail
    have high := numeral_lt (by decide) second.tail
    rw [bcdCmpMagnitude, numeral_cons, numeral_cons, ← lengths]
    rw [← lengths] at high
    rcases lt_trichotomy x y with less | rfl | greater
    · have step : (x + 1) * 10 ^ as.length ≤ y * 10 ^ as.length := Nat.mul_le_mul_right _ less
      rw [if_pos less.ne, if_pos less, Int.sign_eq_neg_one_of_neg]
      rw [Nat.succ_mul] at step
      omega
    · rw [if_neg (by simp), ih lengths first.tail second.tail]
      congr 1
      omega
    · have step : (y + 1) * 10 ^ as.length ≤ x * 10 ^ as.length := Nat.mul_le_mul_right _ greater
      rw [if_pos greater.ne', if_neg (by omega), Int.sign_eq_one_of_pos]
      rw [Nat.succ_mul] at step
      omega

/-- The carry of the rounding stands before the digits. -/
structure RoundedUp (a : List Nat) (result : List Nat × Nat) : Prop where
  length : result.1.length = a.length
  digits : Digits 10 result.1
  carry : result.2 ≤ 1
  number : numeral 10 result.1 + result.2 * 10 ^ a.length = numeral 10 a + 1

theorem bcdRoundUp_spec (all : Digits 10 a) : RoundedUp a (bcdRoundUp a) := by
  induction a with
  | nil => exact ⟨rfl, .nil, by decide, rfl⟩
  | cons x as ih =>
    obtain ⟨length, digits, carry, number⟩ := ih all.tail
    have x10 := all.head
    rw [bcdRoundUp]
    generalize bcdRoundUp as = tail at length digits carry number ⊢
    obtain ⟨rest, k⟩ := tail
    dsimp only at length digits carry number ⊢
    by_cases stops : k = 0
    · subst stops
      rw [if_pos rfl]
      refine ⟨by simp [length], .cons x10 digits, by simp, ?_⟩
      rw [numeral_cons, numeral_cons, length]
      omega
    · obtain rfl : k = 1 := by omega
      rw [if_neg stops]
      refine ⟨by simp [length], .cons (Nat.mod_lt _ (by decide)) digits, by dsimp only; omega, ?_⟩
      have split := Nat.div_add_mod (x + 1) 10
      dsimp only
      generalize (x + 1) % 10 = digit at split ⊢
      generalize (x + 1) / 10 = k at split ⊢
      rw [numeral_cons, numeral_cons, List.length_cons, length]
      calc digit * 10 ^ as.length + numeral 10 rest + k * 10 ^ (as.length + 1)
          = (10 * k + digit) * 10 ^ as.length + numeral 10 rest := by ring
        _ = x * 10 ^ as.length + (numeral 10 rest + 1 * 10 ^ as.length) := by
            rw [split]
            ring
        _ = x * 10 ^ as.length + numeral 10 as + 1 := by
            rw [number]
            ring

end Loops

namespace BcdOperand

variable (op : BcdOperand)

/-- The nibbles before the sign, which include the pad of an odd length. -/
def magnitudeNibbles : Nat := if op.fieldLength = 0 then 0 else op.byteAlignedNibbles - 1

def magnitudeDigits : List Nat := (List.range op.magnitudeNibbles).map op.nibbleAt

/-- Every nibble before the sign is a decimal digit. -/
def Decimal : Prop := ∀ j < op.magnitudeNibbles, op.nibbleAt j ≤ 9

def magnitude : Nat := numeral 10 op.magnitudeDigits

/-- The nibbles B and D are a minus. -/
def negative : Bool :=
  decide (op.fieldLength ≠ 0 ∧ (op.nibbleAt (op.byteAlignedNibbles - 1) = 0x0B ∨
    op.nibbleAt (op.byteAlignedNibbles - 1) = 0x0D))

def sign : Int := if op.negative then -1 else 1

/-- An empty field is a plus zero. -/
def value : Int := op.sign * op.magnitude

/-- The sign nibble of a result. A zero keeps the sign of the first operand. -/
def resultSign (exact : Int) : Nat :=
  if op.unsignedRequested then bcdSignUns
  else if exact < 0 ∨ (exact = 0 ∧ op.negative) then bcdSignNeg else bcdSignPos

theorem decodeSign_sign : op.decodeSign = .ok op.sign := by
  rw [decodeSign_eq, sign, negative]
  by_cases minus : op.fieldLength ≠ 0 ∧ (op.nibbleAt (op.byteAlignedNibbles - 1) = 0x0B ∨
      op.nibbleAt (op.byteAlignedNibbles - 1) = 0x0D)
  · rw [if_pos minus, if_pos (decide_eq_true minus)]
  · rw [if_neg minus, if_neg (by simpa using minus)]

theorem magnitudeDigits_length : op.magnitudeDigits.length = op.magnitudeNibbles := by
  rw [magnitudeDigits, List.length_map, List.length_range]

theorem magnitudeNibbles_le : op.magnitudeNibbles ≤ 31 := by
  have bound := op.byteAlignedNibbles_le
  unfold magnitudeNibbles
  split <;> omega

variable {op}

theorem Decimal.digits (decimal : op.Decimal) : Digits 10 op.magnitudeDigits := by
  intro digit member
  rw [magnitudeDigits, List.mem_map] at member
  obtain ⟨j, below, rfl⟩ := member
  have := decimal j (List.mem_range.mp below)
  omega

theorem Decimal.magnitude_lt (decimal : op.Decimal) : op.magnitude < 10 ^ op.magnitudeNibbles := by
  have bound := numeral_lt (by decide) decimal.digits
  rwa [magnitudeDigits_length] at bound

/-- The magnitude behind its leading zeros. -/
def extracted (op : BcdOperand) (dstLen : Nat) : List Nat :=
  List.replicate (dstLen - op.magnitudeNibbles) 0 ++ op.magnitudeDigits

theorem extractMagnitude_eq {dstLen : Nat} (fits : op.magnitudeNibbles ≤ dstLen) :
    op.extractMagnitude dstLen = .ok (op.extracted dstLen) := by
  have magnitude : (List.range op.magnitudeNibbles).mapM (fun (i : Nat) => op.getNibble i) =
      .ok op.magnitudeDigits := by
    apply mapM_ok
    intro i member
    rw [List.mem_range, magnitudeNibbles] at member
    apply getNibble_eq
    by_cases empty : op.fieldLength = 0
    · rw [if_pos empty] at member
      omega
    · rw [if_neg empty] at member
      exact op.nibble_inside (by omega)
  rw [extractMagnitude, ← magnitudeNibbles, min_eq_left fits, magnitude]
  rfl

theorem extracted_length {dstLen : Nat} (fits : op.magnitudeNibbles ≤ dstLen) :
    (op.extracted dstLen).length = dstLen := by
  rw [extracted, List.length_append, List.length_replicate, magnitudeDigits_length]
  omega

theorem extracted_number (dstLen : Nat) : numeral 10 (op.extracted dstLen) = op.magnitude :=
  numeral_padded _

theorem Decimal.extracted (decimal : op.Decimal) (dstLen : Nat) : Digits 10 (op.extracted dstLen) :=
  (Digits.zeros (by decide) _).append decimal.digits

theorem all_zero_iff {digits : List Nat} : (digits.all (· = 0)) = true ↔ numeral 10 digits = 0 := by
  rw [numeral_eq_zero (by decide)]
  simp

end BcdOperand

section SignedSum

/-- The digits and the sign of a sum of two signed magnitudes. -/
def signedSum (a b : List Nat) (s1 s2 : Int) : List Nat × Int :=
  if s1 = s2 then ((bcdAddMagnitude a b).1, s1)
  else if 0 ≤ bcdCmpMagnitude a b then ((bcdSubMagnitude a b).1, s1)
  else ((bcdSubMagnitude b a).1, s2)

/-- The digits are the magnitude of a sum, and the sign is its sign where it is not zero. -/
structure SignedSum (exact : Int) (result : List Nat × Int) : Prop where
  digits : Digits 10 result.1
  number : numeral 10 result.1 = exact.natAbs
  sign : exact ≠ 0 → (result.2 < 0 ↔ exact < 0)

variable {a b : List Nat} {s1 s2 : Int}

/-- The guard digit takes the carry of a sum. -/
theorem signedSum_like (same : a.length = b.length) (first : Digits 10 a) (second : Digits 10 b)
    (fits : numeral 10 a + numeral 10 b < 10 ^ a.length) (known : s1 = 1 ∨ s1 = -1) :
    SignedSum (s1 * numeral 10 a + s1 * numeral 10 b) ((bcdAddMagnitude a b).1, s1) := by
  obtain ⟨-, digits, carry, number⟩ := bcdAddMagnitude_spec same first second
  have none : (bcdAddMagnitude a b).2 = 0 := by
    by_contra some
    have one : (bcdAddMagnitude a b).2 = 1 := by omega
    rw [one] at number
    omega
  rw [none] at number
  refine ⟨digits, ?_, fun some => ?_⟩
  · dsimp only
    rcases known with rfl | rfl <;> omega
  · dsimp only
    rcases known with rfl | rfl <;> omega

theorem signedSum_unlike (same : a.length = b.length) (first : Digits 10 a) (second : Digits 10 b)
    (known : s1 = 1 ∨ s1 = -1) (smaller : numeral 10 b ≤ numeral 10 a) :
    SignedSum (s1 * numeral 10 a - s1 * numeral 10 b) ((bcdSubMagnitude a b).1, s1) := by
  have number := bcdSubMagnitude_number same first second smaller
  refine ⟨(bcdSubMagnitude_spec same first second).digits, ?_, fun some => ?_⟩
  · dsimp only
    rcases known with rfl | rfl <;> omega
  · dsimp only
    rcases known with rfl | rfl <;> omega

theorem signedSum_spec (same : a.length = b.length) (first : Digits 10 a) (second : Digits 10 b)
    (fits : numeral 10 a + numeral 10 b < 10 ^ a.length) (one : s1 = 1 ∨ s1 = -1) (two : s2 = 1 ∨ s2 = -1) :
    SignedSum (s1 * numeral 10 a + s2 * numeral 10 b) (signedSum a b s1 s2) := by
  unfold signedSum
  by_cases like : s1 = s2
  · rw [if_pos like, ← like]
    exact signedSum_like same first second fits one
  · have opposite : s2 = -s1 := by omega
    rw [if_neg like, bcdCmpMagnitude_eq same first second]
    by_cases smaller : numeral 10 b ≤ numeral 10 a
    · rw [if_pos (Int.sign_nonneg_iff.mpr (by omega)), opposite, neg_mul, ← sub_eq_add_neg]
      exact signedSum_unlike same first second one smaller
    · have backward : s1 = -s2 := by omega
      rw [if_neg (fun found => smaller (by have := Int.sign_nonneg_iff.mp found; omega)), backward, neg_mul,
        add_comm, ← sub_eq_add_neg]
      exact signedSum_unlike same.symm second first two (by omega)

end SignedSum

/-- The value of a sum or of a difference of two operands. -/
def exactSum (op1 op2 : BcdOperand) (op2SignFlip : Int) : Int := op1.value + op2SignFlip * op2.value

theorem sign_cases (op : BcdOperand) : (op.sign = 1 ∧ op.negative = false) ∨ (op.sign = -1 ∧ op.negative = true) := by
  unfold BcdOperand.sign
  cases op.negative
  · exact .inl ⟨rfl, rfl⟩
  · exact .inr ⟨rfl, rfl⟩

/-- A zero sum has the sign of the first operand. -/
def packSum (op1 : BcdOperand) (s1 : Int) (sum : List Nat × Int) : Except Stop (BcdOperand × Bool) :=
  op1.packMagnitudeToField sum.1 (op1.outSign (if sum.1.all (· = 0) then s1 else sum.2))

theorem bcdAddSub_extracted {op1 op2 : BcdOperand} {op2SignFlip : Int} {cap : Nat}
    (size : cap = max op1.magnitudeNibbles op2.magnitudeNibbles + 1) :
    bcdAddSub op1 op2 op2SignFlip = packSum op1 op1.sign
      (signedSum (op1.extracted cap) (op2.extracted cap) op1.sign (op2.sign * op2SignFlip)) := by
  have body : bcdAddSub op1 op2 op2SignFlip = (op1.decodeSign >>= fun s1 => op2.decodeSign >>= fun s2 =>
      op1.extractMagnitude (max op1.magnitudeNibbles op2.magnitudeNibbles + 1) >>= fun a =>
        op2.extractMagnitude (max op1.magnitudeNibbles op2.magnitudeNibbles + 1) >>= fun b =>
          packSum op1 s1 (signedSum a b s1 (s2 * op2SignFlip))) := rfl
  rw [body, op1.decodeSign_sign, op2.decodeSign_sign, ← size,
    BcdOperand.extractMagnitude_eq (by omega), BcdOperand.extractMagnitude_eq (by omega)]
  rfl

theorem outSign_resultSign (op : BcdOperand) {exact sign : Int} (known : exact ≠ 0 → (sign < 0 ↔ exact < 0)) :
    op.outSign (if exact = 0 then op.sign else sign) = op.resultSign exact := by
  unfold BcdOperand.outSign BcdOperand.resultSign
  by_cases uns : op.unsignedRequested
  · rw [if_pos uns, if_pos uns]
  · rw [if_neg uns, if_neg uns]
    by_cases zero : exact = 0
    · obtain ⟨sign, negative⟩ | ⟨sign, negative⟩ := sign_cases op
      · simp [zero, sign, negative]
      · simp [zero, sign, negative]
    · rw [if_neg zero]
      simp only [known zero, zero, false_and, or_false]

/-- An addition packs the magnitude of the exact sum with the sign of the result. -/
theorem bcdAddSub_eq {op1 op2 : BcdOperand} (first : op1.Decimal) (second : op2.Decimal) {op2SignFlip : Int}
    (flip : op2SignFlip = 1 ∨ op2SignFlip = -1) :
    ∃ digits, Digits 10 digits ∧ numeral 10 digits = (exactSum op1 op2 op2SignFlip).natAbs ∧
      bcdAddSub op1 op2 op2SignFlip =
        op1.packMagnitudeToField digits (op1.resultSign (exactSum op1 op2 op2SignFlip)) := by
  obtain ⟨cap, size⟩ : ∃ cap, cap = max op1.magnitudeNibbles op2.magnitudeNibbles + 1 := ⟨_, rfl⟩
  have one : op1.sign = 1 ∨ op1.sign = -1 := (sign_cases op1).imp And.left And.left
  have two : op2.sign * op2SignFlip = 1 ∨ op2.sign * op2SignFlip = -1 := by
    obtain ⟨known, -⟩ | ⟨known, -⟩ := sign_cases op2
    · rw [known]
      omega
    · rw [known]
      omega
  have low : op1.magnitude < 10 ^ (cap - 1) :=
    lt_of_lt_of_le first.magnitude_lt (Nat.pow_le_pow_right (by decide) (by omega))
  have high : op2.magnitude < 10 ^ (cap - 1) :=
    lt_of_lt_of_le second.magnitude_lt (Nat.pow_le_pow_right (by decide) (by omega))
  have guard : 10 ^ cap = 10 ^ (cap - 1) * 10 := by rw [← pow_succ, Nat.sub_add_cancel (by omega)]
  have length1 : (op1.extracted cap).length = cap := BcdOperand.extracted_length (by omega)
  have length2 : (op2.extracted cap).length = cap := BcdOperand.extracted_length (by omega)
  obtain ⟨digits, number, sign⟩ := signedSum_spec (length1.trans length2.symm) (first.extracted cap)
    (second.extracted cap) (by rw [length1, BcdOperand.extracted_number, BcdOperand.extracted_number]; omega) one two
  have exact : op1.sign * (op1.magnitude : Int) + op2.sign * op2SignFlip * op2.magnitude =
      exactSum op1 op2 op2SignFlip := by
    rw [exactSum, BcdOperand.value, BcdOperand.value]
    ring
  rw [bcdAddSub_extracted size, packSum]
  rw [BcdOperand.extracted_number, BcdOperand.extracted_number, exact] at number sign
  have zero : ((signedSum (op1.extracted cap) (op2.extracted cap) op1.sign (op2.sign * op2SignFlip)).1.all
      (· = 0)) = true ↔ exactSum op1 op2 op2SignFlip = 0 := by
    rw [BcdOperand.all_zero_iff, number, Int.natAbs_eq_zero]
  simp only [zero]
  exact ⟨_, digits, number, by rw [outSign_resultSign op1 sign]⟩

section Packing

/-- A field holds the low digits of a number. An odd length leaves a zero pad, and no other nibble of
the words changes. -/
structure Packed (op : BcdOperand) (m signNibble : Nat) (result : BcdOperand) : Prop where
  same : BcdOperand.SameDescriptor result op
  digit : ∀ place < op.fieldLength - 1, result.nibbleAt (op.byteAlignedNibbles - 2 - place) = m / 10 ^ place % 10
  pad : ∀ j, j + op.fieldLength < op.byteAlignedNibbles → result.nibbleAt j = 0
  sign : op.fieldLength ≠ 0 → result.nibbleAt (op.byteAlignedNibbles - 1) = signNibble
  kept : ∀ p, p < 2 * op.skew ∨ op.byteAlignedNibbles + 2 * op.skew ≤ p → result.rawNibble p = op.rawNibble p

variable {op : BcdOperand} {digits : List Nat} {signNibble : Nat}

theorem fieldDigit_eq (all : Digits 10 digits) (j : Nat) :
    op.fieldDigit digits j = if op.byteAlignedNibbles - 2 - j < op.fieldLength - 1 then
      numeral 10 digits / 10 ^ (op.byteAlignedNibbles - 2 - j) % 10 else 0 := by
  rw [BcdOperand.fieldDigit, numeral_digit (by decide) all]

/-- The digits and the sign of a field, in either order. -/
theorem packed_of_raw {result : BcdOperand} (nonempty : op.fieldLength ≠ 0) (all : Digits 10 digits)
    (same : BcdOperand.SameDescriptor result op)
    (read : ∀ p, result.rawNibble p =
      if p = op.byteAlignedNibbles - 1 + 2 * op.skew then signNibble
      else if 2 * op.skew ≤ p ∧ p < op.byteAlignedNibbles - 1 + 2 * op.skew then
        op.fieldDigit digits (p - 2 * op.skew) % 16
      else op.rawNibble p) :
    Packed op (numeral 10 digits) signNibble result := by
  have aligned := op.byteAlignedNibbles_pos nonempty
  have longer := op.fieldLength_le_byteAligned
  have nibble {j : Nat} (below : j < op.byteAlignedNibbles - 1) :
      result.nibbleAt j = op.fieldDigit digits j % 16 := by
    rw [BcdOperand.nibbleAt_eq, same.skew, read, if_neg (by omega), if_pos (by omega), Nat.add_sub_cancel]
  refine ⟨same, fun place below => ?_, fun j high => ?_, fun _ => ?_, fun p outside => ?_⟩
  · have counted : op.byteAlignedNibbles - 2 - (op.byteAlignedNibbles - 2 - place) = place := by omega
    rw [nibble (by omega), fieldDigit_eq all, counted, if_pos below]
    omega
  · rw [nibble (by omega), fieldDigit_eq all, if_neg (by omega)]
  · rw [BcdOperand.nibbleAt_eq, same.skew, read, if_pos rfl]
  · rw [read, if_neg (by omega), if_neg (by omega)]

/-- A magnitude overflows the digits of the descriptor. -/
theorem packMagnitudeToField_packed (all : Digits 10 digits) (small : signNibble < 16) :
    ∃ result, op.packMagnitudeToField digits signNibble =
        .ok (result, decide (10 ^ (op.fieldLength - 1) ≤ numeral 10 digits)) ∧
      Packed op (numeral 10 digits) signNibble result := by
  by_cases empty : op.fieldLength = 0
  · have none : op.byteAlignedNibbles = 0 := by rw [BcdOperand.byteAlignedNibbles, empty]
    refine ⟨op, ?_, ⟨.refl op, fun place below => by omega, fun j high => by omega, fun some => absurd empty some,
      fun _ _ => rfl⟩⟩
    have overflow : (digits.any (· ≠ 0)) = decide (10 ^ (op.fieldLength - 1) ≤ numeral 10 digits) := by
      rw [Bool.eq_iff_iff, decide_eq_true_iff, numeral_reaches (by decide) all, empty]
      simp
    rw [BcdOperand.packMagnitudeToField, if_pos empty, overflow]
    rfl
  · have aligned := op.byteAlignedNibbles_pos empty
    have inside := op.nibble_inside (i := op.byteAlignedNibbles - 1) (by omega)
    have cast : ((op.byteAlignedNibbles : Int) - 1) = ((op.byteAlignedNibbles - 1 : Nat) : Int) := by omega
    obtain ⟨filled, done, same, read⟩ := BcdOperand.fillNibbles_raw digits (op.byteAlignedNibbles - 1)
      (op.withNibble (op.byteAlignedNibbles - 1) signNibble) (by rw [BcdOperand.withNibble_byteAlignedNibbles]; omega)
    have overflow : ((digits.reverse.drop (op.fieldLength - 1)).any (· ≠ 0)) =
        decide (10 ^ (op.fieldLength - 1) ≤ numeral 10 digits) := by
      rw [Bool.eq_iff_iff, decide_eq_true_iff, numeral_reaches (by decide) all]
      simp
    refine ⟨filled, ?_, packed_of_raw empty all (same.trans (op.withNibble_sameDescriptor _ _)) fun p => ?_⟩
    · rw [BcdOperand.packMagnitudeToField, if_neg empty, cast, BcdOperand.setNibble_eq inside, ← overflow]
      change (BcdOperand.fillNibbles digits (op.byteAlignedNibbles - 1)
        (op.withNibble (op.byteAlignedNibbles - 1) signNibble) >>= _) = _
      rw [done]
      rfl
    · have digit (j : Nat) : (op.withNibble (op.byteAlignedNibbles - 1) signNibble).fieldDigit digits j =
        op.fieldDigit digits j := rfl
      rw [read p, BcdOperand.withNibble_skew, BcdOperand.rawNibble_withNibble op inside, digit]
      by_cases last : p = op.byteAlignedNibbles - 1 + 2 * op.skew
      · rw [if_neg (by omega), if_pos last, if_pos last]
        omega
      · rw [if_neg last, if_neg last]

end Packing

section Compare

/-- The number of an operand with its decimal point. -/
def BcdOperand.rational (op : BcdOperand) : ℚ := op.value / 10 ^ op.decimalPoint

/-- The answer of a comparison. -/
def order (x y : ℚ) : Int := if y < x then 1 else if x < y then -1 else 0

theorem order_sign {x y : ℚ} {v w : Int} {scale : ℚ} (positive : 0 < scale) (first : x = v / scale)
    (second : y = w / scale) : order x y = (v - w).sign := by
  have less (i j : Int) : (i : ℚ) / scale < j / scale ↔ i < j := by
    rw [div_lt_div_iff_of_pos_right positive, Int.cast_lt]
  rw [order, first, second]
  simp only [less]
  rcases lt_trichotomy v w with below | rfl | above
  · rw [if_neg (by omega), if_pos below, Int.sign_eq_neg_one_of_neg (by omega)]
  · simp
  · rw [if_pos above, Int.sign_eq_one_of_pos (by omega)]

/-- The answer for two signed magnitudes of one scale. -/
def signedOrder (a b : List Nat) (s1 s2 : Int) : Int :=
  let s1 := if a.all (· = 0) then 0 else s1
  let s2 := if b.all (· = 0) then 0 else s2
  if s1 ≠ s2 then (if s1 < s2 then -1 else 1)
  else if s1 < 0 then -bcdCmpMagnitude a b else bcdCmpMagnitude a b

theorem signedOrder_eq {a b : List Nat} {s1 s2 : Int} (same : a.length = b.length) (first : Digits 10 a)
    (second : Digits 10 b) (one : s1 = 1 ∨ s1 = -1) (two : s2 = 1 ∨ s2 = -1) :
    signedOrder a b s1 s2 = (s1 * numeral 10 a - s2 * numeral 10 b).sign := by
  unfold signedOrder
  rw [bcdCmpMagnitude_eq same first second, ← Int.sign_neg]
  simp only [BcdOperand.all_zero_iff]
  generalize numeral 10 a = m
  generalize numeral 10 b = n
  have least {x : Int} (negative : x < 0) : x.sign = -1 := Int.sign_eq_neg_one_of_neg negative
  have most {x : Int} (positive : 0 < x) : x.sign = 1 := Int.sign_eq_one_of_pos positive
  by_cases zero1 : m = 0 <;> by_cases zero2 : n = 0 <;> rcases one with rfl | rfl <;> rcases two with rfl | rfl <;>
    simp [zero1, zero2]
  all_goals first
    | exact (most (by omega)).symm
    | exact (least (by omega)).symm
    | exact congrArg Int.sign (by ring)

theorem decimalPoint_le (op : BcdOperand) : op.decimalPoint ≤ 31 := by
  rw [BcdOperand.decimalPoint, BitVec.toNat_and]
  exact Nat.and_le_right

theorem scaled_number (op : BcdOperand) (width count : Nat) :
    numeral 10 (op.extracted (width - count) ++ List.replicate count 0) = op.magnitude * 10 ^ count := by
  rw [numeral_scaled, BcdOperand.extracted_number]

theorem scaled_length (op : BcdOperand) {width count : Nat} (wide : count + 31 ≤ width) :
    (op.extracted (width - count) ++ List.replicate count 0).length = width := by
  have := op.magnitudeNibbles_le
  rw [List.length_append, List.length_replicate, BcdOperand.extracted_length (by omega)]
  omega

theorem signedOrder_ok (a b : List Nat) (s1 s2 : Int) :
    (if (if a.all (· = 0) then 0 else s1) ≠ (if b.all (· = 0) then 0 else s2) then
        (pure (if (if a.all (· = 0) then 0 else s1) < (if b.all (· = 0) then 0 else s2) then -1 else 1) :
          Except Stop Int)
      else pure (if (if a.all (· = 0) then 0 else s1) < 0 then -bcdCmpMagnitude a b else bcdCmpMagnitude a b)) =
      .ok (signedOrder a b s1 s2) := by
  unfold signedOrder
  dsimp only
  generalize (if a.all (· = 0) then 0 else s1) = t1
  generalize (if b.all (· = 0) then 0 else s2) = t2
  split <;> rfl

/-- Both magnitudes at the larger decimal point. -/
theorem bcdCompare_scaled {op1 op2 : BcdOperand} {left right : Nat}
    (first : left = max op1.decimalPoint op2.decimalPoint - op1.decimalPoint)
    (second : right = max op1.decimalPoint op2.decimalPoint - op2.decimalPoint) :
    bcdCompare op1 op2 = .ok (signedOrder (op1.extracted (68 - left) ++ List.replicate left 0)
      (op2.extracted (68 - right) ++ List.replicate right 0) op1.sign op2.sign) := by
  have low := decimalPoint_le op1
  have high := decimalPoint_le op2
  have short1 := op1.magnitudeNibbles_le
  have short2 := op2.magnitudeNibbles_le
  have width : 2 * (bcdMaxNibbles + 2) = 68 := rfl
  unfold bcdCompare
  rw [op1.decodeSign_sign, op2.decodeSign_sign]
  simp only [bind, Except.bind]
  rw [width, ← first, ← second, BcdOperand.extractMagnitude_eq (by omega), BcdOperand.extractMagnitude_eq (by omega)]
  exact signedOrder_ok _ _ _ _

/-- The buffer of a comparison holds both magnitudes, and their order is the order of the numbers. -/
theorem bcdCompare_eq {op1 op2 : BcdOperand} (first : op1.Decimal) (second : op2.Decimal) :
    bcdCompare op1 op2 = .ok (order op1.rational op2.rational) := by
  have low := decimalPoint_le op1
  have high := decimalPoint_le op2
  obtain ⟨left, one⟩ : ∃ left, left = max op1.decimalPoint op2.decimalPoint - op1.decimalPoint := ⟨_, rfl⟩
  obtain ⟨right, two⟩ : ∃ right, right = max op1.decimalPoint op2.decimalPoint - op2.decimalPoint := ⟨_, rfl⟩
  have scaled (op : BcdOperand) {count : Nat}
      (place : count = max op1.decimalPoint op2.decimalPoint - op.decimalPoint)
      (below : op.decimalPoint ≤ max op1.decimalPoint op2.decimalPoint) :
      op.rational = (op.sign * (op.magnitude * 10 ^ count : Nat) : Int) /
        (10 : ℚ) ^ max op1.decimalPoint op2.decimalPoint := by
    have power : (10 : ℚ) ^ max op1.decimalPoint op2.decimalPoint = 10 ^ op.decimalPoint * 10 ^ count := by
      rw [← pow_add]
      congr 1
      omega
    rw [BcdOperand.rational, BcdOperand.value, power, div_eq_div_iff (by positivity) (by positivity)]
    push_cast
    ring
  rw [bcdCompare_scaled one two, signedOrder_eq
    ((scaled_length op1 (by omega)).trans (scaled_length op2 (by omega)).symm)
    ((first.extracted _).append (.zeros (by decide) _)) ((second.extracted _).append (.zeros (by decide) _))
    ((sign_cases op1).imp And.left And.left) ((sign_cases op2).imp And.left And.left), scaled_number, scaled_number,
    order_sign (by positivity) (scaled op1 one (le_max_left _ _)) (scaled op2 two (le_max_right _ _))]

end Compare

section Shift

/-- A number moved by decimal places. A positive count drops places, with rounding half up. -/
def shiftedNumber (v : Nat) (count : Int) (rounding : Bool) : Nat :=
  if count ≤ 0 then v * 10 ^ (-count).toNat
  else if rounding then (v + 10 ^ count.toNat / 2) / 10 ^ count.toNat
  else v / 10 ^ count.toNat

/-- The most significant dropped digit decides whether the number is rounded up. -/
theorem half_up (v : Nat) {places : Nat} (some : 0 < places) :
    (v + 10 ^ places / 2) / 10 ^ places = v / 10 ^ places + if 5 ≤ v / 10 ^ (places - 1) % 10 then 1 else 0 := by
  have power : 10 ^ places = 10 ^ (places - 1) * 10 := by rw [← pow_succ, Nat.sub_add_cancel some]
  have half : 10 ^ places / 2 = 5 * 10 ^ (places - 1) := by omega
  have weight : 0 < 10 ^ (places - 1) := Nat.pow_pos (by decide)
  rw [half, power, ← Nat.div_div_eq_div_mul, ← Nat.div_div_eq_div_mul, Nat.add_mul_div_right _ _ weight]
  split <;> omega

variable {digits : List Nat} {places : Nat}

/-- The dropped digit of the highest place. -/
theorem dropped_digit (all : Digits 10 digits) (some : 0 < places) :
    (places ≤ digits.length ∧ 5 ≤ digits.getD (digits.length - places) 0) ↔
      5 ≤ numeral 10 digits / 10 ^ (places - 1) % 10 := by
  rw [numeral_digit (by decide) all]
  by_cases inside : places ≤ digits.length
  · have place : digits.reverse.getD (places - 1) 0 = digits.getD (digits.length - places) 0 := by
      rw [List.getD_eq_getElem?_getD, List.getElem?_reverse (by omega), ← List.getD_eq_getElem?_getD]
      congr 1
      omega
    rw [place]
    exact ⟨And.right, fun large => ⟨inside, large⟩⟩
  · have none : digits.reverse.getD (places - 1) 0 = 0 :=
      List.getD_eq_default _ _ (by rw [List.length_reverse]; omega)
    rw [none]
    exact ⟨fun both => absurd both.1 inside, fun large => absurd large (by decide)⟩

/-- The rounding grows the digits where they are all nine. -/
theorem rounded_number (all : Digits 10 digits) :
    Digits 10 (if (bcdRoundUp digits).2 ≠ 0 then (bcdRoundUp digits).2 :: (bcdRoundUp digits).1
      else (bcdRoundUp digits).1) ∧
      numeral 10 (if (bcdRoundUp digits).2 ≠ 0 then (bcdRoundUp digits).2 :: (bcdRoundUp digits).1
        else (bcdRoundUp digits).1) = numeral 10 digits + 1 := by
  obtain ⟨length, rounded, carry, number⟩ := bcdRoundUp_spec all
  by_cases grows : (bcdRoundUp digits).2 ≠ 0
  · rw [if_pos grows, numeral_cons, length]
    exact ⟨.cons (by omega) rounded, by omega⟩
  · rw [if_neg grows]
    rw [not_not.mp grows] at number
    exact ⟨rounded, by omega⟩

theorem bcdShiftDigits_spec (all : Digits 10 digits) (short : digits.length ≤ 30) {count : Int} (low : -31 ≤ count)
    (rounding : Bool) : Digits 10 (bcdShiftDigits digits count rounding) ∧
      numeral 10 (bcdShiftDigits digits count rounding) = shiftedNumber (numeral 10 digits) count rounding := by
  unfold bcdShiftDigits shiftedNumber
  by_cases none : count = 0
  · rw [if_pos none, none]
    exact ⟨all, by simp⟩
  rw [if_neg none]
  by_cases right : 0 < count
  · rw [if_pos right, if_neg (not_le.mpr right)]
    have some : 0 < count.toNat := by omega
    have kept := numeral_take (by decide) all count.toNat
    have inside : (count ≤ digits.length ∧ 5 ≤ digits.getD (digits.length - count.toNat) 0) ↔
        5 ≤ numeral 10 digits / 10 ^ (count.toNat - 1) % 10 := by
      rw [← dropped_digit all some]
      exact and_congr_left' (by omega)
    simp only [inside]
    cases rounding with
    | false =>
      rw [if_neg (fun both => Bool.false_ne_true both.1), if_neg Bool.false_ne_true]
      exact ⟨all.take _, kept⟩
    | true =>
      simp only [true_and, if_true]
      rw [half_up _ some]
      by_cases up : 5 ≤ numeral 10 digits / 10 ^ (count.toNat - 1) % 10
      · rw [if_pos up, if_pos up, ← kept]
        exact rounded_number (all.take _)
      · rw [if_neg up, if_neg up, Nat.add_zero]
        exact ⟨all.take _, kept⟩
  · have width : 2 * bcdMaxNibbles + 4 = 68 := rfl
    rw [if_neg right, if_pos (by omega), width, min_eq_left (by omega)]
    exact ⟨all.append (.zeros (by decide) _), numeral_scaled _⟩

end Shift

section ShiftedField

namespace BcdOperand

/-- The digits of a number without the pad of an odd length. -/
def significantDigits (op : BcdOperand) : List Nat :=
  (List.range (op.fieldLength - 1)).map fun i => op.nibbleAt (op.byteAlignedNibbles - op.fieldLength + i)

def significand (op : BcdOperand) : Nat := numeral 10 op.significantDigits

/-- Every digit of the number is a decimal digit. -/
def SignificantDecimal (op : BcdOperand) : Prop := ∀ digit ∈ op.significantDigits, digit ≤ 9

variable {op : BcdOperand}

theorem SignificantDecimal.digits (decimal : op.SignificantDecimal) : Digits 10 op.significantDigits :=
  fun digit member => Nat.lt_succ_of_le (decimal digit member)

theorem Decimal.significant (decimal : op.Decimal) : op.SignificantDecimal := by
  intro digit member
  rw [significantDigits, List.mem_map] at member
  obtain ⟨i, below, rfl⟩ := member
  have longer := op.fieldLength_le_byteAligned
  rw [List.mem_range] at below
  apply decimal
  rw [magnitudeNibbles, if_neg (by omega)]
  omega

/-- The sign nibble of a shifted number. -/
def shiftedSign (dst src : BcdOperand) : Nat :=
  if dst.unsignedRequested then bcdSignUns else if src.negative then bcdSignNeg else bcdSignPos

theorem outSign_shiftedSign (dst src : BcdOperand) : dst.outSign src.sign = dst.shiftedSign src := by
  unfold outSign shiftedSign
  obtain ⟨sign, negative⟩ | ⟨sign, negative⟩ := sign_cases src
  · rw [sign, negative]
    rfl
  · rw [sign, negative]
    rfl

end BcdOperand

/-- The digits that a shift leaves for the destination. -/
def shiftedDigits (dst src : BcdOperand) : List Nat :=
  bcdShiftDigits src.significantDigits ((src.decimalPoint : Int) - dst.decimalPoint) dst.roundingOn

/-- The sign nibble is written after the digits. -/
def storeShifted (dst : BcdOperand) (work : List Nat) (signNibble : Nat) : Except Stop (Option (BcdOperand × Bool)) := do
  let filled ← BcdOperand.fillNibbles work (dst.byteAlignedNibbles - 1) dst
  let signed ← filled.setNibble (dst.byteAlignedNibbles - 1) signNibble
  return some (signed, (work.take (work.length - (dst.fieldLength - 1))).any (· ≠ 0))

variable {dst src : BcdOperand}

theorem bcdShde_loaded (nonempty : dst.fieldLength ≠ 0) :
    bcdShde dst src = storeShifted dst (shiftedDigits dst src) (dst.shiftedSign src) := by
  have short := src.fieldLength_le
  have longer := src.fieldLength_le_byteAligned
  have capacity : src.fieldLength - 1 ≤ bcdMaxNibbles + 2 := by
    have size : bcdMaxNibbles = 32 := rfl
    omega
  have loaded : ((List.range (src.fieldLength - 1)).mapM fun (i : Nat) =>
      src.getNibble (src.byteAlignedNibbles - src.fieldLength + i : Nat)) = .ok src.significantDigits := by
    apply mapM_ok
    intro i member
    rw [List.mem_range] at member
    exact BcdOperand.getNibble_eq (src.nibble_inside (by omega))
  have body : bcdShde dst src = (src.decodeSign >>= fun srcSign =>
      (List.range (min (src.fieldLength - 1) (bcdMaxNibbles + 2))).mapM (fun (i : Nat) =>
        src.getNibble (src.byteAlignedNibbles - src.fieldLength + i : Nat)) >>= fun digits =>
      storeShifted dst (bcdShiftDigits digits ((src.decimalPoint : Int) - dst.decimalPoint) dst.roundingOn)
        (dst.outSign srcSign)) := by
    rw [bcdShde, if_neg nonempty]
    rfl
  rw [body, src.decodeSign_sign, min_eq_left capacity, loaded, ← BcdOperand.outSign_shiftedSign]
  rfl

theorem storeShifted_packed (nonempty : dst.fieldLength ≠ 0) {work : List Nat} (all : Digits 10 work) {signNibble : Nat}
    (small : signNibble < 16) : ∃ result, storeShifted dst work signNibble =
        .ok (some (result, decide (10 ^ (dst.fieldLength - 1) ≤ numeral 10 work))) ∧
      Packed dst (numeral 10 work) signNibble result := by
  have aligned := dst.byteAlignedNibbles_pos nonempty
  have inside := dst.nibble_inside (i := dst.byteAlignedNibbles - 1) (by omega)
  have cast : ((dst.byteAlignedNibbles : Int) - 1) = ((dst.byteAlignedNibbles - 1 : Nat) : Int) := by omega
  obtain ⟨filled, done, same, read⟩ := BcdOperand.fillNibbles_raw work (dst.byteAlignedNibbles - 1) dst (by omega)
  have skew := same.skew
  have overflow : ((work.take (work.length - (dst.fieldLength - 1))).any (· ≠ 0)) =
      decide (10 ^ (dst.fieldLength - 1) ≤ numeral 10 work) := by
    rw [Bool.eq_iff_iff, decide_eq_true_iff, numeral_reaches (by decide) all, List.drop_reverse]
    simp
  refine ⟨filled.withNibble (dst.byteAlignedNibbles - 1) signNibble, ?_, packed_of_raw nonempty all
    ((filled.withNibble_sameDescriptor _ _).trans same) fun p => ?_⟩
  · rw [storeShifted, done]
    change (filled.setNibble ((dst.byteAlignedNibbles : Int) - 1) signNibble >>= _) = _
    rw [cast, BcdOperand.setNibble_eq (by omega), ← overflow]
    rfl
  · rw [BcdOperand.rawNibble_withNibble filled (by omega), skew, read]
    by_cases last : p = dst.byteAlignedNibbles - 1 + 2 * dst.skew
    · rw [if_pos last, if_pos last]
      omega
    · rw [if_neg last, if_neg last]

/-- A shift stores the low digits of the shifted number. -/
theorem bcdShde_packed (nonempty : dst.fieldLength ≠ 0) (decimal : src.SignificantDecimal) {m : Nat}
    (shifted : m = shiftedNumber src.significand ((src.decimalPoint : Int) - dst.decimalPoint) dst.roundingOn) :
    ∃ result, bcdShde dst src = .ok (some (result, decide (10 ^ (dst.fieldLength - 1) ≤ m))) ∧
      Packed dst m (dst.shiftedSign src) result := by
  have short := src.fieldLength_le
  have point := decimalPoint_le dst
  have length : src.significantDigits.length = src.fieldLength - 1 := by
    rw [BcdOperand.significantDigits, List.length_map, List.length_range]
  have small : dst.shiftedSign src < 16 := by
    unfold BcdOperand.shiftedSign
    split
    · decide
    · split <;> decide
  obtain ⟨all, number⟩ := bcdShiftDigits_spec decimal.digits (by omega)
    (show (-31 : Int) ≤ (src.decimalPoint : Int) - dst.decimalPoint by omega) dst.roundingOn
  have exact : numeral 10 (shiftedDigits dst src) = m := number.trans shifted.symm
  rw [bcdShde_loaded nonempty, ← exact]
  exact storeShifted_packed nonempty all small

end ShiftedField

end Nd100x
