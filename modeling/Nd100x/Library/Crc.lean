import Mathlib.Data.BitVec
import Nd100x.Library.BitStream

namespace Nd100x.Library

/-- A table-driven checksum of sixteen bits takes its bytes at the low end. -/
def crcStep (table : BitVec 8 → BitVec 16) (crc : BitVec 16) (byte : BitVec 8) : BitVec 16 :=
  (crc >>> 8) ^^^ table (crc.setWidth 8 ^^^ byte)

def crcBytes (table : BitVec 8 → BitVec 16) (crc : BitVec 16) (bytes : List (BitVec 8)) :
    BitVec 16 :=
  bytes.foldl (crcStep table) crc

/-- The check bytes are sent low byte first. -/
def checkBytes (fcs : BitVec 16) : List (BitVec 8) := [fcs.setWidth 8, (fcs >>> 8).setWidth 8]

section Crc

variable (table : BitVec 8 → BitVec 16)

@[simp] theorem crcBytes_nil (crc : BitVec 16) : crcBytes table crc [] = crc := rfl

@[simp] theorem crcBytes_cons (crc : BitVec 16) (byte : BitVec 8) (bytes : List (BitVec 8)) :
    crcBytes table crc (byte :: bytes) = crcBytes table (crcStep table crc byte) bytes := rfl

end Crc

theorem xor_xor_cancel (x mask : BitVec 8) : x ^^^ (x ^^^ mask) = mask := by
  rw [← BitVec.xor_assoc, BitVec.xor_self, BitVec.zero_xor]

theorem shiftRight_shiftRight_eight (x : BitVec 16) : x >>> 8 >>> 8 = 0#16 := by
  rw [← BitVec.shiftRight_add]
  exact BitVec.ushiftRight_eq_zero (Nat.le_refl 16)

section Residue

variable (table : BitVec 8 → BitVec 16) (crc mask : BitVec 16)

/-- The low check byte cancels the low half of the checksum. -/
theorem crcStep_low :
    crcStep table crc ((crc ^^^ mask).setWidth 8) = (crc >>> 8) ^^^ table (mask.setWidth 8) := by
  rw [crcStep, BitVec.setWidth_xor, xor_xor_cancel]

/-- The high check byte cancels the other half. -/
theorem crcStep_high (entry : BitVec 16) :
    crcStep table ((crc >>> 8) ^^^ entry) (((crc ^^^ mask) >>> 8).setWidth 8) =
      (entry >>> 8) ^^^ table (entry.setWidth 8 ^^^ (mask >>> 8).setWidth 8) := by
  have cancel : ((crc >>> 8) ^^^ entry).setWidth 8 ^^^ ((crc ^^^ mask) >>> 8).setWidth 8 =
      entry.setWidth 8 ^^^ (mask >>> 8).setWidth 8 := by
    rw [BitVec.ushiftRight_xor_distrib, BitVec.setWidth_xor, BitVec.setWidth_xor,
      BitVec.xor_comm ((crc >>> 8).setWidth 8) (entry.setWidth 8), BitVec.xor_assoc,
      xor_xor_cancel]
  rw [crcStep, cancel, BitVec.ushiftRight_xor_distrib, shiftRight_shiftRight_eight,
    BitVec.zero_xor]

/-- The checksum after its own masked check bytes depends on the mask only. -/
theorem crcBytes_checkBytes :
    crcBytes table crc (checkBytes (crc ^^^ mask)) = crcBytes table 0#16 (checkBytes mask) := by
  have masked : checkBytes mask = checkBytes (0#16 ^^^ mask) := by rw [BitVec.zero_xor]
  rw [masked]
  simp only [checkBytes, crcBytes_cons, crcBytes_nil, crcStep_low, crcStep_high]

end Residue

variable {width : Nat}

/-- The register takes one bit at its low end. -/
def crcBit (polynomial register : BitVec width) (bit : Bool) : BitVec width :=
  (register >>> 1) ^^^ if register.getLsbD 0 = bit then 0 else polynomial

def crcBits (polynomial : BitVec width) (register : BitVec width) (bits : List Bool) :
    BitVec width :=
  bits.foldl (crcBit polynomial) register

/-- A byte that was added to the register is shifted out of it. -/
def crcShift (polynomial : BitVec width) : Nat → BitVec width → BitVec width
  | 0, register => register
  | shifts + 1, register => crcShift polynomial shifts (crcBit polynomial register false)

theorem getLsbD_ofNat_zero (value : Nat) (some_ : 0 < width) :
    (BitVec.ofNat width value).getLsbD 0 = decide (value % 2 = 1) := by
  rw [BitVec.getLsbD_ofNat, decide_eq_true some_, Bool.true_and, Nat.testBit_zero]

theorem ofNat_shiftRight_one {value : Nat} (small : value < 2 ^ width) :
    BitVec.ofNat width value >>> 1 = BitVec.ofNat width (value / 2) := by
  apply BitVec.eq_of_toNat_eq
  rw [BitVec.toNat_ushiftRight, BitVec.toNat_ofNat, BitVec.toNat_ofNat, Nat.mod_eq_of_lt small,
    Nat.mod_eq_of_lt (by omega), Nat.shiftRight_eq_div_pow, Nat.pow_one]

theorem crcBit_xor (polynomial register : BitVec width) {value : Nat} (some_ : 0 < width)
    (small : value < 2 ^ width) :
    crcBit polynomial (register ^^^ BitVec.ofNat width value) false =
      crcBit polynomial register (decide (value % 2 = 1)) ^^^ BitVec.ofNat width (value / 2) := by
  rw [crcBit, crcBit, BitVec.getLsbD_xor, getLsbD_ofNat_zero value some_,
    BitVec.ushiftRight_xor_distrib, ofNat_shiftRight_one small, BitVec.xor_assoc,
    BitVec.xor_comm (BitVec.ofNat width (value / 2)), ← BitVec.xor_assoc]
  congr 2
  cases register.getLsbD 0 <;> cases decide (value % 2 = 1) <;> rfl

/-- Shifting the added bits out is the same as taking them one by one. -/
theorem crcShift_xor (polynomial register : BitVec width) {shifts value : Nat} (some_ : 0 < width)
    (inside : shifts ≤ width) (small : value < 2 ^ shifts) :
    crcShift polynomial shifts (register ^^^ BitVec.ofNat width value) =
      crcBits polynomial register (natBits shifts value) := by
  induction shifts generalizing register value with
  | zero =>
    rw [Nat.pow_zero, Nat.lt_one_iff] at small
    rw [small, crcShift]
    exact BitVec.xor_zero
  | succ shifts ih =>
    have large : 2 ^ (shifts + 1) ≤ 2 ^ width := Nat.pow_le_pow_right (by decide) inside
    rw [crcShift, crcBit_xor polynomial register some_ (small.trans_le large),
      ih _ (by omega) (by rw [Nat.pow_succ] at small; omega), natBits, crcBits,
      crcBits, List.foldl_cons]

section Linear

variable {polynomial first second register : BitVec width}

theorem crcBit_xor_xor (left right : Bool) :
    crcBit polynomial (first ^^^ second) (left ^^ right) =
      crcBit polynomial first left ^^^ crcBit polynomial second right := by
  have swap (a b c d : BitVec width) : a ^^^ c ^^^ (b ^^^ d) = a ^^^ b ^^^ (c ^^^ d) := by
    rw [BitVec.xor_assoc, ← BitVec.xor_assoc c, BitVec.xor_comm c b, BitVec.xor_assoc,
      ← BitVec.xor_assoc a]
  rw [crcBit, crcBit, crcBit, BitVec.ushiftRight_xor_distrib, BitVec.getLsbD_xor, swap]
  congr 1
  cases first.getLsbD 0 <;> cases second.getLsbD 0 <;> cases left <;> cases right <;>
    simp

/-- The checksum of a difference is the difference of the checksums. -/
theorem crcBits_xor {left right : List Bool} (same : left.length = right.length) :
    crcBits polynomial (first ^^^ second) (List.zipWith xor left right) =
      crcBits polynomial first left ^^^ crcBits polynomial second right := by
  induction left generalizing first second right with
  | nil =>
    obtain rfl := List.length_eq_zero_iff.mp same.symm
    rfl
  | cons bit left ih =>
    obtain ⟨other, right, rfl⟩ :=
      List.exists_cons_of_length_pos (l := right) (by rw [← same]; simp)
    change crcBits polynomial (crcBit polynomial (first ^^^ second) (bit ^^ other))
      (List.zipWith xor left right) = _
    rw [crcBit_xor_xor, ih (Nat.succ.inj same)]
    rfl

theorem crcBits_append (register : BitVec width) (left right : List Bool) :
    crcBits polynomial register (left ++ right) =
      crcBits polynomial (crcBits polynomial register left) right :=
  List.foldl_append

theorem crcShift_eq (register : BitVec width) (shifts : Nat) :
    crcShift polynomial shifts register =
      crcBits polynomial register (List.replicate shifts false) := by
  induction shifts generalizing register with
  | zero => rfl
  | succ shifts ih =>
    rw [crcShift, ih, List.replicate_succ]
    rfl

theorem crcShift_linear (shifts : Nat) : crcShift polynomial shifts (first ^^^ second) =
    crcShift polynomial shifts first ^^^ crcShift polynomial shifts second := by
  have silent : List.zipWith xor (List.replicate shifts false) (List.replicate shifts false) =
      List.replicate shifts false := by
    rw [List.zipWith_replicate, Nat.min_self]
    rfl
  rw [crcShift_eq, crcShift_eq, crcShift_eq, ← crcBits_xor rfl, silent]

/-- Bits above the shift are moved down. -/
theorem crcShift_high {shifts : Nat} (clear : ∀ place < shifts, register.getLsbD place = false) :
    crcShift polynomial shifts register = register >>> shifts := by
  induction shifts generalizing register with
  | zero => rfl
  | succ shifts ih =>
    have step : crcBit polynomial register false = register >>> 1 := by
      rw [crcBit, clear 0 (Nat.succ_pos _), if_pos rfl]
      exact BitVec.xor_zero
    rw [crcShift, step, ih fun place below => ?_, ← BitVec.shiftRight_add,
      Nat.add_comm]
    rw [BitVec.getLsbD_ushiftRight]
    exact clear _ (by omega)

end Linear

section Burst

variable {polynomial register : BitVec width}

/-- A shift loses nothing where the polynomial has its highest place. -/
theorem crcBit_ne_zero (top : polynomial.msb = true) (some_ : register ≠ 0) :
    crcBit polynomial register false ≠ 0 := by
  intro zero
  rw [crcBit] at zero
  cases low : register.getLsbD 0 with
  | true =>
    rw [low, if_neg (by decide)] at zero
    have same : register >>> 1 = polynomial := BitVec.xor_eq_zero_iff.mp zero
    have high := congrArg BitVec.msb same
    rw [top, BitVec.msb_ushiftRight] at high
    simp at high
  | false =>
    rw [low, if_pos rfl] at zero
    apply some_
    apply BitVec.eq_of_getLsbD_eq
    intro place inside
    cases place with
    | zero => simpa using low
    | succ place =>
      have bit := congrArg (fun word => word.getLsbD place) zero
      simpa [Nat.add_comm] using bit

theorem crcShift_ne_zero (top : polynomial.msb = true) (some_ : register ≠ 0) (shifts : Nat) :
    crcShift polynomial shifts register ≠ 0 := by
  induction shifts generalizing register with
  | zero => exact some_
  | succ shifts ih => exact ih (crcBit_ne_zero top some_)

theorem crcShift_zero (shifts : Nat) : crcShift polynomial shifts 0 = 0 := by
  have high := @crcShift_high width polynomial 0 shifts fun place _ => by simp
  rw [high]
  simp

/-- A burst that is not wider than the register leaves a remainder. -/
theorem crcBits_burst (top : polynomial.msb = true) {burst : List Bool}
    (short : burst.length ≤ width) (some_ : true ∈ burst) (before after : Nat) :
    crcBits polynomial 0
      (List.replicate before false ++ burst ++ List.replicate after false) ≠ 0 := by
  have wide : 0 < width := lt_of_lt_of_le (List.length_pos_of_mem some_) short
  have value : number burst < 2 ^ burst.length := by
    rw [← valueOf_reverse, ← List.length_reverse]
    exact valueOf_lt _
  have positive : number burst ≠ 0 := number_ne_zero some_
  have fits : number burst < 2 ^ width :=
    lt_of_lt_of_le value (Nat.pow_le_pow_right (by decide) short)
  rw [crcBits_append, crcBits_append, ← crcShift_eq, ← crcShift_eq, crcShift_zero]
  have taken := crcShift_xor polynomial 0 wide short value
  rw [natBits_number] at taken
  have plain : 0 ^^^ BitVec.ofNat width (number burst) = BitVec.ofNat width (number burst) :=
    BitVec.zero_xor
  rw [← taken, plain]
  apply crcShift_ne_zero top
  apply crcShift_ne_zero top
  intro zero
  have number := congrArg BitVec.toNat zero
  rw [BitVec.toNat_ofNat, Nat.mod_eq_of_lt fits] at number
  exact positive number

end Burst

section Table

variable {table : BitVec 8 → BitVec 16} {polynomial : BitVec 16}

/-- A table of eight shifts takes the eight bits of a byte at once. -/
theorem crcStep_eq_crcBits
    (entries : ∀ index, table index = crcShift polynomial 8 (index.setWidth 16))
    (crc : BitVec 16) (byte : BitVec 8) :
    crcStep table crc byte = crcBits polynomial crc (natBits 8 byte.toNat) := by
  have taken := crcShift_xor polynomial crc (by decide) (by decide : 8 ≤ 16) byte.isLt
  have value : BitVec.ofNat 16 byte.toNat = byte.setWidth 16 := BitVec.ofNat_toNat 16 byte
  rw [value] at taken
  have parts : crc ^^^ byte.setWidth 16 =
      crc >>> 8 <<< 8 ^^^ (crc.setWidth 8 ^^^ byte).setWidth 16 := by
    apply BitVec.eq_of_getLsbD_eq
    intro place inside
    by_cases low : place < 8
    · simp [low, inside]
    · have high : 8 + (place - 8) = place := by omega
      simp [low, inside, high]
  have high : (crc >>> 8 <<< 8) >>> 8 = crc >>> 8 := by
    apply BitVec.eq_of_getLsbD_eq
    intro place inside
    by_cases low : 8 + place < 16
    · simp [low]
    · simp [low, BitVec.getLsbD_of_ge crc (8 + place) (by omega)]
  rw [← taken, parts, crcShift_linear, ← entries, crcShift_high, high, crcStep]
  intro place low
  simp [low]

theorem crcBytes_eq_crcBits
    (entries : ∀ index, table index = crcShift polynomial 8 (index.setWidth 16))
    (crc : BitVec 16) (bytes : List (BitVec 8)) :
    crcBytes table crc bytes = crcBits polynomial crc (bytesBits bytes) := by
  induction bytes generalizing crc with
  | nil => rfl
  | cons byte bytes ih =>
    rw [crcBytes_cons, ih, crcStep_eq_crcBits entries, bytesBits_cons,
      crcBits_append]

end Table

section Window

/-- The bits that are set lie within the next places after the start. -/
structure IsBurst (width : Nat) (bits : List Bool) : Prop where
  some_ : true ∈ bits
  window : ∃ start, ∀ place, bits[place]? = some true → start ≤ place ∧ place < start + width

theorem silent_eq_replicate {bits : List Bool} (silent : true ∉ bits) :
    bits = List.replicate bits.length false := by
  rw [List.eq_replicate_iff]
  refine ⟨rfl, fun bit inside => ?_⟩
  cases bit with
  | false => rfl
  | true => exact absurd inside silent

theorem IsBurst.split {width : Nat} {bits : List Bool} (isBurst : IsBurst width bits) :
    ∃ before burst after, bits =
        List.replicate before false ++ burst ++ List.replicate after false ∧
      burst.length ≤ width ∧ true ∈ burst := by
  obtain ⟨start, window⟩ := isBurst.window
  have first : true ∉ bits.take start := by
    intro inside
    obtain ⟨place, below, bit⟩ := List.mem_iff_getElem.mp inside
    rw [List.length_take] at below
    rw [List.getElem_take] at bit
    have := (window place (by rw [List.getElem?_eq_getElem (by omega), bit])).1
    omega
  have last : true ∉ bits.drop (start + width) := by
    intro inside
    obtain ⟨place, below, bit⟩ := List.mem_iff_getElem.mp inside
    rw [List.length_drop] at below
    rw [List.getElem_drop] at bit
    have := (window (start + width + place)
      (by rw [List.getElem?_eq_getElem (by omega), bit])).2
    omega
  have parts : bits =
      bits.take start ++ (bits.drop start).take width ++ bits.drop (start + width) := by
    rw [List.append_assoc, ← List.drop_drop, List.take_append_drop, List.take_append_drop]
  have middle : true ∈ (bits.drop start).take width := by
    have inside := isBurst.some_
    rw [parts, List.mem_append, List.mem_append] at inside
    rcases inside with (early | inside) | late
    · exact absurd early first
    · exact inside
    · exact absurd late last
  refine ⟨(bits.take start).length, (bits.drop start).take width,
    (bits.drop (start + width)).length, ?_, ?_, middle⟩
  · rw [← silent_eq_replicate first, ← silent_eq_replicate last]
    exact parts
  · rw [List.length_take]
    exact Nat.min_le_left _ _

end Window

end Nd100x.Library
