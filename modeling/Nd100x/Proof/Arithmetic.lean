import Nd100x.Flat.Simulation
import Nd100x.Library.SignMagnitude
import Nd100x.Machine.Arithmetic
import Nd100x.Proof.DecimalIndices

namespace Nd100x

open Library Instr

variable {World : Type}

namespace CpuState

/-- The value that a register field selects. -/
def fieldValue (s : CpuState World) (field : RegNum) : Word :=
  if field ≠ 0 then s.getReg field else 0

/-- A and D hold one 32-bit integer. -/
def doubleAccumulator (s : CpuState World) : BitVec 32 := s.getReg RegNum.a ++ s.getReg RegNum.d

def errorIndicator (s : CpuState World) : Bool := s.cpuGetbit RegNum.sts Sts.errorIndicator

end CpuState

/-- The quotient does not fit the A register. -/
def Overflows (dividend divisor : Int) : Prop :=
  divisor = 0 ∨ dividend.tdiv divisor < -32768 ∨ 32767 < dividend.tdiv divisor

instance (dividend divisor : Int) : Decidable (Overflows dividend divisor) :=
  inferInstanceAs (Decidable (_ ∨ _ ∨ _))

section Words

/-- The high and the low half of a result go to A and D. -/
theorem halves_append (result : BitVec 32) :
    (result.sshiftRight 16).setWidth 16 ++ result.setWidth 16 = result := by
  apply BitVec.eq_of_getLsbD_eq
  intro bit inside
  rw [BitVec.getLsbD_append, BitVec.getLsbD_setWidth, BitVec.getLsbD_setWidth,
    BitVec.getLsbD_sshiftRight]
  by_cases low : bit < 16
  · simp [low]
  · have shifted : 16 + (bit - 16) = bit := by omega
    have top : bit - 16 < 16 := by omega
    have within : ¬ 32 ≤ bit - 16 := by omega
    simp [low, shifted, top, within, inside]

theorem joined_append (a d : Word) : (a.setWidth 32 <<< 16) ||| d.setWidth 32 = a ++ d := by
  apply BitVec.eq_of_getLsbD_eq
  intro bit inside
  rw [BitVec.getLsbD_or, BitVec.getLsbD_shiftLeft, BitVec.getLsbD_setWidth, BitVec.getLsbD_setWidth,
    BitVec.getLsbD_append]
  by_cases low : bit < 16
  · simp [low, inside]
  · have top : bit - 16 < 32 := by omega
    have none : d.getLsbD bit = false := BitVec.getLsbD_of_ge d bit (by omega)
    simp [low, inside, top, none]

theorem minusCnt_eq_one (first second : Bool) :
    first.toNat + second.toNat = 1 ↔ (first ^^ second) = true := by
  cases first <;> cases second <;> decide

/-- The magnitude of a sixteen-bit operand in a C integer. -/
theorem toNat_operandMagnitude (operand : Word) :
    (if operand.slt 0 then -operand.signExtend 32 else operand.signExtend 32).toNat =
      operand.toInt.natAbs := by
  have extended : (operand.signExtend 32).toInt = operand.toInt :=
    BitVec.toInt_signExtend_of_le (by decide)
  have sign : operand.slt 0 = (operand.signExtend 32).slt 0 := by
    rw [slt_zero_iff, slt_zero_iff, extended]
  rw [sign, toNat_magnitude, extended]

theorem natAbs_word (operand : Word) : operand.toInt.natAbs ≤ 2 ^ 15 := by
  have lower := operand.le_toInt
  have upper := operand.toInt_lt
  omega

/-- The signed product of the magnitudes is the product. -/
theorem signed_product (source dest : Word) {absSrc absDst : BitVec 32}
    (left : absSrc.toNat = source.toInt.natAbs) (right : absDst.toNat = dest.toInt.natAbs) :
    (signed (source.slt 0 ^^ dest.slt 0) (absSrc * absDst)).toInt = source.toInt * dest.toInt := by
  have small : source.toInt.natAbs * dest.toInt.natAbs ≤ 2 ^ 15 * 2 ^ 15 :=
    Nat.mul_le_mul (natAbs_word source) (natAbs_word dest)
  have magnitude : (absSrc * absDst).toNat = source.toInt.natAbs * dest.toInt.natAbs := by
    rw [BitVec.toNat_mul, left, right, Nat.mod_eq_of_lt (by omega)]
  rw [toInt_signed (by rw [magnitude]; split <;> omega), magnitude, mul_eq_magnitudes, slt_zero_iff,
    slt_zero_iff]

theorem toInt_setWidth_of_fits {wide : BitVec 32} (lower : -32768 ≤ wide.toInt)
    (upper : wide.toInt ≤ 32767) : (wide.setWidth 16).toInt = wide.toInt := by
  have bound := wide.isLt
  rw [BitVec.toInt_eq_toNat_cond] at lower upper ⊢
  rw [BitVec.toInt_eq_toNat_cond, BitVec.toNat_setWidth]
  split at lower <;> split <;> omega

section Division

variable {dividend dividendMag : BitVec 32} {divisor divisorMag : Word}

variable (divisor) in
theorem toNat_divisorMag (found : divisorMag =
      (if divisor.slt 0 then -divisor.signExtend 32 else divisor.signExtend 32).setWidth 16) :
    divisorMag.toNat = divisor.toInt.natAbs := by
  have bound := natAbs_word divisor
  rw [found, BitVec.toNat_setWidth, toNat_operandMagnitude, Nat.mod_eq_of_lt (by omega)]

theorem toNat_high (word : BitVec 32) : ((word >>> 16).setWidth 16 : Word).toNat = word.toNat / 2 ^ 16 := by
  have bound := word.isLt
  rw [BitVec.toNat_setWidth, BitVec.toNat_ushiftRight, Nat.shiftRight_eq_div_pow,
    Nat.mod_eq_of_lt (by omega)]

/-- The test on the high word finds the quotients of more than sixteen bits. -/
theorem highTest_iff (left : dividendMag.toNat = dividend.toInt.natAbs)
    (right : divisorMag.toNat = divisor.toInt.natAbs) :
    (divisorMag = 0 ∨ divisorMag ≤ ((dividendMag >>> 16).setWidth 16 : Word)) ↔
      divisor.toInt = 0 ∨ 2 ^ 16 ≤ dividend.toInt.natAbs / divisor.toInt.natAbs := by
  have zero : divisorMag = 0 ↔ divisor.toInt = 0 := by
    rw [← Int.natAbs_eq_zero, ← right]
    exact ⟨fun same => by rw [same]; rfl, fun same => BitVec.eq_of_toNat_eq same⟩
  rw [BitVec.le_def, toNat_high, left, right, zero]
  by_cases none : divisor.toInt = 0
  · simp [none]
  · rw [or_iff_right none, or_iff_right none, two_pow_le_div_iff 16 (by omega)]

theorem overflows_of_wide (wide : divisor.toInt = 0 ∨
      2 ^ 16 ≤ dividend.toInt.natAbs / divisor.toInt.natAbs) :
    Overflows dividend.toInt divisor.toInt := by
  rcases wide with none | wide
  · exact .inl none
  · refine .inr ?_
    rw [tdiv_eq_magnitudes]
    split <;> omega

/-- The sign test after the division finds the remaining overflows. -/
theorem signTest_iff {quotientMag : BitVec 32}
    (quotient : quotientMag.toNat = dividend.toInt.natAbs / divisor.toInt.natAbs)
    (some : divisor.toInt ≠ 0) :
    (if dividend.slt 0 ^^ divisor.slt 0 then 0x8000 < quotientMag else 0x7FFF < quotientMag) ↔
      Overflows dividend.toInt divisor.toInt := by
  rw [Overflows, or_iff_right some, tdiv_eq_magnitudes, slt_zero_iff, slt_zero_iff]
  split
  · rw [BitVec.lt_def, quotient]
    change 32768 < _ ↔ _
    omega
  · rw [BitVec.lt_def, quotient]
    change 32767 < _ ↔ _
    omega

theorem signed_quotient {quotientMag : BitVec 32}
    (quotient : quotientMag.toNat = dividend.toInt.natAbs / divisor.toInt.natAbs)
    (fits : ¬ Overflows dividend.toInt divisor.toInt) :
    ((signed (dividend.slt 0 ^^ divisor.slt 0) quotientMag).setWidth 16).toInt =
      dividend.toInt.tdiv divisor.toInt := by
  have range := fits
  rw [Overflows, tdiv_eq_magnitudes] at range
  have value : (signed (dividend.slt 0 ^^ divisor.slt 0) quotientMag).toInt =
      dividend.toInt.tdiv divisor.toInt := by
    rw [slt_zero_iff, slt_zero_iff, toInt_signed, quotient, tdiv_eq_magnitudes]
    rw [quotient]
    by_cases different : (decide (dividend.toInt < 0) ^^ decide (divisor.toInt < 0)) = true
    · rw [if_pos different] at range ⊢
      omega
    · rw [if_neg different] at range ⊢
      omega
  rw [← value]
  rw [Overflows, ← value] at fits
  exact toInt_setWidth_of_fits (by omega) (by omega)

theorem signed_remainder {remainderMag : BitVec 32}
    (remainder : remainderMag.toNat = dividend.toInt.natAbs % divisor.toInt.natAbs)
    (some : divisor.toInt ≠ 0) :
    ((signed (dividend.slt 0) remainderMag).setWidth 16).toInt =
      dividend.toInt.tmod divisor.toInt := by
  have bound := natAbs_word divisor
  have small : dividend.toInt.natAbs % divisor.toInt.natAbs < divisor.toInt.natAbs :=
    Nat.mod_lt _ (by omega)
  have value : (signed (dividend.slt 0) remainderMag).toInt = dividend.toInt.tmod divisor.toInt := by
    rw [toInt_signed (by rw [remainder]; split <;> omega), remainder, tmod_eq_magnitudes, slt_zero_iff]
    simp only [decide_eq_true_eq]
  have magnitude := Int.natAbs_tmod dividend.toInt divisor.toInt
  rw [← value] at magnitude ⊢
  exact toInt_setWidth_of_fits (by omega) (by omega)

end Division

end Words

section Registers

variable (s : CpuState World)

theorem errorIndicator_eq : s.errorIndicator = (s.getReg RegNum.sts).getLsbD Sts.errorIndicator :=
  getBit_flat s Indicator.errorIndicator

theorem errorIndicator_setReg (r : GenReg) (value : Word) :
    (s.setReg r.num value).errorIndicator = s.errorIndicator := by
  rw [errorIndicator_eq, errorIndicator_eq, s.getReg_setReg_of_ne value r.notStatus.symm]

theorem getReg_cpuSetbit (bit : Indicator) (value : Bool) :
    (s.cpuSetbit RegNum.sts bit value).getReg =
      (s.setReg RegNum.sts (CpuState.putBit (s.getReg RegNum.sts) bit value)).getReg := by
  have low : ¬ 7 < bit.val := by omega
  rw [CpuState.cpuSetbit, if_neg fun high => low high.2]
  dsimp only
  split <;> rfl

theorem getLsbD_putBit (word : Word) {bit other : Nat} (value : Bool) (inside : other < 16) :
    (CpuState.putBit word bit value).getLsbD other = if other = bit then value else word.getLsbD other := by
  unfold CpuState.putBit
  cases value <;> simp [inside] <;> grind

/-- An indicator other than Z changes no register and keeps Z. -/
structure SameRegisters (s t : CpuState World) : Prop where
  registers : ∀ r, r ≠ RegNum.sts → t.getReg r = s.getReg r
  errorIndicator : t.errorIndicator = s.errorIndicator

theorem SameRegisters.refl : SameRegisters s s := ⟨fun _ _ => rfl, rfl⟩

variable {s}

theorem SameRegisters.trans {t u : CpuState World} (first : SameRegisters s t)
    (second : SameRegisters t u) : SameRegisters s u :=
  ⟨fun r general => (second.registers r general).trans (first.registers r general),
    second.errorIndicator.trans first.errorIndicator⟩

theorem sameRegisters_setBit (s : CpuState World) {bit : Indicator} (value : Bool)
    (other : bit ≠ Indicator.errorIndicator) :
    SameRegisters s (s.cpuSetbit RegNum.sts bit value) where
  registers r general := by
    rw [getReg_cpuSetbit, s.getReg_setReg_of_ne _ general]
  errorIndicator := by
    have apart : Sts.errorIndicator ≠ bit.val := fun same => other (Fin.ext same.symm)
    rw [errorIndicator_eq, errorIndicator_eq, getReg_cpuSetbit, CpuState.getReg_setReg,
      getLsbD_putBit _ _ (by decide), if_neg apart]

/-- A set Z is read back. -/
theorem errorIndicator_set (s : CpuState World) :
    (s.cpuSetbit RegNum.sts Indicator.errorIndicator true).errorIndicator = true := by
  rw [errorIndicator_eq, getReg_cpuSetbit, CpuState.getReg_setReg, getLsbD_putBit _ _ (by decide)]
  rfl

end Registers

section Machine

variable (config : Config World) (s : CpuState World)

theorem exec_getReg (r : RegNum) : exec config (Instr.getReg r) s = .ok (s.getReg r) s := rfl

theorem exec_setReg (r : GenReg) (value : Word) :
    exec config (Instr.setReg r value) s = .ok () (s.setReg r.num value) := rfl

theorem exec_setBit (bit : Indicator) (value : Bool) :
    exec config (Instr.setBit bit value) s = .ok () (s.cpuSetbit RegNum.sts bit value) := rfl

theorem exec_registerOperand (field : RegNum) :
    exec config (registerOperand field) s = .ok (s.fieldValue field) s := by
  unfold registerOperand CpuState.fieldValue
  split <;> rfl

theorem exec_setNegationFlags (lowWord : Word) :
    ∃ t, exec config (setNegationFlags lowWord) s = .ok () t ∧ SameRegisters s t := by
  have carry := sameRegisters_setBit s (lowWord == 0) (show Indicator.carry ≠ _ by decide)
  have dynamic := sameRegisters_setBit (s.cpuSetbit RegNum.sts Indicator.carry (lowWord == 0))
    (lowWord == 0x8000) (show Indicator.dynamicOverflow ≠ _ by decide)
  rw [setNegationFlags, exec_bind, Cpu.bind_ok (exec_setBit config s _ _), exec_bind,
    Cpu.bind_ok (exec_setBit config _ _ _)]
  split
  · exact ⟨_, rfl, (carry.trans dynamic).trans
      (sameRegisters_setBit _ true (show Indicator.staticOverflow ≠ _ by decide))⟩
  · exact ⟨_, rfl, carry.trans dynamic⟩

/-- The state after a result has gone to A and D. -/
def CpuState.putDouble (s : CpuState World) (a d : Word) : CpuState World :=
  (s.setReg RegNum.a a).setReg RegNum.d d

variable (a d : Word)

@[simp] theorem getReg_a_putDouble : (s.putDouble a d).getReg RegNum.a = a := by
  rw [CpuState.putDouble, CpuState.getReg_setReg_of_ne _ _ (by decide), CpuState.getReg_setReg]

@[simp] theorem getReg_d_putDouble : (s.putDouble a d).getReg RegNum.d = d := by
  rw [CpuState.putDouble, CpuState.getReg_setReg]

theorem getReg_putDouble {r : RegNum} (notA : r ≠ RegNum.a) (notD : r ≠ RegNum.d) :
    (s.putDouble a d).getReg r = s.getReg r := by
  rw [CpuState.putDouble, CpuState.getReg_setReg_of_ne _ _ notD, CpuState.getReg_setReg_of_ne _ _ notA]

@[simp] theorem errorIndicator_putDouble : (s.putDouble a d).errorIndicator = s.errorIndicator := by
  rw [CpuState.putDouble]
  exact (errorIndicator_setReg _ GenReg.d d).trans (errorIndicator_setReg s GenReg.a a)

theorem exec_putDouble {B : Type} (next : Unit → Instr B) :
    exec config (Instr.setReg GenReg.a a >>= fun _ => Instr.setReg GenReg.d d >>= next) s =
      exec config (next ()) (s.putDouble a d) := by
  rw [exec_bind, Cpu.bind_ok (exec_setReg config s _ _), exec_bind,
    Cpu.bind_ok (exec_setReg config _ _ _)]
  rfl

/-- The flags of a negation come before the result. -/
theorem exec_negation {B : Type} (negated : Bool) (lowWord : Word) (next : Unit → Instr B) :
    ∃ t, SameRegisters s t ∧
      exec config (if negated then setNegationFlags lowWord >>= next else next ()) s =
        exec config (next ()) t := by
  cases negated with
  | false => exact ⟨s, .refl s, rfl⟩
  | true =>
    obtain ⟨t, done, same⟩ := exec_setNegationFlags config s lowWord
    refine ⟨t, same, ?_⟩
    rw [if_pos rfl, exec_bind, Cpu.bind_ok done]

/-- `RMPY` leaves the product, and keeps the other registers and Z. -/
structure Multiplied (s t : CpuState World) (source dest : Word) : Prop where
  product : t.doubleAccumulator.toInt = source.toInt * dest.toInt
  registers : ∀ r, r ≠ RegNum.sts → r ≠ RegNum.a → r ≠ RegNum.d → t.getReg r = s.getReg r
  errorIndicator : t.errorIndicator = s.errorIndicator

theorem exec_rmpy (instr : Word) :
    ∃ t, exec config (rmpy instr) s = .ok () t ∧
      Multiplied s t (s.fieldValue (sourceField instr)) (s.fieldValue (destField instr)) := by
  have value := signed_product (s.fieldValue (sourceField instr)) (s.fieldValue (destField instr))
    (toNat_operandMagnitude _) (toNat_operandMagnitude _)
  rw [rmpy, exec_bind, Cpu.bind_ok (exec_registerOperand config s _), exec_bind,
    Cpu.bind_ok (exec_registerOperand config s _)]
  simp only [minusCnt_eq_one]
  generalize s.fieldValue (sourceField instr) = source at value ⊢
  generalize s.fieldValue (destField instr) = dest at value ⊢
  generalize (if source.slt 0 then -source.signExtend 32 else source.signExtend 32) *
    (if dest.slt 0 then -dest.signExtend 32 else dest.signExtend 32) = magnitude at value ⊢
  have result : (if source.slt 0 ^^ dest.slt 0 then -magnitude else magnitude) =
      signed (source.slt 0 ^^ dest.slt 0) magnitude := rfl
  rw [result]
  obtain ⟨t, same, ran⟩ := exec_negation config s (source.slt 0 ^^ dest.slt 0)
    (magnitude.setWidth 16) fun _ => do
      setReg GenReg.a (((signed (source.slt 0 ^^ dest.slt 0) magnitude).sshiftRight 16).setWidth 16)
      setReg GenReg.d ((signed (source.slt 0 ^^ dest.slt 0) magnitude).setWidth 16)
  refine ⟨t.putDouble _ _, ran, ?_, fun r general notA notD => ?_, ?_⟩
  · rw [CpuState.doubleAccumulator, getReg_a_putDouble, getReg_d_putDouble, halves_append, value]
  · rw [getReg_putDouble _ _ _ notA notD, same.registers r general]
  · rw [errorIndicator_putDouble, same.errorIndicator]

/-- `RDIV` finds every overflow, and otherwise leaves the quotient and the remainder. -/
structure Divided (s t : CpuState World) (dividend divisor : Int) : Prop where
  errorIndicator : t.errorIndicator = (s.errorIndicator || decide (Overflows dividend divisor))
  quotient : ¬ Overflows dividend divisor → (t.getReg RegNum.a).toInt = dividend.tdiv divisor
  remainder : ¬ Overflows dividend divisor → (t.getReg RegNum.d).toInt = dividend.tmod divisor

variable {config s}

theorem divided_of_overflow {t : CpuState World} {dividend divisor : Int}
    (overflows : Overflows dividend divisor) (set : t.errorIndicator = true) :
    Divided s t dividend divisor where
  errorIndicator := by rw [set, decide_eq_true overflows, Bool.or_true]
  quotient fits := absurd overflows fits
  remainder fits := absurd overflows fits

variable {dividend dividendMag : BitVec 32} {divisor divisorMag : Word}

theorem exec_rdivLoop (left : dividendMag.toNat = dividend.toInt.natAbs)
    (right : divisorMag.toNat = divisor.toInt.natAbs) (some : divisor.toInt ≠ 0) :
    ∃ t, exec config (rdivLoop (dividend.slt 0) (divisor.slt 0) dividendMag divisorMag) s = .ok () t ∧
      Divided s t dividend.toInt divisor.toInt := by
  have wide : (divisorMag.setWidth 32).toNat = divisor.toInt.natAbs := by
    rw [BitVec.toNat_setWidth, Nat.mod_eq_of_lt (by omega), right]
  have quotient : (dividendMag / divisorMag.setWidth 32).toNat =
      dividend.toInt.natAbs / divisor.toInt.natAbs := by rw [BitVec.toNat_udiv, left, wide]
  have remainder : (dividendMag % divisorMag.setWidth 32).toNat =
      dividend.toInt.natAbs % divisor.toInt.natAbs := by rw [BitVec.toNat_umod, left, wide]
  have test := signTest_iff quotient some
  have a := signed_quotient quotient
  have d := signed_remainder remainder some
  rw [rdivLoop, exec_putDouble]
  generalize dividendMag / divisorMag.setWidth 32 = quotientMag at quotient test a ⊢
  generalize dividendMag % divisorMag.setWidth 32 = remainderMag at remainder d ⊢
  have values : s.putDouble ((if dividend.slt 0 ^^ divisor.slt 0 then 0 - quotientMag else quotientMag).setWidth 16)
      ((if dividend.slt 0 then 0 - remainderMag else remainderMag).setWidth 16) =
      s.putDouble ((signed (dividend.slt 0 ^^ divisor.slt 0) quotientMag).setWidth 16)
        ((signed (dividend.slt 0) remainderMag).setWidth 16) := by
    have negate (word : BitVec 32) : 0 - word = -word := BitVec.zero_sub word
    rw [negate, negate]
    rfl
  rw [values]
  by_cases overflows : Overflows dividend.toInt divisor.toInt
  · rw [if_pos (test.mpr overflows)]
    exact ⟨_, exec_setBit config _ _ _, divided_of_overflow overflows (errorIndicator_set _)⟩
  · rw [if_neg fun set => overflows (test.mp set)]
    refine ⟨_, rfl, ?_, fun fits => ?_, fun _ => ?_⟩
    · rw [errorIndicator_putDouble, decide_eq_false overflows, Bool.or_false]
    · rw [getReg_a_putDouble, a fits]
    · rw [getReg_d_putDouble, d]

variable (config s) in
theorem exec_rdivMagnitudes (left : dividendMag.toNat = dividend.toInt.natAbs)
    (right : divisorMag.toNat = divisor.toInt.natAbs) :
    ∃ t, exec config (rdivMagnitudes (dividend.slt 0) (divisor.slt 0) dividendMag divisorMag) s = .ok () t ∧
      Divided s t dividend.toInt divisor.toInt := by
  have test := highTest_iff left right
  rw [rdivMagnitudes]
  by_cases wide : divisor.toInt = 0 ∨ 2 ^ 16 ≤ dividend.toInt.natAbs / divisor.toInt.natAbs
  · rw [if_pos (test.mpr wide), exec_putDouble]
    exact ⟨_, exec_setBit config _ _ _,
      divided_of_overflow (overflows_of_wide wide) (errorIndicator_set _)⟩
  · rw [if_neg fun found => wide (test.mp found)]
    exact exec_rdivLoop left right fun none => wide (.inl none)

theorem exec_rdiv (config : Config World) (s : CpuState World) (instr : Word) :
    ∃ t, exec config (rdiv instr) s = .ok () t ∧
      Divided s t s.doubleAccumulator.toInt (s.fieldValue (sourceField instr)).toInt := by
  have joined : ((s.getReg RegNum.a).setWidth 32 <<< 16) ||| (s.getReg RegNum.d).setWidth 32 =
      s.doubleAccumulator := joined_append _ _
  rw [rdiv, exec_bind, Cpu.bind_ok (exec_getReg config s _), exec_bind,
    Cpu.bind_ok (exec_getReg config s _), exec_bind, Cpu.bind_ok (exec_registerOperand config s _)]
  simp only [joined]
  generalize s.fieldValue (sourceField instr) = divisor
  generalize s.doubleAccumulator = dividend
  obtain ⟨t, same, ran⟩ := exec_negation config s (dividend.slt 0) (s.getReg RegNum.d) fun _ =>
    rdivMagnitudes (dividend.slt 0) (divisor.slt 0) (if dividend.slt 0 then -dividend else dividend)
      ((if divisor.slt 0 then -divisor.signExtend 32 else divisor.signExtend 32).setWidth 16)
  obtain ⟨u, done, divided⟩ := exec_rdivMagnitudes config t (toNat_magnitude dividend)
    (toNat_divisorMag divisor rfl)
  refine ⟨u, ran.trans done, ?_, divided.quotient, divided.remainder⟩
  rw [divided.errorIndicator, same.errorIndicator]

/-- A division that does not overflow is exact, and its remainder follows the dividend. -/
theorem Divided.exact {t : CpuState World} {dividend divisor : Int}
    (divided : Divided s t dividend divisor) (fits : ¬ Overflows dividend divisor) :
    dividend = (t.getReg RegNum.a).toInt * divisor + (t.getReg RegNum.d).toInt ∧
      (t.getReg RegNum.d).toInt.natAbs < divisor.natAbs ∧
      ((t.getReg RegNum.d).toInt = 0 ∨ ((t.getReg RegNum.d).toInt < 0 ↔ dividend < 0)) := by
  have some : divisor ≠ 0 := fun none => fits (.inl none)
  rw [divided.quotient fits, divided.remainder fits]
  refine ⟨?_, ?_, ?_⟩
  · rw [Int.mul_comm]
    exact (Int.mul_tdiv_add_tmod dividend divisor).symm
  · rw [Int.natAbs_tmod]
    exact Nat.mod_lt _ (by omega)
  · rw [tmod_eq_magnitudes]
    split <;> omega

/-- A product divided by its first factor gives the second one back. -/
theorem divided_product {t : CpuState World} {source dest : Word} (some : source ≠ 0)
    (divided : Divided s t (source.toInt * dest.toInt) source.toInt) :
    t.getReg RegNum.a = dest ∧ t.getReg RegNum.d = 0 ∧ t.errorIndicator = s.errorIndicator := by
  have factor : source.toInt ≠ 0 := fun zero => some (BitVec.eq_of_toInt_eq zero)
  have quotient : (source.toInt * dest.toInt).tdiv source.toInt = dest.toInt :=
    Int.mul_tdiv_cancel_left _ factor
  have lower := dest.le_toInt
  have upper := dest.toInt_lt
  have fits : ¬ Overflows (source.toInt * dest.toInt) source.toInt := by
    rw [Overflows, quotient]
    omega
  refine ⟨BitVec.eq_of_toInt_eq ?_, BitVec.eq_of_toInt_eq ?_, ?_⟩
  · rw [divided.quotient fits, quotient]
  · rw [divided.remainder fits, Int.mul_tmod_right]
    rfl
  · rw [divided.errorIndicator, decide_eq_false fits, Bool.or_false]

/-- `RMPY` is exact, `RDIV` is exact where it does not set Z, and it undoes `RMPY`. -/
theorem integerMultiplyDivide (config : Config World) (s : CpuState World) :
    (∀ instr, ∃ t, exec config (rmpy instr) s = .ok () t ∧
      t.doubleAccumulator.toInt =
        (s.fieldValue (sourceField instr)).toInt * (s.fieldValue (destField instr)).toInt) ∧
    (∀ instr dividend divisor, s.doubleAccumulator.toInt = dividend →
      (s.fieldValue (sourceField instr)).toInt = divisor →
      ∃ t, exec config (rdiv instr) s = .ok () t ∧
        t.errorIndicator = (s.errorIndicator || decide (Overflows dividend divisor)) ∧
        (¬ Overflows dividend divisor →
          (t.getReg RegNum.a).toInt = dividend.tdiv divisor ∧
          dividend = (t.getReg RegNum.a).toInt * divisor + (t.getReg RegNum.d).toInt ∧
          (t.getReg RegNum.d).toInt.natAbs < divisor.natAbs ∧
          ((t.getReg RegNum.d).toInt = 0 ∨ ((t.getReg RegNum.d).toInt < 0 ↔ dividend < 0)))) ∧
    ∀ multiply divide t, exec config (rmpy multiply) s = .ok () t →
      (sourceField multiply ≠ RegNum.a → sourceField multiply ≠ RegNum.d →
        t.fieldValue (sourceField multiply) = s.fieldValue (sourceField multiply)) ∧
      (t.fieldValue (sourceField divide) = s.fieldValue (sourceField multiply) →
        s.fieldValue (sourceField multiply) ≠ 0 →
        ∃ u, exec config (rdiv divide) t = .ok () u ∧
          u.getReg RegNum.a = s.fieldValue (destField multiply) ∧ u.getReg RegNum.d = 0 ∧
          u.errorIndicator = s.errorIndicator) := by
  refine ⟨fun instr => ?_, ?_, fun multiply divide t ran => ?_⟩
  · obtain ⟨t, done, multiplied⟩ := exec_rmpy config s instr
    exact ⟨t, done, multiplied.product⟩
  · rintro instr dividend divisor rfl rfl
    obtain ⟨t, done, divided⟩ := exec_rdiv config s instr
    exact ⟨t, done, divided.errorIndicator, fun fits => ⟨divided.quotient fits, divided.exact fits⟩⟩
  · obtain ⟨ended, done, multiplied⟩ := exec_rmpy config s multiply
    cases ran.symm.trans done
    refine ⟨fun notA notD => ?_, fun same some => ?_⟩
    · unfold CpuState.fieldValue
      split
      · next general => exact multiplied.registers _ general notA notD
      · rfl
    · obtain ⟨u, divides, divided⟩ := exec_rdiv config t divide
      rw [multiplied.product, same] at divided
      obtain ⟨quotient, remainder, indicator⟩ := divided_product some divided
      exact ⟨u, divides, quotient, remainder, indicator.trans multiplied.errorIndicator⟩

/-- T holds -32768 and X holds -1. -/
def leastOperand : CpuState Unit :=
  (cpuInit bareMachine ()).putReg fun _ r =>
    if r = RegNum.t then 0x8000 else if r = RegNum.x then 0xFFFF else 0

theorem integerMultiplyDivide_least :
    ∃ t u, exec bareMachine (rmpy 0o141267) leastOperand = .ok () t ∧
      exec bareMachine (rdiv 0o141660) t = .ok () u ∧
      u.getReg RegNum.a = 0xFFFF ∧ u.getReg RegNum.d = 0 := by
  obtain ⟨exact, -, undone⟩ := integerMultiplyDivide bareMachine leastOperand
  obtain ⟨t, multiplied, -⟩ := exact 0o141267
  obtain ⟨kept, undo⟩ := undone 0o141267 0o141660 t multiplied
  obtain ⟨u, divided, quotient, remainder, -⟩ := undo (kept (by decide) (by decide)) (by decide)
  exact ⟨t, u, multiplied, divided, quotient, remainder⟩

end Machine

end Nd100x
