import Nd100x.Machine.Arithmetic
import Nd100x.Proof.Arithmetic

namespace Nd100x

open Library Instr

variable {World : Type}

/-- The integer fits a signed sixteen-bit word. -/
def FitsWord (exact : Int) : Prop := -32768 ≤ exact ∧ exact ≤ 32767

instance (exact : Int) : Decidable (FitsWord exact) := inferInstanceAs (Decidable (_ ∧ _))

section Words

variable (a b : Word) (k : Bool)

/-- The sum of two words and a carry in a C integer. -/
def wideSum : BitVec 32 := a.setWidth 32 + b.setWidth 32 + (BitVec.ofBool k).setWidth 32

theorem toNat_wideSum : (wideSum a b k).toNat = a.toNat + b.toNat + k.toNat := by
  have left := a.isLt
  have right := b.isLt
  have one := k.toNat_lt
  unfold wideSum
  rw [BitVec.toNat_add, BitVec.toNat_add, BitVec.toNat_setWidth, BitVec.toNat_setWidth,
    BitVec.toNat_setWidth, BitVec.toNat_ofBool]
  omega

theorem wideSum_carries : (wideSum a b k >>> 16 != 0) = decide (2 ^ 16 ≤ a.toNat + b.toNat + k.toNat) := by
  have shifted : (wideSum a b k >>> 16).toNat = (a.toNat + b.toNat + k.toNat) / 2 ^ 16 := by
    rw [BitVec.toNat_ushiftRight, toNat_wideSum, Nat.shiftRight_eq_div_pow]
  rw [Bool.eq_iff_iff, bne_iff_ne, decide_eq_true_iff, ne_eq, ← BitVec.toNat_inj, shifted]
  change ¬ _ = 0 ↔ _
  omega

theorem getLsbD_top (word : Word) : word.getLsbD 15 = decide (2 ^ 15 ≤ word.toNat) := by
  have bound := word.isLt
  rw [BitVec.getLsbD, Nat.testBit_eq_decide_div_mod_eq, decide_eq_decide]
  omega

/-- The signs of the operands and of the sum find every sum outside the range. -/
theorem wideSum_overflows :
    (!(a.getLsbD 15 != b.getLsbD 15) && a.getLsbD 15 != (wideSum a b k).getLsbD 15) =
      decide (¬ FitsWord (a.toInt + b.toInt + k.toNat)) := by
  have left := a.isLt
  have right := b.isLt
  have one := k.toNat_lt
  have top : (wideSum a b k).getLsbD 15 =
      decide ((a.toNat + b.toNat + k.toNat) / 2 ^ 15 % 2 = 1) := by
    rw [BitVec.getLsbD, Nat.testBit_eq_decide_div_mod_eq, toNat_wideSum]
  unfold FitsWord
  rw [getLsbD_top, getLsbD_top, top, a.toInt_eq_toNat_cond, b.toInt_eq_toNat_cond]
  grind

theorem wideSum_word : (wideSum a b k).setWidth 16 = BitVec.ofInt 16 (a.toInt + b.toInt + k.toNat) := by
  apply BitVec.eq_of_toNat_eq
  have left := a.isLt
  have right := b.isLt
  rw [BitVec.toNat_setWidth, toNat_wideSum, BitVec.toNat_ofInt, a.toInt_eq_toNat_cond,
    b.toInt_eq_toNat_cond]
  grind

/-- A complemented operand and a carry subtract. -/
theorem toInt_complement : (~~~b).toInt = -b.toInt - 1 := by
  rw [BitVec.toInt_not]
  have bound := b.isLt
  rw [b.toInt_eq_toNat_cond, Int.bmod_def]
  grind

theorem toNat_complement : (~~~b).toNat = 65535 - b.toNat := BitVec.toNat_not

/-- The sign extension of the low byte. -/
theorem cpuSignExtend_eq (operand : Word) :
    cpuSignExtend (operand &&& 0xFF) = (operand.setWidth 8).signExtend 16 := by
  have low (bit : Nat) (inside : bit < 16) : (0xFF : Word).getLsbD bit = decide (bit < 8) := by
    interval_cases bit <;> rfl
  have high (bit : Nat) (inside : bit < 16) : (0xFF00 : Word).getLsbD bit = decide (8 ≤ bit) := by
    interval_cases bit <;> rfl
  have sign : (operand &&& 0xFF).getLsbD 7 = (operand.setWidth 8).msb := by
    rw [BitVec.getLsbD_and, BitVec.msb_eq_getLsbD_last, BitVec.getLsbD_setWidth]
    exact Bool.and_comm _ _
  apply BitVec.eq_of_getLsbD_eq
  intro bit inside
  rw [cpuSignExtend, sign, BitVec.getLsbD_signExtend, BitVec.getLsbD_setWidth]
  cases (operand.setWidth 8).msb with
  | false =>
    simp [inside]
    grind
  | true =>
    simp [inside]
    grind

theorem toInt_product : (a.signExtend 32 * b.signExtend 32).toInt = a.toInt * b.toInt := by
  have left : (a.signExtend 32).toInt = a.toInt := BitVec.toInt_signExtend_of_le (by decide)
  have right : (b.signExtend 32).toInt = b.toInt := BitVec.toInt_signExtend_of_le (by decide)
  have small : a.toInt.natAbs * b.toInt.natAbs ≤ 2 ^ 15 * 2 ^ 15 :=
    Nat.mul_le_mul (natAbs_word a) (natAbs_word b)
  have magnitude : (a.toInt * b.toInt).natAbs = a.toInt.natAbs * b.toInt.natAbs := Int.natAbs_mul _ _
  rw [BitVec.toInt_mul, left, right]
  exact Int.bmod_eq_of_le_mul_two (by omega) (by omega)

/-- The low word of a product is the product modulo `2 ^ 16`. -/
theorem product_word :
    (a.signExtend 32 * b.signExtend 32).setWidth 16 = BitVec.ofInt 16 (a.toInt * b.toInt) := by
  have narrowed (word : Word) : (word.signExtend 32).setWidth 16 = word := by
    apply BitVec.eq_of_getLsbD_eq
    intro bit inside
    rw [BitVec.getLsbD_setWidth, BitVec.getLsbD_signExtend]
    simp [inside]
    omega
  rw [BitVec.setWidth_mul _ _ (by decide), narrowed, narrowed, BitVec.ofInt_mul, BitVec.ofInt_toInt,
    BitVec.ofInt_toInt]

end Words

namespace CpuState

/-- One indicator of the status register. -/
def indicator (s : CpuState World) (bit : Indicator) : Bool := s.cpuGetbit RegNum.sts bit

end CpuState

section Registers

variable (s : CpuState World)

theorem indicator_eq (bit : Indicator) : s.indicator bit = (s.getReg RegNum.sts).getLsbD bit :=
  getBit_flat s bit

@[simp] theorem indicator_setBit (bit other : Indicator) (value : Bool) :
    (s.cpuSetbit RegNum.sts bit value).indicator other =
      if other = bit then value else s.indicator other := by
  have inside : other.val < 16 := by omega
  rw [indicator_eq, indicator_eq, getReg_cpuSetbit, CpuState.getReg_setReg, getLsbD_putBit _ _ inside]
  by_cases same : other = bit
  · rw [if_pos same, if_pos (congrArg Fin.val same)]
  · rw [if_neg same, if_neg fun equal => same (Fin.ext equal)]

@[simp] theorem indicator_setReg (r : GenReg) (value : Word) (bit : Indicator) :
    (s.setReg r.num value).indicator bit = s.indicator bit := by
  rw [indicator_eq, indicator_eq, s.getReg_setReg_of_ne value r.notStatus.symm]

theorem getReg_setBit (bit : Indicator) (value : Bool) {r : RegNum} (general : r ≠ RegNum.sts) :
    (s.cpuSetbit RegNum.sts bit value).getReg r = s.getReg r := by
  rw [getReg_cpuSetbit, s.getReg_setReg_of_ne _ general]

/-- Only indicators have changed. -/
def KeepsRegisters (s t : CpuState World) : Prop := ∀ r, r ≠ RegNum.sts → t.getReg r = s.getReg r

/-- The overflow indicators report the overflow, and static overflow is sticky. -/
structure OverflowSet (s t : CpuState World) (overflow : Bool) : Prop where
  dynamicOverflow : t.indicator Indicator.dynamicOverflow = overflow
  staticOverflow : t.indicator Indicator.staticOverflow =
    (s.indicator Indicator.staticOverflow || overflow)

/-- The indicators after an addition with the given exact result. -/
structure Flagged (s t : CpuState World) (exact : Int) (carries : Bool) : Prop
    extends OverflowSet s t (decide (¬ FitsWord exact)) where
  carry : t.indicator Indicator.carry = carries

/-- The exact result goes to one register modulo `2 ^ 16`, and register zero discards it. -/
structure Summed (s t : CpuState World) (r : RegNum) (exact : Int) (carries : Bool) : Prop
    extends Flagged s t exact carries where
  stored : r ≠ RegNum.sts → t.getReg r = BitVec.ofInt 16 exact
  registers : ∀ other, other ≠ r → other ≠ RegNum.sts → t.getReg other = s.getReg other

end Registers

section Machine

variable (config : Config World) (s : CpuState World)

theorem exec_setSumOverflow (overflow : Bool) :
    ∃ t, exec config (setSumOverflow overflow) s = .ok () t ∧ KeepsRegisters s t ∧
      OverflowSet s t overflow ∧ t.indicator Indicator.carry = s.indicator Indicator.carry := by
  cases overflow with
  | false =>
    refine ⟨s.cpuSetbit RegNum.sts Indicator.dynamicOverflow false, rfl,
      fun r general => getReg_setBit s _ _ general, ⟨?_, ?_⟩, ?_⟩
    · rw [indicator_setBit, if_pos rfl]
    · rw [indicator_setBit, if_neg (by decide), Bool.or_false]
    · rw [indicator_setBit, if_neg (by decide)]
  | true =>
    refine ⟨(s.cpuSetbit RegNum.sts Indicator.staticOverflow true).cpuSetbit RegNum.sts
      Indicator.dynamicOverflow true, rfl, fun r general => ?_, ⟨?_, ?_⟩, ?_⟩
    · rw [getReg_setBit _ _ _ general, getReg_setBit _ _ _ general]
    · rw [indicator_setBit, if_pos rfl]
    · rw [indicator_setBit, if_neg (by decide), indicator_setBit, if_pos rfl, Bool.or_true]
    · rw [indicator_setBit, if_neg (by decide), indicator_setBit, if_neg (by decide)]

theorem exec_doAdd (a b : Word) (k : Bool) :
    ∃ t, exec config (doAdd a b k) s = .ok (BitVec.ofInt 16 (a.toInt + b.toInt + k.toNat)) t ∧
      KeepsRegisters s t ∧
      Flagged s t (a.toInt + b.toInt + k.toNat) (decide (2 ^ 16 ≤ a.toNat + b.toNat + k.toNat)) := by
  have sum : doAdd a b k =
      (setBit Indicator.carry (wideSum a b k >>> 16 != 0) >>= fun _ =>
        setSumOverflow (!(a.getLsbD 15 != b.getLsbD 15) && a.getLsbD 15 != (wideSum a b k).getLsbD 15) >>=
          fun _ => pure ((wideSum a b k).setWidth 16)) := rfl
  obtain ⟨t, done, kept, flags, carry⟩ := exec_setSumOverflow config
    (s.cpuSetbit RegNum.sts Indicator.carry (wideSum a b k >>> 16 != 0))
    (decide (¬ FitsWord (a.toInt + b.toInt + k.toNat)))
  refine ⟨t, ?_, fun r general => ?_, ⟨⟨flags.dynamicOverflow, ?_⟩, ?_⟩⟩
  · rw [sum, exec_bind, Cpu.bind_ok (exec_setBit config s _ _), exec_bind, wideSum_overflows,
      Cpu.bind_ok done, wideSum_word]
    rfl
  · rw [kept r general, getReg_setBit s _ _ general]
  · rw [flags.staticOverflow, indicator_setBit, if_neg (by decide)]
  · rw [carry, indicator_setBit, if_pos rfl, wideSum_carries]

/-- A subtraction is the addition of the complement with a carry. -/
theorem exec_doAdd_complement (a b : Word) :
    ∃ t, exec config (doAdd a (~~~b) true) s = .ok (BitVec.ofInt 16 (a.toInt - b.toInt)) t ∧
      KeepsRegisters s t ∧ Flagged s t (a.toInt - b.toInt) (decide (b.toNat ≤ a.toNat)) := by
  have bound := b.isLt
  have exact : a.toInt + (~~~b).toInt + (true.toNat : Int) = a.toInt - b.toInt := by
    rw [toInt_complement, Bool.toNat_true]
    omega
  have carries : 2 ^ 16 ≤ a.toNat + (~~~b).toNat + true.toNat ↔ b.toNat ≤ a.toNat := by
    rw [toNat_complement, Bool.toNat_true]
    omega
  have added := exec_doAdd config s a (~~~b) true
  rw [exact] at added
  simpa only [carries] using added

/-- A sum goes to a general register after its flags. -/
theorem Flagged.summed {t : CpuState World} {exact : Int} {carries : Bool}
    (flags : Flagged s t exact carries) (kept : KeepsRegisters s t) (r : GenReg) :
    Summed s (t.setReg r.num (BitVec.ofInt 16 exact)) r.num exact carries where
  dynamicOverflow := by rw [indicator_setReg, flags.dynamicOverflow]
  staticOverflow := by rw [indicator_setReg, flags.staticOverflow]
  carry := by rw [indicator_setReg, flags.carry]
  stored _ := CpuState.getReg_setReg t r.num _
  registers other apart general := by rw [t.getReg_setReg_of_ne _ apart, kept other general]

/-- The registers and the status register are the same. -/
structure SameCore (s t : CpuState World) : Prop where
  reg : t.reg = s.reg
  sts : t.sts = s.sts

theorem sameCore_memoryStep : MemoryStep (@SameCore World) where
  refl _ := ⟨rfl, rfl⟩
  trans first second := ⟨second.reg.trans first.reg, second.sts.trans first.sts⟩
  fault _ _ := ⟨rfl, rfl⟩
  shadowRam _ _ := ⟨rfl, rfl⟩
  degrade s am ring := by
    unfold CpuState.mmsDegrade
    split <;> exact ⟨rfl, rfl⟩
  eccLatch _ _ := ⟨rfl, rfl⟩
  memory _ _ := ⟨rfl, rfl⟩
  window _ _ := ⟨rfl, rfl⟩
  tset _ _ := ⟨rfl, rfl⟩
  interrupt _ _ := ⟨rfl, rfl⟩

namespace SameCore

variable {s} {t : CpuState World} (same : SameCore s t)

include same

theorem getReg : t.getReg = s.getReg := by
  unfold CpuState.getReg CpuState.pil
  rw [same.reg, same.sts]

theorem indicator (bit : Indicator) : t.indicator bit = s.indicator bit := by
  rw [indicator_eq, indicator_eq, same.getReg]

end SameCore

/-- The operations that form an effective address and read there. -/
def DataOp.Reads : DataOp → Prop
  | .getReg _ | .getSystem | .setEffective _ _ | .memRead _ _ | .memReadIndirect _ _ => True
  | _ => False

theorem dataStep_reads (op : DataOp) (reads : op.Reads) :
    Traps (@SameCore World) (dataStep config op) := by
  have rules := @sameCore_memoryStep World
  have read {A : Type} (view : CpuState World → A) :
      Traps (@SameCore World) (do return view (← get) : Cpu World A) :=
    .bind rules.toComposes (.get rules.toComposes) fun _ => .pure rules.toComposes _
  cases op with
  | getReg r => exact read fun s => s.getReg r
  | getSystem => exact read fun s => s.system
  | setEffective address useApt => exact .modify fun s => ⟨rfl, rfl⟩
  | memRead address useApt => exact mmsReadVirtual_traps rules config _ _ _
  | memReadIndirect address useApt => exact mmsReadVirtual_traps rules config _ _ _
  | _ => exact reads.elim

theorem cpuGetEffectiveAddr_reads (operand : Word) :
    (cpuGetEffectiveAddr operand).All DataOp.Reads := by
  have reg (r : RegNum) : (Instr.getReg r).All DataOp.Reads := (Program.all_perform _).mpr trivial
  have indirect (address : Word) (useApt : Bool) :
      (Instr.memReadIndirect address useApt).All DataOp.Reads := (Program.all_perform _).mpr trivial
  have finish (address : Word) (useApt : Bool) :
      (do setEffective address useApt; pure address : Instr Word).All DataOp.Reads :=
    .bind ((Program.all_perform _).mpr trivial) fun _ => trivial
  refine .bind (reg _) fun p => .bind (reg _) fun b => .bind (reg _) fun x => ?_
  dsimp only
  split
  · exact finish _ _
  · exact finish _ _
  · exact .bind (indirect _ _) fun _ => finish _ _
  · exact .bind (indirect _ _) fun _ => finish _ _
  · exact finish _ _
  · exact finish _ _
  · exact .bind (indirect _ _) fun _ => finish _ _
  · exact .bind (indirect _ _) fun _ => finish _ _

/-- Reading the operand changes no register. -/
theorem readEffective_same {operand effWord : Word} {t : CpuState World}
    (fetched : exec config (readEffective operand) s = .ok effWord t) : SameCore s t := by
  have reads : (readEffective operand).All DataOp.Reads :=
    .bind (cpuGetEffectiveAddr_reads operand) fun _ =>
      .bind ((Program.all_perform _).mpr trivial) fun _ => (Program.all_perform _).mpr trivial
  exact (Program.interpret_respects sameCore_memoryStep.toComposes (dataStep config)
    (fun op allowed => dataStep_reads config op allowed) reads).ok fetched

variable {config s}

theorem Summed.of_same {fetched t : CpuState World} {r : RegNum} {exact : Int} {carries : Bool}
    (same : SameCore s fetched) (summed : Summed fetched t r exact carries) :
    Summed s t r exact carries where
  dynamicOverflow := summed.dynamicOverflow
  staticOverflow := by rw [summed.staticOverflow, same.indicator]
  carry := summed.carry
  stored := summed.stored
  registers other apart general := by rw [summed.registers other apart general, same.getReg]

/-- The sum of two words goes to a register. -/
theorem exec_store {t : CpuState World} {sum : Instr Word} {exact : Int} {carries : Bool}
    (done : exec config sum s = .ok (BitVec.ofInt 16 exact) t) (kept : KeepsRegisters s t)
    (flags : Flagged s t exact carries) (r : GenReg) :
    ∃ u, exec config (sum >>= fun value => setReg r value) s = .ok () u ∧
      Summed s u r.num exact carries :=
  ⟨_, by rw [exec_bind, Cpu.bind_ok done]; exact exec_setReg config t r _, flags.summed s kept r⟩

theorem exec_opcodeAdd {operand effWord : Word} {fetched : CpuState World}
    (found : exec config (readEffective operand) s = .ok effWord fetched) :
    ∃ t, exec config (opcodeAddAddToARegister operand) s = .ok () t ∧
      Summed s t RegNum.a ((s.getReg RegNum.a).toInt + effWord.toInt)
        (decide (2 ^ 16 ≤ (s.getReg RegNum.a).toNat + effWord.toNat)) := by
  have same := readEffective_same config s found
  obtain ⟨t, done, kept, flags⟩ := exec_doAdd config fetched (s.getReg RegNum.a) effWord false
  obtain ⟨u, stored, summed⟩ := exec_store done kept flags GenReg.a
  rw [Bool.toNat_false, Nat.cast_zero, Int.add_zero, Nat.add_zero] at summed
  refine ⟨u, ?_, summed.of_same same⟩
  rw [opcodeAddAddToARegister, exec_bind, Cpu.bind_ok found, exec_bind,
    Cpu.bind_ok (exec_getReg config fetched _), same.getReg]
  exact stored

theorem exec_opcodeSub {operand effWord : Word} {fetched : CpuState World}
    (found : exec config (readEffective operand) s = .ok effWord fetched) :
    ∃ t, exec config (opcodeSubSubtractFromARegister operand) s = .ok () t ∧
      Summed s t RegNum.a ((s.getReg RegNum.a).toInt - effWord.toInt)
        (decide (effWord.toNat ≤ (s.getReg RegNum.a).toNat)) := by
  have same := readEffective_same config s found
  obtain ⟨t, done, kept, flags⟩ := exec_doAdd_complement config fetched (s.getReg RegNum.a) effWord
  obtain ⟨u, stored, summed⟩ := exec_store done kept flags GenReg.a
  refine ⟨u, ?_, summed.of_same same⟩
  rw [opcodeSubSubtractFromARegister, exec_bind, Cpu.bind_ok found, exec_bind,
    Cpu.bind_ok (exec_getReg config fetched _), same.getReg]
  exact stored

variable (config s) in
theorem exec_addArgument (r : GenReg) (operand : Word) :
    ∃ t, exec config (addArgument r operand) s = .ok () t ∧
      Summed s t r.num ((s.getReg r.num).toInt + (operand.setWidth 8).toInt)
        (decide (2 ^ 16 ≤ (s.getReg r.num).toNat + ((operand.setWidth 8).signExtend 16).toNat)) := by
  have argument : ((operand.setWidth 8).signExtend 16).toInt = (operand.setWidth 8).toInt :=
    BitVec.toInt_signExtend_of_le (by decide)
  obtain ⟨t, done, kept, flags⟩ :=
    exec_doAdd config s (s.getReg r.num) ((operand.setWidth 8).signExtend 16) false
  obtain ⟨u, stored, summed⟩ := exec_store done kept flags r
  rw [Bool.toNat_false, Nat.cast_zero, Int.add_zero, Nat.add_zero, argument] at summed
  refine ⟨u, ?_, summed⟩
  rw [addArgument, cpuSignExtend_eq, exec_bind, Cpu.bind_ok (exec_getReg config s _)]
  exact stored

/-- A sum for register zero is discarded after its flags. -/
theorem exec_storeField {t : CpuState World} {sum : Instr Word} {exact : Int} {carries : Bool}
    (done : exec config sum s = .ok (BitVec.ofInt 16 exact) t) (kept : KeepsRegisters s t)
    (flags : Flagged s t exact carries) (field : RegNum) :
    ∃ u, exec config (sum >>= fun value => setField field value) s = .ok () u ∧
      Summed s u field exact carries := by
  by_cases general : field ≠ RegNum.sts
  · obtain ⟨u, stored, summed⟩ := exec_store done kept flags ⟨field, general⟩
    refine ⟨u, ?_, summed⟩
    rw [← stored]
    simp only [setField, dif_pos general]
  · refine ⟨t, ?_, { flags with
      stored := fun some => absurd some general
      registers := fun other _ some => kept other some }⟩
    rw [exec_bind, Cpu.bind_ok done, setField, dif_neg general]
    rfl

/-- `CM1` complements the source. -/
def raddSource (operand source : Word) : Word := if operand.getLsbD 7 then ~~~source else source

/-- `ADC` adds the carry, and `AD1` adds one. -/
def raddCarry (operand : Word) (carry : Bool) : Bool :=
  if operand.getLsbD 9 then carry else operand.getLsbD 8

theorem raddVariant_eq (operand : Word) : ((operand >>> 7) &&& 7).toNat =
    (operand.getLsbD 7).toNat + 2 * (operand.getLsbD 8).toNat + 4 * (operand.getLsbD 9).toNat := by
  have masked : ((operand >>> 7) &&& 7).toNat = operand.toNat / 2 ^ 7 % 2 ^ 3 := by
    rw [BitVec.toNat_and, BitVec.toNat_ushiftRight, Nat.shiftRight_eq_div_pow]
    exact Nat.and_two_pow_sub_one_eq_mod _ 3
  have bit (i : Nat) : (operand.getLsbD i).toNat = operand.toNat / 2 ^ i % 2 := by
    rw [BitVec.getLsbD, Nat.toNat_testBit]
  rw [masked, bit, bit, bit]
  omega

/-- Six of the eight variants add. -/
theorem regopArith_sum {operand : Word} (adds : ¬ (operand.getLsbD 8 ∧ operand.getLsbD 9))
    (dr : RegNum) (source destination : Word) :
    regopArith operand dr source destination = (registerOperand dr >>= fun _ =>
      getBit Indicator.carry >>= fun carry =>
        doAdd destination (raddSource operand source) (raddCarry operand carry) >>=
          fun tmp => setField dr tmp) := by
  have variant := raddVariant_eq operand
  rw [regopArith, variant, raddSource]
  unfold raddCarry
  cases first : operand.getLsbD 7 <;> cases second : operand.getLsbD 8 <;>
    cases third : operand.getLsbD 9 <;> first | rfl | exact absurd ⟨second, third⟩ adds

/-- The second operand of `RADD`, which `CLD` clears. -/
def CpuState.raddDestination (s : CpuState World) (operand : Word) : Word :=
  if operand.getLsbD 6 then 0 else s.fieldValue (destField operand)

variable (config s) in
theorem exec_regop {operand : Word} (arithmetic : operand.getLsbD 10)
    (adds : ¬ (operand.getLsbD 8 ∧ operand.getLsbD 9)) :
    ∃ t, exec config (regop operand) s = .ok () t ∧ Summed s t (destField operand)
      ((s.raddDestination operand).toInt +
        (raddSource operand (s.fieldValue (sourceField operand))).toInt +
        (raddCarry operand (s.indicator Indicator.carry)).toNat)
      (decide (2 ^ 16 ≤ (s.raddDestination operand).toNat +
        (raddSource operand (s.fieldValue (sourceField operand))).toNat +
        (raddCarry operand (s.indicator Indicator.carry)).toNat)) := by
  obtain ⟨t, done, kept, flags⟩ := exec_doAdd config s (s.raddDestination operand)
    (raddSource operand (s.fieldValue (sourceField operand)))
    (raddCarry operand (s.indicator Indicator.carry))
  obtain ⟨u, stored, summed⟩ := exec_storeField done kept flags (destField operand)
  have carry : exec config (getBit Indicator.carry) s = .ok (s.indicator Indicator.carry) s := rfl
  refine ⟨u, ?_, summed⟩
  rw [regop, exec_bind, Cpu.bind_ok (exec_registerOperand config s _), exec_bind,
    Cpu.bind_ok (exec_registerOperand config s _), if_pos arithmetic, regopArith_sum adds, exec_bind,
    Cpu.bind_ok (exec_registerOperand config s _), exec_bind, Cpu.bind_ok carry]
  exact stored

/-- The product goes to A modulo `2 ^ 16`, and a magnitude above 32767 counts as an overflow. -/
structure MultipliedInto (s t : CpuState World) (product : Int) : Prop
    extends OverflowSet s t (decide (32767 < product.natAbs)) where
  stored : t.getReg RegNum.a = BitVec.ofInt 16 product
  carry : t.indicator Indicator.carry = s.indicator Indicator.carry

theorem exec_mpy {operand mem : Word} {fetched : CpuState World}
    (found : exec config (readEffective operand) s = .ok mem fetched) :
    ∃ t, exec config (mpy operand) s = .ok () t ∧
      MultipliedInto s t ((s.getReg RegNum.a).toInt * mem.toInt) := by
  have same := readEffective_same config s found
  have exact := toInt_product (s.getReg RegNum.a) mem
  have low := product_word (s.getReg RegNum.a) mem
  rw [mpy, exec_bind, Cpu.bind_ok (exec_getReg config s _), exec_bind, Cpu.bind_ok found, exec_bind,
    Cpu.bind_ok (exec_setBit config fetched _ _)]
  dsimp only
  rw [exact, low]
  generalize (s.getReg RegNum.a).toInt * mem.toInt = product
  by_cases large : 32767 < product.natAbs
  · have test : (32767 : Int) < product.natAbs := by omega
    rw [if_pos test]
    refine ⟨_, rfl, ⟨?_, ?_⟩, CpuState.getReg_setReg _ _ _, ?_⟩
    · refine (indicator_setReg _ GenReg.a _ _).trans ?_
      rw [indicator_setBit, if_neg (by decide), indicator_setBit, if_pos rfl, decide_eq_true large]
    · refine (indicator_setReg _ GenReg.a _ _).trans ?_
      rw [indicator_setBit, if_pos rfl, decide_eq_true large, Bool.or_true]
    · refine (indicator_setReg _ GenReg.a _ _).trans ?_
      rw [indicator_setBit, if_neg (by decide), indicator_setBit, if_neg (by decide), indicator_setBit,
        if_neg (by decide), same.indicator]
  · have test : ¬ (32767 : Int) < product.natAbs := by omega
    rw [if_neg test]
    refine ⟨_, rfl, ⟨?_, ?_⟩, CpuState.getReg_setReg _ _ _, ?_⟩
    · refine (indicator_setReg _ GenReg.a _ _).trans ?_
      rw [indicator_setBit, if_pos rfl, decide_eq_false large]
    · refine (indicator_setReg _ GenReg.a _ _).trans ?_
      rw [indicator_setBit, if_neg (by decide), same.indicator, decide_eq_false large, Bool.or_false]
    · refine (indicator_setReg _ GenReg.a _ _).trans ?_
      rw [indicator_setBit, if_neg (by decide), same.indicator]

/-- The indicators of every integer addition follow the exact result, and those of `MPY`
follow the magnitude of the product. -/
theorem integerOverflow (config : Config World) (s : CpuState World) :
    (∀ operand effWord fetched, exec config (readEffective operand) s = .ok effWord fetched →
      (∃ t, exec config (opcodeAddAddToARegister operand) s = .ok () t ∧
        Summed s t RegNum.a ((s.getReg RegNum.a).toInt + effWord.toInt)
          (decide (2 ^ 16 ≤ (s.getReg RegNum.a).toNat + effWord.toNat))) ∧
      (∃ t, exec config (opcodeSubSubtractFromARegister operand) s = .ok () t ∧
        Summed s t RegNum.a ((s.getReg RegNum.a).toInt - effWord.toInt)
          (decide (effWord.toNat ≤ (s.getReg RegNum.a).toNat))) ∧
      ∃ t, exec config (mpy operand) s = .ok () t ∧
        MultipliedInto s t ((s.getReg RegNum.a).toInt * effWord.toInt)) ∧
    (∀ operand r instr, (instr = opcodeAaaAddArgumentToA operand ∧ r = RegNum.a ∨
        instr = opcodeAabAddArgumentToB operand ∧ r = RegNum.b ∨
        instr = opcodeAatAddArgumentToT operand ∧ r = RegNum.t ∨
        instr = opcodeAaxAddArgumentToX operand ∧ r = RegNum.x) →
      ∃ t, exec config instr s = .ok () t ∧
        Summed s t r ((s.getReg r).toInt + (operand.setWidth 8).toInt)
          (decide (2 ^ 16 ≤ (s.getReg r).toNat + ((operand.setWidth 8).signExtend 16).toNat))) ∧
    ∀ operand : Word, operand.getLsbD 10 → ¬ (operand.getLsbD 8 ∧ operand.getLsbD 9) →
      ∃ t, exec config (regop operand) s = .ok () t ∧ Summed s t (destField operand)
        ((s.raddDestination operand).toInt +
          (raddSource operand (s.fieldValue (sourceField operand))).toInt +
          (raddCarry operand (s.indicator Indicator.carry)).toNat)
        (decide (2 ^ 16 ≤ (s.raddDestination operand).toNat +
          (raddSource operand (s.fieldValue (sourceField operand))).toNat +
          (raddCarry operand (s.indicator Indicator.carry)).toNat)) := by
  refine ⟨fun operand effWord fetched found =>
    ⟨exec_opcodeAdd found, exec_opcodeSub found, exec_mpy found⟩, ?_,
    fun operand arithmetic adds => exec_regop config s arithmetic adds⟩
  rintro operand r instr (⟨rfl, rfl⟩ | ⟨rfl, rfl⟩ | ⟨rfl, rfl⟩ | ⟨rfl, rfl⟩)
  · exact exec_addArgument config s GenReg.a operand
  · exact exec_addArgument config s GenReg.b operand
  · exact exec_addArgument config s GenReg.t operand
  · exact exec_addArgument config s GenReg.x operand

/-- A holds 1, and the word at address 3 holds -32768. -/
def leastFactor : CpuState Unit :=
  ((cpuInit bareMachine ()).putMemory (Function.update (fun _ => 0) 3 0x8000)).putReg fun _ r =>
    if r = RegNum.a then 1 else if r = RegNum.p then 1 else 0

theorem leastFactor_fetched :
    ∃ t, exec bareMachine (readEffective 0x0003) leastFactor = .ok 0x8000 t :=
  ⟨_, rfl⟩

/-- The sum of 1 and -32768 fits. -/
theorem integerOverflow_least :
    ∃ t, exec bareMachine (opcodeAddAddToARegister 0x0003) leastFactor = .ok () t ∧
      t.indicator Indicator.dynamicOverflow = false := by
  obtain ⟨fetched, found⟩ := leastFactor_fetched
  obtain ⟨t, added, summed⟩ := ((integerOverflow bareMachine leastFactor).1 _ _ _ found).1
  exact ⟨t, added, summed.dynamicOverflow⟩

/-- A product of -32768 fits, and its magnitude sets the overflow indicators. -/
theorem mpy_leastProduct : ¬ ∀ (s : CpuState Unit) (operand mem : Word) (fetched : CpuState Unit),
    exec bareMachine (readEffective operand) s = .ok mem fetched →
    ∃ t, exec bareMachine (mpy operand) s = .ok () t ∧
      t.indicator Indicator.dynamicOverflow =
        decide (¬ FitsWord ((s.getReg RegNum.a).toInt * mem.toInt)) := by
  intro claim
  obtain ⟨fetched, found⟩ := leastFactor_fetched
  obtain ⟨t, done, exactly⟩ := claim _ _ _ _ found
  obtain ⟨u, again, multiplied⟩ := exec_mpy found
  cases done.symm.trans again
  have overflow : t.indicator Indicator.dynamicOverflow = true := multiplied.dynamicOverflow
  rw [overflow] at exactly
  exact absurd exactly.symm (by decide)

end Machine

end Nd100x
