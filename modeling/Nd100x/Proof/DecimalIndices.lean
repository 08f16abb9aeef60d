import Nd100x.Proof.DecimalConversion
import Nd100x.Proof.MachineFrame
import Nd100x.Machine.Reset

namespace Nd100x

open Library

section Exec

variable {World A B : Type} (config : Config World)

@[simp] theorem exec_bind (instr : Instr A) (next : A → Instr B) :
    exec config (instr >>= next) = exec config instr >>= fun value => exec config (next value) :=
  Program.interpret_bind _ instr next

@[simp] theorem exec_perform (op : DataOp) :
    exec config (Instr.perform op) = dataStep config op :=
  Program.interpret_perform _ op

/-- Every relation is respected by the trivial one. -/
theorem anyDataStep : DataStep fun _ _ : CpuState World => True where
  refl _ := trivial
  trans _ _ := trivial
  fault _ _ := trivial
  shadowRam _ _ := trivial
  degrade _ _ _ := trivial
  eccLatch _ _ := trivial
  memory _ _ := trivial
  window _ _ := trivial
  tset _ _ := trivial
  interrupt _ _ := trivial
  register _ _ _ _ := trivial
  indicator _ _ _ := trivial
  system _ _ := trivial
  runMode _ _ := trivial
  world _ _ := trivial
  banks _ _ := trivial
  dmaAccess _ _ := trivial

/-- An instruction without an array access stops only by a trap. -/
theorem exec_inBounds {instr : Instr A} (returns : instr.All DataOp.Returns)
    (s t : CpuState World) : exec config instr s ≠ .error .outOfBounds t := by
  intro stopped
  have trap := ((exec_traps anyDataStep config returns).error stopped).2
  cases trap

variable {config}

theorem exec_lift_outOfBounds {core : Except Stop A} {next : A → Instr B}
    (returns : ∀ value, (next value).All DataOp.Returns) (s : CpuState World) :
    (∃ t, exec config (Instr.lift core >>= next) s = .error .outOfBounds t) ↔
      core = .error .outOfBounds := by
  cases core with
  | ok value =>
    refine iff_of_false ?_ (by simp)
    rintro ⟨t, stopped⟩
    exact exec_inBounds config (returns value) s t stopped
  | error stop =>
    have stopped : exec config (Instr.lift (.error stop) >>= next) s = .error stop s := rfl
    rw [stopped]
    constructor
    · rintro ⟨t, same⟩
      cases same
      rfl
    · intro same
      cases same
      exact ⟨s, rfl⟩

/-- Only accepted operands reach the arrays. -/
theorem exec_operands_outOfBounds {operands : Instr (Option A)} {finish : Option A → Instr B}
    {overruns : A → Prop} (loads : operands.All DataOp.Returns)
    (refused : (finish none).All DataOp.Returns)
    (accepted : ∀ value s, (∃ t, exec config (finish (some value)) s = .error .outOfBounds t) ↔
      overruns value) (s : CpuState World) :
    (∃ t, exec config (operands >>= finish) s = .error .outOfBounds t) ↔
      ∃ value t, exec config operands s = .ok (some value) t ∧ overruns value := by
  rw [exec_bind]
  cases loaded : exec config operands s with
  | error stop middle =>
    rw [Cpu.bind_error loaded]
    constructor
    · rintro ⟨t, same⟩
      cases same
      exact (exec_inBounds config loads s _ loaded).elim
    · rintro ⟨value, t, same, -⟩
      cases same
  | ok answer middle =>
    rw [Cpu.bind_ok loaded]
    cases answer with
    | none =>
      constructor
      · rintro ⟨t, stopped⟩
        exact (exec_inBounds config refused middle t stopped).elim
      · rintro ⟨value, t, same, -⟩
        cases same
    | some value =>
      rw [accepted value middle]
      constructor
      · exact fun holds => ⟨value, middle, rfl, holds⟩
      · rintro ⟨found, t, same, holds⟩
        cases same
        exact holds

end Exec

/- The loads, the stores and the register reports access no array. -/

theorem getReg_returns (r : RegNum) : (Instr.getReg r).All DataOp.Returns :=
  (Program.all_perform _).mpr trivial

theorem setReg_returns (r : GenReg) (value : Word) : (Instr.setReg r value).All DataOp.Returns :=
  (Program.all_perform _).mpr trivial

theorem bcdLoadWords_returns (addr : Word) (indices : List (Fin bcdMaxWords))
    (words : Fin bcdMaxWords → Word) : (bcdLoadWords addr indices words).All DataOp.Returns := by
  induction indices generalizing words with
  | nil => trivial
  | cons i rest ih =>
    exact .bind ((Program.all_perform _).mpr trivial) fun value => ih _

theorem bcdGetOperand_returns (d1 d2 : Word) (isAscii : Bool) :
    (bcdGetOperand d1 d2 isAscii).All DataOp.Returns := by
  unfold bcdGetOperand
  dsimp only
  split
  · trivial
  · exact .bind (bcdLoadWords_returns _ _ _) fun words => trivial

theorem firstOperand_returns (isAscii : Bool) : (firstOperand isAscii).All DataOp.Returns :=
  .bind (getReg_returns _) fun _ => .bind (getReg_returns _) fun _ => bcdGetOperand_returns _ _ _

theorem secondOperand_returns (isAscii : Bool) : (secondOperand isAscii).All DataOp.Returns :=
  .bind (getReg_returns _) fun _ => .bind (getReg_returns _) fun _ => bcdGetOperand_returns _ _ _

theorem bcdStoreOperand_returns (op : BcdOperand) : (bcdStoreOperand op).All DataOp.Returns := by
  unfold bcdStoreOperand
  generalize (List.finRange bcdMaxWords).take op.memWords = indices
  induction indices with
  | nil => trivial
  | cons i rest ih =>
    exact .bind ((Program.all_perform _).mpr trivial) fun _ => ih

theorem skipReturn_returns : skipReturn.All DataOp.Returns :=
  .bind (getReg_returns _) fun _ => setReg_returns _ _

theorem bcdReportError_returns (error : BcdError) : (bcdReportError error).All DataOp.Returns := by
  refine .bind (getReg_returns _) fun _ => .bind (setReg_returns _ _) fun _ => ?_
  cases error with
  | illegalCode =>
    exact .bind (getReg_returns _) fun _ => .bind (setReg_returns _ _) fun _ =>
      .bind (getReg_returns _) fun _ => setReg_returns _ _
  | overflow => trivial

theorem storeAndSkip_returns (field : BcdOperand) (overflow : Bool) :
    (do bcdStoreOperand field; if !overflow then skipReturn : Instr Unit).All DataOp.Returns := by
  refine .bind (bcdStoreOperand_returns _) fun _ => ?_
  cases overflow
  · exact skipReturn_returns
  · trivial

theorem finishConversion_returns (conversion : BcdConversion) :
    (finishConversion conversion).All DataOp.Returns := by
  cases conversion with
  | illegal => exact bcdReportError_returns _
  | stored field overflow =>
    refine .bind (bcdStoreOperand_returns _) fun _ => ?_
    cases overflow
    · exact skipReturn_returns
    · exact bcdReportError_returns _

inductive DecimalInstr where
  | addd
  | subd
  | comd
  | shde
  | pack
  | upack

namespace DecimalInstr

def opcode : DecimalInstr → Instr Unit
  | addd => opcodeAdddAddTwoDecimalOperands
  | subd => opcodeSubdSubtractTwoDecimalOperands
  | comd => opcodeComdCompareTwoDecimalOperands
  | shde => opcodeShdeDecimalShift
  | pack => opcodePackConvertToDecimal
  | upack => opcodeUnpackConvertFromDecimal

/-- The pair holds the operand of A and D before the operand of X and T. -/
def readFirstThenSecond (firstAscii secondAscii : Bool) : Instr (Option (BcdOperand × BcdOperand)) := do
  let some op1 ← firstOperand firstAscii | return none
  let some op2 ← secondOperand secondAscii | return none
  return some (op1, op2)

def readSecondThenFirst (firstAscii secondAscii : Bool) : Instr (Option (BcdOperand × BcdOperand)) := do
  let some op2 ← secondOperand secondAscii | return none
  let some op1 ← firstOperand firstAscii | return none
  return some (op1, op2)

/-- The instruction accepts the two descriptors where this read gives two operands. -/
def operands : DecimalInstr → Instr (Option (BcdOperand × BcdOperand))
  | addd | subd => readFirstThenSecond false false
  | comd | shde => readSecondThenFirst false false
  | pack => readSecondThenFirst true false
  | upack => readFirstThenSecond false true

/-- The packed operations never leave the words, and a conversion leaves them only
in its ASCII field. -/
def Overruns : DecimalInstr → BcdOperand × BcdOperand → Prop
  | pack, (op1, _) => PackOverruns op1
  | upack, (op1, op2) => UnpackOverruns op2 op1
  | _, _ => False

theorem readFirstThenSecond_returns (firstAscii secondAscii : Bool) :
    (readFirstThenSecond firstAscii secondAscii).All DataOp.Returns := by
  refine .bind (firstOperand_returns _) fun op1 => ?_
  cases op1 with
  | none => trivial
  | some op1 =>
    refine .bind (secondOperand_returns _) fun op2 => ?_
    cases op2 <;> trivial

theorem readSecondThenFirst_returns (firstAscii secondAscii : Bool) :
    (readSecondThenFirst firstAscii secondAscii).All DataOp.Returns := by
  refine .bind (secondOperand_returns _) fun op2 => ?_
  cases op2 with
  | none => trivial
  | some op2 =>
    refine .bind (firstOperand_returns _) fun op1 => ?_
    cases op1 <;> trivial

theorem operands_returns (instr : DecimalInstr) : instr.operands.All DataOp.Returns := by
  cases instr with
  | addd => exact readFirstThenSecond_returns _ _
  | subd => exact readFirstThenSecond_returns _ _
  | comd => exact readSecondThenFirst_returns _ _
  | shde => exact readSecondThenFirst_returns _ _
  | pack => exact readSecondThenFirst_returns _ _
  | upack => exact readFirstThenSecond_returns _ _

/-- The work that follows the loads. -/
def finish : DecimalInstr → Option (BcdOperand × BcdOperand) → Instr Unit
  | upack, none => bcdReportError .illegalCode
  | _, none => pure ()
  | addd, some (op1, op2) => do
      let (result, overflow) ← Instr.lift (bcdAddSub op1 op2 1)
      bcdStoreOperand result
      if !overflow then skipReturn
  | subd, some (op1, op2) => do
      let (result, overflow) ← Instr.lift (bcdAddSub op1 op2 (-1))
      bcdStoreOperand result
      if !overflow then skipReturn
  | comd, some (op1, op2) => do
      let cmp ← Instr.lift (bcdCompare op1 op2)
      Instr.setReg GenReg.a (if 0 < cmp then 1 else if cmp < 0 then 0xFFFF else 0)
      skipReturn
  | shde, some (op1, op2) => do
      match ← Instr.lift (bcdShde op2 op1) with
      | none => return
      | some (result, overflow) =>
        bcdStoreOperand result
        if !overflow then skipReturn
  | pack, some (op1, op2) => do
      finishConversion (← Instr.lift (bcdConvertToPacked op2 op1))
  | upack, some (op1, op2) => do
      if op2.fieldLength = 0 then return
      finishConversion (← Instr.lift (bcdConvertToUnpacked op2 op1))

/-- Two reads that may refuse share the continuation of a refusal. -/
theorem reads_eq {instr : DecimalInstr} {outer inner : Instr (Option BcdOperand)}
    {pair : BcdOperand → BcdOperand → BcdOperand × BcdOperand}
    {first : Option BcdOperand → Instr Unit} {second : BcdOperand → Option BcdOperand → Instr Unit}
    (reads : instr.operands = do
      let some one ← outer | return none
      let some two ← inner | return none
      return some (pair one two))
    (refuse : first none = instr.finish none) (read : ∀ one, first (some one) = inner >>= second one)
    (refuseSecond : ∀ one, second one none = instr.finish none)
    (finishes : ∀ one two, second one (some two) = instr.finish (some (pair one two))) :
    outer >>= first = instr.operands >>= instr.finish := by
  rw [reads, bind_assoc]
  refine congrArg (outer >>= ·) (funext fun one => ?_)
  cases one with
  | none => exact refuse
  | some one =>
    rw [read one]
    change _ = (inner >>= _) >>= _
    rw [bind_assoc]
    refine congrArg (inner >>= ·) (funext fun two => ?_)
    cases two with
    | none => exact refuseSecond one
    | some two => exact finishes one two

theorem opcode_eq (instr : DecimalInstr) : instr.opcode = instr.operands >>= instr.finish := by
  cases instr with
  | addd => exact reads_eq rfl rfl (fun _ => rfl) (fun _ => rfl) (fun _ _ => rfl)
  | subd => exact reads_eq rfl rfl (fun _ => rfl) (fun _ => rfl) (fun _ _ => rfl)
  | comd => exact reads_eq rfl rfl (fun _ => rfl) (fun _ => rfl) (fun _ _ => rfl)
  | shde => exact reads_eq rfl rfl (fun _ => rfl) (fun _ => rfl) (fun _ _ => rfl)
  | pack => exact reads_eq rfl rfl (fun _ => rfl) (fun _ => rfl) (fun _ _ => rfl)
  | upack => exact reads_eq rfl rfl (fun _ => rfl) (fun _ => rfl) (fun _ _ => rfl)

theorem finish_none_returns (instr : DecimalInstr) : (instr.finish none).All DataOp.Returns := by
  cases instr with
  | upack => exact bcdReportError_returns _
  | _ => trivial

/-- The indices of the finishing part decide the outcome. -/
theorem finish_overruns {World : Type} (config : Config World) (instr : DecimalInstr)
    (pair : BcdOperand × BcdOperand) (s : CpuState World) :
    (∃ t, exec config (instr.finish (some pair)) s = .error .outOfBounds t) ↔
      instr.Overruns pair := by
  obtain ⟨op1, op2⟩ := pair
  cases instr with
  | addd =>
    obtain ⟨result, done⟩ := bcdAddSub_total op1 op2 1
    refine (exec_lift_outOfBounds (fun (value : BcdOperand × Bool) =>
      storeAndSkip_returns value.1 value.2) s).trans ?_
    exact iff_of_false (by rw [done]; exact fun same => nomatch same) id
  | subd =>
    obtain ⟨result, done⟩ := bcdAddSub_total op1 op2 (-1)
    refine (exec_lift_outOfBounds (fun (value : BcdOperand × Bool) =>
      storeAndSkip_returns value.1 value.2) s).trans ?_
    exact iff_of_false (by rw [done]; exact fun same => nomatch same) id
  | comd =>
    obtain ⟨result, done⟩ := bcdCompare_total op1 op2
    refine (exec_lift_outOfBounds (fun value => .bind (setReg_returns _ _) fun _ =>
      skipReturn_returns) s).trans ?_
    exact iff_of_false (by rw [done]; exact fun same => nomatch same) id
  | shde =>
    obtain ⟨result, done⟩ := bcdShde_total op2 op1
    refine (exec_lift_outOfBounds (fun value => ?_) s).trans ?_
    · cases value with
      | none => trivial
      | some value => exact storeAndSkip_returns value.1 value.2
    · exact iff_of_false (by rw [done]; exact fun same => nomatch same) id
  | pack =>
    exact (exec_lift_outOfBounds (fun value => finishConversion_returns value) s).trans
      (bcdConvertToPacked_overruns op2 op1)
  | upack =>
    by_cases empty : op2.fieldLength = 0
    · have returned : finish upack (some (op1, op2)) = pure () := if_pos empty
      rw [returned]
      refine iff_of_false ?_ ?_
      · rintro ⟨t, stopped⟩
        cases stopped
      · rintro ⟨long, -⟩
        have := op2.skew_le_one
        omega
    · have continued : finish upack (some (op1, op2)) =
          Instr.lift (bcdConvertToUnpacked op2 op1) >>= finishConversion := if_neg empty
      rw [continued]
      exact (exec_lift_outOfBounds (fun value => finishConversion_returns value) s).trans
        (bcdConvertToUnpacked_overruns op2 op1 empty)

end DecimalInstr

/-- Every index of a decimal instruction lies inside the words exactly when the accepted
operands do not overrun. -/
theorem decimalInstr_indices {World : Type} (config : Config World) (instr : DecimalInstr)
    (s : CpuState World) :
    (∀ t, exec config instr.opcode s ≠ .error .outOfBounds t) ↔
      ∀ pair t, exec config instr.operands s = .ok (some pair) t → ¬ instr.Overruns pair := by
  have outcome := exec_operands_outOfBounds instr.operands_returns
    instr.finish_none_returns (instr.finish_overruns config) s
  rw [← instr.opcode_eq] at outcome
  rw [← not_exists, outcome]
  simp only [not_exists, not_and]

/-- An empty source with a trailing sign byte, and a packed field of two nibbles. -/
def emptyTrailingSource : CpuState Unit :=
  (((cpuInit bareMachine ()).setReg RegNum.d 0x0800).setReg RegNum.x 0x0010).setReg RegNum.t 0x0002

/-- The sign byte of the empty source is read one byte before the field. -/
theorem pack_emptyTrailingSource_outOfBounds :
    ¬ ∀ (instr : DecimalInstr) (s : CpuState Unit) (t : CpuState Unit),
      exec bareMachine instr.opcode s ≠ .error .outOfBounds t := by
  intro inside
  exact inside .pack emptyTrailingSource _ rfl

end Nd100x
