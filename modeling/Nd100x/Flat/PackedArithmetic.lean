import Nd100x.Flat.PackedFields

namespace Nd100x

open Library

namespace Space

variable {space : Space} {f : FlatState} {place : Nat → Nat}

/-- The operand of a descriptor depends on the memory and on the view of it. -/
theorem operand_sameView {g : FlatState} {d1 d2 : Word} {isAscii : Bool} (view : space.SameView g f)
    (memory : g.memory = f.memory) : space.operand g d1 d2 isAscii = space.operand f d1 d2 isAscii := by
  have read (address : Word) : space.readWord g address = space.readWord f address := by
    rw [readWord, readWord, view.access, memory]
  unfold operand
  simp only [read]

/-- The end of an instruction that stores a packed result. -/
def storeResult (result : BcdOperand) (overflow : Bool) : Instr Unit := do
  bcdStoreOperand result
  if !overflow then skipReturn

/-- A stored result skips the next instruction where it does not overflow. -/
structure StoredRun (space : Space) (d1 d2 : Word) (place : Nat → Nat) (result : BcdOperand) (overflow : Bool)
    (f g : FlatState) : Prop where
  view : space.SameView g f
  written : space.FieldStored d1 d2 place result f g
  next : g.reg space.pil RegNum.p = f.reg space.pil RegNum.p + if overflow then 0 else 1

theorem run_storeResult {d1 d2 : Word} {result : BcdOperand} (overflow : Bool)
    (same : BcdOperand.SameDescriptor result (space.operand f d1 d2 false))
    (resident : space.FieldResident f d1 (space.packedField f d1 d2).memWords place) :
    ∃ g, space.run (storeResult result overflow) f = .ok () g ∧
      space.StoredRun d1 d2 place result overflow f g := by
  have count : result.memWords = (space.packedField f d1 d2).memWords := same.memWords
  have address : result.addr = d1 := same.addr
  rw [← address] at resident
  have member (i : Fin bcdMaxWords) : i ∈ (List.finRange bcdMaxWords).take result.memWords ↔
      i.val < (space.packedField f d1 d2).memWords := by rw [mem_take_finRange, count]
  obtain ⟨g, done, view, reg, stored, kept⟩ := run_bcdStoreWords result
    ((List.finRange bcdMaxWords).take result.memWords) ((List.nodup_finRange _).sublist (List.take_sublist _ _))
    (fun i inside => (member i).mp inside) resident
  have written : space.FieldStored d1 d2 place result f g :=
    ⟨fun i inside => stored i ((member i).mpr inside), fun cell outside =>
      kept cell fun i inside => outside i ((member i).mp inside)⟩
  cases overflow with
  | true =>
    refine ⟨g, ?_, view, written, ?_⟩
    · rw [storeResult, bcdStoreOperand, run_bind_ok done]
      rfl
    · rw [reg, if_pos rfl]
      exact (BitVec.add_zero _).symm
  | false =>
    refine ⟨g.setRegAt space.pil RegNum.p (g.reg space.pil RegNum.p + 1), ?_,
      (space.sameView_setRegAt g space.pil GenReg.p _).trans view, ⟨written.stored, written.kept⟩, ?_⟩
    · rw [storeResult, bcdStoreOperand, run_bind_ok done]
      exact run_skipReturn
    · rw [FlatState.reg_setRegAt_self, reg]
      rfl

/-- Both operands are loaded before the sum is stored. -/
theorem run_opcodeAddSub {op2SignFlip : Int} {result : BcdOperand} {overflow : Bool}
    (readable : space.FieldReadable f (space.second f false).addr (space.second f false).memWords)
    (resident : space.FieldResident f (space.first f false).addr (space.first f false).memWords place)
    (first : ¬ (space.first f false).Refused) (second : ¬ (space.second f false).Refused)
    (sum : bcdAddSub (space.first f false) (space.second f false) op2SignFlip = .ok (result, overflow))
    (same : BcdOperand.SameDescriptor result (space.first f false)) :
    ∃ g, space.run (opcodeAddSub op2SignFlip) f = .ok () g ∧
      space.StoredRun (f.reg space.pil RegNum.a) (f.reg space.pil RegNum.d) place result overflow f g := by
  obtain ⟨g, done, stored⟩ := run_storeResult overflow same resident
  refine ⟨g, ?_, stored⟩
  rw [opcodeAddSub, run_bind_ok (run_firstOperand false resident.readable), if_neg first]
  dsimp only
  rw [run_bind_ok (run_secondOperand false readable), if_neg second]
  dsimp only
  rw [run_lift sum]
  exact done

theorem run_opcodeComd {answer : Int}
    (readableFirst : space.FieldReadable f (space.first f false).addr (space.first f false).memWords)
    (readableSecond : space.FieldReadable f (space.second f false).addr (space.second f false).memWords)
    (first : ¬ (space.first f false).Refused) (second : ¬ (space.second f false).Refused)
    (compared : bcdCompare (space.first f false) (space.second f false) = .ok answer) :
    ∃ g, space.run opcodeComdCompareTwoDecimalOperands f = .ok () g ∧ g.memory = f.memory ∧
      g.reg space.pil RegNum.a = (if 0 < answer then 1 else if answer < 0 then 0xFFFF else 0) ∧
      g.reg space.pil RegNum.p = f.reg space.pil RegNum.p + 1 := by
  obtain ⟨word, value⟩ : ∃ word : Word, word = if 0 < answer then 1 else if answer < 0 then 0xFFFF else 0 := ⟨_, rfl⟩
  refine ⟨(f.setRegAt space.pil RegNum.a word).setRegAt space.pil RegNum.p
    ((f.setRegAt space.pil RegNum.a word).reg space.pil RegNum.p + 1), ?_, rfl, ?_, ?_⟩
  · rw [opcodeComdCompareTwoDecimalOperands, run_bind_ok (run_secondOperand false readableSecond), if_neg second]
    dsimp only
    rw [run_bind_ok (run_firstOperand false readableFirst), if_neg first]
    dsimp only
    rw [run_lift compared, ← value, run_bind_ok (run_setReg _ _ _ _)]
    exact run_skipReturn
  · rw [FlatState.reg_setRegAt_other _ (by decide), FlatState.reg_setRegAt_self, value]
  · rw [FlatState.reg_setRegAt_self, FlatState.reg_setRegAt_other _ (by decide)]

theorem run_opcodeShde {result : BcdOperand} {overflow : Bool}
    (readable : space.FieldReadable f (space.first f false).addr (space.first f false).memWords)
    (resident : space.FieldResident f (space.second f false).addr (space.second f false).memWords place)
    (first : ¬ (space.first f false).Refused) (second : ¬ (space.second f false).Refused)
    (shifted : bcdShde (space.second f false) (space.first f false) = .ok (some (result, overflow)))
    (same : BcdOperand.SameDescriptor result (space.second f false)) :
    ∃ g, space.run opcodeShdeDecimalShift f = .ok () g ∧
      space.StoredRun (f.reg space.pil RegNum.x) (f.reg space.pil RegNum.t) place result overflow f g := by
  obtain ⟨g, done, stored⟩ := run_storeResult overflow same resident
  refine ⟨g, ?_, stored⟩
  rw [opcodeShdeDecimalShift, run_bind_ok (run_secondOperand false resident.readable), if_neg second]
  dsimp only
  rw [run_bind_ok (run_firstOperand false readable), if_neg first]
  dsimp only
  rw [run_lift shifted]
  exact done

end Space

section Machine

variable {World : Type} (config : Config World)

/-- The packed field of a descriptor in the memory. -/
def CpuState.packedField (s : CpuState World) (d1 d2 : Word) : BcdOperand :=
  (s.space config).packedField s.flat d1 d2

/-- A field of a legal descriptor that lies wholly in the words that are loaded. -/
structure CpuState.WholeField (s : CpuState World) (d1 d2 : Word) : Prop where
  accepted : ¬ (s.packedField config d1 d2).Refused
  buffered : (s.packedField config d1 d2).Buffered
  readable : s.FieldReadable config (s.packedField config d1 d2)

/-- The field of a descriptor gets a number and its sign, and the skip return tells that the number fits. -/
structure FieldResult (s t : CpuState World) (d1 d2 : Word) (m signNibble : Nat) : Prop where
  packed : Packed (s.packedField config d1 d2) m signNibble (t.packedField config d1 d2)
  kept : ∀ cell, (∀ i < (s.packedField config d1 d2).memWords,
    (s.space config).access s.flat .read (d1 + BitVec.ofNat 16 i) true ≠ .word cell) →
      t.flat.memory cell = s.flat.memory cell
  next : t.getReg RegNum.p = s.getReg RegNum.p +
    if m < 10 ^ ((s.packedField config d1 d2).fieldLength - 1) then 1 else 0

variable {config} {s : CpuState World} {d1 d2 : Word}

theorem CpuState.WholeField.sameNibbles (field : s.WholeField config d1 d2) :
    BcdOperand.SameNibbles (s.operand config d1 d2 false) (s.packedField config d1 d2) :=
  Space.operand_sameNibbles field.buffered

theorem fieldResident_apart {place : Nat → Nat} {count : Nat}
    (resident : (s.space config).FieldResident s.flat d1 count place) :
    (s.space config).Apart s.flat d1 count place := by
  intro j last above physical reached i below
  have size : bcdMaxWords = 10 := rfl
  exact access_word_apart reached (resident.reached i below).1
    (fieldWords_apart d1 (by omega) (by omega) (by omega))

/-- The run of the flat memory is the run of the machine. -/
theorem exec_stored {instr : Instr Unit} {place : Nat → Nat} {result : BcdOperand} {m signNibble : Nat}
    (field : s.WholeField config d1 d2)
    (resident : (s.space config).FieldResident s.flat d1 (s.packedField config d1 d2).memWords place)
    (packed : Packed (s.operand config d1 d2 false) m signNibble result)
    (ran : ∃ g, (s.space config).run instr s.flat = .ok () g ∧
      (s.space config).StoredRun d1 d2 place result
        (decide (10 ^ ((s.packedField config d1 d2).fieldLength - 1) ≤ m)) s.flat g) :
    ∃ t, exec config instr s = .ok () t ∧ FieldResult config s t d1 d2 m signNibble := by
  obtain ⟨g, done, stored⟩ := ran
  have apart := fieldResident_apart resident
  have follows := exec_follows config instr s
  rw [done] at follows
  obtain ⟨t, finished, flat, space⟩ := follows.ok
  subst flat
  have pil : t.pil = s.pil := congrArg Space.pil space
  refine ⟨t, finished, ?_, fun cell outside => stored.written.kept cell fun i inside same => ?_, ?_⟩
  · have written := stored.written.packed stored.view resident apart field.buffered packed
    rw [CpuState.packedField, CpuState.packedField, space]
    exact written
  · subst same
    exact outside i inside (resident.reached i inside).1
  · have next := stored.next
    rw [CpuState.getReg, pil]
    refine next.trans (congrArg _ ?_)
    by_cases fits : m < 10 ^ ((s.packedField config d1 d2).fieldLength - 1)
    · rw [if_pos fits, decide_eq_false (by omega), if_neg Bool.false_ne_true]
    · rw [if_neg fits, decide_eq_true (by omega), if_pos rfl]

/-- The fields of a digit and of an empty word. -/
theorem packedDigit_field {word : Word} (known : word = 0x5C00 ∨ word = 0x5D00) :
    (packedDigit word).WholeField bareMachine 0 2 ∧ (packedDigit word).WholeField bareMachine 8 0x0802 := by
  have one {count i : Nat} (size : count = 1) (inside : i < count) : i = 0 := by omega
  rcases known with rfl | rfl
  all_goals
    refine ⟨⟨by decide, ?_, fun i inside => ?_⟩, by decide +kernel, ?_, fun i inside => ?_⟩
    · change _ + _ ≤ 4 * _
      decide +kernel
    · obtain rfl := one (by decide +kernel) inside
      exact ⟨0, by decide⟩
    · change _ + _ ≤ 4 * _
      decide
    · obtain rfl := one (by decide +kernel) inside
      exact ⟨8, by decide⟩

section Sums

/-- The operands of `ADDD` and `SUBD` hold decimal digits, and the first one is written. -/
structure SumFields (config : Config World) (s : CpuState World) : Prop where
  first : s.WholeField config (s.getReg RegNum.a) (s.getReg RegNum.d)
  second : s.WholeField config (s.getReg RegNum.x) (s.getReg RegNum.t)
  digits : (s.packedField config (s.getReg RegNum.a) (s.getReg RegNum.d)).Decimal
  others : (s.packedField config (s.getReg RegNum.x) (s.getReg RegNum.t)).Decimal
  resident : s.FieldResident config (s.packedField config (s.getReg RegNum.a) (s.getReg RegNum.d))

/-- An instruction leaves a signed number in the field of A and D. -/
def StoresSum (config : Config World) (instr : Instr Unit) (s : CpuState World) (exact : Int) : Prop :=
  ∃ t, exec config instr s = .ok () t ∧
    FieldResult config s t (s.getReg RegNum.a) (s.getReg RegNum.d) exact.natAbs
      ((s.packedField config (s.getReg RegNum.a) (s.getReg RegNum.d)).resultSign exact)

theorem opcodeAddSub_stores (fields : SumFields config s) {op2SignFlip : Int}
    (flip : op2SignFlip = 1 ∨ op2SignFlip = -1) :
    StoresSum config (opcodeAddSub op2SignFlip) s
      ((s.packedField config (s.getReg RegNum.a) (s.getReg RegNum.d)).value +
        op2SignFlip * (s.packedField config (s.getReg RegNum.x) (s.getReg RegNum.t)).value) := by
  have one := fields.first.sameNibbles
  have two := fields.second.sameNibbles
  obtain ⟨place, resident⟩ := fields.resident.place
  obtain ⟨digits, all, number, sum⟩ := bcdAddSub_eq (one.decimal fields.digits) (two.decimal fields.others) flip
  have exact : exactSum (s.operand config (s.getReg RegNum.a) (s.getReg RegNum.d) false)
      (s.operand config (s.getReg RegNum.x) (s.getReg RegNum.t) false) op2SignFlip =
        (s.packedField config (s.getReg RegNum.a) (s.getReg RegNum.d)).value +
          op2SignFlip * (s.packedField config (s.getReg RegNum.x) (s.getReg RegNum.t)).value := by
    rw [exactSum, one.value, two.value]
  rw [exact] at number sum
  generalize (s.packedField config (s.getReg RegNum.a) (s.getReg RegNum.d)).value +
    op2SignFlip * (s.packedField config (s.getReg RegNum.x) (s.getReg RegNum.t)).value = total at number sum
  rw [one.resultSign] at sum
  have small : (s.packedField config (s.getReg RegNum.a) (s.getReg RegNum.d)).resultSign total < 16 := by
    unfold BcdOperand.resultSign
    split
    · decide
    · split <;> decide
  obtain ⟨result, packs, packed⟩ := @packMagnitudeToField_packed (s.operand config (s.getReg RegNum.a)
    (s.getReg RegNum.d) false) _ _ all small
  rw [number] at packs packed
  exact exec_stored fields.first resident packed
    (Space.run_opcodeAddSub fields.second.readable resident fields.first.accepted fields.second.accepted
      (sum.trans packs) packed.same)

end Sums

section Order

/-- The registers of two descriptors. -/
def CpuState.withDescriptors (s : CpuState World) (first second : Word × Word) : CpuState World :=
  (((s.setReg RegNum.a first.1).setReg RegNum.d first.2).setReg RegNum.x second.1).setReg RegNum.t second.2

/-- `COMD` answers a word for two descriptors. -/
def ComdAnswers (config : Config World) (s : CpuState World) (first second : Word × Word) (word : Word) : Prop :=
  ∃ t, exec config opcodeComdCompareTwoDecimalOperands (s.withDescriptors first second) = .ok () t ∧
    t.getReg RegNum.a = word ∧ t.getReg RegNum.p = s.getReg RegNum.p + 1 ∧ t.flat.memory = s.flat.memory

/-- The answer is the sign of the difference of two numbers. -/
def orderWord (x y : ℚ) : Word := if y < x then 1 else if x < y then 0xFFFF else 0

/-- The number of a field with its decimal point. -/
def CpuState.fieldNumber (config : Config World) (s : CpuState World) (field : Word × Word) : ℚ :=
  (s.packedField config field.1 field.2).rational

/-- The answers of `COMD` are the order of the numbers. -/
structure ComdOrder (config : Config World) (s : CpuState World) (Operand : Word × Word → Prop) : Prop where
  exact : ∀ first second, Operand first → Operand second →
    ComdAnswers config s first second (orderWord (s.fieldNumber config first) (s.fieldNumber config second))
  swapped : ∀ first second word, Operand first → Operand second →
    ComdAnswers config s first second word → ComdAnswers config s second first (-word)
  transitive : ∀ first second third one two, Operand first → Operand second → Operand third →
    ComdAnswers config s first second one → ComdAnswers config s second third two → one ≠ 1 → two ≠ 1 →
      ∃ three, three ≠ 1 ∧ ComdAnswers config s first third three

theorem orderWord_eq (x y : ℚ) : (if 0 < order x y then 1 else if order x y < 0 then 0xFFFF else 0) = orderWord x y := by
  unfold order orderWord
  rcases lt_trichotomy x y with less | equal | greater
  · simp [less, less.not_gt]
  · simp [equal]
  · simp [greater]

theorem orderWord_swap (x y : ℚ) : orderWord y x = -orderWord x y := by
  unfold orderWord
  rcases lt_trichotomy x y with less | equal | greater
  · simp [less, less.not_gt]
  · simp [equal]
  · simp [greater, greater.not_gt]

theorem orderWord_ne_one {x y : ℚ} : orderWord x y ≠ 1 ↔ x ≤ y := by
  unfold orderWord
  rcases lt_trichotomy x y with less | equal | greater
  · simp [less, less.not_gt, less.le]
  · simp [equal]
  · simp [greater, greater.not_ge]

theorem ComdAnswers.same {first second : Word × Word} {one two : Word} (left : ComdAnswers config s first second one)
    (right : ComdAnswers config s first second two) : one = two := by
  obtain ⟨t, ran, answer, -⟩ := left
  obtain ⟨u, again, found, -⟩ := right
  obtain rfl : t = u := by
    rw [ran] at again
    exact (EStateM.Result.ok.inj again).2
  exact answer.symm.trans found

/-- The exact answers are swapped and transitive. -/
theorem ComdOrder.of_exact {Operand : Word × Word → Prop}
    (exact : ∀ first second, Operand first → Operand second →
      ComdAnswers config s first second (orderWord (s.fieldNumber config first) (s.fieldNumber config second))) :
    ComdOrder config s Operand where
  exact := exact
  swapped first second word one two answer := by
    rw [answer.same (exact first second one two), ← orderWord_swap]
    exact exact second first two one
  transitive first second third word again one two three left right below above := by
    rw [left.same (exact first second one two), orderWord_ne_one] at below
    rw [right.same (exact second third two three), orderWord_ne_one] at above
    exact ⟨_, orderWord_ne_one.mpr (below.trans above), exact first third one three⟩

/-- The fields that `COMD` compares. -/
structure ComparedField (config : Config World) (s : CpuState World) (field : Word × Word) : Prop where
  whole : s.WholeField config field.1 field.2
  digits : (s.packedField config field.1 field.2).Decimal

theorem withDescriptors_flat (config : Config World) (s : CpuState World) (first second : Word × Word) :
    (s.withDescriptors first second).flat =
      (s.space config).withOperands s.flat first.1 first.2 second.1 second.2 := rfl

theorem withDescriptors_space (config : Config World) (s : CpuState World) (first second : Word × Word) :
    (s.withDescriptors first second).space config = s.space config := by
  have register (s : CpuState World) (r : RegNum) (value : Word) :
      (s.setReg r value).space config = s.space config := rfl
  rw [CpuState.withDescriptors, register, register, register, register]

theorem withDescriptors_operands (config : Config World) (s : CpuState World) (first second : Word × Word) :
    (s.space config).first (s.withDescriptors first second).flat false = s.operand config first.1 first.2 false ∧
      (s.space config).second (s.withDescriptors first second).flat false =
        s.operand config second.1 second.2 false := by
  have view := Space.withOperands_sameView (s.space config) s.flat first.1 first.2 second.1 second.2
  rw [withDescriptors_flat, Space.first_withOperands, Space.second_withOperands]
  exact ⟨Space.operand_sameView view rfl, Space.operand_sameView view rfl⟩

/-- Every pair of fields is compared by the exact numbers. -/
theorem comdAnswers_exact {first second : Word × Word} (one : ComparedField config s first)
    (two : ComparedField config s second) :
    ComdAnswers config s first second (orderWord (s.fieldNumber config first) (s.fieldNumber config second)) := by
  obtain ⟨left, right⟩ := withDescriptors_operands config s first second
  have flat := withDescriptors_flat config s first second
  have space := withDescriptors_space config s first second
  have view := Space.withOperands_sameView (s.space config) s.flat first.1 first.2 second.1 second.2
  rw [← flat] at view
  have same1 := one.whole.sameNibbles
  have same2 := two.whole.sameNibbles
  have compared := bcdCompare_eq (same1.decimal one.digits) (same2.decimal two.digits)
  rw [same1.rational, same2.rational] at compared
  obtain ⟨g, done, memory, answer, next⟩ := Space.run_opcodeComd
    (by rw [left]; exact one.whole.readable.sameView view) (by rw [right]; exact two.whole.readable.sameView view)
    (by rw [left]; exact one.whole.accepted) (by rw [right]; exact two.whole.accepted)
    (by rw [left, right]; exact compared)
  have follows := exec_follows config opcodeComdCompareTwoDecimalOperands (s.withDescriptors first second)
  rw [space, done] at follows
  obtain ⟨t, finished, reached, space'⟩ := follows.ok
  subst reached
  have pil : t.pil = s.pil := congrArg Space.pil space'
  refine ⟨t, finished, ?_, ?_, memory⟩
  · rw [CpuState.getReg, pil]
    exact answer.trans (orderWord_eq _ _)
  · rw [CpuState.getReg, pil]
    refine next.trans (congrArg (· + 1) ?_)
    rw [flat]
    exact Space.withOperands_reg _ _ _ _ _ _ (by decide)

/-- A minus one that starts in a right byte, with its last digit and its sign in the second word. -/
def skewedMinusOne : CpuState Unit :=
  (cpuInit bareMachine ()).putMemory (Function.update (fun _ => 0) 1 0x1D00)

/-- A field of a legal descriptor with decimal digits. -/
structure LegalField (config : Config World) (s : CpuState World) (field : Word × Word) : Prop where
  accepted : ¬ (s.packedField config field.1 field.2).Refused
  digits : (s.packedField config field.1 field.2).Decimal
  readable : s.FieldReadable config (s.packedField config field.1 field.2)

end Order

section Shift

/-- The source of `SHDE` holds decimal digits, and the destination is written. -/
structure ShiftFields (config : Config World) (s : CpuState World) : Prop where
  source : s.WholeField config (s.getReg RegNum.a) (s.getReg RegNum.d)
  target : s.WholeField config (s.getReg RegNum.x) (s.getReg RegNum.t)
  digits : (s.packedField config (s.getReg RegNum.a) (s.getReg RegNum.d)).SignificantDecimal
  nonempty : (s.packedField config (s.getReg RegNum.x) (s.getReg RegNum.t)).fieldLength ≠ 0
  resident : s.FieldResident config (s.packedField config (s.getReg RegNum.x) (s.getReg RegNum.t))

end Shift

end Machine

end Nd100x
