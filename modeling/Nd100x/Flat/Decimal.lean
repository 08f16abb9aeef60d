import Nd100x.Flat.Resident
import Nd100x.Proof.DecimalRoundTrip
import Nd100x.Machine.Reset
import Mathlib

namespace Nd100x

open Library

/-- A descriptor is refused when its decimal point lies outside the field. -/
def BcdOperand.Refused (op : BcdOperand) : Prop :=
  op.fieldLength ≤ op.decimalPoint ∧ op.decimalPoint ≠ 0

instance (op : BcdOperand) : Decidable op.Refused :=
  inferInstanceAs (Decidable (_ ∧ _))

/-- The words that are loaded and stored hold the whole field. -/
def BcdOperand.Buffered (op : BcdOperand) : Prop :=
  if op.isAscii then op.fieldLength + op.skew ≤ 2 * op.memWords
  else op.byteAlignedNibbles + 2 * op.skew ≤ 4 * op.memWords

namespace Space

variable (space : Space) (f : FlatState)

/-- The word that a data read gives, where it reaches one. -/
def readWord (address : Word) : Word :=
  match space.access f .read address true with
  | .word physical => f.memory physical
  | _ => 0

/-- The operand whose words are in the memory. -/
def operand (d1 d2 : Word) (isAscii : Bool) : BcdOperand where
  addr := d1
  d2 := d2
  isAscii := isAscii
  words := fun i =>
    if i.val < (⟨d1, d2, isAscii, fun _ => 0⟩ : BcdOperand).memWords then
      space.readWord f (d1 + BitVec.ofNat 16 i)
    else 0

/-- Every word of the field is reached by reads. -/
def FieldReadable (d1 : Word) (count : Nat) : Prop :=
  ∀ i < count, ∃ physical,
    space.access f .read (d1 + BitVec.ofNat 16 i) true = .word physical

/-- Every word of the field has its own place for reads and writes. -/
structure FieldResident (d1 : Word) (count : Nat) (place : Nat → Nat) : Prop where
  reached : ∀ i < count, space.Resident f (d1 + BitVec.ofNat 16 i) true (place i)
  apart : ∀ i < count, ∀ j < count, place i = place j → i = j

variable {space f}

theorem FieldResident.readable {d1 : Word} {count : Nat} {place : Nat → Nat}
    (resident : space.FieldResident f d1 count place) : space.FieldReadable f d1 count :=
  fun i inside => ⟨place i, (resident.reached i inside).1⟩

theorem FieldResident.sameView {g : FlatState} {d1 : Word} {count : Nat} {place : Nat → Nat}
    (same : space.SameView f g) (resident : space.FieldResident g d1 count place) :
    space.FieldResident f d1 count place :=
  ⟨fun i inside => (resident.reached i inside).sameView same, resident.apart⟩

theorem FieldReadable.sameView {g : FlatState} {d1 : Word} {count : Nat}
    (same : space.SameView f g) (readable : space.FieldReadable g d1 count) :
    space.FieldReadable f d1 count := by
  intro i inside
  obtain ⟨physical, reached⟩ := readable i inside
  exact ⟨physical, (same.access _ _ _).trans reached⟩

theorem readWord_word {address : Word} {physical : Nat}
    (reached : space.access f .read address true = .word physical) :
    space.readWord f address = f.memory physical := by
  rw [readWord, reached]

theorem run_bcdLoadWords (addr : Word) (indices : List (Fin bcdMaxWords))
    (words : Fin bcdMaxWords → Word)
    (readable : ∀ i ∈ indices, ∃ physical,
      space.access f .read (addr + BitVec.ofNat 16 i) true = .word physical) :
    space.run (bcdLoadWords addr indices words) f = .ok
      (fun i => if i ∈ indices then space.readWord f (addr + BitVec.ofNat 16 i) else words i) f := by
  induction indices generalizing words with
  | nil =>
    rw [bcdLoadWords, run_pure]
    simp
  | cons i rest ih =>
    obtain ⟨physical, reached⟩ := readable i (by simp)
    rw [bcdLoadWords, run_bind_ok (run_memRead reached),
      ih _ fun j member => readable j (List.mem_cons_of_mem _ member)]
    congr 1
    funext j
    by_cases later : j ∈ rest
    · rw [if_pos later, if_pos (List.mem_cons_of_mem _ later)]
    · by_cases here : j = i
      · rw [if_neg later, here, Function.update_self, if_pos (by simp), readWord_word reached]
      · rw [if_neg later, Function.update_of_ne here, if_neg (by simp [here, later])]

theorem mem_take_finRange (count : Nat) (i : Fin bcdMaxWords) :
    i ∈ (List.finRange bcdMaxWords).take count ↔ i.val < count := by
  rw [List.mem_take_iff_getElem]
  constructor
  · rintro ⟨j, inside, found⟩
    rw [List.getElem_finRange] at found
    rw [← found]
    simp only [Fin.val_cast]
    omega
  · intro below
    exact ⟨i.val, by simp [below], by simp [List.getElem_finRange]⟩

theorem run_bcdGetOperand (d1 d2 : Word) (isAscii : Bool)
    (readable : space.FieldReadable f d1 (BcdOperand.memWords ⟨d1, d2, isAscii, fun _ => 0⟩)) :
    space.run (bcdGetOperand d1 d2 isAscii) f =
      .ok (if (space.operand f d1 d2 isAscii).Refused then none
        else some (space.operand f d1 d2 isAscii)) f := by
  unfold bcdGetOperand
  dsimp only
  by_cases refused : (space.operand f d1 d2 isAscii).Refused
  · rw [if_pos refused, if_pos (by exact refused), run_pure]
  · rw [if_neg refused, if_neg (by exact refused),
      run_bind_ok (run_bcdLoadWords d1 _ _ fun i member => ?_), run_pure]
    · unfold operand
      congr 3
      funext i
      simp only [List.mem_reverse, mem_take_finRange]
    · rw [List.mem_reverse, mem_take_finRange] at member
      exact readable i member

/-- A stored field is found in its places, and the registers are kept. -/
theorem run_bcdStoreWords (op : BcdOperand) {count : Nat} {place : Nat → Nat}
    (indices : List (Fin bcdMaxWords)) (distinct : indices.Nodup)
    (below : ∀ i ∈ indices, i.val < count)
    (resident : space.FieldResident f op.addr count place) :
    ∃ g, space.run (bcdStoreWords op indices) f = .ok () g ∧ space.SameView g f ∧ g.reg = f.reg ∧
      (∀ i ∈ indices, g.memory (place i) = op.words i) ∧
      ∀ cell, (∀ i ∈ indices, cell ≠ place i) → g.memory cell = f.memory cell := by
  induction indices generalizing f with
  | nil => exact ⟨f, run_pure space f (), .refl f, rfl, by simp, fun _ _ => rfl⟩
  | cons i rest ih =>
    have reached := (resident.reached i (below i (by simp))).2
    have view := sameView_store space f (place i) (op.words i) .word
    obtain ⟨g, done, same, reg, stored, kept⟩ := ih (List.nodup_cons.mp distinct).2
      (fun j member => below j (List.mem_cons_of_mem _ member)) (resident.sameView view)
    refine ⟨g, ?_, same.trans view, reg.trans (store_reg _ _ _ _ _), fun j member => ?_,
      fun cell outside => ?_⟩
    · rw [bcdStoreWords, run_bind_ok (run_memWrite reached), done]
    · rcases List.mem_cons.mp member with rfl | member
      · rw [kept _ fun k later same => ?_, store_memory, FlatState.write_memory, if_pos rfl]
        · rfl
        · have index := resident.apart j (below j (by simp)) k
            (below k (List.mem_cons_of_mem _ later)) same
          exact (List.nodup_cons.mp distinct).1 (Fin.ext index ▸ later)
      · exact stored j member
    · rw [kept cell fun j member => outside j (List.mem_cons_of_mem _ member), store_memory,
        FlatState.write_memory, if_neg (outside i (by simp))]

theorem run_bcdStoreOperand (op : BcdOperand) {place : Nat → Nat}
    (resident : space.FieldResident f op.addr op.memWords place) :
    ∃ g, space.run (bcdStoreOperand op) f = .ok () g ∧ space.SameView g f ∧ g.reg = f.reg ∧
      ∀ i : Fin bcdMaxWords, i.val < op.memWords → g.memory (place i) = op.words i := by
  obtain ⟨g, done, same, reg, stored, -⟩ := run_bcdStoreWords op
    ((List.finRange bcdMaxWords).take op.memWords)
    ((List.nodup_finRange _).sublist (List.take_sublist _ _))
    (fun i member => (mem_take_finRange _ i).mp member) resident
  exact ⟨g, done, same, reg, fun i inside => stored i ((mem_take_finRange _ i).mpr inside)⟩

/-- A stored operand is read back. -/
theorem operand_stored {op : BcdOperand} {place : Nat → Nat}
    (resident : space.FieldResident f op.addr op.memWords place)
    (stored : ∀ i : Fin bcdMaxWords, i.val < op.memWords → f.memory (place i) = op.words i)
    (i : Fin bcdMaxWords) (inside : i.val < op.memWords) :
    (space.operand f op.addr op.d2 op.isAscii).words i = op.words i := by
  have reached := (resident.reached i inside).1
  change (if i.val < op.memWords then space.readWord f (op.addr + BitVec.ofNat 16 i) else 0) = _
  rw [if_pos inside, readWord_word reached, stored i inside]

end Space

namespace BcdOperand

variable {first second : BcdOperand} (count : Nat)

theorem skew_congr (same : first.d2 = second.d2) : first.skew = second.skew := by
  unfold skew startsInRightByte
  rw [same]

theorem wordAt_congr (words : ∀ i : Fin bcdMaxWords, i.val < count → first.words i = second.words i)
    {index : Nat} (inside : index < count) : first.wordAt index = second.wordAt index := by
  unfold wordAt
  split
  · exact words _ inside
  · rfl

/-- The bytes of a field depend on its words only. -/
theorem byteAt_congr (same : first.d2 = second.d2)
    (words : ∀ i : Fin bcdMaxWords, i.val < count → first.words i = second.words i) {j : Nat}
    (inside : j + second.skew < 2 * count) : first.byteAt j = second.byteAt j := by
  unfold byteAt
  rw [skew_congr same, wordAt_congr count words (by omega)]

theorem nibbleAt_congr (same : first.d2 = second.d2)
    (words : ∀ i : Fin bcdMaxWords, i.val < count → first.words i = second.words i) {j : Nat}
    (inside : j + 2 * second.skew < 4 * count) : first.nibbleAt j = second.nibbleAt j := by
  unfold nibbleAt
  rw [skew_congr same, wordAt_congr count words (by omega)]

theorem decodeSource_congr (same : first.d2 = second.d2)
    (nibbles : ∀ j < second.byteAlignedNibbles, first.nibbleAt j = second.nibbleAt j) :
    decodeSource first = decodeSource second := by
  have length : first.fieldLength = second.fieldLength := by rw [fieldLength, same, fieldLength]
  have aligned : first.byteAlignedNibbles = second.byteAlignedNibbles := by
    rw [byteAlignedNibbles, length, byteAlignedNibbles]
  have shorter := second.fieldLength_le_byteAligned
  have places : significantNibbles first = significantNibbles second := by
    rw [significantNibbles, aligned, length, significantNibbles]
  unfold decodeSource
  rw [length, places, aligned]
  by_cases empty : second.fieldLength = 0
  · rw [if_pos empty, if_pos empty]
  · have some := second.byteAlignedNibbles_pos empty
    have inside : ∀ i ∈ significantNibbles second, first.nibbleAt i = second.nibbleAt i := by
      intro i member
      rw [significantNibbles, List.mem_range'_1] at member
      exact nibbles i (by omega)
    have values := List.map_congr_left inside
    have all : (∀ i ∈ significantNibbles second, first.nibbleAt i ≤ 9) ↔
        ∀ i ∈ significantNibbles second, second.nibbleAt i ≤ 9 :=
      forall₂_congr fun i member => by rw [inside i member]
    rw [if_neg empty, if_neg empty, nibbles _ (by omega), values]
    simp only [all]

end BcdOperand

namespace Space

variable {space : Space} {f : FlatState}

/-- The operands of A and D and of X and T. -/
def first (space : Space) (f : FlatState) (isAscii : Bool) : BcdOperand :=
  space.operand f (f.reg space.pil RegNum.a) (f.reg space.pil RegNum.d) isAscii

def second (space : Space) (f : FlatState) (isAscii : Bool) : BcdOperand :=
  space.operand f (f.reg space.pil RegNum.x) (f.reg space.pil RegNum.t) isAscii

theorem run_firstOperand (isAscii : Bool) (readable : space.FieldReadable f
      (space.first f isAscii).addr (space.first f isAscii).memWords) :
    space.run (firstOperand isAscii) f =
      .ok (if (space.first f isAscii).Refused then none else some (space.first f isAscii)) f := by
  rw [firstOperand, run_bind_ok (run_getReg space f _), run_bind_ok (run_getReg space f _)]
  exact run_bcdGetOperand _ _ _ readable

theorem run_secondOperand (isAscii : Bool) (readable : space.FieldReadable f
      (space.second f isAscii).addr (space.second f isAscii).memWords) :
    space.run (secondOperand isAscii) f =
      .ok (if (space.second f isAscii).Refused then none else some (space.second f isAscii)) f := by
  rw [secondOperand, run_bind_ok (run_getReg space f _), run_bind_ok (run_getReg space f _)]
  exact run_bcdGetOperand _ _ _ readable

theorem run_skipReturn :
    space.run skipReturn f =
      .ok () (f.setRegAt space.pil RegNum.p (f.reg space.pil RegNum.p + 1)) := by
  rw [skipReturn, run_bind_ok (run_getReg space f _), run_setReg]
  rfl

/-- An error report keeps the program counter. -/
theorem run_bcdReportError (space : Space) (f : FlatState) (error : BcdError) :
    ∃ g, space.run (bcdReportError error) f = .ok () g ∧
      g.reg space.pil RegNum.p = f.reg space.pil RegNum.p := by
  unfold bcdReportError
  rw [run_bind_ok (run_getReg space f _), run_bind_ok (run_setReg space f _ _)]
  by_cases illegal : error = .illegalCode
  · rw [if_pos illegal, run_bind_ok (run_getReg space _ _), run_bind_ok (run_setReg space _ _ _),
      run_bind_ok (run_getReg space _ _), run_setReg]
    refine ⟨_, rfl, ?_⟩
    rw [FlatState.reg_setRegAt_other _ (by decide), FlatState.reg_setRegAt_other _ (by decide),
      FlatState.reg_setRegAt_other _ (by decide)]
  · rw [if_neg illegal, run_pure]
    exact ⟨_, rfl, FlatState.reg_setRegAt_other _ (by decide)⟩

theorem succ_ne_self (value : Word) : value ≠ value + 1 := by
  bv_omega

/-- The operands reach the finishing part of `UPACK`. -/
theorem run_upack_eq
    (readable : space.FieldReadable f (space.first f false).addr (space.first f false).memWords)
    (target : space.FieldReadable f (space.second f true).addr (space.second f true).memWords) :
    space.run opcodeUnpackConvertFromDecimal f =
      if (space.first f false).Refused ∨ (space.second f true).Refused then
        space.run (bcdReportError .illegalCode) f
      else if (space.second f true).fieldLength = 0 then .ok () f
      else
        space.run (Instr.lift (bcdConvertToUnpacked (space.second f true) (space.first f false)) >>=
          finishConversion) f := by
  rw [opcodeUnpackConvertFromDecimal, run_bind_ok (run_firstOperand false readable)]
  by_cases one : (space.first f false).Refused
  · rw [if_pos one, if_pos (.inl one)]
  · rw [if_neg one]
    dsimp only
    rw [run_bind_ok (run_secondOperand true target)]
    by_cases two : (space.second f true).Refused
    · rw [if_pos two, if_pos (.inr two)]
    · rw [if_neg two, if_neg (not_or.mpr ⟨one, two⟩)]
      dsimp only
      by_cases empty : (space.second f true).fieldLength = 0
      · rw [if_pos empty, if_pos empty, run_pure]
      · rw [if_neg empty, if_neg empty]

theorem run_lift {A B : Type} {core : Except Stop A} {value : A} (done : core = .ok value)
    (next : A → Instr B) : space.run (Instr.lift core >>= next) f = space.run (next value) f := by
  rw [done]
  rfl

/-- A stored conversion without an overflow ends with the skip return. -/
theorem run_finishConversion {field : BcdOperand} (overflow : Bool) {place : Nat → Nat}
    (resident : space.FieldResident f field.addr field.memWords place) :
    ∃ g, space.run (finishConversion (.stored field overflow)) f = .ok () g ∧
      (overflow = true → g.reg space.pil RegNum.p = f.reg space.pil RegNum.p) ∧
      (overflow = false → g.reg space.pil RegNum.p = f.reg space.pil RegNum.p + 1 ∧
        space.SameView g f ∧ (∀ r, r ≠ RegNum.p → g.reg space.pil r = f.reg space.pil r) ∧
        ∀ i : Fin bcdMaxWords, i.val < field.memWords → g.memory (place i) = field.words i) := by
  obtain ⟨g, done, same, reg, stored⟩ := run_bcdStoreOperand field resident
  rw [finishConversion, run_bind_ok done]
  cases overflow with
  | true =>
    obtain ⟨h, reported, kept⟩ := run_bcdReportError space g .overflow
    exact ⟨h, reported, fun _ => by rw [kept, reg], fun found => nomatch found⟩
  | false =>
    refine ⟨_, run_skipReturn, fun found => (nomatch found), fun _ => ⟨?_, ?_, fun r other => ?_, stored⟩⟩
    · rw [FlatState.reg_setRegAt_self, reg]
    · exact (sameView_setRegAt space g space.pil GenReg.p _).trans same
    · rw [FlatState.reg_setRegAt_other _ other, reg]

/-- A run with a skip return has stored the unpacked field. -/
theorem run_upack {place : Nat → Nat}
    (readable : space.FieldReadable f (space.first f false).addr (space.first f false).memWords)
    (resident : space.FieldResident f (space.second f true).addr (space.second f true).memWords place)
    (inside : (space.second f true).fieldLength + (space.second f true).skew ≤ 20) :
    ∃ g, space.run opcodeUnpackConvertFromDecimal f = .ok () g ∧
      (g.reg space.pil RegNum.p = f.reg space.pil RegNum.p + 1 →
        ¬ (space.second f true).Refused ∧ (space.second f true).fieldLength ≠ 0 ∧
        ∃ digits sign uns field, decodeSource (space.first f false) = some (digits, sign, uns) ∧
          digits.length ≤ (space.second f true).digitCount ∧
          BcdOperand.SameDescriptor field (space.second f true) ∧
          UnpackedField (space.second f true) (uns || (space.second f true).unsignedRequested) sign
            digits field ∧
          space.SameView g f ∧ (∀ r, r ≠ RegNum.p → g.reg space.pil r = f.reg space.pil r) ∧
          ∀ i : Fin bcdMaxWords, i.val < field.memWords → g.memory (place i) = field.words i) := by
  rw [run_upack_eq readable resident.readable]
  have noSkip {g : FlatState} {P : Prop} (kept : g.reg space.pil RegNum.p = f.reg space.pil RegNum.p)
      (skip : g.reg space.pil RegNum.p = f.reg space.pil RegNum.p + 1) : P :=
    absurd (kept.symm.trans skip) (succ_ne_self _)
  by_cases refused : (space.first f false).Refused ∨ (space.second f true).Refused
  · obtain ⟨g, done, kept⟩ := run_bcdReportError space f .illegalCode
    exact ⟨g, by rw [if_pos refused, done], noSkip kept⟩
  rw [if_neg refused]
  by_cases empty : (space.second f true).fieldLength = 0
  · exact ⟨f, by rw [if_pos empty], noSkip rfl⟩
  rw [if_neg empty]
  have convert := bcdConvertToUnpacked_eq (space.second f true) (space.first f false)
  cases found : decodeSource (space.first f false) with
  | none =>
    rw [found] at convert
    obtain ⟨g, done, kept⟩ := run_bcdReportError space f .illegalCode
    exact ⟨g, by rw [run_lift convert]; exact done, noSkip kept⟩
  | some decoded =>
    obtain ⟨digits, sign, uns⟩ := decoded
    rw [found] at convert
    obtain ⟨field, written, same, bytes⟩ := unpackInto_field (space.second f true) empty inside sign
      (uns || (space.second f true).unsignedRequested) (decodeSource_digits _ found)
    have place' : space.FieldResident f field.addr field.memWords place := by
      rw [same.addr, same.memWords]
      exact resident
    obtain ⟨g, done, overflowed, skipped⟩ := run_finishConversion
      (decide ((space.second f true).digitCount < digits.length)) place'
    refine ⟨g, by rw [run_lift (convert.trans written), done], fun skip => ?_⟩
    by_cases overflow : (space.second f true).digitCount < digits.length
    · exact noSkip (overflowed (by simp [overflow])) skip
    · obtain ⟨-, view, regs, stored⟩ := skipped (by simp [overflow])
      exact ⟨fun two => refused (.inr two), empty, digits, sign, uns, field, rfl, by omega, same,
        bytes, view, regs, stored⟩

/-- A stored packed field ends `PACK` with the skip return. -/
theorem run_pack {result : BcdOperand} (place : Nat → Nat)
    (readable : space.FieldReadable f (space.first f true).addr (space.first f true).memWords)
    (resident : space.FieldResident f (space.second f false).addr (space.second f false).memWords place)
    (acceptedFirst : ¬ (space.first f true).Refused)
    (acceptedSecond : ¬ (space.second f false).Refused)
    (convert : bcdConvertToPacked (space.second f false) (space.first f true) =
      .ok (.stored result false))
    (same : BcdOperand.SameDescriptor result (space.second f false)) :
    ∃ g, space.run opcodePackConvertToDecimal f = .ok () g ∧
      g.reg space.pil RegNum.p = f.reg space.pil RegNum.p + 1 ∧ space.SameView g f ∧
      ∀ i : Fin bcdMaxWords, i.val < result.memWords → g.memory (place i) = result.words i := by
  have place' : space.FieldResident f result.addr result.memWords place := by
    rw [same.addr, same.memWords]
    exact resident
  obtain ⟨g, done, -, skipped⟩ := run_finishConversion false place'
  obtain ⟨skip, view, -, stored⟩ := skipped rfl
  refine ⟨g, ?_, skip, view, stored⟩
  rw [opcodePackConvertToDecimal, run_bind_ok (run_secondOperand false resident.readable),
    if_neg acceptedSecond]
  dsimp only
  rw [run_bind_ok (run_firstOperand true readable), if_neg acceptedFirst]
  dsimp only
  rw [run_lift convert, done]

/-- The four operand registers are loaded. -/
def withOperands (space : Space) (f : FlatState) (a d x t : Word) : FlatState :=
  (((f.setRegAt space.pil RegNum.a a).setRegAt space.pil RegNum.d d).setRegAt
    space.pil RegNum.x x).setRegAt space.pil RegNum.t t

section Operands

variable (space : Space) (f : FlatState) (a d x t : Word)

theorem withOperands_sameView : space.SameView (space.withOperands f a d x t) f :=
  ((((space.sameView_setRegAt _ space.pil GenReg.t t).trans
    (space.sameView_setRegAt _ space.pil GenReg.x x)).trans
      (space.sameView_setRegAt _ space.pil GenReg.d d)).trans
        (space.sameView_setRegAt _ space.pil GenReg.a a))

theorem withOperands_reg {r : RegNum} (other : r ≠ RegNum.a ∧ r ≠ RegNum.d ∧ r ≠ RegNum.x ∧ r ≠ RegNum.t) :
    (space.withOperands f a d x t).reg space.pil r = f.reg space.pil r := by
  rw [withOperands, FlatState.reg_setRegAt_other _ other.2.2.2,
    FlatState.reg_setRegAt_other _ other.2.2.1, FlatState.reg_setRegAt_other _ other.2.1,
    FlatState.reg_setRegAt_other _ other.1]

theorem first_withOperands (isAscii : Bool) :
    space.first (space.withOperands f a d x t) isAscii =
      space.operand (space.withOperands f a d x t) a d isAscii := by
  have regA : (space.withOperands f a d x t).reg space.pil RegNum.a = a := by
    rw [withOperands, FlatState.reg_setRegAt_other _ (by decide),
      FlatState.reg_setRegAt_other _ (by decide), FlatState.reg_setRegAt_other _ (by decide),
      FlatState.reg_setRegAt_self]
  have regD : (space.withOperands f a d x t).reg space.pil RegNum.d = d := by
    rw [withOperands, FlatState.reg_setRegAt_other _ (by decide),
      FlatState.reg_setRegAt_other _ (by decide), FlatState.reg_setRegAt_self]
  rw [first, regA, regD]

theorem second_withOperands (isAscii : Bool) :
    space.second (space.withOperands f a d x t) isAscii =
      space.operand (space.withOperands f a d x t) x t isAscii := by
  have regX : (space.withOperands f a d x t).reg space.pil RegNum.x = x := by
    rw [withOperands, FlatState.reg_setRegAt_other _ (by decide), FlatState.reg_setRegAt_self]
  have regT : (space.withOperands f a d x t).reg space.pil RegNum.t = t := by
    rw [withOperands, FlatState.reg_setRegAt_self]
  rw [second, regX, regT]

end Operands

end Space

section Machine

variable {World : Type} (config : Config World)

namespace CpuState

variable (s : CpuState World)

/-- The operand of a descriptor, as the instructions load it. -/
def operand (d1 d2 : Word) (isAscii : Bool) : BcdOperand :=
  (s.space config).operand s.flat d1 d2 isAscii

/-- Data reads of the words of a field reach the memory. -/
def FieldReadable (op : BcdOperand) : Prop :=
  (s.space config).FieldReadable s.flat op.addr op.memWords

/-- Data reads and writes of the words of a field reach the same memory words. -/
def FieldResident (op : BcdOperand) : Prop :=
  ∀ i < op.memWords, ∃ physical,
    (s.space config).Resident s.flat (op.addr + BitVec.ofNat 16 i) true physical

end CpuState

variable {config} {s t : CpuState World}

theorem memWords_le (op : BcdOperand) : op.memWords ≤ 10 := by
  unfold BcdOperand.memWords
  have size : bcdMaxWords = 10 := rfl
  split
  · omega
  · dsimp only
    omega

/-- The words of a field lie at different displacements. -/
theorem fieldWords_apart (address : Word) {i j : Nat} (first : i < 10) (second : j < 10)
    (apart : i ≠ j) : (address + BitVec.ofNat 16 i).toNat % 2 ^ 10 ≠
      (address + BitVec.ofNat 16 j).toNat % 2 ^ 10 := by
  rw [BitVec.toNat_add, BitVec.toNat_add, BitVec.toNat_ofNat, BitVec.toNat_ofNat]
  omega

/-- A resident field has a place for every word. -/
theorem CpuState.FieldResident.place {op : BcdOperand} (resident : s.FieldResident config op) :
    ∃ place, (s.space config).FieldResident s.flat op.addr op.memWords place := by
  have small := memWords_le op
  choose place reached using resident
  refine ⟨fun i => if inside : i < op.memWords then place i inside else 0, fun i inside => ?_,
    fun i first j second same => ?_⟩
  · simp only [inside, dif_pos]
    exact reached i inside
  · by_contra apart
    simp only [first, second, dif_pos] at same
    exact access_word_apart (reached i first).1 (reached j second).1
      (fieldWords_apart op.addr (by omega) (by omega) apart) same

/-- `PACK` reads the ASCII field back into a packed field. -/
def CpuState.packRegisters (t : CpuState World) (packedAddr packedD2 : Word) : CpuState World :=
  (((t.setReg RegNum.a (t.getReg RegNum.x)).setReg RegNum.d (t.getReg RegNum.t)).setReg
    RegNum.x packedAddr).setReg RegNum.t packedD2

/-- The fields of `UPACK` and of a `PACK` after it: the source of A and D, the ASCII field
of X and T and a packed field of the length of the source. -/
structure ConversionFields (config : Config World) (s : CpuState World) (packedAddr packedD2 : Word) :
    Prop where
  source : s.FieldReadable config
    (s.operand config (s.getReg RegNum.a) (s.getReg RegNum.d) false)
  ascii : s.FieldResident config (s.operand config (s.getReg RegNum.x) (s.getReg RegNum.t) true)
  buffered : (s.operand config (s.getReg RegNum.x) (s.getReg RegNum.t) true).Buffered
  packed : s.FieldResident config (s.operand config packedAddr packedD2 false)
  accepted : ¬ (s.operand config packedAddr packedD2 false).Refused
  length : (s.operand config packedAddr packedD2 false).fieldLength =
    (s.operand config (s.getReg RegNum.a) (s.getReg RegNum.d) false).fieldLength

/-- `PACK` takes the skip return and leaves the digits and the sign in the packed field. -/
def PacksBack (config : Config World) (t : CpuState World) (packedAddr packedD2 : Word)
    (digits : List Nat) (sign : Int) : Prop :=
  ∃ v, exec config opcodePackConvertToDecimal (t.packRegisters packedAddr packedD2) = .ok () v ∧
    v.getReg RegNum.p = t.getReg RegNum.p + 1 ∧
    ∃ uns, decodeSource (v.operand config packedAddr packedD2 false) = some (digits, sign, uns)

theorem UnpackedField.congr {ascii first second : BcdOperand} {uns : Bool} {sign : Int}
    {digits : List Nat} (nonempty : ascii.fieldLength ≠ 0)
    (bytes : ∀ j < ascii.fieldLength, first.byteAt j = second.byteAt j)
    (field : UnpackedField ascii uns sign digits second) :
    UnpackedField ascii uns sign digits first where
  digit j lower upper := by
    have span := digitEnd_le ascii nonempty
    rw [bytes j (by omega), field.digit j lower upper]
  sign i separate place := by
    obtain ⟨k, same, short, -⟩ := signByte_outside ascii separate nonempty
    have here : i = k := by omega
    rw [bytes i (by omega), field.sign i separate place]

theorem packRegisters_flat (config : Config World) (t : CpuState World) (packedAddr packedD2 : Word) :
    (t.packRegisters packedAddr packedD2).flat =
      (t.space config).withOperands t.flat (t.getReg RegNum.x) (t.getReg RegNum.t) packedAddr packedD2 :=
  rfl

theorem packRegisters_space (config : Config World) (t : CpuState World) (packedAddr packedD2 : Word) :
    (t.packRegisters packedAddr packedD2).space config = t.space config := by
  have register (s : CpuState World) (r : RegNum) (value : Word) :
      (s.setReg r value).space config = s.space config := rfl
  rw [CpuState.packRegisters, register, register, register, register]

theorem buffered_le {op : BcdOperand} (ascii : op.isAscii = true) (buffered : op.Buffered) :
    op.fieldLength + op.skew ≤ 20 := by
  have small := memWords_le op
  rw [BcdOperand.Buffered, if_pos ascii] at buffered
  omega

/-- The stored ASCII field is read by `PACK` as it was written. -/
theorem reread_unpacked {space : Space} {g : FlatState} {ascii field src : BcdOperand}
    {uns : Bool} {sign : Int} {digits : List Nat} (nonempty : ascii.fieldLength ≠ 0)
    (character : ascii.isAscii = true) (buffered : ascii.Buffered)
    (same : BcdOperand.SameDescriptor field ascii)
    (bytes : UnpackedField ascii uns sign digits field) {place : Nat → Nat}
    (resident : space.FieldResident g ascii.addr ascii.memWords place)
    (stored : ∀ i : Fin bcdMaxWords, i.val < field.memWords → g.memory (place i) = field.words i)
    (read : src = space.operand g ascii.addr ascii.d2 true) :
    UnpackedField ascii uns sign digits src := by
  rw [← same.addr, ← same.memWords] at resident
  rw [← character, ← same.addr, ← same.d2, ← same.isAscii] at read
  refine bytes.congr nonempty fun j inside => ?_
  rw [BcdOperand.Buffered, if_pos character, ← same.memWords, ← same.skew] at buffered
  refine BcdOperand.byteAt_congr field.memWords ?_ (fun i below => ?_) (by omega)
  · rw [read]
    rfl
  · rw [read]
    exact Space.operand_stored resident stored i below

/-- A packed field that is stored as a whole is decoded from the memory. -/
theorem restored_packed {space : Space} {g : FlatState} {packed result : BcdOperand}
    {place : Nat → Nat} (resident : space.FieldResident g packed.addr packed.memWords place)
    (binary : packed.isAscii = false) (whole : packed.Buffered)
    (same : BcdOperand.SameDescriptor result packed)
    (stored : ∀ i : Fin bcdMaxWords, i.val < result.memWords → g.memory (place i) = result.words i) :
    decodeSource (space.operand g packed.addr packed.d2 packed.isAscii) = decodeSource result := by
  rw [← same.addr, ← same.memWords] at resident
  rw [BcdOperand.Buffered, binary, if_neg Bool.false_ne_true, ← same.memWords, ← same.skew,
    ← same.byteAlignedNibbles] at whole
  rw [← same.addr, ← same.d2, ← same.isAscii]
  refine BcdOperand.decodeSource_congr rfl fun j below => ?_
  have reached : j + 2 * result.skew < 4 * result.memWords := by
    change j < result.byteAlignedNibbles at below
    omega
  refine BcdOperand.nibbleAt_congr result.memWords ?_
    (fun i inside => Space.operand_stored resident stored i inside) reached
  rfl

theorem emptySource_sign {source : BcdOperand} {digits : List Nat} {sign : Int} {uns : Bool}
    (valid : decodeSource source = some (digits, sign, uns)) (empty : source.fieldLength = 0) :
    sign = 1 := by
  rw [decodeSource, if_pos empty] at valid
  cases valid
  rfl

/-- `PACK` undoes `UPACK` where the ASCII field keeps the sign, a negative sign is not
dropped by the packed field, and the packed field is stored as a whole. -/
theorem pack_upack {packedAddr packedD2 : Word}
    (fields : ConversionFields config s packedAddr packedD2) {digits : List Nat} {sign : Int}
    {uns : Bool}
    (valid : decodeSource (s.operand config (s.getReg RegNum.a) (s.getReg RegNum.d) false) =
      some (digits, sign, uns))
    (keeps : KeepsSign (s.operand config (s.getReg RegNum.x) (s.getReg RegNum.t) true)
      (uns || (s.operand config (s.getReg RegNum.x) (s.getReg RegNum.t) true).unsignedRequested) sign)
    (kept : sign = -1 → (s.operand config packedAddr packedD2 false).unsignedRequested = false)
    (whole : (s.operand config packedAddr packedD2 false).Buffered)
    (unpacked : exec config opcodeUnpackConvertFromDecimal s = .ok () t)
    (skips : t.getReg RegNum.p = s.getReg RegNum.p + 1) :
    PacksBack config t packedAddr packedD2 digits sign := by
  obtain ⟨place, ascii⟩ := fields.ascii.place
  obtain ⟨target, packed⟩ := fields.packed.place
  have inside := buffered_le rfl fields.buffered
  obtain ⟨g, ran, outcome⟩ := Space.run_upack fields.source ascii inside
  have follows := exec_follows config opcodeUnpackConvertFromDecimal s
  rw [ran, unpacked] at follows
  obtain ⟨_, same, flat, space⟩ := follows.ok
  cases same
  subst flat
  have pil : t.pil = s.pil := congrArg Space.pil space
  have skip : t.flat.reg s.pil RegNum.p = s.flat.reg s.pil RegNum.p + 1 := by
    rw [CpuState.getReg, pil] at skips
    exact skips
  obtain ⟨accepted, nonempty, digits', sign', uns', field, valid', fits, same, bytes, view, regs,
    stored⟩ := outcome skip
  obtain ⟨rfl, rfl, rfl⟩ : digits = digits' ∧ sign = sign' ∧ uns = uns' := by
    simpa using valid.symm.trans valid'
  have x : t.getReg RegNum.x = s.getReg RegNum.x := by
    rw [CpuState.getReg, pil]
    exact regs RegNum.x (by decide)
  have d2 : t.getReg RegNum.t = s.getReg RegNum.t := by
    rw [CpuState.getReg, pil]
    exact regs RegNum.t (by decide)
  have flat := packRegisters_flat config t packedAddr packedD2
  have space' := (packRegisters_space config t packedAddr packedD2).trans space
  rw [x, d2, space] at flat
  have again : (s.space config).SameView (t.packRegisters packedAddr packedD2).flat s.flat := by
    rw [flat]
    exact (Space.withOperands_sameView _ _ _ _ _ _).trans view
  have first := Space.first_withOperands (s.space config) t.flat
    (s.getReg RegNum.x) (s.getReg RegNum.t) packedAddr packedD2 true
  have second := Space.second_withOperands (s.space config) t.flat
    (s.getReg RegNum.x) (s.getReg RegNum.t) packedAddr packedD2 false
  rw [← flat] at first second
  have reread := reread_unpacked nonempty rfl fields.buffered same bytes (ascii.sameView again)
    (g := (t.packRegisters packedAddr packedD2).flat) stored first
  have known := (decodeSource_isSign valid).1
  have length := decodeSource_length valid
  obtain ⟨result, resultUns, convert, descriptor, decoded⟩ := bcdConvertToPacked_unpacked
    ((s.space config).second (t.packRegisters packedAddr packedD2).flat false) (by rw [first]; rfl) nonempty inside known keeps reread (decodeSource_digits _ valid) fits
    (by rw [second]; exact length.trans (congrArg (· - 1) fields.length.symm))
    (by rw [second]; exact kept)
    (by rw [second]; exact fun empty => emptySource_sign valid (fields.length.symm.trans empty))
  obtain ⟨h, packs, skipped, viewed, written⟩ := Space.run_pack target
    (by rw [first]; exact (ascii.sameView again).readable)
    (by rw [second]; exact packed.sameView again) (by rw [first]; exact accepted)
    (by rw [second]; exact fields.accepted) convert descriptor
  have following := exec_follows config opcodePackConvertToDecimal
    (t.packRegisters packedAddr packedD2)
  rw [space', packs] at following
  obtain ⟨v, finished, flat', space''⟩ := following.ok
  subst flat'
  have pil' : v.pil = s.pil := congrArg Space.pil space''
  refine ⟨v, finished, ?_, resultUns, ?_⟩
  · rw [CpuState.getReg, pil', CpuState.getReg, pil]
    refine skipped.trans (congrArg (· + 1) ?_)
    rw [flat]
    exact Space.withOperands_reg _ _ _ _ _ _ (by decide)
  · rw [CpuState.operand, space'', ← decoded]
    exact restored_packed (packed.sameView (viewed.trans again)) rfl whole
      (by rw [second] at descriptor; exact ⟨descriptor.addr, descriptor.d2, descriptor.isAscii⟩) written

end Machine

/-- One digit and its sign at address 0, and an ASCII field with a trailing sign byte. -/
def packedDigit (word : Word) : CpuState Unit :=
  ((((cpuInit bareMachine ()).putMemory (Function.update (fun _ => 0) 0 word)).setReg
    RegNum.d 0x0002).setReg RegNum.x 0x0008).setReg RegNum.t 0x0802

theorem packedDigit_fields {word : Word} (known : word = 0x5C00 ∨ word = 0x5F00) :
    ConversionFields bareMachine (packedDigit word) 0x0010 0x0002 := by
  have one {count i : Nat} (size : count = 1) (inside : i < count) : i = 0 := by omega
  rcases known with rfl | rfl
  all_goals
    refine ⟨fun i inside => ?_, fun i inside => ?_, ?_, fun i inside => ?_, ?_, ?_⟩
    · obtain rfl := one (by decide) inside
      exact ⟨0, by decide⟩
    · obtain rfl := one (by decide) inside
      exact ⟨8, by decide +kernel, by decide +kernel⟩
    · change _ + _ ≤ 2 * _
      decide +kernel
    · obtain rfl := one (by decide) inside
      exact ⟨16, by decide, by decide⟩
    · decide
    · rfl

/-- The state after `UPACK`. -/
def unpackedDigit (word : Word) : CpuState Unit :=
  finalState (exec bareMachine opcodeUnpackConvertFromDecimal (packedDigit word))

/-- A plus sign comes back. -/
theorem pack_upack_five : PacksBack bareMachine (unpackedDigit 0x5C00) 0x0010 0x0002 [5] 1 := by
  have decoded : decodeSource ((packedDigit 0x5C00).operand bareMachine
      ((packedDigit 0x5C00).getReg RegNum.a) ((packedDigit 0x5C00).getReg RegNum.d) false) =
        some ([5], 1, false) := by decide
  exact pack_upack (packedDigit_fields (.inl rfl)) decoded
    ⟨fun _ => by decide +kernel, fun minus => nomatch minus⟩ (fun minus => nomatch minus)
    (by change _ + _ ≤ 4 * _; decide +kernel) (returned_eq (by decide +kernel)) (by decide +kernel)

/-- An unsigned digit is written with a zero as its sign byte, which `PACK` refuses. -/
theorem pack_upack_unsigned :
    ¬ ∀ (s t : CpuState Unit) (packedAddr packedD2 : Word) (digits : List Nat) (sign : Int)
        (uns : Bool),
      ConversionFields bareMachine s packedAddr packedD2 →
      decodeSource (s.operand bareMachine (s.getReg RegNum.a) (s.getReg RegNum.d) false) =
        some (digits, sign, uns) →
      exec bareMachine opcodeUnpackConvertFromDecimal s = .ok () t →
      t.getReg RegNum.p = s.getReg RegNum.p + 1 →
      PacksBack bareMachine t packedAddr packedD2 digits sign := by
  intro claim
  have decoded : decodeSource ((packedDigit 0x5F00).operand bareMachine
      ((packedDigit 0x5F00).getReg RegNum.a) ((packedDigit 0x5F00).getReg RegNum.d) false) =
        some ([5], 1, true) := by decide
  obtain ⟨v, ran, skips, -⟩ := claim (packedDigit 0x5F00) (unpackedDigit 0x5F00) 0x0010 0x0002 [5] 1
    true (packedDigit_fields (.inr rfl)) decoded (returned_eq (by decide +kernel)) (by decide +kernel)
  have final := congrArg (fun outcome => (finalState outcome).getReg RegNum.p) ran
  exact absurd (final.trans skips) (by decide +kernel)

end Nd100x
