import Nd100x.Library.PlaceShift
import Nd100x.Machine.Arithmetic
import Nd100x.Proof.Addition

namespace Nd100x

open Library Instr

variable {World : Type}

section Loop

variable {width : Nat} (isneg : Bool) (shifttype : BitVec 2) (m : Bool) (reg : BitVec width)

/-- The bits that follow the register: the sign, the register again, zeros or the link. -/
def shiftBehind (k : Nat) : Bool :=
  match shifttype.toNat with
  | 0 => isneg && reg.getLsbD (width - 1)
  | 1 => fromEnd isneg reg (k % width)
  | 2 => false
  | _ => m

def shiftStream (k : Nat) : Bool :=
  if k < width then fromEnd isneg reg k else shiftBehind isneg shifttype m reg k

theorem shiftStream_startsWith : StartsWith isneg reg (shiftStream isneg shifttype m reg) :=
  fun _ inside => if_pos inside

theorem fromEnd_shiftPlace {k : Nat} (inside : k < width) :
    fromEnd isneg (shiftPlace isneg shifttype m reg) k =
      if k + 1 < width then fromEnd isneg reg (k + 1) else shiftedIn isneg shifttype m reg := by
  unfold shiftPlace fromEnd
  generalize shiftedIn isneg shifttype m reg = fill
  cases isneg with
  | true =>
    simp only [if_true, BitVec.getLsbD_or, BitVec.getLsbD_and, BitVec.getLsbD_ushiftRight,
      BitVec.getLsbD_shiftLeft, BitVec.getLsbD_allOnes, BitVec.getLsbD_setWidth, BitVec.getLsbD_ofBool]
    by_cases last : k + 1 < width
    · have before : k < width - 1 := by omega
      simp [last, before, Nat.add_comm]
    · obtain rfl : k = width - 1 := by omega
      have outside : ¬ 1 + (width - 1) < width := by omega
      simp [last, outside, show 0 < width by omega]
  | false =>
    simp only [Bool.false_eq_true, if_false, BitVec.getLsbD_or, BitVec.getLsbD_and,
      BitVec.getLsbD_shiftLeft, BitVec.getLsbD_allOnes, BitVec.getLsbD_setWidth, BitVec.getLsbD_ofBool]
    by_cases last : k + 1 < width
    · have place : width - 1 - k - 1 = width - 1 - (k + 1) := by omega
      have above : ¬ width - 1 - k = 0 := by omega
      have within : width - 1 - k < width := by omega
      have down : width - 1 - (k + 1) < width := by omega
      simp [last, above, within, place, down, show ¬ width - 1 - k < 1 by omega]
    · have first : width - 1 - k = 0 := by omega
      simp [last, first, show 0 < width by omega]

variable {isneg shifttype m reg} {state : BitVec width × Bool} {first : Nat}

theorem shiftBehind_plain (plain : shifttype.toNat = 0) (k : Nat) :
    shiftBehind isneg shifttype m reg k = (isneg && reg.getLsbD (width - 1)) := by
  unfold shiftBehind
  rw [plain]
  rfl

theorem shiftBehind_rotates (rotates : shifttype.toNat = 1) (k : Nat) :
    shiftBehind isneg shifttype m reg k = fromEnd isneg reg (k % width) := by
  unfold shiftBehind
  rw [rotates]
  rfl

theorem shiftBehind_zeros (zeros : shifttype.toNat = 2) (k : Nat) :
    shiftBehind isneg shifttype m reg k = false := by
  unfold shiftBehind
  rw [zeros]
  rfl

theorem shiftBehind_link (link : shifttype.toNat = 3) (k : Nat) :
    shiftBehind isneg shifttype m reg k = m := by
  unfold shiftBehind
  rw [link]
  rfl

/-- The two bits of the field choose one of four rules. -/
theorem shiftRule_cases (shifttype : BitVec 2) : shifttype.toNat = 0 ∨ shifttype.toNat = 1 ∨
    shifttype.toNat = 2 ∨ shifttype.toNat = 3 := by
  have bound := shifttype.isLt
  omega

/-- The bit shifted in is the next bit of the stream. -/
theorem shiftedIn_eq (some : 0 < width)
    (shown : StreamShows isneg (shiftStream isneg shifttype m reg) first state.1) :
    shiftedIn isneg shifttype m state.1 = shiftStream isneg shifttype m reg (first + width) := by
  have beyond : ¬ first + width < width := by omega
  have out : shiftedOut isneg state.1 = shiftStream isneg shifttype m reg first := shown.leaving some
  have last := shown (width - 1) (by omega)
  unfold shiftedIn
  rw [shiftStream, if_neg beyond]
  rw [shiftStream] at out last
  rcases shiftRule_cases shifttype with plain | rotates | zeros | link
  · rw [plain, shiftBehind_plain plain]
    rw [shiftBehind_plain plain] at last
    cases isneg with
    | false => rfl
    | true =>
      have top : state.1.getLsbD (width - 1) = reg.getLsbD (width - 1) := by
        refine Eq.trans last ?_
        split
        · next start =>
            obtain rfl : first = 0 := by omega
            rw [Nat.zero_add]
            rfl
        · rfl
      exact congrArg (true && ·) top
  · rw [rotates, shiftBehind_rotates rotates, Nat.add_mod_right]
    rw [shiftBehind_rotates rotates] at out
    refine Eq.trans out ?_
    split
    · next within => rw [Nat.mod_eq_of_lt within]
    · rfl
  · rw [zeros, shiftBehind_zeros zeros]
    rfl
  · rw [link, shiftBehind_link link]
    rfl

theorem shiftRound_moves (some : 0 < width)
    (shown : StreamShows isneg (shiftStream isneg shifttype m reg) first state.1) :
    StreamShows isneg (shiftStream isneg shifttype m reg) (first + 1) (shiftRound isneg shifttype m state).1 ∧
      (shiftRound isneg shifttype m state).2 = shiftStream isneg shifttype m reg first :=
  ⟨shown.move (fun _ inside => fromEnd_shiftPlace isneg shifttype m state.1 inside)
    (shiftedIn_eq some shown), shown.leaving some⟩

/-- The shifted register for a count, in closed form. -/
structure ClosedShift (isneg : Bool) (shifttype : BitVec 2) (m : Bool) (count : Nat)
    (reg result : BitVec width) : Prop where
  plainLeft : shifttype.toNat = 0 → isneg = false → result.toNat = reg.toNat * 2 ^ count % 2 ^ width
  plainRight : shifttype.toNat = 0 → isneg = true → result.toInt = reg.toInt / 2 ^ count
  rotLeft : shifttype.toNat = 1 → isneg = false → result = reg.rotateLeft (count % width)
  rotRight : shifttype.toNat = 1 → isneg = true → result = reg.rotateRight (count % width)
  zinLeft : shifttype.toNat = 2 → isneg = false → result.toNat = reg.toNat * 2 ^ count % 2 ^ width
  zinRight : shifttype.toNat = 2 → isneg = true → result.toNat = reg.toNat / 2 ^ count
  linLeft : shifttype.toNat = 3 → isneg = false → ∀ bit < width,
    result.getLsbD bit = if count ≤ bit then reg.getLsbD (bit - count) else m
  linRight : shifttype.toNat = 3 → isneg = true → ∀ bit < width,
    result.getLsbD bit = if bit + count < width then reg.getLsbD (bit + count) else m

/-- The bit that leaves last. Beyond the register these are the bits shifted in. -/
def lastShiftedOut (isneg : Bool) (shifttype : BitVec 2) (m : Bool) (reg : BitVec width)
    (count : Nat) : Bool :=
  if count ≤ width then
    if isneg then reg.getLsbD (count - 1) else reg.getLsbD (width - count)
  else if shifttype.toNat = 0 then isneg && reg.msb
  else if shifttype.toNat = 1 then
    if isneg then reg.getLsbD ((count - 1) % width) else reg.getLsbD (width - 1 - (count - 1) % width)
  else if shifttype.toNat = 2 then false
  else m

variable {count : Nat} {result : BitVec width}

theorem shiftStream_behind {k : Nat} (beyond : width ≤ k) :
    shiftStream isneg shifttype m reg k = shiftBehind isneg shifttype m reg k :=
  if_neg (by omega)

theorem closedShift (shown : StreamShows isneg (shiftStream isneg shifttype m reg) count result) :
    ClosedShift isneg shifttype m count reg result where
  plainLeft plain left := by
    subst left
    have closed := shown.shiftLeft (shiftStream_startsWith false shifttype m reg) fun k beyond => by
      rw [shiftStream_behind beyond, shiftBehind_plain plain, Bool.false_and]
    rw [closed, BitVec.toNat_shiftLeft, Nat.shiftLeft_eq]
  plainRight plain right := by
    subst right
    have closed := shown.sshiftRight (shiftStream_startsWith true shifttype m reg) fun k beyond => by
      rw [shiftStream_behind beyond, shiftBehind_plain plain, Bool.true_and, BitVec.msb_eq_getLsbD_last]
    rw [closed, BitVec.toInt_sshiftRight, Int.shiftRight_eq_div_pow]
    rfl
  rotLeft rotates left := by
    subst left
    rw [BitVec.rotateLeft_mod_eq_rotateLeft]
    exact shown.rotateLeft (shiftStream_startsWith false shifttype m reg) fun k beyond => by
      rw [shiftStream_behind beyond, shiftBehind_rotates rotates]
      rfl
  rotRight rotates right := by
    subst right
    rw [BitVec.rotateRight_mod_eq_rotateRight]
    exact shown.rotateRight (shiftStream_startsWith true shifttype m reg) fun k beyond => by
      rw [shiftStream_behind beyond, shiftBehind_rotates rotates]
      rfl
  zinLeft zeros left := by
    subst left
    have closed := shown.shiftLeft (shiftStream_startsWith false shifttype m reg) fun k beyond => by
      rw [shiftStream_behind beyond, shiftBehind_zeros zeros]
    rw [closed, BitVec.toNat_shiftLeft, Nat.shiftLeft_eq]
  zinRight zeros right := by
    subst right
    have closed := shown.ushiftRight (shiftStream_startsWith true shifttype m reg) fun k beyond => by
      rw [shiftStream_behind beyond, shiftBehind_zeros zeros]
    rw [closed, BitVec.toNat_ushiftRight, Nat.shiftRight_eq_div_pow]
  linLeft link left bit inside := by
    subst left
    rw [shown.bit_left (shiftStream_startsWith false shifttype m reg) inside]
    split
    · rfl
    · rw [shiftStream_behind (by omega), shiftBehind_link link]
  linRight link right bit inside := by
    subst right
    rw [shown.bit_right (shiftStream_startsWith true shifttype m reg) inside]
    split
    · rfl
    · rw [shiftStream_behind (by omega), shiftBehind_link link]

theorem lastShiftedOut_eq (some : 0 < width) (moved : count ≠ 0) :
    shiftStream isneg shifttype m reg (count - 1) = lastShiftedOut isneg shifttype m reg count := by
  unfold lastShiftedOut
  by_cases within : count ≤ width
  · have place : width - 1 - (count - 1) = width - count := by omega
    rw [if_pos within, shiftStream, if_pos (by omega), fromEnd, place]
  · rw [if_neg within, shiftStream_behind (by omega)]
    rcases shiftRule_cases shifttype with plain | rotates | zeros | link
    · rw [if_pos plain, shiftBehind_plain plain, BitVec.msb_eq_getLsbD_last]
    · rw [if_neg (by omega), if_pos rotates, shiftBehind_rotates rotates]
      rfl
    · rw [if_neg (by omega), if_neg (by omega), if_pos zeros, shiftBehind_zeros zeros]
    · rw [if_neg (by omega), if_neg (by omega), if_neg (by omega), shiftBehind_link link]

/-- The loop in closed form. -/
theorem shiftRounds_closed (isneg : Bool) (shifttype : BitVec 2) (m : Bool) (reg : BitVec width)
    (count : Nat) (some : 0 < width) :
    ClosedShift isneg shifttype m count reg ((shiftRound isneg shifttype m)^[count] (reg, m)).1 ∧
      ((shiftRound isneg shifttype m)^[count] (reg, m)).2 =
        if count = 0 then m else lastShiftedOut isneg shifttype m reg count := by
  obtain ⟨shown, last⟩ := shows_rounds (shiftRound isneg shifttype m) m
    (shiftStream_startsWith isneg shifttype m reg).shows
    (fun first state shown => shiftRound_moves some shown) count
  refine ⟨closedShift shown, last.trans ?_⟩
  split
  · rfl
  · next moved => exact lastShiftedOut_eq some moved

end Loop

/-- The two words of a 32-bit register give it back. -/
theorem words_append (x : BitVec 32) : (x >>> 16).setWidth 16 ++ x.setWidth 16 = x := by
  apply BitVec.eq_of_getLsbD_eq
  intro bit inside
  rw [BitVec.getLsbD_append, BitVec.getLsbD_setWidth, BitVec.getLsbD_setWidth,
    BitVec.getLsbD_ushiftRight]
  by_cases low : bit < 16
  · simp [low]
  · have shifted : 16 + (bit - 16) = bit := by omega
    simp [low, shifted]
    omega

section Machine

/-- The field counts from 0 to 31 to the left, and from 1 to 32 to the right. -/
theorem shiftOffset_eq (instr : Word) : shiftOffset instr =
    if shiftIsneg instr then 64 - instr.toNat % 64 else instr.toNat % 64 := by
  have field : (instr &&& 0x003F).toNat = instr.toNat % 64 := Nat.and_two_pow_sub_one_eq_mod _ 6
  have small : instr.toNat % 64 < 64 := Nat.mod_lt _ (by decide)
  have word : instr &&& 0x003F = BitVec.ofNat 16 (instr.toNat % 64) := by
    rw [← field, BitVec.ofNat_toNat, BitVec.setWidth_eq]
  have negative : shiftIsneg instr = decide (32 ≤ instr.toNat % 64) := by
    rw [shiftIsneg, BitVec.getLsbD, Nat.testBit_eq_decide_div_mod_eq, decide_eq_decide]
    omega
  have complement : ∀ f : Fin 64, 32 ≤ f.val →
      ((~~~(BitVec.ofNat 16 f.val ||| 0xFFC0) + 1) &&& 0x3F).toNat = 64 - f.val := by decide
  rw [shiftOffset, field, word]
  split
  · next right =>
      rw [negative, decide_eq_true_iff] at right
      exact complement ⟨_, small⟩ right
  · rfl

theorem shiftOffset_range (instr : Word) :
    if shiftIsneg instr then 1 ≤ shiftOffset instr ∧ shiftOffset instr ≤ 32
      else shiftOffset instr ≤ 31 := by
  have small : instr.toNat % 64 < 64 := Nat.mod_lt _ (by decide)
  have negative : shiftIsneg instr = decide (32 ≤ instr.toNat % 64) := by
    rw [shiftIsneg, BitVec.getLsbD, Nat.testBit_eq_decide_div_mod_eq, decide_eq_decide]
    omega
  rw [shiftOffset_eq, negative]
  by_cases right : 32 ≤ instr.toNat % 64 <;> simp only [right, decide_true, decide_false, if_true,
    Bool.false_eq_true, if_false] <;> omega

variable {width : Nat} {config : Config World} {s : CpuState World}

/-- A shift instruction replaces the register by the closed form, and M by the bit that left last. -/
structure ShiftsTo (s t : CpuState World) (instr : Word) (reg result : BitVec width) : Prop where
  closed : ClosedShift (shiftIsneg instr) (shiftType instr) (s.indicator Indicator.shiftOut)
    (shiftOffset instr) reg result
  shiftOut : t.indicator Indicator.shiftOut =
    if shiftOffset instr = 0 then s.indicator Indicator.shiftOut
    else lastShiftedOut (shiftIsneg instr) (shiftType instr) (s.indicator Indicator.shiftOut) reg
      (shiftOffset instr)

variable (config s) in
theorem exec_shiftAny (reg : BitVec width) (instr : Word) (some : 0 < width) :
    ∃ result t, exec config (shiftAny reg instr) s = .ok result t ∧ KeepsRegisters s t ∧
      ShiftsTo s t instr reg result := by
  obtain ⟨closed, last⟩ := shiftRounds_closed (shiftIsneg instr) (shiftType instr)
    (s.indicator Indicator.shiftOut) reg (shiftOffset instr) some
  refine ⟨_, s.cpuSetbit RegNum.sts Indicator.shiftOut _, rfl, fun r general => ?_, ⟨closed, ?_⟩⟩
  · exact getReg_setBit s _ _ general
  · rw [indicator_setBit, if_pos rfl]
    exact last

/-- The register keeps M and the other registers. -/
theorem ShiftsTo.setReg {t : CpuState World} {instr : Word} {reg result : BitVec width}
    (shifts : ShiftsTo s t instr reg result) (r : GenReg) (value : Word) :
    ShiftsTo s (t.setReg r.num value) instr reg result :=
  ⟨shifts.closed, by rw [indicator_setReg, shifts.shiftOut]⟩

variable (config s) in
theorem exec_shiftRegister (r : GenReg) (operand : Word) :
    ∃ t, exec config (Instr.getReg r.num >>= fun reg => shiftReg reg operand >>= fun value =>
        Instr.setReg r value) s = .ok () t ∧
      ShiftsTo s t operand (s.getReg r.num) (t.getReg r.num) ∧
      ∀ other, other ≠ r.num → other ≠ RegNum.sts → t.getReg other = s.getReg other := by
  obtain ⟨result, t, done, kept, shifts⟩ := exec_shiftAny config s (s.getReg r.num) operand (by decide)
  refine ⟨t.setReg r.num result, ?_, ?_, fun other apart general => ?_⟩
  · rw [exec_bind, Cpu.bind_ok (exec_getReg config s _), exec_bind, shiftReg, Cpu.bind_ok done]
    exact exec_setReg config t r result
  · rw [CpuState.getReg_setReg]
    exact shifts.setReg r result
  · rw [t.getReg_setReg_of_ne _ apart, kept other general]

variable (config s) in
theorem exec_shiftDouble (operand : Word) :
    ∃ t, exec config (Instr.getReg RegNum.a >>= fun a => Instr.getReg RegNum.d >>= fun d =>
        shiftDoubleReg ((a.setWidth 32 <<< 16) ||| d.setWidth 32) operand >>= fun doubleReg =>
          Instr.setReg GenReg.a ((doubleReg >>> 16).setWidth 16) >>= fun _ =>
            Instr.setReg GenReg.d (doubleReg.setWidth 16)) s = .ok () t ∧
      ShiftsTo s t operand s.doubleAccumulator t.doubleAccumulator ∧
      ∀ other, other ≠ RegNum.a → other ≠ RegNum.d → other ≠ RegNum.sts →
        t.getReg other = s.getReg other := by
  obtain ⟨result, t, done, kept, shifts⟩ :=
    exec_shiftAny config s s.doubleAccumulator operand (by decide)
  have joined : ((s.getReg RegNum.a).setWidth 32 <<< 16) ||| (s.getReg RegNum.d).setWidth 32 =
      s.doubleAccumulator := joined_append _ _
  refine ⟨t.putDouble ((result >>> 16).setWidth 16) (result.setWidth 16), ?_, ?_,
    fun other notA notD general => ?_⟩
  · rw [exec_bind, Cpu.bind_ok (exec_getReg config s _), exec_bind,
      Cpu.bind_ok (exec_getReg config s _), joined, exec_bind, shiftDoubleReg, Cpu.bind_ok done]
    rfl
  · have halves : (t.putDouble ((result >>> 16).setWidth 16) (result.setWidth 16)).doubleAccumulator =
        result := by
      rw [CpuState.doubleAccumulator, getReg_a_putDouble, getReg_d_putDouble, words_append]
    rw [halves]
    exact (shifts.setReg GenReg.a _).setReg GenReg.d _
  · rw [getReg_putDouble _ _ _ notA notD, kept other general]

/-- Both shift functions, and the four instructions that use them, are the closed forms. -/
theorem shiftInstructions (config : Config World) (s : CpuState World) (operand : Word) :
    (if shiftIsneg operand then 1 ≤ shiftOffset operand ∧ shiftOffset operand ≤ 32
      else shiftOffset operand ≤ 31) ∧
    (∀ reg : Word, ∃ result t, exec config (shiftReg reg operand) s = .ok result t ∧
      KeepsRegisters s t ∧ ShiftsTo s t operand reg result) ∧
    (∀ reg : BitVec 32, ∃ result t, exec config (shiftDoubleReg reg operand) s = .ok result t ∧
      KeepsRegisters s t ∧ ShiftsTo s t operand reg result) ∧
    (∀ field r, (field = 0 ∧ r = RegNum.t ∨ field = 1 ∧ r = RegNum.d ∨ field = 2 ∧ r = RegNum.a) →
      ((operand >>> 7) &&& 3).toNat = field →
      ∃ t, exec config (opcodeShiftGroup operand) s = .ok () t ∧
        ShiftsTo s t operand (s.getReg r) (t.getReg r) ∧
        ∀ other, other ≠ r → other ≠ RegNum.sts → t.getReg other = s.getReg other) ∧
    (((operand >>> 7) &&& 3).toNat = 3 →
      ∃ t, exec config (opcodeShiftGroup operand) s = .ok () t ∧
        ShiftsTo s t operand s.doubleAccumulator t.doubleAccumulator ∧
        ∀ other, other ≠ RegNum.a → other ≠ RegNum.d → other ≠ RegNum.sts →
          t.getReg other = s.getReg other) := by
  refine ⟨shiftOffset_range operand, fun reg => exec_shiftAny config s reg operand (by decide),
    fun reg => exec_shiftAny config s reg operand (by decide), ?_, fun double => ?_⟩
  · rintro field r (⟨rfl, rfl⟩ | ⟨rfl, rfl⟩ | ⟨rfl, rfl⟩) chosen
    · rw [opcodeShiftGroup, chosen]
      exact exec_shiftRegister config s GenReg.t operand
    · rw [opcodeShiftGroup, chosen]
      exact exec_shiftRegister config s GenReg.d operand
    · rw [opcodeShiftGroup, chosen]
      exact exec_shiftRegister config s GenReg.a operand
  · rw [opcodeShiftGroup, double]
    exact exec_shiftDouble config s operand

/-- A holds 1, and every other register holds 0. -/
def onlyA : CpuState Unit :=
  (cpuInit bareMachine ()).putReg fun _ r => if r = RegNum.a then 1 else 0

/-- `SAD ZIN SHR 1` moves the bit of A to the top of D. -/
theorem shiftInstructions_double :
    ∃ t, exec bareMachine (opcodeShiftGroup 0o156677) onlyA = .ok () t ∧
      t.doubleAccumulator.toNat = 0x8000 := by
  obtain ⟨t, done, shifts, -⟩ := (shiftInstructions bareMachine onlyA 0o156677).2.2.2.2 (by decide)
  exact ⟨t, done, shifts.closed.zinRight (by decide) (by decide)⟩

end Machine

end Nd100x
