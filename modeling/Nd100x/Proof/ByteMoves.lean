import Nd100x.Flat.ByteMoves

namespace Nd100x

open Library

variable {World : Type} {config : Config World} {s : CpuState World} {place : Nat → Nat}

/-- The move that the registers describe. -/
def CpuState.byteMove (s : CpuState World) : ByteMove :=
  .ofRegisters (s.getReg RegNum.a) (s.getReg RegNum.d) (s.getReg RegNum.x) (s.getReg RegNum.t)

namespace ByteMove

/-- A and bit 15 of D name the byte behind the source, and X and bit 15 of T the byte behind
the destination. -/
structure FieldEnds (move : ByteMove) (t : CpuState World) : Prop where
  source : bytePosition (t.getReg RegNum.a) (t.getReg RegNum.d) =
    (move.sourcePosition + move.len) % 2 ^ 17
  dest : bytePosition (t.getReg RegNum.x) (t.getReg RegNum.t) =
    (move.destPosition + move.len) % 2 ^ 17

/-- The length of D is zero, and the length of T is the number of bytes. -/
structure MovbEnds (move : ByteMove) (t : CpuState World) : Prop extends move.FieldEnds t where
  rest : t.getReg RegNum.d &&& 0x0FFF = 0
  done : (t.getReg RegNum.t &&& 0x0FFF).toNat = move.len

/-- A is the word of the byte behind the source, X and T name the byte behind the destination,
and D names the half of T. -/
structure DestEnds (move : ByteMove) (t : CpuState World) : Prop where
  source : (t.getReg RegNum.a).toNat = (move.sourcePosition + move.len) % 2 ^ 17 / 2
  dest : bytePosition (t.getReg RegNum.x) (t.getReg RegNum.t) =
    (move.destPosition + move.len) % 2 ^ 17
  half : (t.getReg RegNum.d).getLsbD 15 = (t.getReg RegNum.t).getLsbD 15

/-- The field is moved, D has no length left, T has the number of bytes, and both name the half
behind the destination. The end words are promised for a field that moves forward. -/
structure MovbResult (move : ByteMove) (place : Nat → Nat) (s t : CpuState World) : Prop where
  moved : move.Moved place s.core t.core
  rest : t.getReg RegNum.d &&& 0x0FFF = 0
  done : (t.getReg RegNum.t &&& 0x0FFF).toNat = move.len
  half : (t.getReg RegNum.d).getLsbD 15 = (t.getReg RegNum.t).getLsbD 15
  destHalf : ((t.getReg RegNum.t).getLsbD 15).toNat = (move.destPosition + move.len) % 2
  forward : 0 < move.len → move.sourcePosition < move.destPosition → move.DestEnds t

/-- The loop ends at the start addresses, and both fields start in the same half. -/
def EndsRight (move : ByteMove) : Prop :=
  move.sLr = move.dLr ∧
    if move.len = 0 then move.source = 0 ∧ move.dest = 0
    else move.sourcePosition < move.destPosition ∨ move.len + move.sLr ≤ 2

section Ends

variable {move : ByteMove}

/-- The last index is the first one downwards. -/
theorem lastAddresses_movb (move : ByteMove) : move.lastAddresses move.movbIndices (0, 0) =
    if move.len = 0 then (0, 0)
    else if move.sourcePosition < move.destPosition then (move.addrS 0, move.addrD 0)
    else (move.addrS (move.len - 1), move.addrD (move.len - 1)) := by
  unfold lastAddresses movbIndices
  by_cases forward : move.sourcePosition < move.destPosition
  · rw [if_pos (descending_iff.mpr forward), if_pos forward, List.getLast?_reverse, List.head?_range]
    split <;> rfl
  · rw [if_neg (mt descending_iff.mp forward), if_neg forward, List.getLast?_range]
    split <;> rfl

theorem half_eq {one two : Bool} (same : one.toNat = two.toNat) : one = two := by
  cases one <;> cases two <;> first | rfl | cases same

theorem add_ofNat_eq_self {word : Word} {n : Nat} (small : n < 2 ^ 16) :
    word + BitVec.ofNat 16 n = word ↔ n = 0 := by
  constructor
  · intro same
    have sum := congrArg BitVec.toNat same
    rw [BitVec.toNat_add, BitVec.toNat_ofNat] at sum
    have := word.isLt
    omega
  · rintro rfl
    exact BitVec.add_zero word

theorem lastAddresses_forward (first : move.sLr ≤ 1) (second : move.dLr ≤ 1) (some : 0 < move.len)
    (forward : move.sourcePosition < move.destPosition) :
    (move.lastAddresses move.movbIndices (0, 0)).1 = move.source ∧
      (move.lastAddresses move.movbIndices (0, 0)).2 = move.dest := by
  rw [lastAddresses_movb, if_neg (Nat.ne_of_gt some), if_pos forward]
  refine ⟨(add_ofNat_eq_self ?_).mpr ?_, (add_ofNat_eq_self ?_).mpr ?_⟩
  all_goals
    rw [Nat.shiftRight_eq_div_pow]
    omega

/-- The last addresses are the start addresses after a loop downwards, or after a short loop. -/
theorem lastAddresses_start (small : move.len < 2 ^ 12) (first : move.sLr ≤ 1)
    (half : move.sLr = move.dLr) :
    ((move.lastAddresses move.movbIndices (0, 0)).1 = move.source ∧
      (move.lastAddresses move.movbIndices (0, 0)).2 = move.dest) ↔
      if move.len = 0 then move.source = 0 ∧ move.dest = 0
      else move.sourcePosition < move.destPosition ∨ move.len + move.sLr ≤ 2 := by
  by_cases empty : move.len = 0
  · rw [lastAddresses_movb, if_pos empty, if_pos empty]
    exact and_congr eq_comm eq_comm
  rw [if_neg empty]
  by_cases forward : move.sourcePosition < move.destPosition
  · exact iff_of_true (lastAddresses_forward first (half ▸ first) (Nat.pos_of_ne_zero empty) forward)
      (.inl forward)
  · rw [lastAddresses_movb, if_neg empty, if_neg forward]
    unfold addrS addrD
    rw [Nat.shiftRight_eq_div_pow, Nat.shiftRight_eq_div_pow, ← half,
      add_ofNat_eq_self (by omega), add_ofNat_eq_self (by omega)]
    constructor
    · rintro ⟨one, -⟩
      exact .inr (by omega)
    · rintro (into | short)
      · exact absurd into forward
      · constructor <;> omega

/-- Both ends are right where the loop leaves the start addresses. -/
theorem fieldEnds_movb {t : CpuState World} {d u : Word} (small : move.len < 2 ^ 12)
    (first : move.sLr ≤ 1) (second : move.dLr ≤ 1)
    (a : t.getReg RegNum.a = (move.lastAddresses move.movbIndices (0, 0)).1 +
      BitVec.ofNat 16 ((move.len + move.sLr) >>> 1))
    (d' : t.getReg RegNum.d = move.movbSource d)
    (x : t.getReg RegNum.x = (move.lastAddresses move.movbIndices (0, 0)).2 +
      BitVec.ofNat 16 ((move.len + move.dLr) >>> 1))
    (t' : t.getReg RegNum.t = move.movbDest u) : move.FieldEnds t ↔ move.EndsRight := by
  have source : bytePosition (t.getReg RegNum.a) (t.getReg RegNum.d) =
      (move.sourcePosition + move.len) % 2 ^ 17 ↔
        (move.lastAddresses move.movbIndices (0, 0)).1 = move.source ∧
          (move.len + move.dLr) % 2 = (move.len + move.sLr) % 2 := by
    rw [sourcePosition, bytePosition_after, a, d', movbSource_half, Nat.shiftRight_eq_div_pow,
      BitVec.add_left_inj]
  have dest : bytePosition (t.getReg RegNum.x) (t.getReg RegNum.t) =
      (move.destPosition + move.len) % 2 ^ 17 ↔
        (move.lastAddresses move.movbIndices (0, 0)).2 = move.dest := by
    rw [destPosition, bytePosition_after, x, t', movbDest_half, Nat.shiftRight_eq_div_pow,
      BitVec.add_left_inj]
    exact and_iff_left rfl
  constructor
  · intro ends
    obtain ⟨one, parity⟩ := source.mp ends.source
    have half : move.sLr = move.dLr := by omega
    exact ⟨half, (lastAddresses_start small first half).mp ⟨one, dest.mp ends.dest⟩⟩
  · rintro ⟨half, start⟩
    obtain ⟨one, two⟩ := (lastAddresses_start small first half).mpr start
    exact ⟨source.mpr ⟨one, by rw [half]⟩, dest.mpr two⟩

/-- A nonempty field that moves forward has its end words behind the two fields. -/
theorem destEnds_of_start {t : CpuState World} {a x : Word}
    (start : a = move.source ∧ x = move.dest)
    (a' : t.getReg RegNum.a = a + BitVec.ofNat 16 ((move.len + move.sLr) >>> 1))
    (x' : t.getReg RegNum.x = x + BitVec.ofNat 16 ((move.len + move.dLr) >>> 1))
    (d : ((t.getReg RegNum.d).getLsbD 15).toNat = (move.len + move.dLr) % 2)
    (u : ((t.getReg RegNum.t).getLsbD 15).toNat = (move.len + move.dLr) % 2) : move.DestEnds t where
  source := by
    have bound := move.source.isLt
    rw [a', start.1, Nat.shiftRight_eq_div_pow, BitVec.toNat_add, BitVec.toNat_ofNat, sourcePosition]
    omega
  dest := by
    rw [destPosition, bytePosition_after, x', start.2, Nat.shiftRight_eq_div_pow]
    exact ⟨rfl, u⟩
  half := half_eq (d.trans u.symm)

end Ends

end ByteMove

/-- `MOVB` moves the field whatever the overlap. Its end registers depend on the direction. -/
theorem exec_movb (mapped : s.byteMove.Mapped place (s.space config) s.flat) :
    ∃ t, exec config opcodeMovbMoveByte s = .ok () t ∧ s.byteMove.MovbResult place s t ∧
      (s.byteMove.FieldEnds t ↔ s.byteMove.EndsRight) := by
  have flat : (ByteMove.ofFlat (s.space config) s.flat).Mapped place (s.space config) s.flat := mapped
  obtain ⟨g, ran, moved, registers⟩ := ByteMove.run_movb flat
  have follows := exec_follows config opcodeMovbMoveByte s
  rw [ran] at follows
  obtain ⟨t, done, rfl, space⟩ := follows.ok
  have pil : t.pil = s.pil := congrArg Space.pil space
  have here (r : RegNum) : t.getReg r = t.flat.reg (s.space config).pil r := by
    rw [CpuState.getReg, pil]
    rfl
  have a := (here _).trans registers.a
  have d := (here _).trans registers.d
  have x := (here _).trans registers.x
  have u := (here _).trans registers.t
  have small : s.byteMove.len < 2 ^ 12 := ByteMove.len_lt _ _ _ _
  have fields : s.byteMove.FieldEnds t ↔ s.byteMove.EndsRight :=
    ByteMove.fieldEnds_movb small (Bool.toNat_le _) (Bool.toNat_le _) a d x u
  have sourceHalf : ((t.getReg RegNum.d).getLsbD 15).toNat = _ :=
    (congrArg (fun word : Word => (word.getLsbD 15).toNat) d).trans (ByteMove.movbSource_half _ _)
  have destHalf : ((t.getReg RegNum.t).getLsbD 15).toNat = _ :=
    (congrArg (fun word : Word => (word.getLsbD 15).toNat) u).trans (ByteMove.movbDest_half _ _)
  refine ⟨t, done, ⟨moved, ?_, ?_, ByteMove.half_eq (sourceHalf.trans destHalf.symm), ?_, ?_⟩, fields⟩
  · rw [d]
    exact ByteMove.movbSource_length _ _
  · rw [u]
    exact ByteMove.movbDest_length _ small
  · rw [destHalf, ByteMove.destPosition]
    change (s.byteMove.len + s.byteMove.dLr) % 2 = _
    omega
  · intro some forward
    exact ByteMove.destEnds_of_start
      (ByteMove.lastAddresses_forward (Bool.toNat_le _) (Bool.toNat_le _) some forward) a x sourceHalf
      destHalf

/-- `MOVB` moves the bytes whatever the overlap, and bit 15 of both descriptors is the half
behind the destination. -/
theorem movb_moves (mapped : s.byteMove.Mapped place (s.space config) s.flat) :
    ∃ t, exec config opcodeMovbMoveByte s = .ok () t ∧ s.byteMove.MovbResult place s t := by
  obtain ⟨t, done, result, -⟩ := exec_movb mapped
  exact ⟨t, done, result⟩

/-- The bare machine without paging, with the two fields in its registers. -/
def byteMachine (a d x t : Word) : CpuState Unit :=
  ((((cpuInit bareMachine ()).setReg RegNum.a a).setReg RegNum.d d).setReg RegNum.x x).setReg
    RegNum.t t

/-- Sixteen bytes move one byte to the right in place. -/
theorem shift_mapped : (byteMachine 0x1000 0x0010 0x1000 0x8010).byteMove.Mapped id
    ((byteMachine 0x1000 0x0010 0x1000 0x8010).space bareMachine)
    (byteMachine 0x1000 0x0010 0x1000 0x8010).flat where
  source := by decide +kernel
  dest := by decide +kernel
  reads := by decide +kernel
  writes := by decide +kernel
  apart := fun _ _ _ _ same => same

theorem movb_moves_shift : ∃ t,
    exec bareMachine opcodeMovbMoveByte (byteMachine 0x1000 0x0010 0x1000 0x8010) = .ok () t ∧
      (byteMachine 0x1000 0x0010 0x1000 0x8010).byteMove.MovbResult id
        (byteMachine 0x1000 0x0010 0x1000 0x8010) t :=
  movb_moves shift_mapped

/-- The source field ends in a left half, and D names a right half. -/
theorem movb_shift_half : ¬ ∀ (s : CpuState Unit) (place : Nat → Nat),
    s.byteMove.Mapped place (s.space bareMachine) s.flat →
      ∃ t, exec bareMachine opcodeMovbMoveByte s = .ok () t ∧ s.byteMove.Moved place s.core t.core ∧
        s.byteMove.MovbEnds t := by
  intro claim
  obtain ⟨t, done, -, ends⟩ := claim _ id shift_mapped
  obtain ⟨u, finished, -, right⟩ := exec_movb shift_mapped
  rw [done] at finished
  cases finished
  exact absurd (right.mp ends.toFieldEnds).1 (by decide +kernel)

namespace ByteMove

/-- The destination does not start behind the start of the source in the source field. -/
def Clear (move : ByteMove) : Prop :=
  ¬ (move.sourcePosition < move.destPosition ∧ move.destPosition < move.sourcePosition + move.len)

/-- The bytes arrive, and none is overwritten before it is read. -/
structure Forwarded (move : ByteMove) (place : Nat → Nat) (s t : CpuState World) : Prop
    extends move.Moved place s.core t.core where
  readFirst : ReadFirst (move.sourceSpot place) (move.destSpot place) (List.range move.len)

end ByteMove

/-- `MOVBF` always reaches the end of its loop. It skips unless its test reports an overlap. -/
theorem exec_movbf (mapped : s.byteMove.Mapped place (s.space config) s.flat) :
    ∃ t, exec config opcodeMovbfMoveBytesForward s = .ok () t ∧
      t.getReg RegNum.p = (if s.byteMove.overlap then s.getReg RegNum.p else s.getReg RegNum.p + 1) ∧
      s.byteMove.DestEnds t ∧ (s.byteMove.FieldEnds t ↔ s.byteMove.sLr = s.byteMove.dLr) ∧
      (s.byteMove.Clear → s.byteMove.Forwarded place s t) := by
  have flat : (ByteMove.ofFlat (s.space config) s.flat).Mapped place (s.space config) s.flat := mapped
  obtain ⟨g, ran, bytes, registers⟩ := ByteMove.run_movbf flat
  have follows := exec_follows config opcodeMovbfMoveBytesForward s
  rw [ran] at follows
  obtain ⟨t, done, rfl, space⟩ := follows.ok
  have pil : t.pil = s.pil := congrArg Space.pil space
  have here (r : RegNum) : t.getReg r = t.flat.reg (s.space config).pil r := by
    rw [CpuState.getReg, pil]
    rfl
  have a := (here _).trans registers.a
  have x := (here _).trans registers.x
  have sourceHalf : ((t.getReg RegNum.d).getLsbD 15).toNat =
      (s.byteMove.len + s.byteMove.dLr) % 2 :=
    (congrArg (fun word : Word => (word.getLsbD 15).toNat) ((here _).trans registers.d)).trans
      (ByteMove.movbfEnd_half _ _ _)
  have destHalf : ((t.getReg RegNum.t).getLsbD 15).toNat =
      (s.byteMove.len + s.byteMove.dLr) % 2 :=
    (congrArg (fun word : Word => (word.getLsbD 15).toNat) ((here _).trans registers.t)).trans
      (ByteMove.movbfEnd_half _ _ _)
  have ends : s.byteMove.DestEnds t := ByteMove.destEnds_of_start ⟨rfl, rfl⟩ a x sourceHalf destHalf
  refine ⟨t, done, (here _).trans registers.p, ends, ?_, fun clear => ?_⟩
  · have first : s.byteMove.sLr ≤ 1 := Bool.toNat_le _
    have second : s.byteMove.dLr ≤ 1 := Bool.toNat_le _
    constructor
    · intro named
      have source := named.source
      rw [ByteMove.sourcePosition, ByteMove.bytePosition_after, sourceHalf] at source
      omega
    · intro half
      refine ⟨?_, ends.dest⟩
      rw [ByteMove.sourcePosition, ByteMove.bytePosition_after, sourceHalf, ← half]
      exact ⟨a, rfl⟩
  · have readFirst := (ByteMove.readFirst_ascending mapped).mpr clear
    exact ⟨ByteMove.moved_of_readFirst mapped (List.Perm.refl _) readFirst bytes, readFirst⟩

/-- Five bytes move from a right half to a left half. -/
theorem mixed_mapped : (byteMachine 0x1700 0x8005 0x1600 0x0005).byteMove.Mapped id
    ((byteMachine 0x1700 0x8005 0x1600 0x0005).space bareMachine)
    (byteMachine 0x1700 0x8005 0x1600 0x0005).flat where
  source := by decide +kernel
  dest := by decide +kernel
  reads := by decide +kernel
  writes := by decide +kernel
  apart := fun _ _ _ _ same => same

end Nd100x
