import Nd100x.Flat.Decimal
import Nd100x.Library.ByteMemory
import Nd100x.Machine.Moves
import Nd100x.Machine.Reset

namespace Nd100x

open Library

namespace ByteMove

variable (move : ByteMove) (place : Nat → Nat)

/-- A byte address counts the bytes from the start of the address space. -/
def sourcePosition : Nat := 2 * move.source.toNat + move.sLr

def destPosition : Nat := 2 * move.dest.toNat + move.dLr

/-- The byte of the memory that holds a byte of the address space. -/
def spot (position : Nat) : Nat := 2 * place (position / 2) + position % 2

def sourceSpot (i : Nat) : Nat := spot place (move.sourcePosition + i)

def destSpot (i : Nat) : Nat := spot place (move.destPosition + i)

/-- The words of the two fields. -/
def Touches (word : Nat) : Prop :=
  (∃ i < move.len, word = (move.sourcePosition + i) / 2) ∨
    ∃ i < move.len, word = (move.destPosition + i) / 2

/-- The fields do not wrap, and one mapping takes their words to different places. -/
structure Mapped (space : Space) (f : FlatState) : Prop where
  source : move.sourcePosition + move.len ≤ 2 ^ 17
  dest : move.destPosition + move.len ≤ 2 ^ 17
  reads : ∀ i < move.len, space.access f .read (move.addrS i) move.sApt =
    .word (place ((move.sourcePosition + i) / 2))
  writes : ∀ i < move.len, space.access f .write (move.addrD i) move.dApt =
    .word (place ((move.destPosition + i) / 2))
  apart : ∀ one two, move.Touches one → move.Touches two → place one = place two → one = two

variable {move place} {space : Space} {f g : FlatState}

theorem Mapped.sameView (mapped : move.Mapped place space g) (same : space.SameView f g) :
    move.Mapped place space f where
  source := mapped.source
  dest := mapped.dest
  reads i inside := (same.access _ _ _).trans (mapped.reads i inside)
  writes i inside := (same.access _ _ _).trans (mapped.writes i inside)
  apart := mapped.apart

/-- Different bytes of the fields are in different places. -/
theorem spot_inj (mapped : move.Mapped place space f) {one two : Nat} (first : move.Touches (one / 2))
    (second : move.Touches (two / 2)) (same : spot place one = spot place two) : one = two := by
  unfold spot at same
  have words := mapped.apart _ _ first second (by omega)
  omega

theorem touches_source {i : Nat} (inside : i < move.len) :
    move.Touches ((move.sourcePosition + i) / 2) := .inl ⟨i, inside, rfl⟩

theorem touches_dest {i : Nat} (inside : i < move.len) :
    move.Touches ((move.destPosition + i) / 2) := .inr ⟨i, inside, rfl⟩

theorem destSpot_eq_sourceSpot (mapped : move.Mapped place space f) {i j : Nat} (first : i < move.len)
    (second : j < move.len) : move.destSpot place i = move.sourceSpot place j ↔
      move.destPosition + i = move.sourcePosition + j := by
  constructor
  · exact spot_inj mapped (touches_dest first) (touches_source second)
  · intro same
    rw [destSpot, sourceSpot, same]

theorem destSpot_inj (mapped : move.Mapped place space f) {i j : Nat} (first : i < move.len)
    (second : j < move.len) (same : move.destSpot place i = move.destSpot place j) : i = j := by
  have positions := spot_inj mapped (touches_dest first) (touches_dest second) same
  omega

/- One byte of the loop. -/

/-- The selected half of the word is the byte. -/
theorem selected_byte (memory : Nat → Word) (position : Nat) (half : Nat) (same : half % 2 = position % 2) :
    ((if half % 2 = 1 then memory (place (position / 2)) else
      (memory (place (position / 2)) >>> 8) &&& 0x00FF : Word).setWidth 8 : Byte) =
      byteAt memory (spot place position) := by
  have word : spot place position / 2 = place (position / 2) := by
    rw [spot]
    omega
  have bit : spot place position % 2 = position % 2 := by
    rw [spot]
    omega
  have mask : ((0x00FF : Word).setWidth 8 : Byte) = BitVec.allOnes 8 := by decide
  rw [byteAt, word, bit, same]
  by_cases odd : position % 2 = 1
  · rw [if_pos odd, if_neg (by omega)]
  · rw [if_neg odd, if_pos (by omega), BitVec.setWidth_and, mask, BitVec.and_allOnes]

theorem mergeWord_byte (current value : Word) (index half : Nat) (same : half % 2 = index % 2) :
    mergeWord (if half % 2 = 1 then .lsb else .msb) current value =
      mergeByte current index (value.setWidth 8) := by
  rw [mergeByte, same]
  by_cases odd : index % 2 = 1
  · rw [if_pos odd, if_neg (by omega), mergeWord]
    congr 1
    apply BitVec.eq_of_getLsbD_eq
    intro bit inside
    have mask : (0x00FF : Word).getLsbD bit = decide (bit < 8) := by
      revert bit
      decide
    rw [BitVec.getLsbD_and, mask, BitVec.getLsbD_setWidth, BitVec.getLsbD_setWidth]
    by_cases low : bit < 8 <;> simp [low, inside]
  · rw [if_neg odd, if_pos (by omega), mergeWord]
    congr 1
    apply BitVec.eq_of_getLsbD_eq
    intro bit inside
    rw [BitVec.getLsbD_shiftLeft, BitVec.getLsbD_shiftLeft, BitVec.getLsbD_setWidth,
      BitVec.getLsbD_setWidth]
    by_cases low : bit < 8
    · simp [low]
    · have small : bit - 8 < 8 := by omega
      have wide : bit - 8 < 16 := by omega
      simp [low, small, wide]

/-- One turn of the loop copies one byte and keeps the registers. -/
theorem run_copyByte (mapped : move.Mapped place space f) {i : Nat} (inside : i < move.len) :
    ∃ g, space.run (move.copyByte i) f = .ok () g ∧
      byteAt g.memory = Function.update (byteAt f.memory) (move.destSpot place i)
        (byteAt f.memory (move.sourceSpot place i)) ∧
      g.reg = f.reg ∧ space.SameView g f := by
  have sourceHalf : (i + move.sLr) % 2 = (move.sourcePosition + i) % 2 := by
    rw [sourcePosition]
    omega
  have destHalf : (i + move.dLr) % 2 = move.destSpot place i % 2 := by
    rw [destSpot, spot, destPosition]
    omega
  have word : move.destSpot place i / 2 = place ((move.destPosition + i) / 2) := by
    rw [destSpot, spot]
    omega
  unfold copyByte
  rw [Space.run_bind_ok (Space.run_memRead (mapped.reads i inside)),
    Space.run_memWrite (mapped.writes i inside)]
  refine ⟨_, rfl, ?_, Space.store_reg _ _ _ _ _, Space.sameView_store _ _ _ _ _⟩
  rw [Space.store_memory, FlatState.write, FlatState.putMemory_memory, ← word,
    mergeWord_byte _ _ _ _ destHalf, selected_byte _ _ _ sourceHalf]
  exact byteAt_putByte f.memory (move.destSpot place i) _

/-- The addresses of the last byte of the loop. -/
def lastAddresses (move : ByteMove) (indices : List Nat) (last : Word × Word) : Word × Word :=
  indices.getLast?.elim last fun i => (move.addrS i, move.addrD i)

theorem lastAddresses_cons (i : Nat) (rest : List Nat) (last : Word × Word) :
    move.lastAddresses rest (move.addrS i, move.addrD i) = move.lastAddresses (i :: rest) last := by
  unfold lastAddresses
  rw [List.getLast?_cons]
  cases rest.getLast? <;> rfl

/-- The loop copies its bytes one after the other. -/
theorem run_copyBytes {indices : List Nat} (inside : ∀ i ∈ indices, i < move.len)
    (mapped : move.Mapped place space f) (last : Word × Word) :
    ∃ g, space.run (move.copyBytes indices last) f = .ok (move.lastAddresses indices last) g ∧
      byteAt g.memory =
        copyAll (move.sourceSpot place) (move.destSpot place) indices (byteAt f.memory) ∧
      g.reg = f.reg := by
  induction indices generalizing f last with
  | nil => exact ⟨f, rfl, rfl, rfl⟩
  | cons i rest ih =>
    obtain ⟨g, copied, bytes, registers, same⟩ := run_copyByte mapped (inside i List.mem_cons_self)
    obtain ⟨h, done, later, kept⟩ := ih
      (fun j member => inside j (List.mem_cons_of_mem i member)) (mapped.sameView same)
      (move.addrS i, move.addrD i)
    refine ⟨h, ?_, ?_, kept.trans registers⟩
    · rw [copyBytes, Space.run_bind_ok copied, done, lastAddresses_cons]
    · rw [later, bytes, copyAll]

/-- The destination field holds the bytes of the source field, and every other byte is kept. -/
structure Moved (move : ByteMove) (place : Nat → Nat) (before after : Nat → Word) : Prop where
  copied : ∀ i < move.len,
    byteAt after (move.destSpot place i) = byteAt before (move.sourceSpot place i)
  kept : ∀ spot, (∀ i < move.len, spot ≠ move.destSpot place i) →
    byteAt after spot = byteAt before spot

theorem mem_indices {indices : List Nat} (whole : indices.Perm (List.range move.len)) {i : Nat} :
    i ∈ indices ↔ i < move.len := by
  rw [whole.mem_iff, List.mem_range]

theorem destSpot_distinct (mapped : move.Mapped place space f) {indices : List Nat}
    (whole : indices.Perm (List.range move.len)) : indices.Pairwise fun earlier later =>
      move.destSpot place earlier ≠ move.destSpot place later := by
  have distinct : indices.Nodup := whole.nodup_iff.mpr List.nodup_range
  refine List.Pairwise.imp_of_mem ?_ distinct
  intro i j first second apart same
  exact apart (destSpot_inj mapped ((mem_indices whole).mp first) ((mem_indices whole).mp second) same)

/-- A byte outside the destination field is kept. -/
theorem copyAll_kept {indices : List Nat} (whole : indices.Perm (List.range move.len))
    {before : Nat → Byte} {spot : Nat} (outside : ∀ i < move.len, spot ≠ move.destSpot place i) :
    copyAll (move.sourceSpot place) (move.destSpot place) indices before spot = before spot :=
  copyAll_other fun i member => outside i ((mem_indices whole).mp member)

/-- The field is moved if no byte is overwritten before it is read. -/
theorem moved_of_readFirst (mapped : move.Mapped place space f) {indices : List Nat}
    (whole : indices.Perm (List.range move.len)) {before after : Nat → Word}
    (readFirst : ReadFirst (move.sourceSpot place) (move.destSpot place) indices)
    (bytes : byteAt after =
      copyAll (move.sourceSpot place) (move.destSpot place) indices (byteAt before)) :
    move.Moved place before after where
  copied i inside := by
    rw [bytes]
    exact copyAll_copied readFirst (destSpot_distinct mapped whole) ((mem_indices whole).mpr inside)
  kept spot outside := by
    rw [bytes, copyAll_kept whole outside]

/-- Upwards, a byte is overwritten before it is read where the field moves forward into itself. -/
theorem readFirst_ascending (mapped : move.Mapped place space f) :
    ReadFirst (move.sourceSpot place) (move.destSpot place) (List.range move.len) ↔
      ¬ (move.sourcePosition < move.destPosition ∧
        move.destPosition < move.sourcePosition + move.len) := by
  unfold ReadFirst
  constructor
  · rintro readFirst ⟨forward, into⟩
    rw [List.pairwise_iff_getElem] at readFirst
    have reaches : move.destPosition - move.sourcePosition < move.len := by omega
    have start : 0 < move.len := by omega
    have apart := readFirst 0 (move.destPosition - move.sourcePosition) (by simpa using start)
      (by simpa using reaches) (by omega)
    rw [List.getElem_range, List.getElem_range] at apart
    exact apart ((destSpot_eq_sourceSpot mapped start reaches).mpr (by omega))
  · intro clear
    refine List.Pairwise.imp_of_mem ?_ List.pairwise_lt_range
    intro i j first second earlier same
    have together := (destSpot_eq_sourceSpot mapped (List.mem_range.mp first)
      (List.mem_range.mp second)).mp same
    have := List.mem_range.mp second
    omega

/-- Downwards, every byte of a field that moves forward is read first. -/
theorem readFirst_descending (mapped : move.Mapped place space f)
    (forward : move.sourcePosition < move.destPosition) :
    ReadFirst (move.sourceSpot place) (move.destSpot place) (List.range move.len).reverse := by
  rw [ReadFirst, List.pairwise_reverse]
  refine List.Pairwise.imp_of_mem ?_ List.pairwise_lt_range
  intro j i second first later same
  have together := (destSpot_eq_sourceSpot mapped (List.mem_range.mp first)
    (List.mem_range.mp second)).mp same
  omega

/- The registers after a move. -/

/-- A word and bit 15 of the descriptor name a byte. -/
def bytePosition (word descriptor : Word) : Nat := 2 * word.toNat + (descriptor.getLsbD 15).toNat

theorem bytePosition_after {word descriptor start : Word} {half len : Nat} :
    bytePosition word descriptor = (2 * start.toNat + half + len) % 2 ^ 17 ↔
      word = start + BitVec.ofNat 16 ((len + half) / 2) ∧
        (descriptor.getLsbD 15).toNat = (len + half) % 2 := by
  have bound := word.isLt
  have bit := Bool.toNat_le (descriptor.getLsbD 15)
  have sum : (start + BitVec.ofNat 16 ((len + half) / 2)).toNat =
      (start.toNat + (len + half) / 2) % 2 ^ 16 := by
    rw [BitVec.toNat_add, BitVec.toNat_ofNat, Nat.add_mod_mod]
  unfold bytePosition
  constructor
  · intro same
    refine ⟨BitVec.eq_of_toNat_eq ?_, ?_⟩ <;> omega
  · rintro ⟨rfl, bits⟩
    omega

/-- The smaller length has twelve bits. -/
theorem len_lt (a d x t : Word) : (ofRegisters a d x t).len < 2 ^ 12 := by
  have low (word : Word) : (word &&& 0x0FFF).toNat < 2 ^ 12 := by
    rw [BitVec.toNat_and]
    exact lt_of_le_of_lt Nat.and_le_right (by decide)
  unfold len
  split
  · exact low d
  · exact low t

variable (move) in
theorem endHalf_bit : (move.endHalf <<< 15).getLsbD 15 = decide ((move.len + move.dLr) % 2 = 1) := by
  have half : (move.len + move.dLr) % 2 = 0 ∨ (move.len + move.dLr) % 2 = 1 := by omega
  unfold endHalf
  rcases half with even | odd
  · rw [even]
    decide
  · rw [odd]
    decide

variable (move) in
theorem endHalf_low : (move.endHalf <<< 15) &&& (0x0FFF : Word) = 0#16 := by
  have half : (move.len + move.dLr) % 2 = 0 ∨ (move.len + move.dLr) % 2 = 1 := by omega
  unfold endHalf
  rcases half with even | odd
  · rw [even]
    decide
  · rw [odd]
    decide

/-- The length of the source is cleared, and bit 15 is the end half. -/
def movbSource (move : ByteMove) (d : Word) : Word := (d &&& (0x7000 : Word)) ||| (move.endHalf <<< 15)

def movbDest (move : ByteMove) (t : Word) : Word :=
  move.movbSource t ||| (BitVec.ofNat 16 move.len &&& (0x0FFF : Word))

section Descriptors

variable (move) (word : Word)

theorem movbSource_length : move.movbSource word &&& 0x0FFF = 0#16 := by
  have masks : (0x7000 : Word) &&& 0x0FFF = 0#16 := by decide
  rw [movbSource, BitVec.and_or_distrib_right, BitVec.and_assoc, masks, endHalf_low, BitVec.and_zero,
    BitVec.or_zero]

theorem movbSource_half :
    ((move.movbSource word).getLsbD 15).toNat = (move.len + move.dLr) % 2 := by
  have mask : (0x7000 : Word).getLsbD 15 = false := by decide
  rw [movbSource, BitVec.getLsbD_or, BitVec.getLsbD_and, mask, Bool.and_false, Bool.false_or,
    endHalf_bit]
  have half : (move.len + move.dLr) % 2 = 0 ∨ (move.len + move.dLr) % 2 = 1 := by omega
  rcases half with even | odd
  · rw [even]
    rfl
  · rw [odd]
    rfl

variable {move} in
theorem movbDest_length (small : move.len < 2 ^ 12) :
    (move.movbDest word &&& 0x0FFF).toNat = move.len := by
  rw [movbDest, BitVec.and_or_distrib_right, movbSource_length, BitVec.zero_or, BitVec.and_assoc,
    BitVec.and_self, BitVec.toNat_and, BitVec.toNat_ofNat]
  change move.len % 2 ^ 16 &&& (2 ^ 12 - 1) = move.len
  rw [Nat.and_two_pow_sub_one_eq_mod]
  omega

theorem movbDest_half : ((move.movbDest word).getLsbD 15).toNat = (move.len + move.dLr) % 2 := by
  have mask : (0x0FFF : Word).getLsbD 15 = false := by decide
  rw [movbDest, BitVec.getLsbD_or, BitVec.getLsbD_and, mask, Bool.and_false, Bool.or_false,
    movbSource_half]

/-- The lengths count down, and bit 15 is the end half. -/
def movbfEnd (move : ByteMove) (kept length : Word) : Word :=
  (((kept &&& (0x7FFF : Word)) ||| (move.endHalf <<< 15)) &&& (0xF000 : Word)) ||| (length &&& (0x0FFF : Word))

theorem movbfEnd_half (length : Word) :
    ((move.movbfEnd word length).getLsbD 15).toNat = (move.len + move.dLr) % 2 := by
  have clear : (0x7FFF : Word).getLsbD 15 = false := by decide
  have keep : (0xF000 : Word).getLsbD 15 = true := by decide
  have low : (0x0FFF : Word).getLsbD 15 = false := by decide
  rw [movbfEnd, BitVec.getLsbD_or, BitVec.getLsbD_and, BitVec.getLsbD_or, BitVec.getLsbD_and,
    BitVec.getLsbD_and, clear, keep, low, Bool.and_false, Bool.and_false, Bool.or_false,
    Bool.and_true, Bool.false_or, endHalf_bit]
  have half : (move.len + move.dLr) % 2 = 0 ∨ (move.len + move.dLr) % 2 = 1 := by omega
  rcases half with even | odd
  · rw [even]
    rfl
  · rw [odd]
    rfl

end Descriptors

/- The runs of the two instructions. -/

/-- The registers that the instructions read. -/
def ofFlat (space : Space) (f : FlatState) : ByteMove :=
  .ofRegisters (f.reg space.pil RegNum.a) (f.reg space.pil RegNum.d) (f.reg space.pil RegNum.x)
    (f.reg space.pil RegNum.t)

theorem run_fetchByteMove : space.run fetchByteMove f = .ok (ofFlat space f) f := rfl

/-- The order of the bytes of `MOVB`. -/
def movbIndices (move : ByteMove) : List Nat :=
  if move.descending then (List.range move.len).reverse else List.range move.len

theorem movbIndices_perm : move.movbIndices.Perm (List.range move.len) := by
  unfold movbIndices
  split
  · exact List.reverse_perm _
  · exact List.Perm.refl _

theorem descending_iff :
    move.descending = true ↔ move.sourcePosition < move.destPosition := by
  rw [descending, sourcePosition, destPosition, decide_eq_true_iff, Nat.shiftLeft_eq, Nat.shiftLeft_eq]
  omega

/-- The direction of `MOVB` reads every byte first. -/
theorem readFirst_movb (mapped : move.Mapped place space f) :
    ReadFirst (move.sourceSpot place) (move.destSpot place) move.movbIndices := by
  unfold movbIndices
  by_cases forward : move.sourcePosition < move.destPosition
  · rw [if_pos (descending_iff.mpr forward)]
    exact readFirst_descending mapped forward
  · rw [if_neg (mt descending_iff.mp forward), readFirst_ascending mapped]
    exact fun overlaps => forward overlaps.1

/-- The registers after an instruction, on the level that runs. -/
structure MoveRegisters (space : Space) (g : FlatState) (a d x t p : Word) : Prop where
  a : g.reg space.pil RegNum.a = a
  d : g.reg space.pil RegNum.d = d
  x : g.reg space.pil RegNum.x = x
  t : g.reg space.pil RegNum.t = t
  p : g.reg space.pil RegNum.p = p

/-- The skip return changes the program counter only. -/
theorem MoveRegisters.skip {a d x t p : Word} (registers : MoveRegisters space g a d x t p) :
    ∃ g', space.run skipReturn g = .ok () g' ∧ g'.memory = g.memory ∧
      MoveRegisters space g' a d x t (p + 1) := by
  refine ⟨_, Space.run_skipReturn, rfl, ?_⟩
  rw [registers.p]
  exact {
    a := (FlatState.reg_setRegAt_other _ (by decide)).trans registers.a
    d := (FlatState.reg_setRegAt_other _ (by decide)).trans registers.d
    x := (FlatState.reg_setRegAt_other _ (by decide)).trans registers.x
    t := (FlatState.reg_setRegAt_other _ (by decide)).trans registers.t
    p := FlatState.reg_setRegAt_self g space.pil RegNum.p (p + 1) }

/-- The descriptors are set before or after the addresses. -/
theorem moveRegisters_movb (space : Space) (f : FlatState) (a d x t : Word) :
    MoveRegisters space ((((f.setRegAt space.pil RegNum.d d).setRegAt space.pil RegNum.t t).setRegAt
      space.pil RegNum.a a).setRegAt space.pil RegNum.x x) a d x t (f.reg space.pil RegNum.p) := by
  constructor
  all_goals simp only [FlatState.reg_setRegAt]
  all_goals rfl

theorem moveRegisters_movbf (space : Space) (f : FlatState) (a d x t : Word) :
    MoveRegisters space ((((f.setRegAt space.pil RegNum.a a).setRegAt space.pil RegNum.x x).setRegAt
      space.pil RegNum.d d).setRegAt space.pil RegNum.t t) a d x t (f.reg space.pil RegNum.p) := by
  constructor
  all_goals simp only [FlatState.reg_setRegAt]
  all_goals rfl

/-- `MOVB` moves the field and leaves the last addresses of its loop in the end addresses. -/
theorem run_movb (mapped : (ofFlat space f).Mapped place space f) :
    ∃ g, space.run opcodeMovbMoveByte f = .ok () g ∧
      (ofFlat space f).Moved place f.memory g.memory ∧
      MoveRegisters space g
        (((ofFlat space f).lastAddresses (ofFlat space f).movbIndices (0, 0)).1 +
          BitVec.ofNat 16 (((ofFlat space f).len + (ofFlat space f).sLr) >>> 1))
        ((ofFlat space f).movbSource (f.reg space.pil RegNum.d))
        (((ofFlat space f).lastAddresses (ofFlat space f).movbIndices (0, 0)).2 +
          BitVec.ofNat 16 (((ofFlat space f).len + (ofFlat space f).dLr) >>> 1))
        ((ofFlat space f).movbDest (f.reg space.pil RegNum.t)) (f.reg space.pil RegNum.p + 1) := by
  obtain ⟨h, copied, bytes, registers⟩ := run_copyBytes
    (fun i member => (mem_indices movbIndices_perm).mp member) mapped (0, 0)
  obtain ⟨g, skipped, memory, ended⟩ := (moveRegisters_movb space h _ _ _ _).skip
  unfold opcodeMovbMoveByte
  rw [Space.run_bind_ok run_fetchByteMove]
  dsimp only
  change ∃ g, space.run ((ofFlat space f).copyBytes (ofFlat space f).movbIndices (0, 0) >>= _) f =
    .ok () g ∧ _
  rw [Space.run_bind_ok copied, Space.run_bind_ok (Space.run_getReg space h _),
    Space.run_bind_ok (Space.run_getReg space h _), Space.run_bind_ok (Space.run_setReg space h _ _),
    Space.run_bind_ok (Space.run_setReg space _ _ _), Space.run_bind_ok (Space.run_setReg space _ _ _),
    Space.run_bind_ok (Space.run_setReg space _ _ _), ← registers]
  refine ⟨g, skipped, ?_, ended⟩
  rw [memory]
  exact moved_of_readFirst mapped movbIndices_perm (readFirst_movb mapped) bytes

/-- `MOVBF` copies upwards, and its end addresses are computed from the start addresses. -/
theorem run_movbf (mapped : (ofFlat space f).Mapped place space f) :
    ∃ g, space.run opcodeMovbfMoveBytesForward f = .ok () g ∧
      byteAt g.memory = copyAll ((ofFlat space f).sourceSpot place) ((ofFlat space f).destSpot place)
        (List.range (ofFlat space f).len) (byteAt f.memory) ∧
      MoveRegisters space g
        ((ofFlat space f).source + BitVec.ofNat 16 (((ofFlat space f).len + (ofFlat space f).sLr) >>> 1))
        ((ofFlat space f).movbfEnd (f.reg space.pil RegNum.d &&& (0xEFFF : Word))
          ((ofFlat space f).lens - BitVec.ofNat 16 (ofFlat space f).len))
        ((ofFlat space f).dest + BitVec.ofNat 16 (((ofFlat space f).len + (ofFlat space f).dLr) >>> 1))
        ((ofFlat space f).movbfEnd (f.reg space.pil RegNum.t &&& (0xCFFF : Word))
          ((ofFlat space f).lend - BitVec.ofNat 16 (ofFlat space f).len))
        (if (ofFlat space f).overlap then f.reg space.pil RegNum.p
          else f.reg space.pil RegNum.p + 1) := by
  obtain ⟨h, copied, bytes, registers⟩ := run_copyBytes (fun i member => List.mem_range.mp member)
    mapped (0, 0)
  have kept (one two : Word) {r : RegNum} (first : r ≠ GenReg.a.num) (second : r ≠ GenReg.x.num) :
      ((h.setRegAt space.pil GenReg.a.num one).setRegAt space.pil GenReg.x.num two).reg
        space.pil r = f.reg space.pil r := by
    rw [FlatState.reg_setRegAt_other _ second, FlatState.reg_setRegAt_other _ first, registers]
  unfold opcodeMovbfMoveBytesForward
  rw [Space.run_bind_ok run_fetchByteMove]
  dsimp only
  rw [Space.run_bind_ok copied, Space.run_bind_ok (Space.run_setReg space h _ _),
    Space.run_bind_ok (Space.run_setReg space _ _ _), Space.run_bind_ok (Space.run_getReg space _ _),
    Space.run_bind_ok (Space.run_getReg space _ _), Space.run_bind_ok (Space.run_setReg space _ _ _),
    Space.run_bind_ok (Space.run_setReg space _ _ _), kept _ _ (by decide) (by decide),
    kept _ _ (by decide) (by decide)]
  have ended := moveRegisters_movbf space h
    ((ofFlat space f).source + BitVec.ofNat 16 (((ofFlat space f).len + (ofFlat space f).sLr) >>> 1))
    ((ofFlat space f).movbfEnd (f.reg space.pil RegNum.d &&& (0xEFFF : Word))
      ((ofFlat space f).lens - BitVec.ofNat 16 (ofFlat space f).len))
    ((ofFlat space f).dest + BitVec.ofNat 16 (((ofFlat space f).len + (ofFlat space f).dLr) >>> 1))
    ((ofFlat space f).movbfEnd (f.reg space.pil RegNum.t &&& (0xCFFF : Word))
      ((ofFlat space f).lend - BitVec.ofNat 16 (ofFlat space f).len))
  rw [registers] at ended
  by_cases overlaps : (ofFlat space f).overlap = true
  · rw [if_pos overlaps, if_neg (by rw [overlaps]; decide), Space.run_pure]
    exact ⟨_, rfl, bytes, ended⟩
  · obtain ⟨g, skipped, memory, final⟩ := ended.skip
    rw [if_neg overlaps, if_pos (by rw [Bool.not_eq_true] at overlaps; rw [overlaps]; rfl)]
    refine ⟨g, skipped, ?_, final⟩
    rw [memory]
    exact bytes

end ByteMove

end Nd100x
