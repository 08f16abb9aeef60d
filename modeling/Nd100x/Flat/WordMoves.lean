import Nd100x.Flat.PageLists
import Nd100x.Library.ByteMemory
import Nd100x.Machine.Moves
import Nd100x.Proof.Addition

namespace Nd100x

open Library

/-- One end of a transfer. -/
inductive MoveEnd where
  | table (useApt : Bool)
  | physical
  deriving DecidableEq, Repr

/-- The ends that the nine modes name. -/
def movewEnds : Nat → MoveEnd × MoveEnd
  | 0 => (.table false, .table false)
  | 1 => (.table false, .table true)
  | 2 => (.table false, .physical)
  | 3 => (.table true, .table false)
  | 4 => (.table true, .table true)
  | 5 => (.table true, .physical)
  | 6 => (.physical, .table false)
  | 7 => (.physical, .table true)
  | _ => (.physical, .physical)

namespace MoveEnd

variable {World : Type} (config : Config World)

/-- The address in a pair of registers. -/
def start (moveEnd : MoveEnd) (high low : Word) : Nat :=
  if moveEnd = physical then high.toNat % 2 ^ 8 * 2 ^ 16 + low.toNat else low.toNat

/-- A virtual address wraps at 16 bits. -/
def read (moveEnd : MoveEnd) (address : Nat) : Cpu World Word :=
  match moveEnd with
  | table useApt => mmsReadVirtualMemory config (BitVec.ofNat 16 address) useApt
  | physical => mmsReadPhysicalMemory config address true

def write (moveEnd : MoveEnd) (address : Nat) (value : Word) : Cpu World Unit :=
  match moveEnd with
  | table useApt => mmsWriteVirtualMemory config (BitVec.ofNat 16 address) value useApt .word
  | physical => mmsWritePhysicalMemoryWm config address value true .word

/-- The memory word of an address, where there is one. -/
def target (space : Space) (f : FlatState) (am : AccessMode) (moveEnd : MoveEnd) (address : Nat) : Target :=
  match moveEnd with
  | table useApt => space.access f am (BitVec.ofNat 16 address) useApt
  | physical => space.physical address

end MoveEnd

section Moves

variable {World : Type} (config : Config World)

def moveWord (ends : MoveEnd × MoveEnd) (source dest : Nat) : Cpu World Unit := do
  ends.2.write config dest (← ends.1.read config source)

/-- Words are moved one at a time. -/
def moveEach (ends : MoveEnd × MoveEnd) (source dest : Nat) : List Nat → Cpu World Unit
  | [] => pure ()
  | k :: rest => do
      moveWord config ends (source + k) (dest + k)
      moveEach ends source dest rest

/-- The words are moved in ascending order. -/
def wordMoves (ends : MoveEnd × MoveEnd) (source dest count : Nat) : Cpu World Unit :=
  moveEach config ends source dest (List.range count)

theorem exec_movewWord {displacement : Nat} (known : displacement ≤ 8) (source dest : Nat) :
    exec config (movewWord displacement source dest) = moveWord config (movewEnds displacement) source dest := by
  interval_cases displacement
  all_goals
    refine (exec_bind config _ _).trans ?_
    exact congr (congrArg _ (exec_perform config _)) (funext fun value => exec_perform config _)

theorem exec_movewWords {displacement : Nat} (known : displacement ≤ 8) (source dest cnt k : Nat) :
    exec config (movewWords displacement cnt (source + k) (dest + k)) =
      moveEach config (movewEnds displacement) source dest (List.range' k cnt) >>=
        fun _ => pure (source + (k + cnt), dest + (k + cnt)) := by
  induction cnt generalizing k with
  | zero => rfl
  | succ cnt ih =>
    rw [movewWords, exec_bind, exec_movewWord config known, Nat.add_assoc, Nat.add_assoc, ih (k + 1),
      List.range'_succ, moveEach, bind_assoc, Nat.add_assoc, Nat.add_comm 1]

/-- The loop of the instruction moves the words in ascending order. -/
theorem movewWords_moves {displacement : Nat} (known : displacement ≤ 8) {source dest cnt : Nat}
    {s u : CpuState World} (moved : wordMoves config (movewEnds displacement) source dest cnt s = .ok () u) :
    exec config (movewWords displacement cnt source dest) s = .ok (source + cnt, dest + cnt) u := by
  have loop := exec_movewWords config known source dest cnt 0
  rw [Nat.add_zero, Nat.add_zero, Nat.zero_add, ← List.range_eq_range', ← wordMoves] at loop
  rw [loop, Cpu.bind_ok moved]
  rfl

end Moves

section Run

variable {space : Space} {f : FlatState} {displacement : Nat}

theorem run_physRead_word {address physical : Nat} (reached : space.physical address = .word physical) :
    space.run (Instr.physRead address) f = .ok (f.memory physical) f := by
  refine (Space.run_perform space f _).trans ?_
  change Space.read (space.physical address) f = _
  rw [reached]
  rfl

theorem run_physWrite_word {address physical : Nat} (value : Word)
    (reached : space.physical address = .word physical) :
    space.run (Instr.physWrite address value) f = .ok () (space.store physical value .word f) := by
  refine (Space.run_perform space f _).trans ?_
  change space.write (space.physical address) value .word f = _
  rw [reached]
  rfl

/-- A word goes from its source to its destination. -/
theorem run_movewWord (known : displacement ≤ 8) {source dest p q : Nat}
    (reads : (movewEnds displacement).1.target space f .read source = .word p)
    (writes : (movewEnds displacement).2.target space f .write dest = .word q) :
    space.run (movewWord displacement source dest) f = .ok () (space.store q (f.memory p) .word f) := by
  interval_cases displacement
  all_goals
    first
    | exact (Space.run_bind_ok (Space.run_memRead reads)).trans (Space.run_memWrite writes)
    | exact (Space.run_bind_ok (Space.run_memRead reads)).trans (run_physWrite_word _ writes)
    | exact (Space.run_bind_ok (run_physRead_word reads)).trans (Space.run_memWrite writes)
    | exact (Space.run_bind_ok (run_physRead_word reads)).trans (run_physWrite_word _ writes)

theorem target_sameView {g : FlatState} (view : space.SameView g f) (am : AccessMode) (moveEnd : MoveEnd)
    (address : Nat) : moveEnd.target space g am address = moveEnd.target space f am address := by
  cases moveEnd with
  | table useApt => exact view.access _ _ _
  | physical => rfl

/-- The words reach the memory in ascending order, so that an overlapping move propagates them. -/
theorem run_movewWords (known : displacement ≤ 8) {source dest cnt : Nat} (k : Nat) {first last : Nat → Nat}
    (reads : ∀ j, k ≤ j → j < k + cnt →
      (movewEnds displacement).1.target space f .read (source + j) = .word (first j))
    (writes : ∀ j, k ≤ j → j < k + cnt →
      (movewEnds displacement).2.target space f .write (dest + j) = .word (last j)) :
    ∃ g, space.run (movewWords displacement cnt (source + k) (dest + k)) f =
        .ok (source + (k + cnt), dest + (k + cnt)) g ∧
      g.memory = copyAll first last (List.range' k cnt) f.memory := by
  induction cnt generalizing k f with
  | zero => exact ⟨f, rfl, rfl⟩
  | succ cnt ih =>
    have moved := run_movewWord known (reads k le_rfl (by omega)) (writes k le_rfl (by omega))
    have view := Space.sameView_store space f (last k) (f.memory (first k)) .word
    obtain ⟨g, done, memory⟩ := ih (k + 1)
      (fun j low high => (target_sameView view _ _ _).trans (reads j (by omega) (by omega)))
      (fun j low high => (target_sameView view _ _ _).trans (writes j (by omega) (by omega)))
    refine ⟨g, ?_, ?_⟩
    · rw [movewWords, Space.run_bind_ok moved, Nat.add_assoc, Nat.add_assoc, done, Nat.add_assoc, Nat.add_comm 1]
    · rw [memory, store_word_memory, List.range'_succ, copyAll]

end Run

section Registers

variable {World : Type} (config : Config World)

/-- A register is written where a condition holds. -/
def CpuState.setRegIf (s : CpuState World) (written : Bool) (r : RegNum) (value : Word) : CpuState World :=
  if written then s.setReg r value else s

theorem getReg_setRegIf (s : CpuState World) (written : Bool) (r : RegNum) (value : Word) :
    (s.setRegIf written r value).getReg r = if written then value else s.getReg r := by
  unfold CpuState.setRegIf
  cases written with
  | false => rfl
  | true => exact s.getReg_setReg r value

theorem getReg_setRegIf_of_ne (s : CpuState World) (written : Bool) {r other : RegNum} (value : Word)
    (apart : other ≠ r) : (s.setRegIf written r value).getReg other = s.getReg other := by
  unfold CpuState.setRegIf
  cases written with
  | false => rfl
  | true => exact s.getReg_setReg_of_ne value apart

/-- The registers hold the addresses after the last word. -/
structure MovewEnded (ends : MoveEnd × MoveEnd) (source dest : Nat) (u t : CpuState World) : Prop where
  count : t.getReg RegNum.l = 0
  sourceWord : t.getReg RegNum.d = BitVec.ofNat 16 source
  sourceBank : t.getReg RegNum.a = if ends.1 = .physical then BitVec.ofNat 16 (source / 2 ^ 16) else u.getReg RegNum.a
  destWord : t.getReg RegNum.t = BitVec.ofNat 16 dest
  destBank : t.getReg RegNum.x = if ends.2 = .physical then BitVec.ofNat 16 (dest / 2 ^ 16) else u.getReg RegNum.x
  others : ∀ r, r ∉ [RegNum.l, RegNum.d, RegNum.a, RegNum.t, RegNum.x] → t.getReg r = u.getReg r

theorem movewPhysical {displacement : Nat} (known : displacement ≤ 8) :
    (movewPhysicalSource displacement = true ↔ (movewEnds displacement).1 = .physical) ∧
      (movewPhysicalDestination displacement = true ↔ (movewEnds displacement).2 = .physical) := by
  interval_cases displacement <;> decide

theorem exec_endMovew {displacement : Nat} (known : displacement ≤ 8) (source dest : Nat) (u : CpuState World) :
    ∃ t, exec config (endMovew displacement source dest) u = .ok () t ∧ t = u.putReg t.reg ∧
      MovewEnded (movewEnds displacement) source dest u t := by
  obtain ⟨left, right⟩ := movewPhysical known
  refine ⟨((((u.setReg RegNum.l 0).setReg RegNum.d (BitVec.ofNat 16 source)).setRegIf (movewPhysicalSource displacement)
    RegNum.a (BitVec.ofNat 16 (source >>> 16))).setReg RegNum.t (BitVec.ofNat 16 dest)).setRegIf
      (movewPhysicalDestination displacement) RegNum.x (BitVec.ofNat 16 (dest >>> 16)), ?_, ?_, ?_⟩
  · rw [endMovew]
    generalize movewPhysicalSource displacement = one
    generalize movewPhysicalDestination displacement = two
    cases one <;> cases two <;> rfl
  · generalize movewPhysicalSource displacement = one
    generalize movewPhysicalDestination displacement = two
    cases one <;> cases two <;> rfl
  · rw [Nat.shiftRight_eq_div_pow, Nat.shiftRight_eq_div_pow]
    have bankX (s : CpuState World) (value : Word) {r : RegNum} (other : r ≠ RegNum.x) :=
      getReg_setRegIf_of_ne s (movewPhysicalDestination displacement) value other
    have bankA (s : CpuState World) (value : Word) {r : RegNum} (other : r ≠ RegNum.a) :=
      getReg_setRegIf_of_ne s (movewPhysicalSource displacement) value other
    have word (s : CpuState World) {r other : RegNum} (value : Word) (apart : other ≠ r) :=
      s.getReg_setReg_of_ne value apart
    refine ⟨?_, ?_, ?_, ?_, ?_, fun r other => ?_⟩
    · rw [bankX _ _ (by decide), word _ _ (by decide), bankA _ _ (by decide), word _ _ (by decide),
        CpuState.getReg_setReg]
    · rw [bankX _ _ (by decide), word _ _ (by decide), bankA _ _ (by decide), CpuState.getReg_setReg]
    · rw [bankX _ _ (by decide), word _ _ (by decide), getReg_setRegIf, word _ _ (by decide), word _ _ (by decide)]
      simp only [left]
    · rw [bankX _ _ (by decide), CpuState.getReg_setReg]
    · rw [getReg_setRegIf, word _ _ (by decide), bankA _ _ (by decide), word _ _ (by decide), word _ _ (by decide)]
      simp only [right]
    · simp only [List.mem_cons, List.not_mem_nil, or_false, not_or] at other
      obtain ⟨l, d, a, t, x⟩ := other
      rw [bankX _ _ x, word _ _ t, bankA _ _ a, word _ _ d, word _ _ l]

theorem moveEach_same (ends : MoveEnd × MoveEnd) (source dest : Nat) (indices : List Nat) :
    Traps (@SameCore World) (moveEach config ends source dest indices) := by
  have rules := @sameCore_memoryStep World
  have read (moveEnd : MoveEnd) (address : Nat) : Traps (@SameCore World) (moveEnd.read config address) := by
    cases moveEnd with
    | table useApt => exact mmsReadVirtual_traps rules config _ _ _
    | physical => exact mmsReadPhysicalMemory_traps rules config _ _
  have write (moveEnd : MoveEnd) (address : Nat) (value : Word) :
      Traps (@SameCore World) (moveEnd.write config address value) := by
    cases moveEnd with
    | table useApt => exact mmsWriteVirtualMemory_traps rules config _ _ _ _
    | physical => exact mmsWritePhysicalMemoryWm_traps rules config _ _ _ _
  induction indices with
  | nil => exact .pure rules.toComposes _
  | cons k rest ih =>
    exact .bind rules.toComposes (.bind rules.toComposes (read _ _) fun value => write _ _ value) fun _ =>
      ih

theorem movewAddress_start (moveEnd : MoveEnd) (isPhysical : Bool) (same : isPhysical = true ↔ moveEnd = .physical)
    (high low : Word) : movewAddress isPhysical high low = moveEnd.start high low := by
  unfold movewAddress MoveEnd.start
  simp only [same]
  split
  · have joined : low.toNat ||| high.toNat <<< 16 = high.toNat * 2 ^ 16 + low.toNat := by
      rw [Nat.or_comm, ← Nat.shiftLeft_add_eq_or_of_lt low.isLt, Nat.shiftLeft_eq]
    have masked (value : Nat) : value &&& 0xFFFFFF = value % 2 ^ 24 := Nat.and_two_pow_sub_one_eq_mod value 24
    have bound := low.isLt
    rw [joined, masked]
    omega
  · rfl

end Registers

section Claim

variable {World : Type} (config : Config World)

namespace CpuState

variable (s : CpuState World) (displacement : Nat)

/-- The first addresses of the move that the registers describe. -/
def movewSource : Nat := (movewEnds displacement).1.start (s.getReg RegNum.a) (s.getReg RegNum.d)

def movewDest : Nat := (movewEnds displacement).2.start (s.getReg RegNum.x) (s.getReg RegNum.t)

def movewCount : Nat := (s.getReg RegNum.l).toNat

/-- The words of the move, one after the other. -/
def movewMoves : Cpu World Unit :=
  wordMoves config (movewEnds displacement) (s.movewSource displacement) (s.movewDest displacement) s.movewCount

/-- No access of the move ends in a trap, and physical addresses are privileged. -/
structure MovewFaultless : Prop where
  privileged : (movewEnds displacement).1 = .physical ∨ (movewEnds displacement).2 = .physical →
    ¬ s.pagingOn ∨ s.ring = 2 ∨ s.ring = 3
  completes : ∃ u, s.movewMoves config displacement s = .ok () u

end CpuState

/-- All words are copied, and the registers hold the addresses after the last one. -/
structure MovewCopied (displacement : Nat) (s t : CpuState World) : Prop where
  moved : ∃ u, s.movewMoves config displacement s = .ok () u ∧ t = u.putReg t.reg
  ended : MovewEnded (movewEnds displacement) (s.movewSource displacement + s.movewCount)
    (s.movewDest displacement + s.movewCount) s t
  memory : ∀ first last : Nat → Nat,
    (∀ k < s.movewCount, (movewEnds displacement).1.target (s.space config) s.flat .read
      (s.movewSource displacement + k) = .word (first k)) →
    (∀ k < s.movewCount, (movewEnds displacement).2.target (s.space config) s.flat .write
      (s.movewDest displacement + k) = .word (last k)) →
    t.flat.memory = copyAll first last (List.range s.movewCount) s.flat.memory

/-- No word is moved, and the addresses are kept. -/
structure MovewUntouched (s t : CpuState World) : Prop where
  memory : t.flat.memory = s.flat.memory
  addresses : ∀ r ∈ [RegNum.a, RegNum.d, RegNum.x, RegNum.t], t.getReg r = s.getReg r

/-- At most 2048 words are moved. -/
def MovewMeets (instr : Word) (s : CpuState World) : Prop :=
  ∃ t, exec config (doMovew instr) s = .ok () t ∧
    if s.movewCount ≤ 2048 then MovewCopied config (instr &&& 0x00F).toNat s t else MovewUntouched s t

variable {config} {s : CpuState World}

theorem exec_checkPriv (granted : ¬ s.pagingOn ∨ s.ring = 2 ∨ s.ring = 3) :
    exec config Instr.checkPriv s = .ok true s := by
  refine (congrFun (exec_perform config .checkPriv) s).trans ?_
  change (checkPriv : Cpu World Bool) s = _
  rw [checkPriv, Cpu.bind_ok (Cpu.get_apply s), if_pos granted]
  rfl

/-- The instruction is its moves and the end of the registers. -/
theorem exec_doMovew {instr : Word} {displacement : Nat} (mode : displacement = (instr &&& 0x00F).toNat)
    (known : displacement ≤ 8) (faultless : s.MovewFaultless config displacement) :
    exec config (doMovew instr) s = (exec config (movewWords displacement s.movewCount (s.movewSource displacement)
      (s.movewDest displacement)) >>= fun ends => exec config (endMovew displacement ends.1 ends.2)) s := by
  obtain ⟨left, right⟩ := movewPhysical known
  have source := movewAddress_start _ _ left (s.getReg RegNum.a) (s.getReg RegNum.d)
  have dest := movewAddress_start _ _ right (s.getReg RegNum.x) (s.getReg RegNum.t)
  have guard : (movewPhysicalSource displacement || movewPhysicalDestination displacement) = true →
      exec config Instr.checkPriv s = .ok true s := by
    intro isPhysical
    rw [Bool.or_eq_true, left, right] at isPhysical
    exact exec_checkPriv (faultless.privileged isPhysical)
  rw [CpuState.movewSource, CpuState.movewDest, ← source, ← dest, ← exec_bind, doMovew, ← mode, exec_bind,
    Cpu.bind_ok (exec_getReg config s RegNum.a), exec_bind, Cpu.bind_ok (exec_getReg config s RegNum.d)]
  dsimp only
  rw [exec_bind, Cpu.bind_ok (exec_getReg config s RegNum.x), exec_bind, Cpu.bind_ok (exec_getReg config s RegNum.t),
    exec_bind, Cpu.bind_ok (exec_getReg config s RegNum.l)]
  by_cases isPhysical : (movewPhysicalSource displacement || movewPhysicalDestination displacement) = true
  · rw [if_pos isPhysical, exec_bind, Cpu.bind_ok (guard isPhysical)]
    rfl
  · rw [if_neg isPhysical]
    rfl

theorem movewCopied_exec {instr : Word} (known : (instr &&& 0x00F).toNat ≤ 8)
    (faultless : s.MovewFaultless config (instr &&& 0x00F).toNat) :
    ∃ t, exec config (doMovew instr) s = .ok () t ∧ MovewCopied config (instr &&& 0x00F).toNat s t := by
  obtain ⟨displacement, mode⟩ : ∃ displacement, displacement = (instr &&& 0x00F).toNat := ⟨_, rfl⟩
  have body := exec_doMovew mode (mode ▸ known) (mode ▸ faultless)
  rw [← mode] at known faultless ⊢
  obtain ⟨u, moved⟩ := faultless.completes
  have looped := movewWords_moves config known moved
  have same : SameCore s u := (moveEach_same config _ _ _ _).ok moved
  obtain ⟨t, done, rest, ended⟩ := exec_endMovew config known (s.movewSource displacement + s.movewCount)
    (s.movewDest displacement + s.movewCount) u
  refine ⟨t, ?_, ⟨u, moved, rest⟩, ?_, fun first last reads writes => ?_⟩
  · rw [body, Cpu.bind_ok looped]
    exact done
  · obtain ⟨count, sourceWord, sourceBank, destWord, destBank, others⟩ := ended
    rw [same.getReg] at sourceBank destBank others
    exact ⟨count, sourceWord, sourceBank, destWord, destBank, others⟩
  · obtain ⟨g, run, memory⟩ := run_movewWords known 0
      (fun j (_ : 0 ≤ j) (below : j < 0 + s.movewCount) => reads j (by omega)) (fun j _ below => writes j (by omega))
    have follows := exec_follows config (movewWords displacement s.movewCount (s.movewSource displacement)
      (s.movewDest displacement)) s
    rw [Nat.add_zero, Nat.add_zero] at run
    rw [run] at follows
    obtain ⟨v, again, flat, -⟩ := follows.ok
    obtain rfl : v = u := (EStateM.Result.ok.inj (again.symm.trans looped)).2
    rw [rest]
    change v.flat.memory = _
    rw [flat, memory, List.range_eq_range']

/-- Moves between memory words are completed. -/
theorem movewMoves_completes {displacement : Nat} (known : displacement ≤ 8) {first last : Nat → Nat}
    (reads : ∀ k < s.movewCount, (movewEnds displacement).1.target (s.space config) s.flat .read
      (s.movewSource displacement + k) = .word (first k))
    (writes : ∀ k < s.movewCount, (movewEnds displacement).2.target (s.space config) s.flat .write
      (s.movewDest displacement + k) = .word (last k)) : ∃ u, s.movewMoves config displacement s = .ok () u := by
  obtain ⟨g, run, -⟩ := run_movewWords known 0
    (fun j (_ : 0 ≤ j) (below : j < 0 + s.movewCount) => reads j (by omega)) (fun j _ below => writes j (by omega))
  have follows := exec_follows config (movewWords displacement s.movewCount (s.movewSource displacement + 0)
    (s.movewDest displacement + 0)) s
  rw [run] at follows
  obtain ⟨v, done, -⟩ := follows.ok
  rw [exec_movewWords config known, ← List.range_eq_range', Cpu.bind_apply] at done
  have moves : s.movewMoves config displacement s = moveEach config (movewEnds displacement)
    (s.movewSource displacement) (s.movewDest displacement) (List.range s.movewCount) s := rfl
  rw [← moves] at done
  cases moved : s.movewMoves config displacement s with
  | ok value u => exact ⟨u, rfl⟩
  | error stop u =>
    rw [moved] at done
    cases done

theorem start_mod (moveEnd : MoveEnd) (high low : Word) : moveEnd.start high low % 2 ^ 16 = low.toNat := by
  have bound := low.isLt
  unfold MoveEnd.start
  split <;> omega

/-- The limit of the description is not checked. -/
theorem movewMeets_iff {instr : Word} (known : (instr &&& 0x00F).toNat ≤ 8)
    (faultless : s.MovewFaultless config (instr &&& 0x00F).toNat) :
    MovewMeets config instr s ↔ s.movewCount ≤ 2048 := by
  obtain ⟨t, done, copied⟩ := movewCopied_exec known faultless
  constructor
  · rintro ⟨u, again, meets⟩
    by_contra many
    rw [if_neg many] at meets
    obtain rfl : t = u := (EStateM.Result.ok.inj (done.symm.trans again)).2
    have kept := meets.addresses RegNum.d (by simp)
    rw [copied.ended.sourceWord] at kept
    have word := congrArg BitVec.toNat kept
    have start := start_mod (movewEnds (instr &&& 0x00F).toNat).1 (s.getReg RegNum.a) (s.getReg RegNum.d)
    have bound : s.movewCount < 2 ^ 16 := (s.getReg RegNum.l).isLt
    rw [BitVec.toNat_ofNat, CpuState.movewSource] at word
    omega
  · intro few
    exact ⟨t, done, by rw [if_pos few]; exact copied⟩

end Claim

/-- A move of words between the fields of D and T without paging. -/
def pagelessMove (count dest : Word) : CpuState Unit :=
  ((cpuInit bareMachine ()).setReg RegNum.l count).setReg RegNum.t dest

theorem pagelessMove_count (count dest : Word) : (pagelessMove count dest).movewCount = count.toNat := by
  rw [CpuState.movewCount, pagelessMove, CpuState.getReg_setReg_of_ne _ _ (by decide), CpuState.getReg_setReg]

theorem pagelessMove_source (count dest : Word) : (pagelessMove count dest).movewSource 0 = 0 := by
  rw [CpuState.movewSource, pagelessMove, CpuState.getReg_setReg_of_ne _ _ (by decide),
    CpuState.getReg_setReg_of_ne _ _ (by decide), CpuState.getReg_setReg_of_ne _ _ (by decide),
    CpuState.getReg_setReg_of_ne _ _ (by decide)]
  rfl

theorem pagelessMove_dest (count dest : Word) : (pagelessMove count dest).movewDest 0 = dest.toNat := by
  rw [CpuState.movewDest, pagelessMove, CpuState.getReg_setReg]
  rfl

theorem pagelessMove_faultless {count dest : Word} (low : count.toNat + dest.toNat < 0xF800) :
    (pagelessMove count dest).MovewFaultless bareMachine 0 where
  privileged isPhysical := by simp [movewEnds] at isPhysical
  completes := by
    have plain : (pagelessMove count dest).pagingOn = false := by
      change (cpuInit bareMachine ()).pagingOn = false
      decide
    have reached {place : Nat} (inside : place < 0xF800) (am : AccessMode) :
        MoveEnd.target ((pagelessMove count dest).space bareMachine) (pagelessMove count dest).flat am (.table false)
          place = .word place := by
      have word : (BitVec.ofNat 16 place).toNat = place := by
        rw [BitVec.toNat_ofNat]
        omega
      have target := @virtual_installed Unit bareMachine (pagelessMove count dest) rfl plain (BitVec.ofNat 16 place)
        (by omega) (by rw [word]; exact lt_trans inside (by decide)) (pagelessMove count dest).flat am false
      rw [word] at target
      exact target
    refine movewMoves_completes (by decide) (fun k below => reached ?_ .read) (fun k below => reached ?_ .write)
    · rw [pagelessMove_count] at below
      rw [pagelessMove_source]
      omega
    · rw [pagelessMove_count] at below
      rw [pagelessMove_dest]
      omega

/-- The code of `MOVEW` with mode 0. -/
def movewTables : Word := 0o143100

theorem movewTables_mode : (movewTables &&& 0x00F).toNat = 0 := by decide

/-- Two words are moved up by one word. -/
theorem movewMeets_two : MovewMeets bareMachine movewTables (pagelessMove 2 1) :=
  (movewMeets_iff (by decide) (movewTables_mode ▸ pagelessMove_faultless (by decide))).mpr (by decide)

/-- One word more than the limit is moved all the same. -/
theorem movew_overLimit : ¬ MovewMeets bareMachine movewTables (pagelessMove 2049 1) := by
  rintro ⟨u, again, meets⟩
  obtain ⟨t, done, copied⟩ := @movewCopied_exec Unit bareMachine (pagelessMove 2049 1) movewTables (by decide)
    (movewTables_mode ▸ pagelessMove_faultless (by decide))
  obtain rfl : t = u := (EStateM.Result.ok.inj (done.symm.trans again)).2
  rw [pagelessMove_count, if_neg (by decide)] at meets
  have kept := meets.addresses RegNum.t (by simp)
  rw [copied.ended.destWord, movewTables_mode, pagelessMove_dest, pagelessMove_count] at kept
  exact absurd kept (by decide)

end Nd100x
