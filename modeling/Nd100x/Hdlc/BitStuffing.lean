import Nd100x.Library.BitStream
import Nd100x.Library.BitStuffing
import Nd100x.Machine.State

namespace Nd100x.Hdlc

open Nd100x.Library

/-- The chip sends one bit at a time. Its checksum and the bytes for the modem are kept apart. -/
structure Com5025 where
  txena : Bool
  txact : Bool
  tbmt : Bool
  tso : Bool
  transmitterDataBuffer : Byte
  transmitterShiftRegister : Byte
  transmitterShiftRegisterBit : Nat
  tsrEnableBitStuffing : Bool
  tsrCountOnes : Nat
  clockCounter : Nat
  deriving DecidableEq

namespace Com5025

variable (chip : Com5025)

/-- A reset leaves the line high and asks for data. -/
def reset : Com5025 where
  txena := false
  txact := false
  tbmt := true
  tso := true
  transmitterDataBuffer := 0
  transmitterShiftRegister := 0
  transmitterShiftRegisterBit := 0
  tsrEnableBitStuffing := true
  tsrCountOnes := 0
  clockCounter := 0

def setTxena (value : Bool) : Com5025 := { chip with txena := value, txact := value }

def writeTransmitterDataBuffer (data : Byte) : Com5025 :=
  { chip with transmitterDataBuffer := data, tbmt := false }

def writeDataToShiftRegister (data : Byte) : Com5025 :=
  { chip with
    transmitterShiftRegister := data
    transmitterShiftRegisterBit := 8
    tsrCountOnes := 0
    tsrEnableBitStuffing := true }

def moveDataBufferToShiftRegister : Com5025 :=
  { chip.writeDataToShiftRegister chip.transmitterDataBuffer with
    transmitterDataBuffer := 0
    tbmt := true }

def shiftRegisterEmpty : Bool := decide (chip.transmitterShiftRegisterBit = 0)

/-- An empty shift register takes the byte that waits. -/
def refill : Com5025 :=
  if chip.shiftRegisterEmpty ∧ chip.tbmt = false then chip.moveDataBufferToShiftRegister else chip

/-- After five ones a zero is sent, and the register is not shifted. -/
def sendBit : Com5025 :=
  let out := chip.transmitterShiftRegister.getLsbD 0
  let ones := if chip.tsrEnableBitStuffing then if out then chip.tsrCountOnes + 1 else 0
    else chip.tsrCountOnes
  let left := chip.transmitterShiftRegisterBit - 1
  if chip.tsrCountOnes = 5 then { chip with tsrCountOnes := 0, tso := false }
  else
    { chip with
      tso := out
      tsrCountOnes := ones
      transmitterShiftRegister := if left = 0 then 0 else chip.transmitterShiftRegister >>> 1
      transmitterShiftRegisterBit := left
      tbmt := chip.tbmt || (decide (left = 0) && !chip.tsrEnableBitStuffing) }

def clockTransmitter : Com5025 :=
  if chip.txena then
    let clocked :=
      if chip.txact then
        if 0 < chip.refill.transmitterShiftRegisterBit then chip.refill.sendBit
        else { chip.refill with tso := true }
      else chip
    { clocked with clockCounter := clocked.clockCounter + 1 }
  else chip

/-- The next clock sends a bit of the data. -/
def Sends : Prop :=
  chip.txena = true ∧ chip.txact = true ∧ 0 < chip.refill.transmitterShiftRegisterBit

instance : Decidable chip.Sends := inferInstanceAs (Decidable (_ ∧ _))

end Com5025

/-- The host has these bytes left, and these bits of the data were on the line. -/
structure Line where
  chip : Com5025
  queue : List Byte
  sent : List Bool

namespace Line

/-- The host answers a request for data with its next byte. -/
def answer (line : Line) : Line :=
  match line.queue with
  | [] => line
  | byte :: rest =>
    if line.chip.tbmt then
      { line with chip := line.chip.writeTransmitterDataBuffer byte, queue := rest }
    else line

def clock (line : Line) : Line :=
  { line with
    chip := line.chip.clockTransmitter
    sent :=
      if line.chip.Sends then line.sent ++ [line.chip.clockTransmitter.tso] else line.sent }

/-- Before each clock the host answers or is late. -/
def tick (line : Line) (answers : Bool) : Line :=
  (if answers then line.answer else line).clock

def start (bytes : List Byte) : Line := ⟨Com5025.reset.setTxena true, bytes, []⟩

def run (bytes : List Byte) (schedule : List Bool) : Line := schedule.foldl tick (start bytes)

def Finished (line : Line) : Prop :=
  line.queue = [] ∧ line.chip.tbmt = true ∧ line.chip.shiftRegisterEmpty = true

end Line

/-- The bits on the line never have six ones in a row, and without the zero after every five ones
they are those of the bytes. -/
structure Stuffed (bytes : List Byte) (line : Line) : Prop where
  calm : ¬List.replicate 6 true <:+: line.sent
  reads : unstuff 0 line.sent <+: bytesBits bytes
  whole : line.Finished → unstuff 0 line.sent = bytesBits bytes

def byteBits (byte : Byte) : List Bool := natBits 8 byte.toNat

section Chip

variable {chip : Com5025}

/-- These bits of the register are still to be sent. -/
def Com5025.remaining (chip : Com5025) : List Bool :=
  stuff chip.tsrCountOnes
    (natBits chip.transmitterShiftRegisterBit chip.transmitterShiftRegister.toNat)

/-- The transmitter is at work on data. -/
structure Com5025.Works (chip : Com5025) : Prop where
  txena : chip.txena = true
  txact : chip.txact = true
  stuffs : chip.tsrEnableBitStuffing = true

theorem natBits_shift (left : Nat) (register : Byte) :
    natBits (left + 1) register.toNat =
      register.getLsbD 0 :: natBits left (register >>> 1).toNat := by
  rw [natBits, BitVec.toNat_ushiftRight, Nat.shiftRight_succ, Nat.shiftRight_zero]
  congr 1
  rw [BitVec.getLsbD, Nat.testBit_zero]

/-- A clock sends the first of the remaining bits. -/
theorem sendBit_remaining (works : chip.Works) (some_ : 0 < chip.transmitterShiftRegisterBit) :
    chip.remaining = chip.sendBit.tso :: chip.sendBit.remaining := by
  obtain ⟨left, length⟩ := Nat.exists_eq_succ_of_ne_zero (Nat.ne_of_gt some_)
  rw [Com5025.remaining, Com5025.remaining, Com5025.sendBit, length, natBits_shift, works.stuffs]
  by_cases full : chip.tsrCountOnes = 5
  · -- The sixth bit waits for a zero.
    rw [full, stuff_full, if_pos rfl, natBits_shift]
  · rw [stuff, if_neg full, if_neg full, Nat.succ_sub_one, if_pos rfl]
    rcases left with _ | left
    · cases chip.transmitterShiftRegister.getLsbD 0 <;> rfl
    · rw [if_neg (Nat.succ_ne_zero left)]

theorem sendBit_works (works : chip.Works) : chip.sendBit.Works := by
  rw [Com5025.sendBit]
  split_ifs <;> exact ⟨works.txena, works.txact, works.stuffs⟩

/-- The bytes that wait in the chip. -/
def Com5025.waiting (chip : Com5025) : List Byte :=
  if chip.tbmt then [] else [chip.transmitterDataBuffer]

theorem sendBit_waiting (works : chip.Works) : chip.sendBit.waiting = chip.waiting := by
  have asks : chip.sendBit.tbmt = chip.tbmt := by
    rw [Com5025.sendBit]
    split_ifs
    · rfl
    all_goals
      rw [works.stuffs, Bool.not_true, Bool.and_false, Bool.or_false]
  have waits : chip.sendBit.transmitterDataBuffer = chip.transmitterDataBuffer := by
    rw [Com5025.sendBit]
    split_ifs <;> rfl
  rw [Com5025.waiting, Com5025.waiting, asks, waits]

theorem refill_works (works : chip.Works) : chip.refill.Works := by
  rw [Com5025.refill]
  split_ifs
  · exact ⟨works.txena, works.txact, rfl⟩
  · exact works

/-- A byte that is taken from the buffer is stuffed for itself. -/
theorem refill_remaining (chip : Com5025) :
    chip.refill.remaining ++ stuffPieces (chip.refill.waiting.map byteBits) =
      chip.remaining ++ stuffPieces (chip.waiting.map byteBits) := by
  rw [Com5025.refill]
  split_ifs with ready
  · obtain ⟨empty, full⟩ := ready
    rw [Com5025.shiftRegisterEmpty, decide_eq_true_eq] at empty
    rw [Com5025.remaining, Com5025.remaining, empty, Com5025.waiting, Com5025.waiting, full]
    rfl
  · rfl

end Chip

section Lines

variable {line : Line}

/-- These bits are still to come. -/
def Line.pending (line : Line) : List Bool :=
  line.chip.remaining ++ stuffPieces ((line.chip.waiting ++ line.queue).map byteBits)

theorem answer_pending (line : Line) : line.answer.pending = line.pending := by
  rw [Line.answer]
  rcases queue : line.queue with _ | ⟨byte, rest⟩
  · rfl
  · dsimp only
    split_ifs with asks
    · rw [Line.pending, Line.pending, queue, Com5025.waiting, Com5025.waiting, if_pos asks]
      rfl
    · rfl

theorem stuffPieces_bytes (first second : List Byte) :
    stuffPieces ((first ++ second).map byteBits) =
      stuffPieces (first.map byteBits) ++ stuffPieces (second.map byteBits) := by
  rw [List.map_append, stuffPieces, List.flatMap_append]
  rfl

/-- A clock moves the first of the pending bits to the line, or there is none of them. -/
theorem clock_pending (works : line.chip.Works) :
    line.clock.chip.Works ∧ line.clock.sent ++ line.clock.pending = line.sent ++ line.pending := by
  have refilled := refill_works works
  have clocked : line.chip.clockTransmitter =
      let next := if 0 < line.chip.refill.transmitterShiftRegisterBit then line.chip.refill.sendBit
        else { line.chip.refill with tso := true }
      { next with clockCounter := next.clockCounter + 1 } := by
    rw [Com5025.clockTransmitter, works.txena, works.txact]
    rfl
  have same : line.pending = line.chip.refill.remaining ++
      (stuffPieces (line.chip.refill.waiting.map byteBits) ++
        stuffPieces (line.queue.map byteBits)) := by
    rw [Line.pending, stuffPieces_bytes, ← List.append_assoc, ← List.append_assoc,
      refill_remaining]
  rw [same, Line.clock, clocked]
  dsimp only
  by_cases some_ : 0 < line.chip.refill.transmitterShiftRegisterBit
  · have sends : line.chip.Sends := ⟨works.txena, works.txact, some_⟩
    have works_ := sendBit_works refilled
    rw [if_pos some_, if_pos sends, sendBit_remaining refilled some_]
    refine ⟨⟨works_.txena, works_.txact, works_.stuffs⟩, ?_⟩
    rw [Line.pending, stuffPieces_bytes]
    change (line.sent ++ [line.chip.refill.sendBit.tso]) ++ (line.chip.refill.sendBit.remaining ++
      (stuffPieces (line.chip.refill.sendBit.waiting.map byteBits) ++ _)) = _
    rw [sendBit_waiting refilled, List.append_assoc]
    rfl
  · have still : ¬line.chip.Sends := fun sends => some_ sends.2.2
    rw [if_neg some_, if_neg still]
    refine ⟨⟨refilled.txena, refilled.txact, refilled.stuffs⟩, ?_⟩
    rw [Line.pending, stuffPieces_bytes]
    rfl

theorem answer_works (works : line.chip.Works) : line.answer.chip.Works := by
  rw [Line.answer]
  split
  · exact works
  · split_ifs
    · exact ⟨works.txena, works.txact, works.stuffs⟩
    · exact works

theorem answer_sent (line : Line) : line.answer.sent = line.sent := by
  rw [Line.answer]
  split
  · rfl
  · split_ifs <;> rfl

theorem tick_pending (works : line.chip.Works) (answers : Bool) :
    (line.tick answers).chip.Works ∧
      (line.tick answers).sent ++ (line.tick answers).pending = line.sent ++ line.pending := by
  cases answers with
  | true =>
    obtain ⟨works_, same⟩ := clock_pending (answer_works works)
    rw [answer_sent, answer_pending] at same
    exact ⟨works_, same⟩
  | false => exact clock_pending works

/-- What was sent and what is pending are the stuffed bytes at every time. -/
theorem run_pending (bytes : List Byte) (schedule : List Bool) :
    (Line.run bytes schedule).chip.Works ∧
      (Line.run bytes schedule).sent ++ (Line.run bytes schedule).pending =
        stuffPieces (bytes.map byteBits) := by
  induction schedule using List.reverseRecOn with
  | nil => exact ⟨⟨rfl, rfl, rfl⟩, rfl⟩
  | append_singleton schedule answers ih =>
    obtain ⟨works, same⟩ := ih
    rw [Line.run, List.foldl_append]
    obtain ⟨works_, same_⟩ := tick_pending works answers
    exact ⟨works_, same_.trans same⟩

theorem stuff_eq_nil {ones : Nat} {bits : List Bool} (none_ : stuff ones bits = []) :
    bits = [] := by
  cases bits with
  | nil => rfl
  | cons bit bits =>
    rw [stuff] at none_
    split_ifs at none_

theorem stuffPieces_eq_nil {bytes : List Byte} (none_ : stuffPieces (bytes.map byteBits) = []) :
    bytes = [] := by
  cases bytes with
  | nil => rfl
  | cons byte bytes =>
    rw [List.map_cons, stuffPieces, List.flatMap_cons] at none_
    cases stuff_eq_nil (List.append_eq_nil_iff.mp none_).1

/-- The host is done when no bit is pending. -/
theorem finished_iff : line.Finished ↔ line.pending = [] := by
  rw [Line.pending, List.append_eq_nil_iff]
  constructor
  · rintro ⟨queue, asks, empty⟩
    rw [Com5025.shiftRegisterEmpty, decide_eq_true_eq] at empty
    rw [Com5025.remaining, empty, Com5025.waiting, asks, queue]
    exact ⟨rfl, rfl⟩
  · rintro ⟨register, bytes⟩
    obtain ⟨waits, queue⟩ := List.append_eq_nil_iff.mp (stuffPieces_eq_nil bytes)
    refine ⟨queue, ?_, ?_⟩
    · rw [Com5025.waiting] at waits
      split_ifs at waits with asks
      exact asks
    · have length := congrArg List.length (stuff_eq_nil register)
      rw [natBits_length] at length
      exact decide_eq_true length

/-- A host that answers keeps the line busy until it is done. -/
theorem tick_busy (works : line.chip.Works) (busy : line.pending ≠ []) :
    (line.tick true).sent.length = line.sent.length + 1 := by
  have works_ := answer_works works
  rw [← answer_pending] at busy
  have answered (asks : line.answer.chip.tbmt = true) : line.answer.queue = [] := by
    rw [Line.answer] at asks ⊢
    rcases queue : line.queue with _ | ⟨byte, rest⟩
    · exact queue
    · rw [queue] at asks
      dsimp only at asks
      split_ifs at asks with ready
      · cases asks
      · exact absurd asks ready
  have sends : line.answer.chip.Sends := by
    refine ⟨works_.txena, works_.txact, ?_⟩
    by_contra still
    refine busy (finished_iff.mp ?_)
    rw [Nat.not_lt, Nat.le_zero, Com5025.refill] at still
    split_ifs at still with ready
    · cases still
    · have empty : line.answer.chip.shiftRegisterEmpty = true := decide_eq_true still
      rw [empty, and_iff_right rfl, Bool.not_eq_false] at ready
      exact ⟨answered ready, ready, empty⟩
  rw [Line.tick, if_pos rfl, Line.clock]
  dsimp only
  rw [if_pos sends, List.length_append, answer_sent]
  rfl

/-- A host that always answers is done at last. -/
theorem run_finishes (bytes : List Byte) : ∃ schedule, (Line.run bytes schedule).Finished := by
  by_contra never
  have busy (schedule : List Bool) : (Line.run bytes schedule).pending ≠ [] :=
    fun none_ => never ⟨schedule, finished_iff.mpr none_⟩
  have count (clocks : Nat) :
      (Line.run bytes (List.replicate clocks true)).sent.length = clocks := by
    induction clocks with
    | zero => rfl
    | succ clocks ih =>
      obtain ⟨works, -⟩ := run_pending bytes (List.replicate clocks true)
      have next := tick_busy works (busy _)
      rw [ih] at next
      rw [List.replicate_succ', Line.run, List.foldl_append]
      exact next
  have sent := count ((stuffPieces (bytes.map byteBits)).length + 1)
  have all := congrArg List.length (run_pending bytes
    (List.replicate ((stuffPieces (bytes.map byteBits)).length + 1) true)).2
  rw [List.length_append, sent] at all
  omega

end Lines

/-- The line is right at every time, however late the host is, exactly when each byte joins the
next. -/
theorem line_stuffed_iff (bytes : List Byte) :
    (∀ schedule, Stuffed bytes (Line.run bytes schedule)) ↔
      (bytes.map byteBits).IsChain Joins := by
  have flat : (bytes.map byteBits).flatten = bytesBits bytes := rfl
  rw [← stuffPieces_reads_iff, flat]
  constructor
  · intro stuffed
    obtain ⟨schedule, finished⟩ := run_finishes bytes
    obtain ⟨-, same⟩ := run_pending bytes schedule
    rw [finished_iff.mp finished, List.append_nil] at same
    have right := stuffed schedule
    rw [← same, calm_iff (Nat.zero_le 5)]
    exact ⟨right.calm, right.whole finished⟩
  · rintro ⟨calm, reads⟩ schedule
    obtain ⟨-, same⟩ := run_pending bytes schedule
    rw [← same] at calm reads
    rw [calm_append, calm_iff (Nat.zero_le 5)] at calm
    rw [unstuff_append] at reads
    refine ⟨calm.1, ⟨_, reads⟩, fun finished => ?_⟩
    rw [finished_iff.mp finished, unstuff, List.append_nil] at reads
    exact reads
  · intro piece member
    obtain ⟨byte, -, rfl⟩ := List.mem_map.mp member
    rw [byteBits, natBits_length]
    decide

/-- Two bytes of ones give eight ones in a row. -/
theorem ones_not_stuffed : ¬Stuffed [0xFF, 0xFF] (Line.run [0xFF, 0xFF] (List.replicate 18 true)) :=
  fun stuffed => stuffed.calm (by decide)

end Nd100x.Hdlc
