import Nd100x.Hdlc.Frame

namespace Nd100x.Hdlc

open Nd100x.Library

/-- A flag or an escape takes two bytes on the wire. -/
def stuffed (data : Byte) : List Byte :=
  if data = flag ∨ data = escape then [escape, data ^^^ escapeMask] else [data]

/-- The check bytes follow the data. -/
def checked (data : List Byte) : List Byte := data ++ checkBytes (frameCheck data)

def wire (data : List Byte) : List Byte := flag :: (checked data).flatMap stuffed ++ [flag]

section Build

theorem stuffByte_eq (data : Byte) (bufferSize : Nat) (output : List Byte) :
    stuffByte data bufferSize output =
      if (output ++ stuffed data).length ≤ bufferSize then some (output ++ stuffed data)
      else none := by
  by_cases special : data = flag ∨ data = escape
  · simp only [stuffByte, stuffed, special, if_true, List.length_append, List.length_cons,
      List.length_nil]
    split_ifs <;> first | rfl | omega
  · simp only [stuffByte, stuffed, special, if_false, List.length_append, List.length_cons,
      List.length_nil]
    split_ifs <;> first | rfl | omega

theorem stuffBytes_eq (bufferSize : Nat) (data output : List Byte)
    (fits : output.length ≤ bufferSize) :
    stuffBytes bufferSize data output =
      if (output ++ data.flatMap stuffed).length ≤ bufferSize then
        some (output ++ data.flatMap stuffed)
      else none := by
  induction data generalizing output with
  | nil => simp [stuffBytes, fits]
  | cons first rest ih =>
    rw [stuffBytes, stuffByte_eq]
    by_cases room : (output ++ stuffed first).length ≤ bufferSize
    · rw [if_pos room, Option.bind_eq_bind, Option.bind_some, ih _ room]
      simp only [List.flatMap_cons, List.append_assoc]
    · rw [if_neg room, if_neg]
      · rfl
      · simp only [List.flatMap_cons, List.length_append] at room ⊢
        omega

theorem stuffBytes_append (bufferSize : Nat) (first second output : List Byte) :
    stuffBytes bufferSize (first ++ second) output =
      stuffBytes bufferSize first output >>= stuffBytes bufferSize second := by
  induction first generalizing output with
  | nil => rfl
  | cons data rest ih =>
    simp only [List.cons_append, stuffBytes, Option.bind_eq_bind, Option.bind_assoc]
    congr 1
    funext stuffedOutput
    exact ih stuffedOutput

theorem lowByte (fcs : Word) : ((fcs &&& 0xFF).setWidth 8 : Byte) = fcs.setWidth 8 := by
  rw [BitVec.setWidth_and]
  have mask : (0xFF : Word).setWidth 8 = BitVec.allOnes 8 := by decide
  rw [mask, BitVec.and_allOnes]

/-- The data and its check bytes are stuffed in one go. -/
theorem buildFrame_stuffBytes (data : List Byte) (bufferSize : Nat)
    (allowed : ¬ (data = [] ∨ bufferSize < 4)) :
    buildFrame data bufferSize =
      stuffBytes bufferSize (checked data) [flag] >>= fun output =>
        if bufferSize ≤ output.length then none else some (output ++ [flag]) := by
  rw [buildFrame, if_neg allowed, checked, stuffBytes_append]
  simp only [lowByte, checkBytes, stuffBytes, Option.bind_eq_bind, Option.bind_assoc,
    Option.bind_some]

/-- The build succeeds exactly when there is data and the wire fits. -/
theorem buildFrame_eq (data : List Byte) (bufferSize : Nat) :
    buildFrame data bufferSize =
      if data ≠ [] ∧ 4 ≤ bufferSize ∧ (wire data).length ≤ bufferSize then some (wire data)
      else none := by
  by_cases allowed : data = [] ∨ bufferSize < 4
  · rw [buildFrame, if_pos allowed, if_neg]
    rintro ⟨nonempty, large, -⟩
    rcases allowed with empty | small
    · exact nonempty empty
    · omega
  have room : 1 ≤ bufferSize := by omega
  rw [buildFrame_stuffBytes data bufferSize allowed, stuffBytes_eq _ _ _ room]
  have length : (wire data).length = ([flag] ++ (checked data).flatMap stuffed).length + 1 := by
    simp [wire]
  by_cases fits : (wire data).length ≤ bufferSize
  · have inside : ([flag] ++ (checked data).flatMap stuffed).length ≤ bufferSize := by omega
    have last : ¬ bufferSize ≤ ([flag] ++ (checked data).flatMap stuffed).length := by omega
    have nonempty : data ≠ [] := fun empty => allowed (.inl empty)
    have large : 4 ≤ bufferSize := by omega
    rw [if_pos inside, if_pos ⟨nonempty, large, fits⟩]
    simp only [Option.bind_eq_bind, Option.bind_some, if_neg last]
    rfl
  · have refused : ¬ (data ≠ [] ∧ 4 ≤ bufferSize ∧ (wire data).length ≤ bufferSize) :=
      fun accepted => fits accepted.2.2
    rw [if_neg refused]
    by_cases inside : ([flag] ++ (checked data).flatMap stuffed).length ≤ bufferSize
    · have last : bufferSize ≤ ([flag] ++ (checked data).flatMap stuffed).length := by omega
      rw [if_pos inside, Option.bind_eq_bind, Option.bind_some, if_pos last]
    · rw [if_neg inside, Option.bind_eq_bind, Option.bind_none]

end Build

section Checksum

theorem crcCalcCcitt_eq : crcCalcCcitt = crcStep fun byte => fcstab.get byte.toFin := by
  funext fcs byte
  have index : ((fcs ^^^ byte.setWidth 16) &&& 0xFF).setWidth 8 = fcs.setWidth 8 ^^^ byte := by
    rw [lowByte, BitVec.setWidth_xor, BitVec.setWidth_setWidth_of_le _ (by omega),
      BitVec.setWidth_eq]
  rw [crcCalcCcitt, crcStep, index]

/-- The checksum of every checked frame is the good residue. -/
theorem checked_residue (data : List Byte) : (checked data).foldl crcCalcCcitt fcsInit = fcsGood := by
  rw [checked, List.foldl_append, frameCheck, crcCalcCcitt_eq]
  exact (crcBytes_checkBytes _ _ fcsInit).trans (by decide)

end Checksum

section Receive

/-- A complete frame is taken out and the frame is reset. -/
def receive (frame : Frame) (data : Byte) : Frame × Option Frame :=
  let added := frame.addByte data
  if added.2 then (added.1.reset, some added.1) else (added.1, none)

/-- The frame under reception holds the content. -/
structure Holds (frame : Frame) (content : List Byte) : Prop where
  length : frame.frameLength = content.length
  room : content.length ≤ maxFrameSize
  bytes : frame.bytes = content
  crc : frame.crc = content.foldl crcCalcCcitt fcsInit

theorem Holds.start (frame : Frame) : Holds frame.start [] :=
  ⟨rfl, Nat.zero_le _, rfl, rfl⟩

theorem Holds.remember {frame : Frame} {content : List Byte} (holds : Holds frame content)
    (data : Byte) : Holds (frame.remember data) content :=
  ⟨holds.length, holds.room, holds.bytes, holds.crc⟩

theorem take_set_succ {A : Type} (xs : List A) (n : Nat) (x : A) (inside : n < xs.length) :
    (xs.set n x).take (n + 1) = xs.take n ++ [x] := by
  have room : n < (xs.set n x).length := by simpa using inside
  rw [List.take_succ_eq_append_getElem room, List.getElem_set_self, List.take_set_of_le (Nat.le_refl n)]

theorem Holds.takeData {frame : Frame} {content : List Byte} (holds : Holds frame content)
    (room : content.length < maxFrameSize) (data : Byte) :
    Holds (frame.takeData data) (content ++ [data]) ∧ (frame.takeData data).state = .receiving := by
  have inside : frame.frameLength < maxFrameSize := holds.length ▸ room
  rw [Frame.takeData, dif_pos inside]
  refine ⟨⟨?_, ?_, ?_, ?_⟩, rfl⟩
  · simp [holds.length]
  · rw [List.length_append]
    exact room
  · have stored := holds.bytes
    simp only [Frame.bytes, Vector.toList_set] at stored ⊢
    rw [take_set_succ _ _ _ (by simpa using inside), stored]
  · rw [List.foldl_append, ← holds.crc]
    rfl

variable {frame : Frame} {content : List Byte}

theorem receive_plain (receiving : frame.state = .receiving) {data : Byte}
    (plain : ¬ (data = flag ∨ data = escape)) :
    receive frame data = ((frame.takeData data).remember data, none) := by
  obtain ⟨notFlag, notEscape⟩ := not_or.mp plain
  simp [receive, Frame.addByte, receiving, notFlag, notEscape]

theorem receive_escape (receiving : frame.state = .receiving) :
    receive frame escape = ({ frame with state := .escape }.remember escape, none) := by
  have notFlag : escape ≠ flag := by decide
  simp [receive, Frame.addByte, receiving, notFlag]

theorem receive_escaped (escaped : frame.state = .escape) {data : Byte}
    (notFlag : data ^^^ escapeMask ≠ flag) :
    receive frame (data ^^^ escapeMask) =
      ((frame.takeData data).remember (data ^^^ escapeMask), none) := by
  have back : data ^^^ escapeMask ^^^ escapeMask = data := by
    rw [BitVec.xor_assoc, BitVec.xor_self, BitVec.xor_zero]
  simp [receive, Frame.addByte, escaped, notFlag, back]

/-- A masked special byte is not a flag. -/
theorem masked_ne_flag {data : Byte} (special : data = flag ∨ data = escape) :
    data ^^^ escapeMask ≠ flag := by
  rcases special with rfl | rfl <;> decide

/-- The receiver is inside a frame and its last byte was not a flag. -/
structure Inside (frame : Frame) (content : List Byte) : Prop extends Holds frame content where
  receiving : frame.state = .receiving
  quiet : frame.prevByte ≠ flag

/-- A stuffed byte is received as the byte itself. -/
theorem receive_stuffed (holds : Holds frame content) (receiving : frame.state = .receiving)
    (room : content.length < maxFrameSize) (data : Byte) :
    ∃ next, Inside next (content ++ [data]) ∧
      transduce receive frame (stuffed data) = (next, []) := by
  by_cases special : data = flag ∨ data = escape
  · have waiting : Holds ({ frame with state := .escape }.remember escape) content :=
      ⟨holds.length, holds.room, holds.bytes, holds.crc⟩
    obtain ⟨taken, inFrame⟩ := waiting.takeData room data
    have notFlag := masked_ne_flag special
    refine ⟨_, ⟨taken.remember (data ^^^ escapeMask), inFrame, notFlag⟩, ?_⟩
    rw [stuffed, if_pos special, transduce_cons_silent _ (receive_escape receiving)]
    exact transduce_singleton_silent (receive_escaped rfl notFlag)
  · obtain ⟨taken, inFrame⟩ := holds.takeData room data
    have notFlag : data ≠ flag := fun equal => special (.inl equal)
    refine ⟨_, ⟨taken.remember data, inFrame, notFlag⟩, ?_⟩
    rw [stuffed, if_neg special]
    exact transduce_singleton_silent (receive_plain receiving special)

/-- The stuffed data is received as the data. -/
theorem receive_stuffedData (holds : Holds frame content) (receiving : frame.state = .receiving)
    (data : List Byte) (nonempty : data ≠ []) (room : (content ++ data).length ≤ maxFrameSize) :
    ∃ next, Inside next (content ++ data) ∧
      transduce receive frame (data.flatMap stuffed) = (next, []) := by
  induction data generalizing frame content with
  | nil => exact absurd rfl nonempty
  | cons first others ih =>
    have space : content.length < maxFrameSize := by
      rw [List.length_append, List.length_cons] at room
      omega
    obtain ⟨next, inside, moved⟩ := receive_stuffed holds receiving space first
    by_cases last : others = []
    · subst last
      rw [List.flatMap_singleton]
      exact ⟨next, inside, moved⟩
    have regrouped : content ++ first :: others = content ++ [first] ++ others := by simp
    rw [regrouped] at room ⊢
    obtain ⟨final, arrived, continued⟩ :=
      ih inside.toHolds inside.receiving last room
    refine ⟨final, arrived, ?_⟩
    rw [List.flatMap_cons, transduce_append_silent _ moved, continued]

/-- The closing flag completes the frame. -/
theorem receive_close (inside : Inside frame content) (long : 2 ≤ content.length) :
    ∃ completed : Frame, frame.addByte flag = (completed, true) ∧
      completed.frameLength = content.length ∧ completed.bytes = content ∧
      completed.crcValid = decide (frame.crc = fcsGood) ∧ completed.frameComplete = true := by
  have enough : 2 ≤ frame.frameLength := inside.length ▸ long
  refine ⟨{ frame with crcValid := frame.crc = fcsGood, frameComplete := true, state := .idle },
    ?_, inside.length, inside.bytes, rfl, rfl⟩
  simp [Frame.addByte, inside.receiving, inside.quiet, enough]

theorem receive_complete {completed : Frame} {data : Byte}
    (added : frame.addByte data = (completed, true)) :
    receive frame data = (completed.reset, some completed) := by
  rw [receive, added]
  rfl

theorem receive_open (idle : frame.state = .idle) :
    receive frame flag = (frame.start.remember flag, none) := by
  simp [receive, Frame.addByte, idle]

/-- Consecutive flags are ignored. -/
theorem receive_flags (receiving : frame.state = .receiving) (repeated : frame.prevByte = flag)
    (count : Nat) : transduce receive frame (List.replicate count flag) = (frame, []) := by
  induction count with
  | zero => rfl
  | succ count ih =>
    have ignored : receive frame flag = (frame, none) := by
      simp [receive, Frame.addByte, receiving, repeated]
    rw [List.replicate_succ, transduce_cons_silent _ ignored, ih]

/-- This is the wire up to its closing flag. -/
def opening (gap : Nat) (data : List Byte) : List Byte :=
  flag :: (List.replicate gap flag ++ (checked data).flatMap stuffed)

theorem opening_wire (gap : Nat) (data rest : List Byte) :
    List.replicate gap flag ++ wire data ++ rest = opening gap data ++ flag :: rest := by
  rw [wire, opening, List.cons_append, List.append_cons, ← List.replicate_succ',
    List.replicate_succ]
  simp only [List.cons_append, List.append_assoc, List.nil_append]

/-- A complete frame with a valid checksum holds the data and its check bytes. -/
structure Good (completed : Frame) (data : List Byte) : Prop where
  length : completed.frameLength = (checked data).length
  bytes : completed.bytes = checked data
  valid : completed.crcValid = true
  complete : completed.frameComplete = true

theorem checked_length (data : List Byte) : (checked data).length = data.length + 2 := by
  simp [checked, checkBytes]

/-- A frame that was just opened takes the checked data up to the closing flag. -/
theorem receive_checked (holds : Holds frame []) (receiving : frame.state = .receiving)
    {data : List Byte} (short : data.length ≤ 1022) :
    ∃ final completed, transduce receive frame ((checked data).flatMap stuffed) = (final, []) ∧
      final.addByte flag = (completed, true) ∧ Good completed data := by
  have checks := checked_length data
  have occupied : checked data ≠ [] := by
    intro empty
    rw [empty] at checks
    simp at checks
  have room : ([] ++ checked data).length ≤ maxFrameSize := by
    rw [List.nil_append, checks]
    exact Nat.add_le_add_right short 2
  obtain ⟨final, inside, moved⟩ := receive_stuffedData holds receiving (checked data) occupied room
  rw [List.nil_append] at inside
  obtain ⟨completed, closed, length, bytes, valid, done⟩ := receive_close inside (by omega)
  have residue : final.crc = fcsGood := inside.crc.trans (checked_residue data)
  refine ⟨final, completed, moved, closed, length, bytes, ?_, done⟩
  rw [valid, residue, decide_eq_true rfl]

/-- An idle receiver takes any number of flags and one frame. -/
theorem receive_wire (idle : frame.state = .idle) (gap : Nat) (data : List Byte)
    (short : data.length ≤ 1022) :
    ∃ final completed, transduce receive frame (opening gap data) = (final, []) ∧
      final.addByte flag = (completed, true) ∧ Good completed data := by
  obtain ⟨final, completed, moved, closed, good⟩ :=
    receive_checked ((Holds.start frame).remember flag) rfl short
  refine ⟨final, completed, ?_, closed, good⟩
  rw [opening, transduce_cons_silent _ (receive_open idle),
    transduce_append_silent _ (receive_flags rfl rfl gap), moved]

/-- Trailing flags complete nothing. -/
theorem receive_gap (idle : frame.state = .idle) (gap : Nat) :
    (transduce receive frame (List.replicate gap flag)).2 = [] := by
  cases gap with
  | zero => rfl
  | succ gap =>
    rw [List.replicate_succ, transduce_cons_silent _ (receive_open idle),
      receive_flags rfl rfl gap]

end Receive

/-- A sent frame was built into some buffer and is followed by extra flags. -/
structure SentFrame where
  payload : List Byte
  bufferSize : Nat
  wire : List Byte
  gap : Nat
  nonempty : 1 ≤ payload.length
  short : payload.length ≤ 1022
  built : buildFrame payload bufferSize = some wire

/-- The line carries extra flags before, between and after the frames. -/
def line (lead : Nat) : List SentFrame → List Byte
  | [] => List.replicate lead flag
  | sent :: rest => List.replicate lead flag ++ sent.wire ++ line sent.gap rest

theorem SentFrame.wire_eq (sent : SentFrame) : sent.wire = Hdlc.wire sent.payload := by
  have built := sent.built
  rw [buildFrame_eq] at built
  split_ifs at built
  exact (Option.some.inj built).symm

theorem receive_line {frame : Frame} (idle : frame.state = .idle) (lead : Nat)
    (sent : List SentFrame) :
    (transduce receive frame (line lead sent)).2.map
        (fun completed => (completed.bytes, completed.crcValid, completed.frameComplete)) =
      sent.map fun source => (checked source.payload, true, true) := by
  induction sent generalizing frame lead with
  | nil => rw [line, receive_gap idle]; rfl
  | cons first rest ih =>
    obtain ⟨final, completed, moved, closed, good⟩ :=
      receive_wire idle lead first.payload first.short
    have idleAgain : completed.reset.state = .idle := rfl
    rw [line, first.wire_eq, opening_wire, transduce_append_silent _ moved,
      transduce_cons_output _ (receive_complete closed)]
    simp only [List.map_cons, good.bytes, good.valid, good.complete,
      ih idleAgain]

/-- Every payload is completed exactly once, in order, with a valid checksum and followed by its
two check bytes. -/
theorem framing_roundTrip (frame : Frame) (lead : Nat) (sent : List SentFrame) :
    (transduce receive frame.init (line lead sent)).2.map
        (fun completed => (completed.bytes, completed.crcValid, completed.frameComplete)) =
      sent.map fun source => (checked source.payload, true, true) :=
  receive_line rfl lead sent

/-- A payload of one flag byte is built into six bytes and followed by one extra flag. -/
def flagPayload : SentFrame where
  payload := [flag]
  bufferSize := 7
  wire := [flag, escape, 0x5E, 0x81, 0x6A, flag]
  gap := 1
  nonempty := by decide
  short := by decide
  built := by decide

end Nd100x.Hdlc
