import Nd100x.Hdlc.Framing

namespace Nd100x.Hdlc

open Nd100x.Library

/-- The last byte of the wire completes a good frame with the payload. -/
def Delivers (frame : Frame) (sent : SentFrame) : Prop :=
  ∃ before completed, sent.wire = before ++ [flag] ∧
    (transduce receive frame before).1.addByte flag = (completed, true) ∧
    Good completed sent.payload

/-- A flag that was just received has opened an empty frame. -/
def Opened (frame : Frame) : Prop :=
  frame.state = .receiving → frame.prevByte = flag → Holds frame []

section Opening

variable {frame : Frame}

theorem Opened.of_quiet (quiet : frame.prevByte ≠ flag) : Opened frame :=
  fun _ last => absurd last quiet

theorem opened_start (data : Byte) : Opened (frame.start.remember data) :=
  fun _ _ => (Holds.start frame).remember data

theorem opened_reset (frame : Frame) : Opened frame.reset := fun receiving => by
  cases receiving

/-- Every byte that is not a flag is remembered. -/
theorem addByte_prevByte {data : Byte} (notFlag : data ≠ flag) :
    (frame.addByte data).1.prevByte = data := by
  rcases state : frame.state with _ | _ | _ | _
  · simp [Frame.addByte, state, notFlag, Frame.remember]
  · by_cases escaped : data = escape
    · subst escaped
      simp [Frame.addByte, state, notFlag, Frame.remember]
    · simp [Frame.addByte, state, notFlag, escaped, Frame.remember]
  · simp [Frame.addByte, state, notFlag, Frame.remember]
  · simp [Frame.addByte, state, notFlag, Frame.remember]

theorem opened_addByte (opened : Opened frame) (data : Byte) :
    (frame.addByte data).2 = false → Opened (frame.addByte data).1 := by
  intro incomplete
  by_cases isFlag : data = flag
  · subst isFlag
    rcases state : frame.state with _ | _ | _ | _
    · simpa [Frame.addByte, state] using opened_start flag
    · by_cases last : frame.prevByte = flag
      · simpa [Frame.addByte, state, last] using opened
      · by_cases long : 2 ≤ frame.frameLength
        · simp [Frame.addByte, state, last, long] at incomplete
        · simpa [Frame.addByte, state, last, long] using opened_start flag
    · simpa [Frame.addByte, state] using opened_start flag
    · simpa [Frame.addByte, state] using opened_start flag
  · apply Opened.of_quiet
    rw [addByte_prevByte isFlag]
    exact isFlag

theorem opened_receive (frame : Frame) (data : Byte) (opened : Opened frame) :
    Opened (receive frame data).1 := by
  cases complete : (frame.addByte data).2 with
  | true =>
    rw [receive, complete]
    exact opened_reset _
  | false =>
    rw [receive, complete]
    exact opened_addByte opened data complete

/-- The flag of a new frame is taken as its start, whatever came before, unless it closes a frame
of two bytes or more. -/
theorem receive_opening (opened : Opened frame)
    (free : ¬ (frame.state = .receiving ∧ 2 ≤ frame.frameLength)) :
    ∃ next, receive frame flag = (next, none) ∧ Holds next [] ∧ next.state = .receiving := by
  have started : Holds (frame.start.remember flag) [] := (Holds.start frame).remember flag
  rcases state : frame.state with _ | _ | _ | _
  · exact ⟨_, receive_open state, started, rfl⟩
  · have short : ¬ 2 ≤ frame.frameLength := fun long => free ⟨state, long⟩
    by_cases last : frame.prevByte = flag
    · refine ⟨frame, ?_, opened state last, state⟩
      simp [receive, Frame.addByte, state, last]
    · refine ⟨_, ?_, started, rfl⟩
      simp [receive, Frame.addByte, state, last, short]
  · refine ⟨_, ?_, started, rfl⟩
    simp [receive, Frame.addByte, state]
  · refine ⟨_, ?_, started, rfl⟩
    simp [receive, Frame.addByte, state]

end Opening

section Lost

variable {frame : Frame}

/-- An idle receiver ignores every byte that is not a flag. -/
theorem receive_ignored (idle : frame.state = .idle) {data : List Byte} (quiet : flag ∉ data) :
    (transduce receive frame data).1.state = .idle := by
  induction data generalizing frame with
  | nil => exact idle
  | cons first rest ih =>
    obtain ⟨notFlag, quiet⟩ := List.ne_and_not_mem_of_not_mem_cons quiet
    have ignored : receive frame first = (frame.remember first, none) := by
      simp [receive, Frame.addByte, idle, Ne.symm notFlag]
    rw [transduce_cons_silent _ ignored]
    exact ih idle quiet

theorem flag_not_mem_stuffed (data : List Byte) : flag ∉ data.flatMap stuffed := by
  intro inside
  obtain ⟨byte, -, inside⟩ := List.mem_flatMap.mp inside
  by_cases special : byte = flag ∨ byte = escape
  · rw [stuffed, if_pos special, List.mem_pair] at inside
    rcases inside with isEscape | isMasked
    · exact absurd isEscape (by decide)
    · exact masked_ne_flag special isMasked.symm
  · rw [stuffed, if_neg special, List.mem_singleton] at inside
    exact special (.inl inside.symm)

/-- The opening flag closes the frame that was cut off, and the new frame is lost. -/
theorem receive_closing (opened : Opened frame) (receiving : frame.state = .receiving)
    (long : 2 ≤ frame.frameLength) (data : List Byte) :
    (transduce receive frame (flag :: (checked data).flatMap stuffed)).1.state = .idle := by
  have quiet : frame.prevByte ≠ flag := by
    intro last
    have empty := (opened receiving last).length
    rw [List.length_nil] at empty
    omega
  obtain ⟨completed, closed⟩ : ∃ completed, frame.addByte flag = (completed, true) := by
    simp [Frame.addByte, receiving, quiet, long]
  rw [transduce_cons_output _ (receive_complete closed)]
  exact receive_ignored rfl (flag_not_mem_stuffed _)

end Lost

section Delivery

variable {frame : Frame} {sent : SentFrame}

theorem delivers_of_free (opened : Opened frame)
    (free : ¬ (frame.state = .receiving ∧ 2 ≤ frame.frameLength)) : Delivers frame sent := by
  obtain ⟨next, moved, holds, receiving⟩ := receive_opening opened free
  obtain ⟨final, completed, taken, closed, good⟩ := receive_checked holds receiving sent.short
  refine ⟨_, completed, sent.wire_eq, ?_, good⟩
  rw [transduce_cons_silent _ moved, taken]
  exact closed

theorem not_delivers_of_closing (opened : Opened frame) (receiving : frame.state = .receiving)
    (long : 2 ≤ frame.frameLength) : ¬ Delivers frame sent := by
  rintro ⟨before, completed, split, closed, -⟩
  obtain ⟨rfl, -⟩ := List.append_inj' (split.symm.trans sent.wire_eq) rfl
  have idle := receive_closing opened receiving long sent.payload
  simp [Frame.addByte, idle] at closed

end Delivery

/-- After any bytes a frame is delivered exactly when its opening flag closes no other frame. -/
theorem delivers_iff (frame : Frame) (history : List Byte) (sent : SentFrame) :
    Delivers (transduce receive frame.init history).1 sent ↔
      ¬ ((transduce receive frame.init history).1.state = .receiving ∧
        2 ≤ (transduce receive frame.init history).1.frameLength) := by
  have opened : Opened (transduce receive frame.init history).1 :=
    transduce_keeps opened_receive (opened_reset frame) history
  constructor
  · rintro delivers ⟨receiving, long⟩
    exact not_delivers_of_closing opened receiving long delivers
  · exact delivers_of_free opened

/-- A frame that was cut off after two bytes takes the next frame with it. -/
theorem truncated_loses : ¬ ∀ (frame : Frame) (history : List Byte) (sent : SentFrame),
    Delivers (transduce receive frame.init history).1 sent := by
  intro always
  let frame : Frame := ⟨.idle, Vector.replicate maxFrameSize 0, 0, 0, fcsInit, false, false⟩
  have delivers := always frame [flag, 0x01, 0x02] flagPayload
  have started : Holds (frame.init.start.remember flag) [] :=
    (Holds.start frame.init).remember flag
  obtain ⟨next, inside, moved⟩ := receive_stuffedData started rfl [0x01, 0x02] (by decide)
    (by decide)
  have history : transduce receive frame.init [flag, 0x01, 0x02] = (next, []) :=
    (transduce_cons_silent _ (receive_open rfl)).trans moved
  have opened : Opened next := Opened.of_quiet inside.quiet
  rw [history] at delivers
  exact not_delivers_of_closing opened inside.receiving (by rw [inside.length]; decide) delivers

end Nd100x.Hdlc
