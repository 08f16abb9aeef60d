import Nd100x.Hdlc.Transmission

namespace Nd100x.Hdlc

open Nd100x.Library

/-- The first block of a frame has RSOM, and the last one has REOM. -/
def Marked : Bool → List (Word × List Byte) → Prop
  | _, [] => False
  | first, block :: rest =>
    anyBit block.1 KeyFlag.rcostRsom = first ∧ anyBit block.1 KeyFlag.rcostReom = rest.isEmpty ∧
      (rest = [] ∨ Marked false rest)

structure OutgoingFrame where
  blocks : List (Word × List Byte)
  marked : Marked true blocks
  short : (blocks.flatMap Prod.snd).length ≤ 1022

namespace OutgoingFrame

def data (frame : OutgoingFrame) : List Byte := frame.blocks.flatMap Prod.snd

end OutgoingFrame

/-- The transmit list holds the frames and has been started. -/
structure TransmitReady (s : Device) (frames : List OutgoingFrame) : Prop where
  list : TransmitList s (frames.flatMap OutgoingFrame.blocks)
  started : s.txListPointerOffset = 0
  inside : s.overrun = false
  occupied : frames = [] →
    s.memory.words (s.txEntry 0) &&& KeyFlag.maskKey ≠ KeyFlag.alreadyTransmittedBlock

/-- An idle receiver completes one valid frame with this data. -/
def Decodes (wire data : List Byte) : Prop :=
  ∀ frame : Frame, frame.state = .idle →
    (transduce receive frame wire).2.map (fun completed => (completed.bytes, completed.crcValid)) =
      [(checked data, true)]

/-- Every frame is sent in order, its descriptors and no other word are marked, and no copy runs
past the end of a frame buffer. -/
structure TransmitsAll (s t : Device) (frames : List OutgoingFrame) : Prop where
  sent : ∃ wires, t.sent = s.sent ++ wires ∧
    List.Forall₂ Decodes wires (frames.map OutgoingFrame.data)
  marked : ∀ k < (frames.flatMap OutgoingFrame.blocks).length,
    t.memory.words (s.txEntry k) = sentKey (s.memory.words (s.txEntry k))
  others : ∀ address, (∀ k < (frames.flatMap OutgoingFrame.blocks).length, address ≠ s.txEntry k) →
    t.memory.words address = s.memory.words address
  inside : t.overrun = false

/-- No byte count wraps together with its displacement. -/
def Device.CountsFit (s : Device) (first : Nat) (blocks : List (Word × List Byte)) : Prop :=
  ∀ k (inside : k < blocks.length),
    (s.pickDisplacement (first + k)).toNat + blocks[k].2.length < 2 ^ 16

/-- Every frame with its check bytes, its escapes and its two flags fits the buffer of a frame, and
no byte count and no list offset wraps. -/
structure TransmitFits (s : Device) (frames : List OutgoingFrame) : Prop where
  wires : ∀ frame ∈ frames, (checked frame.data).length +
    (checked frame.data).countP (fun byte => byte = flag ∨ byte = escape) + 2 ≤ maxFrameSize
  counts : s.CountsFit 0 (frames.flatMap OutgoingFrame.blocks)
  listed : (frames.flatMap OutgoingFrame.blocks).length ≤ 2 ^ 16

section Frames

variable {s t : Device}

theorem Device.readBlocks_append (s : Device) (k : Nat) (first second : List (Word × List Byte)) :
    s.readBlocks k (first ++ second) =
      s.readBlocks k first ++ s.readBlocks (k + first.length) second := by
  induction first generalizing k with
  | nil => rfl
  | cons block rest ih =>
    rw [List.cons_append, Device.readBlocks, Device.readBlocks, ih,
      List.length_cons, Nat.add_comm rest.length, Nat.add_assoc, List.cons_append]

/-- The data that is read for each frame. -/
def Device.readFrames (s : Device) : Nat → List OutgoingFrame → List (List Byte)
  | _, [] => []
  | k, frame :: rest =>
    (s.readBlocks k frame.blocks).flatMap Prod.snd ::
      s.readFrames (k + frame.blocks.length) rest

/-- A marked frame gives one payload. -/
theorem Marked.transduce {first : Bool} {blocks : List (Word × List Byte)}
    (marked : Marked first blocks) (k : Nat) (pending : List Byte) :
    Library.transduce transmitBlock pending (s.readBlocks k blocks) =
      ([], [(if first then [] else pending) ++ (s.readBlocks k blocks).flatMap Prod.snd]) := by
  induction blocks generalizing first k pending with
  | nil => exact absurd marked id
  | cons block rest ih =>
    obtain ⟨starts, ends, later⟩ := marked
    rw [Device.readBlocks, List.flatMap_cons]
    by_cases last : rest = []
    · subst last
      have moved : transmitBlock pending (block.1, s.readBytes k block.2) =
          ([], some ((if first then [] else pending) ++ s.readBytes k block.2)) := by
        simp only [transmitBlock, starts, ends, List.isEmpty_nil, if_true]
      rw [transduce_cons_output _ moved]
      simp [Device.readBlocks]
    · have moved : transmitBlock pending (block.1, s.readBytes k block.2) =
          ((if first then [] else pending) ++ s.readBytes k block.2, none) := by
        have going : rest.isEmpty = false := by simpa using last
        simp only [transmitBlock, starts, ends, going, Bool.false_eq_true, if_false]
      rw [transduce_cons_silent _ moved, ih (later.resolve_left last)]
      simp only [Bool.false_eq_true, if_false, List.append_assoc]

theorem readFrames_transduce (frames : List OutgoingFrame) (k : Nat) (pending : List Byte) :
    (transduce transmitBlock pending
      (s.readBlocks k (frames.flatMap OutgoingFrame.blocks))).2 = s.readFrames k frames := by
  induction frames generalizing k pending with
  | nil => rfl
  | cons frame rest ih =>
    rw [List.flatMap_cons, Device.readBlocks_append, transduce_append, frame.marked.transduce]
    simp only [ih]
    rfl

theorem Marked.room {first : Bool} {blocks rest : List (Word × List Byte)}
    (marked : Marked first blocks) {bound : Nat}
    (short : (if first then 0 else bound) + (blocks.flatMap Prod.snd).length ≤ 1022)
    (later : RoomFor 0 rest) : RoomFor bound (blocks ++ rest) := by
  induction blocks generalizing first bound with
  | nil => exact absurd marked id
  | cons block others ih =>
    obtain ⟨starts, ends, next⟩ := marked
    rw [List.flatMap_cons, List.length_append] at short
    have capacity : outboundBufferCapacity = 1088 := rfl
    rw [List.cons_append, RoomFor, starts, ends, capacity]
    refine ⟨by omega, ?_⟩
    by_cases last : others = []
    · rw [last]
      exact later
    · have more : others.isEmpty = false := by simpa using last
      rw [more]
      apply ih (next.resolve_left last)
      simp only [Bool.false_eq_true, if_false]
      omega

theorem frames_room (frames : List OutgoingFrame) (bound : Nat) :
    RoomFor bound (frames.flatMap OutgoingFrame.blocks) := by
  induction frames generalizing bound with
  | nil => trivial
  | cons frame rest ih =>
    rw [List.flatMap_cons]
    apply frame.marked.room _ (ih 0)
    rw [if_pos rfl, Nat.zero_add]
    exact frame.short

/-- The counts of a list fit when those of its first block and of the others fit. -/
theorem Device.CountsFit.cons_iff {k : Nat} {block : Word × List Byte}
    {rest : List (Word × List Byte)} : s.CountsFit k (block :: rest) ↔
      (s.pickDisplacement k).toNat + block.2.length < 2 ^ 16 ∧ s.CountsFit (k + 1) rest := by
  constructor
  · intro fits
    refine ⟨fits 0 (Nat.succ_pos _), fun j inside => ?_⟩
    have shift : k + 1 + j = k + (j + 1) := by omega
    rw [shift]
    exact fits (j + 1) (Nat.succ_lt_succ inside)
  · rintro ⟨first, later⟩ j inside
    cases j with
    | zero => exact first
    | succ j =>
      have shift : k + (j + 1) = k + 1 + j := by omega
      rw [shift]
      exact later j (Nat.lt_of_succ_lt_succ inside)

theorem Device.CountsFit.append_iff {k : Nat} {first second : List (Word × List Byte)} :
    s.CountsFit k (first ++ second) ↔
      s.CountsFit k first ∧ s.CountsFit (k + first.length) second := by
  induction first generalizing k with
  | nil => exact ⟨fun fits => ⟨fun j inside => absurd inside (Nat.not_lt_zero j), fits⟩, And.right⟩
  | cons block rest ih =>
    have shift : k + 1 + rest.length = k + (block :: rest).length := by
      rw [List.length_cons]
      omega
    rw [List.cons_append, Device.CountsFit.cons_iff, ih,
      Device.CountsFit.cons_iff, shift, and_assoc]

theorem Device.readBytes_eq_iff {k : Nat} {bytes : List Byte} (nonempty : bytes ≠ []) :
    s.readBytes k bytes = bytes ↔ (s.pickDisplacement k).toNat + bytes.length < 2 ^ 16 := by
  have positive := List.length_pos_of_ne_nil nonempty
  have limit := (s.pickDisplacement k).isLt
  rw [Device.readBytes, List.take_eq_self_iff, readCount]
  split_ifs <;> omega

/-- The bytes of some blocks are read in full exactly when no count wraps. -/
theorem Device.readBlocks_data {k : Nat} {blocks : List (Word × List Byte)}
    (nonempty : ∀ block ∈ blocks, block.2 ≠ []) :
    ((s.readBlocks k blocks).flatMap Prod.snd).length ≤ (blocks.flatMap Prod.snd).length ∧
      ((s.readBlocks k blocks).flatMap Prod.snd = blocks.flatMap Prod.snd ↔
        s.CountsFit k blocks) := by
  induction blocks generalizing k with
  | nil =>
    exact ⟨Nat.le_refl _, fun _ j inside => absurd inside (Nat.not_lt_zero j), fun _ => rfl⟩
  | cons block rest ih =>
    obtain ⟨shorter, same⟩ := ih (k := k + 1)
      fun other member => nonempty other (List.mem_cons_of_mem _ member)
    have taken : (s.readBytes k block.2).length ≤ block.2.length := List.length_take_le' _ _
    rw [Device.readBlocks, List.flatMap_cons, List.flatMap_cons, Device.CountsFit.cons_iff,
      ← same, ← Device.readBytes_eq_iff (nonempty block List.mem_cons_self)]
    refine ⟨?_, ?_, ?_⟩
    · rw [List.length_append, List.length_append]
      exact Nat.add_le_add taken shorter
    · intro equal
      have lengths := congrArg List.length equal
      rw [List.length_append, List.length_append] at lengths
      have first : (s.readBytes k block.2).length = block.2.length := by
        dsimp only at lengths
        omega
      exact List.append_inj equal first
    · rintro ⟨first, later⟩
      rw [first, later]

theorem readFrames_data {k : Nat} {frames : List OutgoingFrame}
    (nonempty : ∀ block ∈ frames.flatMap OutgoingFrame.blocks, block.2 ≠ []) :
    s.readFrames k frames = frames.map OutgoingFrame.data ↔
      s.CountsFit k (frames.flatMap OutgoingFrame.blocks) := by
  induction frames generalizing k with
  | nil => exact ⟨fun _ j inside => absurd inside (Nat.not_lt_zero j), fun _ => rfl⟩
  | cons frame rest ih =>
    rw [List.flatMap_cons] at nonempty
    rw [Device.readFrames, List.map_cons, List.cons.injEq, List.flatMap_cons,
      Device.CountsFit.append_iff,
      ih fun block member => nonempty block (List.mem_append_right _ member)]
    have own := (Device.readBlocks_data (s := s) (k := k) fun block member =>
      nonempty block (List.mem_append_left _ member)).2
    rw [← own]
    rfl

/-- What is read for a frame is never longer than its data. -/
theorem readFrames_short {k : Nat} {frames : List OutgoingFrame}
    (nonempty : ∀ block ∈ frames.flatMap OutgoingFrame.blocks, block.2 ≠ [])
    {payload : List Byte} (member : payload ∈ s.readFrames k frames) : payload.length ≤ 1022 := by
  induction frames generalizing k with
  | nil => cases member
  | cons frame rest ih =>
    rw [List.flatMap_cons] at nonempty
    rcases List.mem_cons.mp member with first | later
    · rw [first]
      have shorter := (Device.readBlocks_data (s := s) (k := k) fun block inside =>
        nonempty block (List.mem_append_left _ inside)).1
      exact Nat.le_trans shorter frame.short
    · exact ih (fun block inside =>
        nonempty block (List.mem_append_right _ inside)) later

theorem readFrames_length (k : Nat) (frames : List OutgoingFrame) :
    (s.readFrames k frames).length = frames.length := by
  induction frames generalizing k with
  | nil => rfl
  | cons frame rest ih =>
    rw [Device.readFrames, List.length_cons, ih, List.length_cons]

theorem wire_length (data : List Byte) : (wire data).length = (checked data).length +
    (checked data).countP (fun byte => byte = flag ∨ byte = escape) + 2 := by
  have stuffing (bytes : List Byte) : (bytes.flatMap stuffed).length =
      bytes.length + bytes.countP (fun byte => byte = flag ∨ byte = escape) := by
    induction bytes with
    | nil => rfl
    | cons byte rest ih =>
      rw [List.flatMap_cons, List.length_append, ih, List.countP_cons,
        List.length_cons, stuffed]
      by_cases special : byte = flag ∨ byte = escape
      · simp only [special, if_true, decide_true, List.length_cons, List.length_nil]
        omega
      · simp only [special, if_false, decide_false, List.length_cons, List.length_nil,
          Bool.false_eq_true]
        omega
  rw [wire, List.cons_append, List.length_cons, List.length_append, stuffing,
    List.length_singleton]

theorem checked_injective {first second : List Byte} (same : checked first = checked second) :
    first = second := by
  have lengths := congrArg List.length same
  rw [checked_length, checked_length] at lengths
  exact List.append_inj_left same (Nat.add_right_cancel lengths)

/-- The wire of some bytes decodes to these bytes only. -/
theorem decodes_wire {sent data : List Byte} (short : sent.length ≤ 1022) :
    Decodes (wire sent) data ↔ sent = data := by
  have delivered (frame : Frame) (idle : frame.state = .idle) :
      (transduce receive frame (wire sent)).2.map
        (fun completed => (completed.bytes, completed.crcValid)) = [(checked sent, true)] := by
    obtain ⟨final, completed, moved, closed, good⟩ := receive_wire idle 0 sent short
    have opened := opening_wire 0 sent []
    rw [List.append_nil, List.replicate_zero, List.nil_append] at opened
    rw [opened, transduce_append_silent _ moved,
      transduce_cons_output _ (receive_complete closed), transduce_nil, List.map_singleton,
      good.bytes, good.valid]
  constructor
  · intro decodes
    let frame : Frame := Frame.init ⟨.idle, Vector.replicate maxFrameSize 0, 0, 0, 0, false, false⟩
    have both := (delivered frame rfl).symm.trans (decodes frame rfl)
    exact checked_injective (Prod.ext_iff.mp (List.cons.inj both).1).1
  · rintro rfl
    exact delivered

/-- When nothing is lost, each payload fits the frame buffer. -/
theorem outgoingWires_all {payloads : List (List Byte)}
    (all : (outgoingWires payloads).length = payloads.length) :
    outgoingWires payloads = payloads.map wire := by
  have built := List.filterMap_length_eq_length.mp all
  rw [← List.filterMap_eq_map]
  apply List.filterMap_congr
  intro data member
  have some := built data member
  rw [buildFrame_eq] at some ⊢
  split_ifs at some ⊢
  · rfl
  · cases some

theorem Marked.nonempty {first : Bool} {blocks : List (Word × List Byte)}
    (marked : Marked first blocks) : blocks ≠ [] := by
  rintro rfl
  exact marked

theorem OutgoingFrame.data_nonempty (frame : OutgoingFrame)
    (nonempty : ∀ block ∈ frame.blocks, block.2 ≠ []) : frame.data ≠ [] := by
  intro empty
  obtain ⟨block, member⟩ := List.exists_mem_of_ne_nil _ frame.marked.nonempty
  exact nonempty block member (List.flatMap_eq_nil_iff.mp empty block member)

/-- The whole list is sent, and an end mark is not looked past. -/
theorem TransmitReady.run {frames : List OutgoingFrame} (ready : TransmitReady s frames) :
    ∃ t, (∀ fuel, (frames.flatMap OutgoingFrame.blocks).length < fuel →
        s.sendAllBuffers fuel = some t) ∧
      SentUpTo s t (min (frames.flatMap OutgoingFrame.blocks).length (2 ^ 16)) ∧
      WiresSent s t (transduce transmitBlock s.outboundBuffer
        (s.readBlocks 0 ((frames.flatMap OutgoingFrame.blocks).take (2 ^ 16)))).2 := by
  have list := ready.list
  have fresh : SentUpTo s s.loadTxBuffer 0 :=
    ⟨rfl, fun j low => absurd low (Nat.not_lt_zero j), fun _ _ => rfl⟩
  have loop (fuel : Nat) : s.sendAllBuffers fuel = s.loadTxBuffer.sendLoop fuel := by
    rw [Device.sendAllBuffers, if_neg list.present]
  by_cases empty : frames.flatMap OutgoingFrame.blocks = []
  · have none : frames = [] := by
      apply List.eq_nil_iff_forall_not_mem.mpr
      intro frame member
      exact frame.marked.nonempty (List.flatMap_eq_nil_iff.mp empty frame member)
    have occupied := ready.occupied none
    have ended := list.ended
    have inside := list.listInside
    rw [empty, List.length_nil] at ended inside
    obtain ⟨dcb, description, keyValue⟩ := s.loadBufferDescription_key list.present
      (s.txListPointerOffset % 2 ^ 16)
    have key : dcb.key = s.memory.words (s.txEntry 0) &&& KeyFlag.maskKey := by
      rw [Dcb.key, keyValue, ready.started, Device.dmaRead]
      congr 1
      exact CoreMemory.dmaRead_installed list.small (Nat.lt_of_lt_of_le (Nat.lt_add_of_pos_right
        (Nat.succ_pos 3)) inside)
    have loaded : s.loadTxBuffer.txDCB = some dcb := description
    rw [← key] at occupied ended
    obtain ⟨memory, -, -, -, -, -, wires, overrun⟩ :=
      s.loadTxBuffer.setTxdmaFlag_kept (Tts.transmissionFinished ||| Tts.listEnd)
    refine ⟨(s.loadTxBuffer.setTxdmaFlag (Tts.transmissionFinished ||| Tts.listEnd)).stopSender,
      fun fuel enough => ?_, ?_, ?_⟩
    · obtain ⟨less, rfl⟩ := Nat.exists_eq_succ_of_ne_zero (Nat.ne_zero_of_lt enough)
      rw [loop, Device.sendLoop, loaded]
      simp only [if_neg occupied, if_neg ended]
    · rw [empty]
      exact ⟨congrArg CoreMemory.size memory, fun j low => absurd low (Nat.not_lt_zero j),
        fun address _ => congrFun (congrArg CoreMemory.words memory) address⟩
    · rw [empty]
      exact ⟨wires.trans (List.append_nil _).symm, overrun.trans (Bool.or_false _).symm⟩
  · have sending : Sending s s.loadTxBuffer 0 := ⟨fresh, rfl, ready.started, rfl, rfl⟩
    obtain ⟨t, loops, sent, wires⟩ := sending.run list (by decide) List.drop_zero empty
      (frames_room frames s.outboundBuffer.length) (Nat.le_refl _)
    refine ⟨t, fun fuel enough => ?_, sent, wires.sent, wires.overrun⟩
    rw [loop, loops fuel (Nat.le_of_lt enough)]

/-- A list that is sent without a loss fits. -/
theorem TransmitReady.fits {frames : List OutgoingFrame} (ready : TransmitReady s frames)
    (marked : SentUpTo s t (min (frames.flatMap OutgoingFrame.blocks).length (2 ^ 16)))
    (wires : WiresSent s t (transduce transmitBlock s.outboundBuffer
      (s.readBlocks 0 ((frames.flatMap OutgoingFrame.blocks).take (2 ^ 16)))).2)
    (all : TransmitsAll s t frames) : TransmitFits s frames := by
  have listed : (frames.flatMap OutgoingFrame.blocks).length ≤ 2 ^ 16 := by
    by_contra long
    have inside : 2 ^ 16 < (frames.flatMap OutgoingFrame.blocks).length := by omega
    have kept := marked.others (s.txEntry (2 ^ 16)) fun j low same =>
      absurd (txEntry_injective s same) (by omega)
    have changed := (congrArg (· &&& KeyFlag.maskKey) kept).symm.trans
      (congrArg (· &&& KeyFlag.maskKey) (all.marked (2 ^ 16) inside))
    rw [sentKey_key, ready.list.keys _ inside,
      ready.list.transmitted _ (List.getElem_mem inside)] at changed
    exact absurd changed (by decide)
  rw [List.take_of_length_le listed, readFrames_transduce] at wires
  obtain ⟨sent, appended, decoded⟩ := all.sent
  have same : sent = outgoingWires (s.readFrames 0 frames) :=
    List.append_cancel_left (appended.symm.trans wires.sent)
  have lengths := decoded.length_eq
  rw [List.length_map, ← readFrames_length (s := s) 0 frames, same] at lengths
  have built := outgoingWires_all lengths
  have read : s.readFrames 0 frames = frames.map OutgoingFrame.data := by
    rw [same, built, List.forall₂_map_left_iff] at decoded
    have short := (List.forall₂_and_left _ _).mpr ⟨fun payload member =>
      @readFrames_short _ _ _ ready.list.nonempty payload member, decoded⟩
    have equal := short.imp fun payload data both => (decodes_wire both.1).mp both.2
    rwa [List.forall₂_eq_eq_eq] at equal
  refine ⟨?_, (readFrames_data ready.list.nonempty).mp read, listed⟩
  have clean := wires.overrun.symm.trans all.inside
  rw [built, read, List.map_map, ready.inside, Bool.false_or, List.any_map,
    List.any_eq_false] at clean
  intro frame member
  have fits := clean frame member
  rw [← wire_length]
  simpa using fits

/-- A list that fits is sent without a loss. -/
theorem TransmitFits.all {frames : List OutgoingFrame} (fits : TransmitFits s frames)
    (ready : TransmitReady s frames)
    (marked : SentUpTo s t (min (frames.flatMap OutgoingFrame.blocks).length (2 ^ 16)))
    (wires : WiresSent s t (transduce transmitBlock s.outboundBuffer
      (s.readBlocks 0 ((frames.flatMap OutgoingFrame.blocks).take (2 ^ 16)))).2) :
    TransmitsAll s t frames := by
  rw [List.take_of_length_le fits.listed, readFrames_transduce,
    (readFrames_data ready.list.nonempty).mpr fits.counts] at wires
  have short (frame : OutgoingFrame) (member : frame ∈ frames) :
      (wire frame.data).length ≤ maxFrameSize := by
    rw [wire_length]
    exact fits.wires frame member
  have built : outgoingWires (frames.map OutgoingFrame.data) =
      frames.map fun frame => wire frame.data := by
    rw [outgoingWires, List.filterMap_map, ← List.filterMap_eq_map]
    apply List.filterMap_congr
    intro frame member
    have large : maxFrameSize ≤ frameBufferSize := Nat.le_add_right _ _
    have room := Nat.le_trans (short frame member) large
    have occupied := frame.data_nonempty fun block inside =>
      ready.list.nonempty block (List.mem_flatMap_of_mem member inside)
    simp only [Function.comp_apply, buildFrame_eq]
    exact if_pos ⟨occupied, by decide, room⟩
  rw [Nat.min_eq_left fits.listed] at marked
  refine ⟨⟨_, wires.sent, ?_⟩, marked.marked, marked.others, ?_⟩
  · rw [built, List.forall₂_map_left_iff, List.forall₂_map_right_iff, List.forall₂_same]
    exact fun frame _ => (decodes_wire frame.short).mpr rfl
  · rw [wires.overrun, ready.inside, built, Bool.false_or, List.any_map, List.any_eq_false]
    intro frame member
    simpa using short frame member

/-- Exactly the lists that fit are sent without a loss. -/
theorem transmitsAll_iff {frames : List OutgoingFrame} (ready : TransmitReady s frames) :
    ∃ t, (∀ fuel, (frames.flatMap OutgoingFrame.blocks).length < fuel →
        s.sendAllBuffers fuel = some t) ∧
      (TransmitsAll s t frames ↔ TransmitFits s frames) := by
  obtain ⟨t, runs, marked, wires⟩ := ready.run
  exact ⟨t, runs, ready.fits marked wires, fun fits => fits.all ready marked wires⟩

end Frames

section Sample

/-- A block of flag bytes is one frame. -/
def flagsFrame (count : Nat) (small : count ≤ 1022) : OutgoingFrame where
  blocks := [(0x0403, List.replicate count flag)]
  marked := ⟨(by decide : anyBit 0x0403 KeyFlag.rcostRsom = true),
    (by decide : anyBit 0x0403 KeyFlag.rcostReom = true), .inl rfl⟩
  short := by simpa using small

/-- The transmit list of the device holds one frame of flag bytes. -/
def flagsDevice (count : Nat) : Device :=
  { queuedDevice twoBlocks
      ⟨1024, fun address =>
        if address < 32 then [0, 0, 0, 0, 0x0403, BitVec.ofNat 16 count, 0, 32].getD address 0
        else 0x7E7E⟩ [] with
    txListPointer := 4 }

theorem flagsDevice_ready (count : Nat) (positive : 0 < count) (small : count ≤ 1022) :
    TransmitReady (flagsDevice count) [flagsFrame count small] := by
  have blocks : [flagsFrame count small].flatMap OutgoingFrame.blocks =
      [(0x0403, List.replicate count flag)] := rfl
  have position : (flagsDevice count).txPosition 0 = 65 := by
    simp [Device.txPosition, Device.txArea, Device.txEntry, flagsDevice, queuedDevice,
      Device.pickDisplacement, twoBlocks, Layout.parameters]
  refine ⟨?_, rfl, rfl, fun empty => absurd empty (List.cons_ne_nil _ _)⟩
  rw [blocks]
  constructor
  case present => exact Nat.succ_ne_zero 3
  case small => exact (by decide : 1024 ≤ 2 ^ 24)
  case listInside => exact (by decide : 12 ≤ 1024)
  case ended => exact (by decide : (0 : Word) &&& KeyFlag.maskKey ≠ KeyFlag.blockToBeTransmitted)
  case transmitted =>
    intro block member
    rw [List.mem_singleton.mp member]
    exact (by decide : (0x0403 : Word) &&& KeyFlag.maskKey = KeyFlag.blockToBeTransmitted)
  case nonempty =>
    intro block member
    rw [List.mem_singleton.mp member]
    exact List.ne_nil_of_length_pos (by rwa [List.length_replicate])
  all_goals
    intro k inside
    obtain rfl : k = 0 := by simpa using inside
    rw [List.getElem_cons_zero]
  case keys => rfl
  case counts =>
    rw [List.length_replicate]
    rfl
  case content =>
    intro j low
    have content : (flagsDevice count).memory.words ((65 + j) / 2) = 0x7E7E :=
      if_neg (by omega)
    rw [List.getElem_replicate, position, byteAt, content]
    split_ifs <;> rfl
  case areaInside =>
    rw [List.length_replicate, position]
    exact (by omega : 65 + count ≤ 2 * 1024)
  case apart =>
    intro other before
    obtain rfl : other = 0 := by simpa using before
    rw [position]
    exact .inl (by decide : 2 * 4 + 1 < 65)

theorem transmitsAll_iff_one :
    ∃ t, (∀ fuel, 1 < fuel → (flagsDevice 1).sendAllBuffers fuel = some t) ∧
      TransmitsAll (flagsDevice 1) t [flagsFrame 1 (by decide)] := by
  obtain ⟨t, runs, whole⟩ := transmitsAll_iff (flagsDevice_ready 1 (by decide) (by decide))
  refine ⟨t, runs, whole.mpr ⟨?_, ?_, ?_⟩⟩
  · intro frame member
    rw [List.mem_singleton.mp member]
    decide
  · intro k inside
    obtain rfl : k = 0 := Nat.lt_one_iff.mp inside
    exact (by decide : 1 + 1 < 2 ^ 16)
  · exact (by decide : 1 ≤ 2 ^ 16)

/-- The wire of a frame with this many flags is copied past the end of the frame buffer. -/
theorem flagsFrame_overruns :
    TransmitReady (flagsDevice 512) [flagsFrame 512 (by decide)] ∧
      ∃ t, (flagsDevice 512).sendAllBuffers 2 = some t ∧
        ¬ TransmitsAll (flagsDevice 512) t [flagsFrame 512 (by decide)] := by
  have ready := flagsDevice_ready 512 (by decide) (by decide)
  obtain ⟨t, runs, marked, wires⟩ := ready.run
  refine ⟨ready, t, runs 2 (by decide), fun all => ?_⟩
  have fits := (ready.fits marked wires all).wires _ List.mem_cons_self
  have special : 512 ≤ (checked (List.replicate 512 flag)).countP
      (fun byte => byte = flag ∨ byte = escape) := by
    rw [checked, List.countP_append, List.countP_replicate, if_pos (by decide)]
    exact Nat.le_add_right _ _
  have long := checked_length (List.replicate 512 flag)
  rw [List.length_replicate] at long
  have content : (flagsFrame 512 (by decide)).data = List.replicate 512 flag :=
    List.append_nil _
  rw [content, long] at fits
  have capacity : maxFrameSize = 1024 := rfl
  omega

end Sample

end Nd100x.Hdlc
