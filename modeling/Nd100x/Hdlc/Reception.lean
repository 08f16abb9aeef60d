import Nd100x.Hdlc.Framing
import Nd100x.Hdlc.Placement

namespace Nd100x.Hdlc

open Nd100x.Library

/-- The last byte of a good frame completes it at any idle receiver, with a valid checksum and some
data. -/
structure GoodFrame where
  wire : List Byte
  data : List Byte
  nonempty : data ≠ []
  delivered : ∀ frame : Frame, frame.state = .idle → ∃ pulled last final completed,
    wire = pulled ++ [last] ∧ transduce receive frame pulled = (final, []) ∧
      final.addByte last = (completed, true) ∧ Good completed data

/-- A sent frame is good after any number of flags. -/
def SentFrame.good (sent : SentFrame) (lead : Nat) : GoodFrame where
  wire := List.replicate lead flag ++ sent.wire
  data := sent.payload
  nonempty := List.ne_nil_of_length_pos sent.nonempty
  delivered := by
    intro frame idle
    obtain ⟨final, completed, moved, closed, good⟩ :=
      receive_wire idle lead sent.payload sent.short
    refine ⟨opening lead sent.payload, flag, final, completed, ?_, moved, closed, good⟩
    have opened := opening_wire lead sent.payload []
    rwa [List.append_nil, ← sent.wire_eq] at opened

section Pull

variable {s : Device}

/-- The bytes before the end of a frame are pulled from the queue and enter the frame. -/
theorem Device.pullBytes_silent (key : s.rxKey = KeyFlag.emptyReceiverBlock) {pulled rest : List Byte}
    {next : Frame} (queue : s.tcpReceiveBuffer = pulled ++ rest)
    (silent : transduce receive s.hdlcReceiveFrame pulled = (next, [])) :
    s.pullBytes (pulled ++ rest) = ((s.putQueue rest).putFrame next).pullBytes rest := by
  induction pulled generalizing s with
  | nil =>
    cases silent
    rw [List.nil_append] at queue ⊢
    rw [← queue]
    rfl
  | cons data others ih =>
    obtain ⟨middle, moved, later⟩ := transduce_cons_inv silent
    have added : s.hdlcReceiveFrame.addByte data = (middle, false) := by
      rw [receive] at moved
      rcases step : s.hdlcReceiveFrame.addByte data with ⟨frame, complete⟩
      cases complete with
      | false =>
        rw [step] at moved
        cases moved
        rfl
      | true =>
        rw [step] at moved
        cases moved
    have step : s.pullBytes (data :: (others ++ rest)) =
        ((s.putQueue (others ++ rest)).putFrame middle).pullBytes (others ++ rest) := by
      simp only [Device.pullBytes, Device.ensureRxBuffer, key, if_true,
        Device.putQueue_hdlcReceiveFrame, added]
      rfl
    rw [List.cons_append, step]
    exact ih (s := (s.putQueue (others ++ rest)).putFrame middle) key rfl later

/-- The byte that completes a frame starts its processing. -/
theorem Device.pullBytes_complete (key : s.rxKey = KeyFlag.emptyReceiverBlock) {data : Byte}
    {rest : List Byte} {completed : Frame}
    (added : s.hdlcReceiveFrame.addByte data = (completed, true)) :
    s.pullBytes (data :: rest) = ((s.putQueue rest).putFrame completed).finishFrame := by
  simp only [Device.pullBytes, Device.ensureRxBuffer, key, if_true,
    Device.putQueue_hdlcReceiveFrame, added]

end Pull

section Frame

variable {layout : Layout} {words : Nat → Word} {s : Device} {index : Nat} {source : GoodFrame}
  {rest : List Byte}

/-- The receiver has a fresh block and waits for a frame. The list has at most 129 entries. -/
structure Waiting (layout : Layout) (words : Nat → Word) (s : Device) (index : Nat)
    (queue : List Byte) : Prop where
  low : index < 129
  fresh : ∃ dcb, Filling layout words s index 0 dcb
  idle : s.hdlcReceiveFrame.state = .idle
  queued : s.tcpReceiveBuffer = queue
  enabled : anyBit s.rxTransferControl Rtc.enableReceiverDMA = true

/-- The line side of the receiver does not touch the block. -/
theorem Filling.atFrame {stored : Nat} {dcb : Dcb} (filling : Filling layout words s index stored dcb)
    (queue : List Byte) (frame : Frame) :
    Filling layout words ((s.putQueue queue).putFrame frame) index stored dcb :=
  { memory := filling.memory
    pointer := filling.pointer
    parameters := filling.parameters
    offset := filling.offset
    described := filling.described
    inside := filling.inside
    empty := filling.empty
    loaded := filling.loaded
    bufferAddress := filling.bufferAddress
    listPointer := filling.listPointer
    keyValue := filling.keyValue
    displaced := filling.displaced
    written := filling.written
    reached := filling.reached }

/-- One frame is pulled from the queue and is then processed. -/
theorem Waiting.pull (waiting : Waiting layout words s index (source.wire ++ rest)) :
    ∃ completed, Good completed source.data ∧
      s.processBufferedData = ((s.putQueue rest).putFrame completed).finishFrame := by
  obtain ⟨dcb, filling⟩ := waiting.fresh
  obtain ⟨bytes, last, final, completed, split, moved, closed, good⟩ :=
    source.delivered s.hdlcReceiveFrame waiting.idle
  have queue := waiting.queued
  rw [split, List.append_assoc, List.singleton_append] at queue
  have pulled := Device.pullBytes_silent filling.rxKey queue moved
  have present : s.rxDCB.isSome = true := by rw [filling.loaded]; rfl
  have key : ((s.putQueue (last :: rest)).putFrame final).rxKey = KeyFlag.emptyReceiverBlock :=
    (filling.atFrame (last :: rest) final).rxKey
  have completing : ((s.putQueue (last :: rest)).putFrame final).pullBytes (last :: rest) = _ :=
    Device.pullBytes_complete key closed
  refine ⟨completed, good, ?_⟩
  rw [Device.processBufferedData, if_pos ⟨waiting.enabled, present⟩, queue, pulled, completing]
  rfl

/-- The data of a good frame is what is stored. -/
theorem Good.stored {completed : Frame} {data : List Byte} (good : Good completed data) :
    completed.bytes.take (completed.frameLength - 2) = data := by
  rw [good.bytes, good.length, checked_length, Nat.add_sub_cancel, checked, List.take_left]

/-- The data of a good frame is stored in the loaded block, and then the frame is finished. -/
theorem Waiting.finish (waiting : Waiting layout words s index (source.wire ++ rest)) :
    ∃ u dcb, s.processBufferedData = u.finishFrame ∧ Filling layout words u index 0 dcb ∧
      u.events = s.events ∧ u.hdlcReceiveFrame.crcValid = true ∧
      u.hdlcReceiveFrame.bytes.take (u.hdlcReceiveFrame.frameLength - 2) = source.data := by
  obtain ⟨dcb, filling⟩ := waiting.fresh
  obtain ⟨completed, good, processed⟩ := waiting.pull
  exact ⟨(s.putQueue rest).putFrame completed, dcb, processed, filling.atFrame rest completed, rfl,
    good.valid, good.stored⟩

/-- The trace only grows while a frame is finished. -/
theorem Device.finishFrame_events {s : Device} (valid : s.hdlcReceiveFrame.crcValid = true) :
    (s.storeBytes (s.hdlcReceiveFrame.bytes.take
      (s.hdlcReceiveFrame.frameLength - 2))).1.events <+: s.finishFrame.events := by
  have processed : (s.storeBytes (s.hdlcReceiveFrame.bytes.take
      (s.hdlcReceiveFrame.frameLength - 2))).1.events <+: s.processCompleteFrame.1.events := by
    simp only [Device.processCompleteFrame, valid, if_true]
    split_ifs
    · exact (SameLine.steps.endFrame _).events
    · exact List.prefix_refl _
  have loaded := (SameLine.steps.loadNextRxBuffer s.processCompleteFrame.1).events
  apply (processed.trans loaded).trans
  simp only [Device.finishFrame]
  split_ifs
  · exact List.prefix_refl _
  · exact (SameLine.setRxdmaFlag _ _).events

/-- The first byte goes to the displacement of the loaded block. -/
theorem Waiting.begins (waiting : Waiting layout words s index (source.wire ++ rest)) :
    ∃ word, s.events ++ [.write (layout.position index 0 / 2) word,
      .write (layout.entry index + 1) (BitVec.ofNat 16 (layout.displacementAt index + 1))] <+:
        s.processBufferedData.events := by
  obtain ⟨u, dcb, processed, started, before, valid, taken⟩ := waiting.finish
  obtain ⟨first, others, content⟩ := List.exists_cons_of_ne_nil source.nonempty
  have room : layout.displacementAt index + 0 < layout.blockLength :=
    layout.displacementAt_lt index
  obtain ⟨word, stores⟩ :=
    started.toProgress.write_eq started.memory started.inside started.loaded room first
  have finished := Device.finishFrame_events valid
  rw [taken, content, Device.storeBytes, Device.maxTries, Device.storeByte_room started room] at finished
  refine ⟨word, ?_⟩
  rw [processed, ← before]
  apply List.IsPrefix.trans _ finished
  apply List.IsPrefix.trans _ (SameLine.steps.storeBytes _ others).events
  rw [stores]
  simp

/-- The list position and the memory do not depend on the line side and on the status. -/
theorem Placed.congr {t : Device} (placed : Placed layout words s index)
    (memory : t.memory = s.memory) (pointer : t.rxListPointer = s.rxListPointer)
    (parameters : t.parameters = s.parameters)
    (offset : t.rxListPointerOffset = s.rxListPointerOffset) : Placed layout words t index :=
  ⟨memory.trans placed.memory, pointer.trans placed.pointer, parameters.trans placed.parameters,
    offset.trans placed.offset, placed.described⟩

/-- Loading does not write. -/
theorem Device.loadNextRxBuffer_memory (s : Device) : s.loadNextRxBuffer.1.memory = s.memory := by
  have load (t : Device) : t.loadRxBuffer.memory = t.memory := by
    rw [Device.loadRxBuffer]
    split <;> rfl
  simp only [Device.loadNextRxBuffer]
  split_ifs <;> simp only [load, Device.putRxListPointerOffset_memory]

/-- The blocks that a message takes from a list position on. -/
def Layout.blocks (layout : Layout) (index : Nat) (data : List Byte) : List Block :=
  cut layout.blockLength layout.displacementAt index data

/-- A good frame is stored when its blocks are empty and the list does not wrap around. -/
theorem Waiting.stores (waiting : Waiting layout words s index (source.wire ++ rest))
    (inside : index + (layout.blocks index source.data).length ≤ layout.count)
    (straight : index + (layout.blocks index source.data).length ≤ 129)
    (empty : ∀ other, index ≤ other → other < index + (layout.blocks index source.data).length →
      layout.EmptyAt words other) :
    ∃ after, s.processBufferedData.memory = ⟨layout.size, after⟩ ∧
      BlocksAt layout words after index (layout.blocks index source.data) ∧
      OnlyBlocks layout words after index (layout.blocks index source.data) ∧
      (index + (layout.blocks index source.data).length < layout.count →
        index + (layout.blocks index source.data).length < 129 →
        layout.EmptyAt after (index + (layout.blocks index source.data).length) →
        Waiting layout after s.processBufferedData (index + (layout.blocks index source.data).length)
          rest) := by
  obtain ⟨dcb, filling⟩ := waiting.fresh
  obtain ⟨completed, good, processed⟩ := waiting.pull
  have started := filling.atFrame rest completed
  obtain ⟨t, after, stores, _, placed, blocksAt, only⟩ :=
    Device.storeBytes_cut started source.nonempty inside straight empty
  have content : ((s.putQueue rest).putFrame completed).hdlcReceiveFrame.bytes.take
      (((s.putQueue rest).putFrame completed).hdlcReceiveFrame.frameLength - 2) =
        source.data :=
    good.stored
  have valid : ((s.putQueue rest).putFrame completed).hdlcReceiveFrame.crcValid = true :=
    good.valid
  have cleared : ((s.putQueue rest).putFrame completed).processCompleteFrame =
      (t.endFrame.clearReceiveFrameState, true) := by
    simp only [Device.processCompleteFrame, valid, if_true, content, stores]
  have ended : Placed layout after t.endFrame.clearReceiveFrameState
      (index + (layout.blocks index source.data).length - 1) :=
    placed.congr (Device.setRxdmaFlag_memory _ _) (Device.setRxdmaFlag_rxListPointer _ _)
      (Device.setRxdmaFlag_parameters _ _) (Device.setRxdmaFlag_rxListPointerOffset _ _)
  have line := SameLine.steps.storeBytes ((s.putQueue rest).putFrame completed) source.data
  rw [stores] at line
  have endLine := SameLine.steps.endFrame t
  have finished : s.processBufferedData.memory = ⟨layout.size, after⟩ := by
    rw [processed]
    simp only [Device.finishFrame, cleared]
    split_ifs
    · rw [Device.loadNextRxBuffer_memory, ended.memory]
    · rw [Device.setRxdmaFlag_memory, Device.loadNextRxBuffer_memory, ended.memory]
  refine ⟨after, finished, blocksAt, only, ?_⟩
  intro more below nextEmpty
  have occupied : 0 < (layout.blocks index source.data).length := by
    rw [Layout.blocks, cut_cons source.nonempty (layout.displacementAt_lt index)]
    exact Nat.succ_pos _
  have position : index + (layout.blocks index source.data).length - 1 + 1 =
      index + (layout.blocks index source.data).length := by omega
  obtain ⟨next, loaded, fresh⟩ := ended.loadNext (by omega) (by omega) (position ▸ nextEmpty)
  have final : s.processBufferedData = t.endFrame.clearReceiveFrameState.loadNextRxBuffer.1 := by
    rw [processed]
    simp only [Device.finishFrame, cleared, loaded, if_true]
  have loadLine := SameLine.steps.loadNextRxBuffer t.endFrame.clearReceiveFrameState
  rw [final]
  refine ⟨below, ⟨next, position ▸ fresh⟩, ?_, ?_, ?_⟩
  · rw [loadLine.frame]
    rfl
  · exact (loadLine.queue.trans endLine.queue).trans line.queue
  · rw [loadLine.control]
    change anyBit t.endFrame.rxTransferControl _ = true
    rw [endLine.control, line.control]
    exact waiting.enabled

end Frame

end Nd100x.Hdlc
