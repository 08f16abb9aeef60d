import Nd100x.Hdlc.MessagePlacement

namespace Nd100x.Hdlc

open Nd100x.Library

/-- The transmitter starts a frame at a block with RSOM and sends it after a block with REOM. -/
def transmitBlock (pending : List Byte) (block : Word × List Byte) :
    List Byte × Option (List Byte) :=
  let started := if anyBit block.1 KeyFlag.rcostRsom then [] else pending
  let filled := started ++ block.2
  if anyBit block.1 KeyFlag.rcostReom then ([], some filled) else (filled, none)

/-- These descriptors are given back, with their key words. -/
def returnedBlocks (events : List Event) : List (Nat × Word) :=
  events.filterMap fun event =>
    match event with
    | .returned address keyValue => some (address, keyValue)
    | _ => none

theorem returnedBlocks_append (first second : List Event) :
    returnedBlocks (first ++ second) = returnedBlocks first ++ returnedBlocks second :=
  List.filterMap_append

theorem mem_returnedBlocks {events : List Event} {address : Nat} {keyValue : Word}
    (given : .returned address keyValue ∈ events) : (address, keyValue) ∈ returnedBlocks events :=
  List.mem_filterMap.mpr ⟨_, given, rfl⟩

namespace Device

/-- The trace of the steps from one state to a later one. -/
def eventsSince (t s : Device) : List Event := t.events.drop s.events.length

theorem eventsSince_eq {s t : Device} {events : List Event} (grown : t.events = s.events ++ events) :
    t.eventsSince s = events := by
  rw [eventsSince, grown, List.drop_left]

end Device

/-- A filled block as the transmitter reads it. -/
def Layout.filledBlock (layout : Layout) (words : Nat → Word) (address : Nat) : Word × List Byte :=
  let displacement := layout.displacementAt ((address - layout.pointer) / 4)
  let data := (words (address + 2) &&& 0x00FF#16).toNat * 2 ^ 16 + (words (address + 3)).toNat
  (words address, (List.range ((words (address + 1)).toNat - displacement)).map fun k =>
    byteAt words (2 * data + displacement + k))

/-- The first returned block starts the message, the last one ends it, and the transmitter reads the
message back from them. -/
structure MessageMarked (layout : Layout) (s t : Device) (data : List Byte) : Prop where
  starts : ∀ k (inside : k < (returnedBlocks (t.eventsSince s)).length),
    anyBit (returnedBlocks (t.eventsSince s))[k].2 KeyFlag.rcostRsom = true ↔ k = 0
  ends : ∀ k (inside : k < (returnedBlocks (t.eventsSince s)).length),
    anyBit (returnedBlocks (t.eventsSince s))[k].2 KeyFlag.rcostReom = true ↔
      k + 1 = (returnedBlocks (t.eventsSince s)).length
  read : ∀ pending, transduce transmitBlock pending ((returnedBlocks (t.eventsSince s)).map
    fun block => layout.filledBlock t.memory.words block.1) = ([], [data])

/-- A message is stored when the block that holds its end is given back. -/
def MessageEnded (s t : Device) : Prop :=
  ∃ block ∈ returnedBlocks (t.eventsSince s), anyBit block.2 KeyFlag.rcostReom = true

section Marks

/-- The low byte of a marked key is the status. -/
theorem markedKey_status (keyValue : Word) (rxStatus : Byte) {mask : Word}
    (low : 0xFF00#16 &&& mask = 0#16) :
    markedKey keyValue rxStatus &&& mask = rxStatus.setWidth 16 &&& mask := by
  have mark : mask &&& KeyFlag.blockDoneBit = 0#16 := by
    have inside : KeyFlag.blockDoneBit = 0xFF00#16 &&& KeyFlag.blockDoneBit := rfl
    rw [inside, ← BitVec.and_assoc, BitVec.and_comm mask, low, BitVec.zero_and]
  have kept : mask &&& (keyValue &&& 0xFF00#16) = 0#16 := by
    rw [BitVec.and_comm, BitVec.and_assoc, low, BitVec.and_zero]
  rw [markedKey, BitVec.and_comm, BitVec.and_or_distrib_left, BitVec.and_or_distrib_left, mark,
    kept, BitVec.zero_or, BitVec.or_zero, BitVec.and_comm]

theorem markedKey_starts (keyValue : Word) {rxStatus : Byte}
    (status : rxStatus = 0x01 ∨ rxStatus = 0x03) :
    anyBit (markedKey keyValue rxStatus) KeyFlag.rcostRsom = true := by
  rw [anyBit, markedKey_status keyValue rxStatus (by decide)]
  rcases status with rfl | rfl <;> decide

theorem markedKey_ends (keyValue : Word) :
    anyBit (markedKey keyValue 0x01) KeyFlag.rcostReom = false ∧
      anyBit (markedKey keyValue 0x03) KeyFlag.rcostReom = true := by
  rw [anyBit, anyBit, markedKey_status keyValue 0x01 (by decide),
    markedKey_status keyValue 0x03 (by decide)]
  decide

end Marks

/-- A descriptor that is given back has the start mark. -/
def StartsBlock : Event → Prop
  | .returned _ keyValue => anyBit keyValue KeyFlag.rcostRsom = true
  | _ => True

theorem startsBlock_steps : ListSteps (Grows StartsBlock) where
  refl := fun _ => .of_same rfl
  trans := Grows.trans
  report := fun s flag => .setRxdmaFlag s flag trivial
  mark := fun s rxStatus status => .markBufferReceived s rxStatus (fun _ _ => trivial)
    fun _ keyValue => markedKey_starts keyValue status
  write := fun s _ data _ _ _ => .writeNextByteDma s data fun _ _ => trivial
  drop := fun _ => .of_same rfl
  load := fun s offset _ =>
    (Grows.of_same rfl).trans (.loadRxBuffer (s.putRxListPointerOffset offset) fun _ => trivial)

/-- Every block that is given back while data is pulled has the start mark. -/
theorem startsBlock_processBufferedData (s : Device) :
    ∀ block ∈ returnedBlocks (s.processBufferedData.eventsSince s),
      anyBit block.2 KeyFlag.rcostRsom = true := by
  obtain ⟨events, grown, starts⟩ := startsBlock_steps.processBufferedData s
    (fun _ _ => .of_same rfl) (fun _ _ => .of_same rfl)
  rw [Device.eventsSince_eq grown]
  intro block given
  obtain ⟨event, member, found⟩ := List.mem_filterMap.mp given
  have marked := starts event member
  cases event with
  | returned address keyValue =>
    cases found
    exact marked
  | _ => cases found

/-- No descriptor is given back. -/
def Unreturned (event : Event) : Prop := ∀ address keyValue, event ≠ .returned address keyValue

theorem Event.IsWrite.unreturned {event : Event} (isWrite : event.IsWrite) : Unreturned event := by
  obtain ⟨address, data, rfl⟩ := isWrite
  exact fun _ _ => nofun

theorem returnedBlocks_other {events : List Event} (other : ∀ event ∈ events, Unreturned event) :
    returnedBlocks events = [] := by
  rw [returnedBlocks, List.filterMap_eq_nil_iff]
  intro event member
  have different := other event member
  cases event with
  | returned address keyValue => exact absurd rfl (different address keyValue)
  | _ => rfl

section Message

variable {layout : Layout} {words : Nat → Word} {s : Device} {index stored : Nat} {dcb : Dcb}
  {source : GoodFrame} {rest : List Byte}

theorem Filling.mark_events (filling : Filling layout words s index stored dcb) (rxStatus : Byte) :
    ∃ event, event.IsWrite ∧ (s.markBufferReceived rxStatus).events = s.events ++
      [event, .returned (layout.entry index) (markedKey (words (layout.entry index)) rxStatus)] := by
  have key : dcb.key = KeyFlag.emptyReceiverBlock := by
    rw [Dcb.key, filling.keyValue]
    exact filling.empty
  rw [Device.markBufferReceived_eq filling.loaded key, filling.bufferAddress, filling.keyValue]
  exact ⟨_, ⟨_, _, rfl⟩, List.append_assoc _ _ _⟩

/-- A message that fits the loaded block gives back this block alone. -/
theorem Waiting.returned_one (waiting : Waiting layout words s index (source.wire ++ rest))
    (fits : layout.displacementAt index + source.data.length ≤ layout.blockLength) :
    returnedBlocks (s.processBufferedData.eventsSince s) =
      [(layout.entry index, markedKey (words (layout.entry index)) 0x03)] := by
  obtain ⟨u, dcb, processed, filling, before, valid, taken⟩ := waiting.finish
  obtain ⟨t, after, next, stores, filled, written, writes, grown, onlyWrites⟩ :=
    Device.storeBytes_chunk filling source.data fits
  have cleared : u.processCompleteFrame = (t.endFrame.clearReceiveFrameState, true) := by
    simp only [Device.processCompleteFrame, valid, if_true, taken, stores]
  obtain ⟨event, isWrite, marked⟩ := filled.mark_events 0x03
  rw [written.key_kept filling.inside fits] at marked
  have plain (u : Device) (flag : Word) : Grows Unreturned u (u.setRxdmaFlag flag) :=
    .setRxdmaFlag u flag fun _ _ => Event.noConfusion
  have ended : Grows Unreturned (t.markBufferReceived 0x03) t.endFrame.clearReceiveFrameState :=
    (plain _ _).trans (.of_same rfl)
  have loaded := ended.trans (.loadNextRxBuffer _ fun _ _ _ => Event.noConfusion)
  obtain ⟨later, finished, quiet⟩ : Grows Unreturned (t.markBufferReceived 0x03)
      s.processBufferedData := by
    rw [processed]
    simp only [Device.finishFrame, cleared]
    split_ifs
    · exact loaded
    · exact loaded.trans (plain _ _)
  have all : s.processBufferedData.events = s.events ++ (writes ++ ([event, .returned
      (layout.entry index) (markedKey (words (layout.entry index)) 0x03)] ++ later)) := by
    rw [finished, marked, grown, before, List.append_assoc, List.append_assoc]
  have written : returnedBlocks writes = [] :=
    returnedBlocks_other fun event member => (onlyWrites event member).unreturned
  rw [Device.eventsSince_eq all, returnedBlocks_append, returnedBlocks_append, written,
    returnedBlocks_other quiet]
  obtain ⟨address, data, rfl⟩ := isWrite
  rfl

/-- A longer message gives back the loaded block before its end. -/
theorem Waiting.returned_first (waiting : Waiting layout words s index (source.wire ++ rest))
    (long : layout.blockLength < layout.displacementAt index + source.data.length) :
    ∃ block ∈ returnedBlocks (s.processBufferedData.eventsSince s),
      anyBit block.2 KeyFlag.rcostReom = false := by
  obtain ⟨u, dcb, processed, filling, before, valid, taken⟩ := waiting.finish
  have below := layout.displacementAt_lt index
  let room := layout.blockLength - layout.displacementAt index
  have chunkFull : (source.data.take room).length = room := by
    rw [List.length_take]
    omega
  obtain ⟨first, others, remaining⟩ : ∃ first others, source.data.drop room = first :: others := by
    apply List.exists_cons_of_ne_nil
    apply List.ne_nil_of_length_pos
    rw [List.length_drop]
    omega
  obtain ⟨t, after, next, stores, filled, written, _, grown, _⟩ :=
    Device.storeBytes_chunk filling (source.data.take room) (by omega)
  have full : layout.displacementAt index + (0 + (source.data.take room).length) =
      layout.blockLength := by omega
  obtain ⟨event, _, marked⟩ := filled.mark_events 0x01
  have closed : (t.markBufferReceived 0x01).events <+: t.closeBlock.events :=
    (SameLine.setRxdmaFlag _ _).events
  have retried : t.closeBlock.events <+: (t.storeByte Device.maxTries first).1.events :=
    (SameLine.steps.retry t (filled.refuses full first) 130).events
  have stored : (t.storeByte Device.maxTries first).1.events <+:
      (t.storeBytes (first :: others)).1.events := by
    rw [Device.storeBytes]
    split
    · next v found =>
        rw [found]
        exact (SameLine.steps.storeBytes v others).events
    · next v found =>
        rw [found]
  have joined : u.storeBytes source.data = t.storeBytes (first :: others) := by
    rw [← List.take_append_drop room source.data, Device.storeBytes_append _ stores, remaining]
  have finished := Device.finishFrame_events valid
  rw [taken, joined, ← processed] at finished
  obtain ⟨later, all⟩ := ((closed.trans retried).trans stored).trans finished
  rw [marked, grown, before, List.append_assoc, List.append_assoc] at all
  refine ⟨(layout.entry index, markedKey (after (layout.entry index)) 0x01), ?_,
    (markedKey_ends _).1⟩
  rw [Device.eventsSince_eq all.symm]
  apply mem_returnedBlocks
  simp

/-- The transmitter reads a block that holds a whole message. -/
theorem BlockAt.transmit {after : Nat → Word} {data : List Byte}
    (placed : BlockAt layout words after index ⟨layout.displacementAt index, data⟩ 0x03)
    (only : OnlyBlocks layout words after index [⟨layout.displacementAt index, data⟩])
    (described : layout.Describes words) (inside : index < layout.count)
    (fits : layout.displacementAt index + data.length ≤ layout.blockLength) (pending : List Byte) :
    transmitBlock pending (layout.filledBlock after (layout.entry index)) = ([], some data) := by
  have short := layout.short
  have position : (layout.entry index - layout.pointer) / 4 = index := by
    simp only [Layout.entry]
    omega
  have content : layout.filledBlock after (layout.entry index) =
      (markedKey (words (layout.entry index)) 0x03, data) := by
    have count : (after (layout.entry index + 1)).toNat =
        layout.displacementAt index + data.length := by
      rw [placed.count]
      exact Nat.mod_eq_of_lt (by dsimp only; omega)
    have kept (offset : Nat) (low : 2 ≤ offset) (high : offset ≤ 3) :
        after (layout.entry index + offset) = words (layout.entry index + offset) := by
      have listed := layout.listApart index inside
      have entries : layout.pointer ≤ layout.entry index ∧
          layout.entry index + 3 < layout.pointer + 4 * layout.count := by
        simp only [Layout.entry]
        omega
      have apart (position : Nat) (own : position / 2 = layout.entry index + offset) :
          ¬ TouchedBy layout position index [⟨layout.displacementAt index, data⟩] := by
        simp only [TouchedBy, Layout.Touches, or_false]
        omega
      exact word_eq_of_byteAt (only _ (apart _ (by omega))) (only _ (apart _ (by omega)))
    have area := described index inside
    rw [← kept 2 (by decide) (by decide), ← kept 3 (by decide) (by decide)] at area
    simp only [Layout.filledBlock, position, area, count, placed.key, Nat.add_sub_cancel_left]
    congr 1
    apply List.ext_getElem
    · simp
    · intro k low high
      rw [List.getElem_map, List.getElem_range]
      exact placed.bytes k high
  rw [content]
  simp only [transmitBlock, markedKey_starts _ (.inr rfl), (markedKey_ends _).2, if_true,
    List.nil_append]

/-- The marks are wrong when the message does not fit the loaded block. -/
theorem MessageMarked.fits (waiting : Waiting layout words s index (source.wire ++ rest))
    (ended : MessageEnded s s.processBufferedData)
    (marked : MessageMarked layout s s.processBufferedData source.data) :
    layout.displacementAt index + source.data.length ≤ layout.blockLength := by
  by_contra long
  obtain ⟨first, firstGiven, notEnd⟩ := waiting.returned_first (Nat.lt_of_not_le long)
  obtain ⟨last, lastGiven, isEnd⟩ := ended
  have starts := startsBlock_processBufferedData s
  have single (block : Nat × Word)
      (given : block ∈ returnedBlocks (s.processBufferedData.eventsSince s)) :
      ∃ inside, (returnedBlocks (s.processBufferedData.eventsSince s)).get ⟨0, inside⟩ = block := by
    obtain ⟨k, inside, found⟩ := List.getElem_of_mem given
    have zero := (marked.starts k inside).mp (starts _ (List.getElem_mem inside))
    subst zero
    exact ⟨inside, found⟩
  obtain ⟨_, here⟩ := single first firstGiven
  obtain ⟨_, there⟩ := single last lastGiven
  rw [← there, here, notEnd] at isEnd
  exact Bool.false_ne_true isEnd

/-- A message whose blocks are empty is stored to its end. -/
theorem Waiting.ended (waiting : Waiting layout words s index (source.wire ++ rest))
    (inside : index + (layout.blocks index source.data).length ≤ layout.count)
    (straight : index + (layout.blocks index source.data).length ≤ 129)
    (empty : ∀ other, index ≤ other → other < index + (layout.blocks index source.data).length →
      layout.EmptyAt words other) :
    MessageEnded s s.processBufferedData := by
  obtain ⟨u, dcb, processed, filling, before, valid, taken⟩ := waiting.finish
  obtain ⟨t, after, stores, key, _⟩ :=
    Device.storeBytes_cut filling source.nonempty inside straight empty
  obtain ⟨last, loaded, lastKey⟩ : ∃ last, t.rxDCB = some last ∧
      last.key = KeyFlag.emptyReceiverBlock := by
    rw [Device.rxKey] at key
    rcases found : t.rxDCB with _ | last
    · rw [found] at key
      exact absurd key (by decide)
    · rw [found] at key
      exact ⟨last, rfl, key⟩
  have cleared : u.processCompleteFrame = (t.endFrame.clearReceiveFrameState, true) := by
    simp only [Device.processCompleteFrame, valid, if_true, taken, stores]
  have grown := (SameLine.steps.storeBytes u source.data).events
  rw [stores] at grown
  obtain ⟨writes, grown⟩ := grown
  have marked : (t.markBufferReceived 0x03).events = t.events ++
      [.write last.bufferAddress (markedKey last.keyValue 0x03),
        .returned last.bufferAddress (markedKey last.keyValue 0x03)] := by
    rw [Device.markBufferReceived_eq loaded lastKey]
    exact List.append_assoc _ _ _
  have reported : (t.markBufferReceived 0x03).events <+: t.endFrame.clearReceiveFrameState.events :=
    (SameLine.setRxdmaFlag _ _).events
  have next := (SameLine.steps.loadNextRxBuffer t.endFrame.clearReceiveFrameState).events
  obtain ⟨later, all⟩ : (t.markBufferReceived 0x03).events <+: s.processBufferedData.events := by
    apply (reported.trans next).trans
    rw [processed]
    simp only [Device.finishFrame, cleared]
    split_ifs
    · exact List.prefix_refl _
    · exact (SameLine.setRxdmaFlag _ _).events
  rw [marked, ← grown, before, List.append_assoc, List.append_assoc] at all
  refine ⟨(last.bufferAddress, markedKey last.keyValue 0x03), ?_, (markedKey_ends _).2⟩
  rw [Device.eventsSince_eq all.symm]
  apply mem_returnedBlocks
  simp

end Message

section Sample

/-- The list of two empty descriptors takes a message of at most two blocks. -/
theorem twoBlocks_ended {frame : GoodFrame} (fits : (twoBlocks.blocks 0 frame.data).length ≤ 2) :
    Waiting twoBlocks twoBlocksMemory.words
        ((queuedDevice twoBlocks twoBlocksMemory [frame]).commandReceiverStart 4) 0
        (frame.wire ++ []) ∧
      MessageEnded ((queuedDevice twoBlocks twoBlocksMemory [frame]).commandReceiverStart 4)
        ((queuedDevice twoBlocks twoBlocksMemory
          [frame]).commandReceiverStart 4).processBufferedData := by
  have planned : twoBlocks.plan 0 [frame] = twoBlocks.blocks 0 frame.data := by
    rw [Layout.plan, Layout.plan, List.append_nil, twoBlocks.messageBlocks_eq (.inr rfl)]
  have waiting := (twoBlocks_ready (planned ▸ fits)).waiting (by decide)
  rw [List.map_singleton, List.flatten_singleton] at waiting
  have count : twoBlocks.count = 2 := rfl
  exact ⟨waiting, waiting.ended (by omega) (by omega)
    fun other _ high => twoBlocks_empty other (by omega)⟩

/-- These four bytes take two blocks of twoBlocks. -/
def fourBytes : SentFrame where
  payload := [1, 2, 3, 4]
  bufferSize := 8
  wire := [flag, 1, 2, 3, 4, 0x91, 0x39, flag]
  gap := 0
  nonempty := by decide
  short := by decide
  built := by decide

end Sample

end Nd100x.Hdlc
