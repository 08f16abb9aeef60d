import Nd100x.Hdlc.Reception
import Mathlib.Logic.Function.Iterate

namespace Nd100x.Hdlc

open Nd100x.Library

namespace Layout

variable (layout : Layout)

/-- The first block of a message starts at the first displacement, and its further blocks start at
the second one. -/
def messageDisplacement (start other : Nat) : Nat :=
  if other = start then layout.displacement1 else layout.displacement2

def messageBlocks (start : Nat) (data : List Byte) : List Block :=
  cut layout.blockLength (layout.messageDisplacement start) start data

/-- The messages take consecutive blocks, and each message starts in a block of its own. -/
def plan : Nat → List GoodFrame → List Block
  | _, [] => []
  | start, frame :: rest =>
    layout.messageBlocks start frame.data ++
      plan (start + (layout.messageBlocks start frame.data).length) rest

theorem messageDisplacement_lt (start other : Nat) :
    layout.messageDisplacement start other < layout.blockLength := by
  rw [messageDisplacement]
  split_ifs
  · exact layout.displaced1
  · exact layout.displaced2

theorem messageBlocks_pos (start : Nat) (frame : GoodFrame) :
    0 < (layout.messageBlocks start frame.data).length := by
  rw [messageBlocks, cut_cons frame.nonempty (layout.messageDisplacement_lt start start)]
  exact Nat.succ_pos _

theorem plan_fits (start : Nat) (frames : List GoodFrame) :
    ∀ block ∈ layout.plan start frames, layout.Fits block := by
  induction frames generalizing start with
  | nil => exact fun block member => absurd member List.not_mem_nil
  | cons frame rest ih =>
    intro block member
    rcases List.mem_append.mp member with first | later
    · exact cut_fits start frame.data block first
    · exact ih _ block later

/-- The list position picks the right displacement for the message at its start, or for every
message when the displacements agree. -/
theorem messageBlocks_eq {start : Nat}
    (alike : layout.displacement1 = layout.displacement2 ∨ start = 0) (data : List Byte) :
    layout.messageBlocks start data = layout.blocks start data := by
  have same : layout.messageDisplacement start = layout.displacementAt := by
    funext other
    rw [messageDisplacement, displacementAt]
    rcases alike with equal | zero
    · rw [equal, ite_self, ite_self]
    · rw [zero]
  rw [messageBlocks, blocks, same]

end Layout

/-- The memory holds a block that the receiver has filled. -/
structure ReceivedBlock (layout : Layout) (words : Nat → Word) (index : Nat) (block : Block) :
    Prop where
  key : words (layout.entry index) &&& KeyFlag.maskKey = KeyFlag.fullReceiverBlock
  count : words (layout.entry index + 1) =
    BitVec.ofNat 16 (block.displacement + block.bytes.length)
  bytes : ∀ k (inside : k < block.bytes.length),
    byteAt words (2 * layout.address index + block.displacement + k) = block.bytes[k]

def ReceivedBlocks (layout : Layout) (words : Nat → Word) : Nat → List Block → Prop
  | _, [] => True
  | index, block :: rest =>
    ReceivedBlock layout words index block ∧ ReceivedBlocks layout words (index + 1) rest

/-- The first byte of every message goes to the first displacement of its first block. -/
def MessagesBegin (layout : Layout) : Device → Nat → List GoodFrame → Prop
  | _, _, [] => True
  | s, start, frame :: rest =>
    (∃ word, s.events ++
        [.write ((2 * layout.address start + layout.displacement1) / 2) word,
          .write (layout.entry start + 1) (BitVec.ofNat 16 (layout.displacement1 + 1))] <+:
            s.processBufferedData.events) ∧
      MessagesBegin layout s.processBufferedData
        (start + (layout.messageBlocks start frame.data).length) rest

/-- The device pulls one frame at a time from its queue. -/
def Device.receiveMessages (s : Device) (frames : List GoodFrame) : Device :=
  Device.processBufferedData^[frames.length] s

/-- The messages are in the planned blocks, and no other byte of the memory is written. -/
structure MessagesStored (layout : Layout) (s : Device) (frames : List GoodFrame) : Prop where
  begins : MessagesBegin layout s 0 frames
  blocks : ReceivedBlocks layout (s.receiveMessages frames).memory.words 0 (layout.plan 0 frames)
  others : OnlyBlocks layout s.memory.words (s.receiveMessages frames).memory.words 0
    (layout.plan 0 frames)

/-- The list is empty, the messages are queued, and the planned blocks fit in the list. -/
structure ListReady (layout : Layout) (s : Device) (frames : List GoodFrame) (rest : List Byte) :
    Prop where
  parameters : s.parameters = layout.parameters
  size : s.memory.size = layout.size
  described : layout.Describes s.memory.words
  empty : ∀ index < layout.count, layout.EmptyAt s.memory.words index
  idle : s.hdlcReceiveFrame.state = .idle
  queued : s.tcpReceiveBuffer = (frames.map GoodFrame.wire).flatten ++ rest
  fits : (layout.plan 0 frames).length ≤ layout.count

section Compose

variable {layout : Layout} {before middle after : Nat → Word} {index : Nat}

theorem touchedBy_append {position : Nat} {first second : List Block} :
    TouchedBy layout position index (first ++ second) ↔
      TouchedBy layout position index first ∨
        TouchedBy layout position (index + first.length) second := by
  induction first generalizing index with
  | nil => simp only [List.nil_append, TouchedBy, List.length_nil, Nat.add_zero, false_or]
  | cons block rest ih =>
    simp only [List.cons_append, TouchedBy, ih, List.length_cons, or_assoc,
      Nat.add_assoc, Nat.add_comm 1]

theorem OnlyBlocks.append {first second : List Block}
    (onlyFirst : OnlyBlocks layout before middle index first)
    (onlySecond : OnlyBlocks layout middle after (index + first.length) second) :
    OnlyBlocks layout before after index (first ++ second) := by
  intro position apart
  rw [touchedBy_append, not_or] at apart
  exact (onlySecond position apart.2).trans (onlyFirst position apart.1)

theorem ReceivedBlocks.append {first second : List Block}
    (receivedFirst : ReceivedBlocks layout after index first)
    (receivedSecond : ReceivedBlocks layout after (index + first.length) second) :
    ReceivedBlocks layout after index (first ++ second) := by
  induction first generalizing index with
  | nil => exact receivedSecond
  | cons block rest ih =>
    refine ⟨receivedFirst.1, ih receivedFirst.2 ?_⟩
    rwa [List.length_cons, Nat.add_comm rest.length, ← Nat.add_assoc] at receivedSecond

/-- The mark of an empty block is full. -/
theorem markedKey_full {keyValue : Word} (rxStatus : Byte)
    (empty : keyValue &&& KeyFlag.maskKey = KeyFlag.emptyReceiverBlock) :
    markedKey keyValue rxStatus &&& KeyFlag.maskKey = KeyFlag.fullReceiverBlock := by
  have status : rxStatus.setWidth 16 &&& KeyFlag.maskKey = 0 := by
    ext k inside
    interval_cases k <;> simp [KeyFlag.maskKey]
  have kept : keyValue &&& 0xFF00#16 &&& KeyFlag.maskKey = keyValue &&& KeyFlag.maskKey := by
    rw [BitVec.and_assoc]
    rfl
  have mark : KeyFlag.blockDoneBit &&& KeyFlag.maskKey = KeyFlag.blockDoneBit := rfl
  rw [markedKey, BitVec.and_comm, BitVec.and_or_distrib_left, BitVec.and_or_distrib_left,
    BitVec.and_comm _ KeyFlag.blockDoneBit, BitVec.and_comm _ (rxStatus.setWidth 16),
    BitVec.and_comm _ (keyValue &&& _), status, kept, mark, empty]
  rfl

/-- The blocks of one message stay while later blocks are written. -/
theorem BlocksAt.received {blocks later : List Block}
    (blocksAt : BlocksAt layout before middle index blocks)
    (only : OnlyBlocks layout middle after (index + blocks.length) later)
    (empty : ∀ other, index ≤ other → other < index + blocks.length → layout.EmptyAt before other)
    (inside : index + blocks.length + later.length ≤ layout.count)
    (fits : ∀ block ∈ blocks, layout.Fits block) (laterFits : ∀ block ∈ later, layout.Fits block) :
    ReceivedBlocks layout after index blocks := by
  induction blocks generalizing index with
  | nil => trivial
  | cons block rest ih =>
    rw [List.length_cons] at only empty inside
    have regrouped : index + (rest.length + 1) = index + 1 + rest.length := by omega
    have earlier : index < index + (rest.length + 1) := by omega
    obtain ⟨key, count, bytes⟩ := only.block_kept earlier inside (by omega)
      (fits block List.mem_cons_self) laterFits
    refine ⟨⟨?_, count.trans blocksAt.1.count, ?_⟩, ?_⟩
    · rw [key, blocksAt.1.key]
      exact markedKey_full _ (empty index (Nat.le_refl _) (by omega))
    · intro k within
      rw [bytes k within]
      exact blocksAt.1.bytes k within
    · rw [regrouped] at only inside
      exact ih blocksAt.2 only
        (fun other low high => empty other (by omega) (by omega)) inside
        (fun other member => fits other (List.mem_cons_of_mem block member))

end Compose

section Start

variable {layout : Layout} {s : Device} {frames : List GoodFrame} {rest : List Byte}

theorem Device.commandReceiverStart_memory (s : Device) (pointer : Nat) :
    (s.commandReceiverStart pointer).memory = s.memory := by
  have load (t : Device) : t.loadRxBuffer.memory = t.memory := by
    rw [Device.loadRxBuffer]
    split <;> rfl
  have find (t : Device) : t.findNextReceiveBuffer.1.memory = t.memory := by
    simp only [Device.findNextReceiveBuffer]
    split_ifs
    · rfl
    · exact t.loadNextRxBuffer_memory
    · rw [Device.setRxdmaFlag_memory, t.loadNextRxBuffer_memory]
  simp only [Device.commandReceiverStart, Device.setReceiverState, find]
  split_ifs
  · exact load _
  · exact (load _).trans (load _)

/-- The start command loads the first descriptor. -/
theorem ListReady.waiting (ready : ListReady layout s frames rest) (occupied : 0 < layout.count) :
    Waiting layout s.memory.words (s.commandReceiverStart layout.pointer) 0
      ((frames.map GoodFrame.wire).flatten ++ rest) := by
  have memory : s.memory = ⟨layout.size, s.memory.words⟩ := by rw [← ready.size]
  let started : Device :=
    { s.record .start with rxListPointer := layout.pointer, rxListPointerOffset := 0 }
  have placed : Placed layout s.memory.words started 0 :=
    ⟨memory, rfl, ready.parameters, rfl, ready.described⟩
  obtain ⟨dcb, loaded, filling⟩ := placed.load occupied (ready.empty 0 occupied)
  let control := started.loadRxBuffer.rxTransferControl |||
    (Rtc.enableReceiverDMA ||| Rtc.enableReceiver)
  let status := (started.loadRxBuffer.rxTransferStatus &&&
    ~~~(Rts.receiverOverrun ||| Rts.listEmpty)) ||| Rts.receiverActive
  have found : s.commandReceiverStart layout.pointer =
      (started.loadRxBuffer.putRxTransferControl control).putRxTransferStatus status := by
    have present : started.loadRxBuffer.rxDCB.isSome = true := by rw [filling.loaded]; rfl
    have key : ((started.loadRxBuffer.putRxTransferControl control).putRxTransferStatus
        status).rxKey = KeyFlag.emptyReceiverBlock := filling.rxKey
    change (started.loadRxBuffer.setReceiverState) = _
    rw [Device.setReceiverState]
    simp only [Device.putRxTransferControl_rxTransferStatus, Device.putRxTransferStatus_rxDCB,
      Device.putRxTransferControl_rxDCB, present, if_true]
    rw [Device.findNextReceiveBuffer, if_pos key]
  have line := SameLine.loadRxBuffer started
  rw [found]
  refine ⟨by decide, ⟨dcb, ?_⟩, ?_, ?_, ?_⟩
  · exact
      { memory := filling.memory
        pointer := filling.pointer
        parameters := filling.parameters
        offset := filling.offset
        described := filling.described
        inside := filling.inside
        empty := filling.empty
        loaded := filling.loaded
        bufferAddress := filling.bufferAddress
        listPointer := filling.listPointer
        keyValue := filling.keyValue
        displaced := filling.displaced
        written := filling.written
        reached := filling.reached }
  · exact (congrArg Frame.state line.frame).trans ready.idle
  · exact line.queue.trans ready.queued
  · have bits : control &&& Rtc.enableReceiverDMA = Rtc.enableReceiverDMA := by
      dsimp only [control]
      rw [BitVec.and_comm, BitVec.and_or_distrib_left, BitVec.or_comm]
      ext k inside
      interval_cases k <;> simp [Rtc.enableReceiverDMA, Rtc.enableReceiver]
    change anyBit control Rtc.enableReceiverDMA = true
    rw [anyBit, bits]
    rfl

end Start

section Run

variable {layout : Layout} {words : Nat → Word} {s : Device} {start : Nat}
  {frames : List GoodFrame} {rest : List Byte}

theorem Device.receiveMessages_cons (s : Device) (frame : GoodFrame) (others : List GoodFrame) :
    s.receiveMessages (frame :: others) = s.processBufferedData.receiveMessages others :=
  Function.iterate_succ_apply _ _ _

/-- The messages are stored as planned when each of them gets the displacements of the plan. -/
theorem receiveMessages_stored
    (waiting : frames ≠ [] →
      Waiting layout words s start ((frames.map GoodFrame.wire).flatten ++ rest))
    (memory : s.memory = ⟨layout.size, words⟩)
    (alike : layout.displacement1 = layout.displacement2 ∨ frames = [] ∨
      start = 0 ∧ frames.length ≤ 1)
    (inside : start + (layout.plan start frames).length ≤ layout.count)
    (straight : start + (layout.plan start frames).length ≤ 129)
    (empty : ∀ other, start ≤ other → other < start + (layout.plan start frames).length →
      layout.EmptyAt words other) :
    MessagesBegin layout s start frames ∧
      ReceivedBlocks layout (s.receiveMessages frames).memory.words start
        (layout.plan start frames) ∧
      OnlyBlocks layout words (s.receiveMessages frames).memory.words start
        (layout.plan start frames) := by
  induction frames generalizing s words start with
  | nil =>
    refine ⟨trivial, trivial, fun position _ => ?_⟩
    rw [Device.receiveMessages, List.length_nil, Function.iterate_zero_apply, memory]
  | cons frame others ih =>
    have placed := waiting (List.cons_ne_nil frame others)
    rw [List.map_cons, List.flatten_cons, List.append_assoc] at placed
    have picked : layout.displacement1 = layout.displacement2 ∨ start = 0 := by
      rcases alike with equal | impossible | ⟨zero, _⟩
      · exact .inl equal
      · exact absurd impossible (List.cons_ne_nil frame others)
      · exact .inr zero
    have same := layout.messageBlocks_eq picked frame.data
    have displacement : layout.displacementAt start = layout.displacement1 := by
      rw [Layout.displacementAt]
      rcases picked with equal | zero
      · rw [equal, ite_self]
      · rw [if_pos zero]
    have splitLength : (layout.plan start (frame :: others)).length =
        (layout.blocks start frame.data).length +
          (layout.plan (start + (layout.blocks start frame.data).length) others).length := by
      rw [Layout.plan, List.length_append, same]
    rw [splitLength] at inside straight empty
    obtain ⟨after, stored, blocksAt, only, next⟩ := placed.stores (by omega) (by omega)
      (fun other low high => empty other low (by omega))
    have fits : ∀ block ∈ layout.blocks start frame.data, layout.Fits block :=
      cut_fits start frame.data
    have stillEmpty (other : Nat)
        (low : start + (layout.blocks start frame.data).length ≤ other)
        (high : other < start + (layout.blocks start frame.data).length +
          (layout.plan (start + (layout.blocks start frame.data).length) others).length) :
        layout.EmptyAt after other := by
      rw [Layout.EmptyAt, only.entry_kept (.inr low) (by omega) (by omega) fits]
      exact empty other (by omega) (by omega)
    have nextWaiting : others ≠ [] → Waiting layout after s.processBufferedData
        (start + (layout.blocks start frame.data).length)
        ((others.map GoodFrame.wire).flatten ++ rest) := by
      intro more
      obtain ⟨second, further, rfl⟩ := List.exists_cons_of_ne_nil more
      have occupied : 0 < (layout.plan (start + (layout.blocks start frame.data).length)
          (second :: further)).length := by
        rw [Layout.plan, List.length_append]
        exact Nat.add_pos_left (layout.messageBlocks_pos _ second) _
      exact next (by omega) (by omega) (stillEmpty _ (Nat.le_refl _) (by omega))
    have nextAlike : layout.displacement1 = layout.displacement2 ∨ others = [] ∨
        start + (layout.blocks start frame.data).length = 0 ∧ others.length ≤ 1 := by
      rcases alike with equal | impossible | ⟨_, single⟩
      · exact .inl equal
      · exact absurd impossible (List.cons_ne_nil frame others)
      · refine .inr (.inl (List.eq_nil_of_length_eq_zero ?_))
        rw [List.length_cons] at single
        omega
    obtain ⟨begins, received, onlyOthers⟩ :=
      ih nextWaiting stored nextAlike (by omega) (by omega) stillEmpty
    obtain ⟨word, begun⟩ := placed.begins
    rw [Device.receiveMessages_cons, Layout.plan, same]
    refine ⟨⟨⟨word, ?_⟩, ?_⟩, ?_, only.append onlyOthers⟩
    · rwa [Layout.position, displacement, Nat.add_zero] at begun
    · rw [same]
      exact begins
    · have kept := blocksAt.received onlyOthers (fun other low high => empty other low (by omega))
        (by omega) fits (layout.plan_fits _ others)
      exact kept.append received

end Run

section Limit

variable {layout : Layout} {s : Device}

/-- The list position stays below the limit, so that the entry at the limit is never given back. -/
structure BelowLimit (layout : Layout) (s : Device) : Prop where
  size : s.memory.size = layout.size
  pointer : s.rxListPointer = layout.pointer
  parameters : s.parameters = layout.parameters
  described : layout.Describes s.memory.words
  empty : layout.EmptyAt s.memory.words 129
  progress : ∀ dcb, s.rxDCB = some dcb → dcb.key = KeyFlag.emptyReceiverBlock →
    ∃ index stored, index ≤ 128 ∧ Progress layout index stored dcb

theorem BelowLimit.congr {t : Device} (below : BelowLimit layout s) (memory : t.memory = s.memory)
    (pointer : t.rxListPointer = s.rxListPointer) (parameters : t.parameters = s.parameters)
    (loaded : t.rxDCB = s.rxDCB) : BelowLimit layout t where
  size := memory ▸ below.size
  pointer := pointer.trans below.pointer
  parameters := parameters.trans below.parameters
  described := memory ▸ below.described
  empty := memory ▸ below.empty
  progress := loaded ▸ below.progress

theorem BelowLimit.mark (long : 130 ≤ layout.count) (below : BelowLimit layout s)
    (rxStatus : Byte) : BelowLimit layout (s.markBufferReceived rxStatus) := by
  rcases loaded : s.rxDCB with _ | dcb
  · rw [Device.markBufferReceived, loaded]
    exact below
  by_cases empty : dcb.key = KeyFlag.emptyReceiverBlock
  · obtain ⟨index, stored, low, progress⟩ := below.progress dcb loaded empty
    have memory : s.memory = ⟨layout.size, s.memory.words⟩ := by rw [← below.size]
    have listed := layout.entry_inside (show index < layout.count by omega)
    let next := s.putRxDCB (some (dcb.marked rxStatus))
    have written := layout.rxDmaWrite (show next.memory = _ from memory) (layout.entry index)
      (by omega) (markedKey dcb.keyValue rxStatus)
    have apart : layout.entry 129 ≠ layout.entry index := by
      simp only [Layout.entry]
      omega
    rw [Device.markBufferReceived_eq loaded empty, progress.bufferAddress, written]
    refine ⟨rfl, below.pointer, below.parameters, layout.update_describes below.described _, ?_, ?_⟩
    · change (Function.update s.memory.words _ _) (layout.entry 129) &&& _ = _
      rw [Function.update_of_ne apart]
      exact below.empty
    · intro other found _
      cases found
      exact ⟨index, stored, low,
        ⟨progress.bufferAddress, progress.listPointer, progress.displaced, progress.written,
          progress.reached⟩⟩
  · rw [Device.markBufferReceived, loaded]
    simp only [if_neg empty]
    exact below

theorem BelowLimit.write (long : 130 ≤ layout.count) (below : BelowLimit layout s) {dcb : Dcb}
    (data : Byte) (loaded : s.rxDCB = some dcb)
    (room : dcb.dmaBytesWritten < s.parameters.maxReceiverBlockLength)
    (empty : dcb.key = KeyFlag.emptyReceiverBlock) :
    BelowLimit layout (s.writeNextByteDma data) := by
  obtain ⟨index, stored, low, progress⟩ := below.progress dcb loaded empty
  have memory : s.memory = ⟨layout.size, s.memory.words⟩ := by rw [← below.size]
  have inside : index < layout.count := by omega
  have limit : 129 < layout.count := by omega
  have space : layout.displacementAt index + stored < layout.blockLength := by
    have written := progress.written
    have least := layout.displacementAt_lt index
    rw [below.parameters] at room
    simp only [Layout.parameters] at room
    split_ifs at written <;> omega
  obtain ⟨word, stores⟩ := progress.write_eq memory inside loaded space data
  rw [stores]
  refine ⟨rfl, below.pointer, below.parameters,
    layout.putStored_describes below.described data inside space, ?_, ?_⟩
  · change layout.putStored s.memory.words index stored data (layout.entry 129) &&& _ = _
    rw [layout.putStored_key data inside limit space]
    exact below.empty
  · intro other found _
    cases found
    exact ⟨index, stored + 1, low, progress.advance⟩

theorem BelowLimit.load (long : 130 ≤ layout.count) (below : BelowLimit layout s) {offset : Nat}
    (low : offset ≤ 128) : BelowLimit layout (s.putRxListPointerOffset offset).loadRxBuffer := by
  have memory : s.memory = ⟨layout.size, s.memory.words⟩ := by rw [← below.size]
  have inside : offset < layout.count := by omega
  have placed : Placed layout s.memory.words (s.putRxListPointerOffset offset) offset :=
    ⟨memory, below.pointer, below.parameters, rfl, below.described⟩
  obtain ⟨dcb, keyValue, loaded, fresh⟩ := placed.load_key inside
  rw [loaded]
  refine ⟨below.size, below.pointer, below.parameters, below.described, below.empty, ?_⟩
  intro other found empty
  cases found
  rw [Dcb.key, keyValue] at empty
  exact ⟨offset, 0, low, (fresh empty).toProgress⟩

/-- The list position stays below the limit along every run. -/
theorem BelowLimit.steps (long : 130 ≤ layout.count) :
    ListSteps fun s t => BelowLimit layout s → BelowLimit layout t where
  refl := fun _ below => below
  trans := fun first second below => second (first below)
  report := fun s flag below => below.congr (s.setRxdmaFlag_memory flag)
    (s.setRxdmaFlag_rxListPointer flag) (s.setRxdmaFlag_parameters flag) (s.setRxdmaFlag_rxDCB flag)
  mark := fun _ rxStatus _ below => below.mark long rxStatus
  write := fun _ _ data loaded room empty below => below.write long data loaded room empty
  drop := fun _ below =>
    ⟨below.size, below.pointer, below.parameters, below.described, below.empty,
      fun _ found => absurd found (Option.some_ne_none _).symm⟩
  load := fun _ _ low below => below.load long low

theorem BelowLimit.receiveMessages (long : 130 ≤ layout.count) (below : BelowLimit layout s)
    (frames : List GoodFrame) : BelowLimit layout (s.receiveMessages frames) := by
  induction frames generalizing s with
  | nil => exact below
  | cons frame others ih =>
    rw [Device.receiveMessages_cons]
    apply ih
    apply (BelowLimit.steps long).processBufferedData s _ _ below
    · exact fun _ _ kept => kept.congr rfl rfl rfl rfl
    · exact fun _ _ kept => kept.congr rfl rfl rfl rfl

theorem ReceivedBlocks.full {words : Nat → Word} {blocks : List Block} {start index : Nat}
    (received : ReceivedBlocks layout words start blocks) (low : start ≤ index)
    (high : index < start + blocks.length) :
    words (layout.entry index) &&& KeyFlag.maskKey = KeyFlag.fullReceiverBlock := by
  induction blocks generalizing start with
  | nil => exact absurd high (Nat.not_lt.mpr low)
  | cons block rest ih =>
    rcases Nat.eq_or_lt_of_le low with here | later
    · exact here ▸ received.1.key
    · rw [List.length_cons] at high
      exact ih received.2 later (by omega)

end Limit

section Exact

variable {layout : Layout} {s : Device} {frames : List GoodFrame} {rest : List Byte}

/-- A stored sequence stays below the limit of the list. -/
theorem MessagesStored.short (ready : ListReady layout s frames rest)
    (stored : MessagesStored layout (s.commandReceiverStart layout.pointer) frames) :
    (layout.plan 0 frames).length ≤ 129 := by
  by_contra large
  have fits := ready.fits
  have long : 130 ≤ layout.count := by omega
  obtain ⟨dcb, filling⟩ := (ready.waiting (by omega)).fresh
  have memory := filling.memory
  have below : BelowLimit layout (s.commandReceiverStart layout.pointer) := by
    refine ⟨by rw [memory], filling.pointer, filling.parameters, ?_, ?_, ?_⟩
    · rw [memory]
      exact filling.described
    · rw [memory]
      exact ready.empty 129 (by omega)
    · intro other found _
      rw [filling.loaded] at found
      cases found
      exact ⟨0, 0, Nat.zero_le _, filling.toProgress⟩
  have empty := (below.receiveMessages long frames).empty
  have full := stored.blocks.full (Nat.zero_le 129) (by omega)
  rw [Layout.EmptyAt, full] at empty
  exact absurd empty (by decide)

/-- A second message gets the second displacement. -/
theorem MessagesStored.displaced (ready : ListReady layout s frames rest)
    (stored : MessagesStored layout (s.commandReceiverStart layout.pointer) frames) :
    layout.displacement1 = layout.displacement2 ∨ frames.length ≤ 1 := by
  have short := stored.short ready
  have fits := ready.fits
  have begins := stored.begins
  rcases frames with _ | ⟨first, _ | ⟨second, others⟩⟩
  · exact .inr (Nat.zero_le 1)
  · exact .inr (Nat.le_refl 1)
  left
  have same := layout.messageBlocks_eq (.inr rfl) first.data
  simp only [Layout.plan, List.length_append, same] at short fits
  have occupied := layout.messageBlocks_pos (0 + (layout.blocks 0 first.data).length) second
  have started : 0 < (layout.blocks 0 first.data).length :=
    same ▸ layout.messageBlocks_pos 0 first
  have waiting := ready.waiting (by omega)
  simp only [List.map_cons, List.flatten_cons, List.append_assoc] at waiting
  obtain ⟨after, _, _, only, next⟩ := waiting.stores (by omega) (by omega)
    (fun other _ high => ready.empty other (by omega))
  have nextEmpty : layout.EmptyAt after (0 + (layout.blocks 0 first.data).length) := by
    rw [Layout.EmptyAt, only.entry_kept (.inr (Nat.le_refl _)) (by omega) (by omega)
      (cut_fits 0 first.data)]
    exact ready.empty _ (by omega)
  obtain ⟨word, actual⟩ := (next (by omega) (by omega) nextEmpty).begins
  obtain ⟨_, ⟨planned, expected⟩, _⟩ := begins
  rw [same] at expected
  have positions := List.prefix_of_prefix_length_le expected actual (by simp)
  have equal := positions.eq_of_length (by simp)
  simp only [List.append_cancel_left_eq, List.cons.injEq, Event.write.injEq] at equal
  have counts := congrArg BitVec.toNat equal.2.1.2
  have first1 := layout.displaced1
  have second2 := layout.displaced2
  have limit := layout.short
  rw [Layout.displacementAt, if_neg (by omega), BitVec.toNat_ofNat, BitVec.toNat_ofNat,
    Nat.mod_eq_of_lt (by omega), Nat.mod_eq_of_lt (by omega)] at counts
  omega

end Exact

section Sample

/-- Two empty descriptors have data areas of two words each, and the displacements differ. -/
def twoBlocks : Layout where
  size := 16
  pointer := 4
  count := 2
  displacement1 := 1
  displacement2 := 0
  blockLength := 4
  address := fun index => 12 + 2 * index
  installed := by decide
  present := by decide
  short := by decide
  displaced1 := by decide
  displaced2 := by decide
  listInside := by decide
  areaInside := by decide
  listApart := by decide
  areasApart := by decide

def twoBlocksMemory : CoreMemory where
  size := 16
  words := fun address => [0, 0, 0, 0, 0x0200, 0, 0, 12, 0x0200, 0, 0, 14].getD address 0

/-- The device is initialized and has the messages in its queue. -/
def queuedDevice (layout : Layout) (memory : CoreMemory) (frames : List GoodFrame) : Device where
  memory := memory
  parameters := layout.parameters
  outboundBuffer := []
  txListPointer := 0
  txListPointerOffset := 0
  txDCB := none
  rxListPointer := 0
  rxListPointerOffset := 0
  rxDCB := none
  hdlcReceiveFrame :=
    { state := .idle
      prevByte := 0
      frameBuffer := Vector.replicate maxFrameSize 0
      frameLength := 0
      crc := fcsInit
      frameComplete := false
      crcValid := false }
  dmaSenderState := .stopped
  rxTransferStatus := 0
  rxTransferControl := 0
  txTransferStatus := 0
  txTransferControl := 0
  interruptBits := 0
  tcpReceiveBuffer := (frames.map GoodFrame.wire).flatten
  processTcpBufDelay := 0
  sent := []
  overrun := false
  events := []

theorem twoBlocks_described : twoBlocks.Describes twoBlocksMemory.words := by
  rw [Layout.Describes]
  decide

theorem twoBlocks_empty : ∀ index < twoBlocks.count, twoBlocks.EmptyAt twoBlocksMemory.words index := by
  simp only [Layout.EmptyAt]
  decide

theorem twoBlocks_ready {frames : List GoodFrame} (fits : (twoBlocks.plan 0 frames).length ≤ 2) :
    ListReady twoBlocks (queuedDevice twoBlocks twoBlocksMemory frames) frames [] where
  parameters := rfl
  size := rfl
  described := twoBlocks_described
  empty := twoBlocks_empty
  idle := rfl
  queued := (List.append_nil _).symm
  fits := fits

theorem twoBlocks_flag (start : Nat) :
    (twoBlocks.messageBlocks start (flagPayload.good 0).data).length = 1 := by
  have content : (flagPayload.good 0).data = [flag] := rfl
  have below := twoBlocks.messageDisplacement_lt start start
  have room : [flag].length ≤ twoBlocks.blockLength - twoBlocks.messageDisplacement start start := by
    rw [List.length_singleton]
    omega
  rw [content, Layout.messageBlocks, cut_cons (List.cons_ne_nil _ _) below,
    List.drop_eq_nil_of_le room, cut_nil, List.length_singleton]

end Sample

end Nd100x.Hdlc
