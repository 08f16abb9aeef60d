import Nd100x.Hdlc.ReceiveList

namespace Nd100x.Hdlc

open Nd100x.Library

/-- The bytes of one block start at the displacement. -/
structure Block where
  displacement : Nat
  bytes : List Byte
  deriving DecidableEq, Repr

/-- A message is cut into blocks, and each block is filled before the next one is used. -/
def cut (blockLength : Nat) (displacement : Nat → Nat) (index : Nat) (bytes : List Byte) :
    List Block :=
  if bytes = [] ∨ blockLength ≤ displacement index then []
  else
    ⟨displacement index, bytes.take (blockLength - displacement index)⟩ ::
      cut blockLength displacement (index + 1) (bytes.drop (blockLength - displacement index))
termination_by bytes.length
decreasing_by
  have nonempty : 0 < bytes.length := List.length_pos_of_ne_nil (by tauto)
  rw [List.length_drop]
  omega

namespace Layout

variable (layout : Layout)

/-- The block writes its key, its byte count and its bytes. -/
def Touches (index : Nat) (block : Block) (position : Nat) : Prop :=
  position / 2 = layout.entry index ∨ position / 2 = layout.entry index + 1 ∨
    2 * layout.address index + block.displacement ≤ position ∧
      position < 2 * layout.address index + block.displacement + block.bytes.length

def Fits (block : Block) : Prop :=
  block.displacement + block.bytes.length ≤ layout.blockLength

/-- Different blocks write different bytes. -/
theorem touches_apart {index other position : Nat} {block otherBlock : Block}
    (inside : index < layout.count) (otherInside : other < layout.count) (apart : index ≠ other)
    (fits : layout.Fits block) (otherFits : layout.Fits otherBlock)
    (touches : layout.Touches index block position) :
    ¬ layout.Touches other otherBlock position := by
  have areas := layout.areasApart index inside other otherInside apart
  have listed := layout.listApart index inside
  have otherListed := layout.listApart other otherInside
  simp only [Fits] at fits otherFits
  simp only [Touches, entry] at touches ⊢
  omega

end Layout

/-- The memory holds the block with its status, its byte count and its bytes. -/
structure BlockAt (layout : Layout) (before after : Nat → Word) (index : Nat) (block : Block)
    (rxStatus : Byte) : Prop where
  key : after (layout.entry index) = markedKey (before (layout.entry index)) rxStatus
  count : after (layout.entry index + 1) =
    BitVec.ofNat 16 (block.displacement + block.bytes.length)
  bytes : ∀ k (inside : k < block.bytes.length),
    byteAt after (2 * layout.address index + block.displacement + k) = block.bytes[k]

/-- The last block ends the message, and every block starts it. -/
def lastStatus (rest : List Block) : Byte := if rest = [] then 0x03 else 0x01

def BlocksAt (layout : Layout) (before after : Nat → Word) : Nat → List Block → Prop
  | _, [] => True
  | index, block :: rest =>
    BlockAt layout before after index block (lastStatus rest) ∧
      BlocksAt layout before after (index + 1) rest

def TouchedBy (layout : Layout) (position : Nat) : Nat → List Block → Prop
  | _, [] => False
  | index, block :: rest =>
    layout.Touches index block position ∨ TouchedBy layout position (index + 1) rest

/-- Only the blocks are written. -/
def OnlyBlocks (layout : Layout) (before after : Nat → Word) (index : Nat)
    (blocks : List Block) : Prop :=
  ∀ position, ¬ TouchedBy layout position index blocks →
    byteAt after position = byteAt before position

section Fill

variable {layout : Layout} {words : Nat → Word} {s : Device} {index stored : Nat} {dcb : Dcb}

/-- The bytes of a chunk are in the data area, and the byte count covers them. -/
structure Filled (layout : Layout) (before after : Nat → Word) (index stored : Nat)
    (chunk : List Byte) : Prop where
  count : after (layout.entry index + 1) =
    if chunk = [] then before (layout.entry index + 1)
    else BitVec.ofNat 16 (layout.displacementAt index + stored + chunk.length)
  bytes : ∀ k (inside : k < chunk.length),
    byteAt after (layout.position index stored + k) = chunk[k]
  others : ∀ position, position / 2 ≠ layout.entry index + 1 →
    (position < layout.position index stored ∨
      layout.position index stored + chunk.length ≤ position) →
    byteAt after position = byteAt before position

theorem Device.storeByte_room (filling : Filling layout words s index stored dcb)
    (room : layout.displacementAt index + stored < layout.blockLength) (tries : Nat) (data : Byte) :
    s.storeByte (tries + 1) data = (s.writeNextByteDma data, true) := by
  have written := filling.written
  have space : ¬ s.parameters.maxReceiverBlockLength ≤ dcb.dmaBytesWritten := by
    rw [filling.parameters, written]
    simp only [Layout.parameters]
    split_ifs <;> omega
  have key : dcb.key = KeyFlag.emptyReceiverBlock := by
    rw [Dcb.key, filling.keyValue]
    exact filling.empty
  have received : s.receiveDataBufferByte data = (s.writeNextByteDma data, .ok) := by
    simp only [Device.receiveDataBufferByte, filling.loaded, if_neg space, if_pos key]
  simp only [Device.storeByte, received]

theorem Filled.nil (layout : Layout) (words : Nat → Word) (index stored : Nat) :
    Filled layout words words index stored [] where
  count := rfl
  bytes := fun k inside => absurd inside (Nat.not_lt_zero k)
  others := fun _ _ _ => rfl

/-- The data area holds no word of the list. -/
theorem Layout.position_apart {other : Nat} (inside : index < layout.count)
    (otherInside : other < layout.count)
    (room : layout.displacementAt index + stored < layout.blockLength) :
    layout.position index stored / 2 < layout.entry other ∨
      layout.entry other + 3 < layout.position index stored / 2 := by
  apply layout.entry_apart otherInside inside
  · simp only [Layout.position]
    omega
  · simp only [Layout.position]
    omega

theorem Filled.cons {after : Nat → Word} {data : Byte} {rest : List Byte}
    (inside : index < layout.count)
    (room : layout.displacementAt index + stored < layout.blockLength)
    (filled : Filled layout (layout.putStored words index stored data) after index (stored + 1) rest) :
    Filled layout words after index stored (data :: rest) := by
  have apart := layout.position_apart inside inside room
  have next : layout.position index (stored + 1) = layout.position index stored + 1 := by
    simp only [Layout.position]
    omega
  refine ⟨?_, ?_, ?_⟩
  · rw [filled.count, if_neg (List.cons_ne_nil data rest)]
    by_cases last : rest = []
    · rw [if_pos last, last, Layout.putStored, Function.update_self]
      rfl
    · rw [if_neg last, List.length_cons]
      congr 1
      omega
  · intro k within
    cases k with
    | zero =>
      have kept := filled.others (layout.position index stored) (by omega) (by omega)
      rw [Nat.add_zero, kept, Layout.putStored, byteAt_update_other _ _ (by omega),
        byteAt_putByte_same]
      rfl
    | succ k =>
      have found := filled.bytes k (by simpa using within)
      have regrouped : layout.position index stored + (k + 1) =
          layout.position index (stored + 1) + k := by omega
      rw [regrouped, found]
      rfl
  · intro position notCount outside
    rw [List.length_cons] at outside
    rw [filled.others position notCount (by omega), Layout.putStored,
      byteAt_update_other _ _ notCount, byteAt_putByte_other _ _ (by omega)]

def Event.IsWrite (event : Event) : Prop := ∃ address data, event = .write address data

/-- A chunk that fits is stored byte by byte, and nothing else happens. -/
theorem Device.storeBytes_chunk (filling : Filling layout words s index stored dcb)
    (chunk : List Byte)
    (room : layout.displacementAt index + stored + chunk.length ≤ layout.blockLength) :
    ∃ t after next, s.storeBytes chunk = (t, true) ∧
      Filling layout after t index (stored + chunk.length) next ∧
      Filled layout words after index stored chunk ∧ Grows Event.IsWrite s t := by
  induction chunk generalizing s words stored dcb with
  | nil => exact ⟨s, words, dcb, rfl, filling, Filled.nil layout words index stored, .of_same rfl⟩
  | cons data rest ih =>
    rw [List.length_cons] at room
    have space : layout.displacementAt index + stored < layout.blockLength := by omega
    obtain ⟨next, moved⟩ := filling.write space data
    obtain ⟨t, after, last, stores, final, filled, grown⟩ := ih moved (by omega)
    have written : Grows Event.IsWrite s (s.writeNextByteDma data) :=
      .writeNextByteDma s data fun address word => ⟨address, word, rfl⟩
    refine ⟨t, after, last, ?_, ?_, filled.cons filling.inside space, written.trans grown⟩
    · rw [Device.storeBytes, maxTries, Device.storeByte_room filling space]
      exact stores
    · rw [List.length_cons, ← Nat.add_assoc, Nat.add_right_comm]
      exact final

/-- A full block is given back and is no longer loaded. -/
def Device.closeBlock (s : Device) : Device :=
  ((s.markBufferReceived 0x01).setRxdmaFlag (Rts.blockEnd ||| Rts.receiverActive |||
    Rts.syncFlagReceived ||| Rts.dataAvailable)).putRxDCB none

theorem Filling.refuses (filling : Filling layout words s index stored dcb)
    (full : layout.displacementAt index + stored = layout.blockLength) (data : Byte) :
    s.receiveDataBufferByte data = (s.closeBlock, .bufferFull) := by
  have below := layout.displacementAt_lt index
  have occupied : stored ≠ 0 := by omega
  have reachedLimit : s.parameters.maxReceiverBlockLength ≤ dcb.dmaBytesWritten := by
    rw [filling.parameters, filling.written, if_neg occupied, full]
    exact Nat.le_refl _
  simp only [Device.receiveDataBufferByte, filling.loaded, if_pos reachedLimit]
  rfl

/-- A byte that meets a full block goes to the next one. -/
theorem Device.storeByte_full (filling : Filling layout words s index stored dcb)
    (full : layout.displacementAt index + stored = layout.blockLength)
    (inside : index + 1 < layout.count) (straight : index < 128)
    (empty : layout.EmptyAt words (index + 1)) (tries : Nat) (data : Byte) :
    ∃ t next, s.storeByte (tries + 1) data = t.storeByte tries data ∧
      Filling layout (layout.putMarked words index 0x01) t (index + 1) 0 next := by
  have received := filling.refuses full data
  have marked := filling.mark 0x01
  have placed : Placed layout (layout.putMarked words index 0x01) s.closeBlock index :=
    ⟨(Device.setRxdmaFlag_memory _ _).trans marked.memory,
      (Device.setRxdmaFlag_rxListPointer _ _).trans marked.pointer,
      (Device.setRxdmaFlag_parameters _ _).trans marked.parameters,
      (Device.setRxdmaFlag_rxListPointerOffset _ _).trans marked.offset, marked.described⟩
  obtain ⟨next, loaded, fresh⟩ := placed.loadNext inside straight
    (layout.putMarked_empty 0x01 (by omega) empty)
  have missing : s.closeBlock.rxKey ≠ KeyFlag.emptyReceiverBlock := by
    change (0 : Word) ≠ KeyFlag.emptyReceiverBlock
    decide
  have found : s.closeBlock.findNextReceiveBuffer = (s.closeBlock.loadNextRxBuffer.1, true) := by
    rw [Device.findNextReceiveBuffer, if_neg missing, loaded]
    rfl
  refine ⟨s.closeBlock.loadNextRxBuffer.1, next, ?_, fresh⟩
  simp only [Device.storeByte, received, found]

/-- The bytes after a full block are stored from the next block on. -/
theorem Device.storeBytes_full (filling : Filling layout words s index stored dcb)
    (full : layout.displacementAt index + stored = layout.blockLength)
    (inside : index + 1 < layout.count) (straight : index < 128)
    (empty : layout.EmptyAt words (index + 1)) {data : List Byte} (more : data ≠ []) :
    ∃ t next, s.storeBytes data = t.storeBytes data ∧
      Filling layout (layout.putMarked words index 0x01) t (index + 1) 0 next := by
  obtain ⟨first, rest, rfl⟩ := List.exists_cons_of_ne_nil more
  obtain ⟨t, next, retried, fresh⟩ :=
    Device.storeByte_full filling full inside straight empty 130 first
  have room : layout.displacementAt (index + 1) + 0 < layout.blockLength :=
    layout.displacementAt_lt (index + 1)
  refine ⟨t, next, ?_, fresh⟩
  rw [Device.storeBytes, Device.storeBytes, maxTries, retried,
    Device.storeByte_room fresh room 129, Device.storeByte_room fresh room 130]

theorem Device.storeBytes_append {t : Device} {first : List Byte} (second : List Byte)
    (stores : s.storeBytes first = (t, true)) :
    s.storeBytes (first ++ second) = t.storeBytes second := by
  induction first generalizing s with
  | nil =>
    cases stores
    rfl
  | cons data rest ih =>
    rw [Device.storeBytes] at stores
    rw [List.cons_append, Device.storeBytes]
    split at stores
    · next moved _ =>
        rw [ih stores]
    · cases stores

end Fill

section Cut

variable {blockLength : Nat} {displacement : Nat → Nat}

theorem cut_nil (index : Nat) : cut blockLength displacement index [] = [] := by
  rw [cut, if_pos (.inl rfl)]

theorem cut_cons {index : Nat} {bytes : List Byte} (nonempty : bytes ≠ [])
    (below : displacement index < blockLength) :
    cut blockLength displacement index bytes =
      ⟨displacement index, bytes.take (blockLength - displacement index)⟩ ::
        cut blockLength displacement (index + 1) (bytes.drop (blockLength - displacement index)) := by
  have refused : ¬ (bytes = [] ∨ blockLength ≤ displacement index) := by
    rintro (empty | large)
    · exact nonempty empty
    · omega
  rw [cut, if_neg refused]

/-- Every block fits its data area. -/
theorem cut_fits (index : Nat) (bytes : List Byte) :
    ∀ block ∈ cut blockLength displacement index bytes,
      block.displacement + block.bytes.length ≤ blockLength := by
  induction index, bytes using cut.induct blockLength displacement with
  | case1 index bytes stop =>
    rw [cut, if_pos stop]
    exact fun block member => absurd member List.not_mem_nil
  | case2 index bytes going ih =>
    rw [cut, if_neg going]
    intro block member
    rcases List.mem_cons.mp member with rfl | later
    · have short := List.length_take_le (blockLength - displacement index) bytes
      dsimp only
      omega
    · exact ih block later

end Cut

section Compose

variable {layout : Layout} {before middle after : Nat → Word} {index : Nat}

theorem touchedBy_apart {start position : Nat} {block : Block} {blocks : List Block}
    (apart : index < start ∨ start + blocks.length ≤ index)
    (inside : start + blocks.length ≤ layout.count) (startInside : index < layout.count)
    (fits : layout.Fits block) (others : ∀ other ∈ blocks, layout.Fits other)
    (touches : layout.Touches index block position) : ¬ TouchedBy layout position start blocks := by
  induction blocks generalizing start with
  | nil => exact id
  | cons first rest ih =>
    rw [List.length_cons] at inside apart
    rintro (here | later)
    · exact layout.touches_apart startInside (by omega) (by omega) fits
        (others first List.mem_cons_self) touches here
    · exact ih (by omega) (by omega)
        (fun other member => others other (List.mem_cons_of_mem first member)) later

/-- The key and the byte count of every other entry are kept. -/
theorem OnlyBlocks.entry_kept {blocks : List Block} {other : Nat}
    (only : OnlyBlocks layout before after index blocks)
    (apart : other < index ∨ index + blocks.length ≤ other)
    (inside : index + blocks.length ≤ layout.count) (otherInside : other < layout.count)
    (fits : ∀ block ∈ blocks, layout.Fits block) :
    after (layout.entry other) = before (layout.entry other) := by
  have nothing : layout.Fits ⟨0, []⟩ := Nat.zero_le _
  have kept (position : Nat) (own : position / 2 = layout.entry other) :
      byteAt after position = byteAt before position :=
    only position (touchedBy_apart apart inside otherInside nothing fits (.inl own))
  exact word_eq_of_byteAt (kept _ (by omega)) (kept _ (by omega))

/-- A block is kept when only later blocks are written. -/
theorem OnlyBlocks.block_kept {block : Block} {start : Nat} {blocks : List Block}
    (only : OnlyBlocks layout middle after start blocks) (earlier : index < start)
    (inside : start + blocks.length ≤ layout.count) (indexInside : index < layout.count)
    (fits : layout.Fits block) (others : ∀ other ∈ blocks, layout.Fits other) :
    after (layout.entry index) = middle (layout.entry index) ∧
      after (layout.entry index + 1) = middle (layout.entry index + 1) ∧
      ∀ k < block.bytes.length, byteAt after (2 * layout.address index + block.displacement + k) =
        byteAt middle (2 * layout.address index + block.displacement + k) := by
  have kept (position : Nat) (touches : layout.Touches index block position) :
      byteAt after position = byteAt middle position :=
    only position (touchedBy_apart (.inl earlier) inside indexInside fits others touches)
  have word (address : Nat) (own : address = layout.entry index ∨ address = layout.entry index + 1) :
      after address = middle address := by
    apply word_eq_of_byteAt
    · apply kept
      have half : 2 * address / 2 = address := by omega
      rw [Layout.Touches, half]
      tauto
    · apply kept
      have half : (2 * address + 1) / 2 = address := by omega
      rw [Layout.Touches, half]
      tauto
  refine ⟨word _ (.inl rfl), word _ (.inr rfl), ?_⟩
  intro k within
  exact kept _ (.inr (.inr (by omega)))

/-- A block that is no longer written stays as it is. -/
theorem BlockAt.kept {block : Block} {rxStatus : Byte} {blocks : List Block}
    (placed : BlockAt layout before middle index block rxStatus)
    (only : OnlyBlocks layout middle after (index + 1) blocks)
    (inside : index + 1 + blocks.length ≤ layout.count) (fits : layout.Fits block)
    (others : ∀ other ∈ blocks, layout.Fits other) :
    BlockAt layout before after index block rxStatus := by
  obtain ⟨key, count, bytes⟩ :=
    only.block_kept (Nat.lt_succ_self index) inside (by omega) fits others
  refine ⟨key.trans placed.key, count.trans placed.count, ?_⟩
  intro k within
  rw [bytes k within]
  exact placed.bytes k within

/-- The blocks only depend on the keys that were there before. -/
theorem BlocksAt.congr {blocks : List Block} (blocksAt : BlocksAt layout middle after index blocks)
    (keys : ∀ other, index ≤ other → other < index + blocks.length →
      middle (layout.entry other) = before (layout.entry other)) :
    BlocksAt layout before after index blocks := by
  induction blocks generalizing index with
  | nil => trivial
  | cons block rest ih =>
    rw [List.length_cons] at keys
    obtain ⟨first, others⟩ := blocksAt
    refine ⟨⟨?_, first.count, first.bytes⟩, ih others ?_⟩
    · rw [first.key, keys index (by omega) (by omega)]
    · exact fun other low high => keys other (by omega) (by omega)

/-- The key word is not part of a data area. -/
theorem Filled.key_kept {stored : Nat} {chunk : List Byte} (inside : index < layout.count)
    (room : layout.displacementAt index + stored + chunk.length ≤ layout.blockLength)
    (filled : Filled layout before middle index stored chunk) :
    middle (layout.entry index) = before (layout.entry index) := by
  have listed := layout.listApart index inside
  have entries : layout.pointer ≤ layout.entry index ∧
      layout.entry index + 3 < layout.pointer + 4 * layout.count := by
    simp only [Layout.entry]
    omega
  have position : layout.position index stored =
      2 * layout.address index + (layout.displacementAt index + stored) := rfl
  apply word_eq_of_byteAt
  · exact filled.others _ (by omega) (by omega)
  · exact filled.others _ (by omega) (by omega)

/-- A filled and marked block is in memory, and nothing else is written. -/
theorem Filled.marked {chunk : List Byte} (inside : index < layout.count) (nonempty : chunk ≠ [])
    (fits : layout.Fits ⟨layout.displacementAt index, chunk⟩)
    (filled : Filled layout before middle index 0 chunk) (rxStatus : Byte) :
    BlockAt layout before (layout.putMarked middle index rxStatus) index
        ⟨layout.displacementAt index, chunk⟩ rxStatus ∧
      OnlyBlocks layout before (layout.putMarked middle index rxStatus) index
        [⟨layout.displacementAt index, chunk⟩] := by
  have origin : layout.position index 0 =
      2 * layout.address index + layout.displacementAt index := by
    simp only [Layout.position]
    omega
  have listed := layout.listApart index inside
  simp only [Layout.Fits] at fits
  have entries : layout.pointer ≤ layout.entry index ∧
      layout.entry index + 3 < layout.pointer + 4 * layout.count := by
    simp only [Layout.entry]
    omega
  refine ⟨⟨?_, ?_, ?_⟩, ?_⟩
  · rw [Layout.putMarked, Function.update_self, filled.key_kept inside fits]
  · rw [Layout.putMarked, Function.update_of_ne (by omega), filled.count, if_neg nonempty]
    rfl
  · intro k within
    have stored := filled.bytes k within
    dsimp only at within ⊢
    rw [Layout.putMarked, byteAt_update_other _ _ (by omega), ← origin, stored]
  · intro position apart
    simp only [TouchedBy, Layout.Touches, or_false, not_or] at apart
    rw [Layout.putMarked, byteAt_update_other _ _ apart.1]
    exact filled.others position apart.2.1 (by omega)

theorem OnlyBlocks.cons {block : Block} {blocks : List Block}
    (first : OnlyBlocks layout before middle index [block])
    (rest : OnlyBlocks layout middle after (index + 1) blocks) :
    OnlyBlocks layout before after index (block :: blocks) := by
  intro position apart
  simp only [TouchedBy, not_or] at apart
  rw [rest position apart.2]
  exact first position (by simpa only [TouchedBy, or_false] using apart.1)

end Compose

/-- A message is stored in consecutive blocks. The last of them is loaded and not yet marked. -/
theorem Device.storeBytes_cut {layout : Layout} {words : Nat → Word} {s : Device} {index : Nat}
    {dcb : Dcb} (filling : Filling layout words s index 0 dcb) {data : List Byte}
    (nonempty : data ≠ [])
    (inside : index + (cut layout.blockLength layout.displacementAt index data).length ≤
      layout.count)
    (straight : index + (cut layout.blockLength layout.displacementAt index data).length ≤ 129)
    (empty : ∀ other, index ≤ other →
      other < index + (cut layout.blockLength layout.displacementAt index data).length →
      layout.EmptyAt words other) :
    ∃ t after, s.storeBytes data = (t, true) ∧ t.rxKey = KeyFlag.emptyReceiverBlock ∧
      Placed layout after (t.markBufferReceived 0x03)
        (index + (cut layout.blockLength layout.displacementAt index data).length - 1) ∧
      BlocksAt layout words after index (cut layout.blockLength layout.displacementAt index data) ∧
      OnlyBlocks layout words after index
        (cut layout.blockLength layout.displacementAt index data) := by
  induction length : data.length using Nat.strong_induction_on generalizing s words index dcb data with
  | _ n ih =>
    have below := layout.displacementAt_lt index
    have pieces := cut_cons nonempty below
    have fits : ∀ block ∈ cut layout.blockLength layout.displacementAt index data,
        layout.Fits block := cut_fits index data
    generalize space : layout.blockLength - layout.displacementAt index = room at pieces
    generalize others : cut layout.blockLength layout.displacementAt (index + 1)
      (data.drop room) = rest at pieces
    rw [pieces] at inside straight empty fits ⊢
    rw [List.length_cons] at inside straight empty ⊢
    have chunkShort : (data.take room).length ≤ room := List.length_take_le room data
    have positive : 0 < data.length := List.length_pos_of_ne_nil nonempty
    have chunkNonempty : data.take room ≠ [] := by
      intro none
      have gone := congrArg List.length none
      rw [List.length_take, List.length_nil] at gone
      omega
    obtain ⟨full, middle, next, stores, filled, written, _⟩ :=
      Device.storeBytes_chunk filling (data.take room) (by omega)
    rw [Nat.zero_add] at filled
    have chunkFits := fits _ List.mem_cons_self
    have joined := List.take_append_drop room data
    by_cases last : data.drop room = []
    · rw [last, List.append_nil] at joined
      rw [last, cut_nil] at others
      subst others
      obtain ⟨blockAt, only⟩ := written.marked filling.inside chunkNonempty chunkFits 0x03
      refine ⟨full, layout.putMarked middle index 0x03, ?_, filled.rxKey, filled.mark 0x03,
        ⟨blockAt, trivial⟩, only⟩
      rw [joined] at stores
      exact stores
    · have more := cut_cons last (layout.displacementAt_lt (index + 1))
      have occupied : 0 < rest.length := by
        rw [← others, more]
        exact Nat.succ_pos _
      have dropped : (data.drop room).length < n := by
        rw [List.length_drop]
        omega
      have chunkFull : (data.take room).length = room := by
        have remaining : 0 < (data.drop room).length := List.length_pos_of_ne_nil last
        rw [List.length_drop] at remaining
        rw [List.length_take]
        omega
      obtain ⟨blockAt, only⟩ := written.marked filling.inside chunkNonempty chunkFits 0x01
      have kept (other : Nat) (low : index < other) (high : other < index + (rest.length + 1)) :
          layout.putMarked middle index 0x01 (layout.entry other) = words (layout.entry other) := by
        have alone : ∀ block ∈ [(⟨layout.displacementAt index, data.take room⟩ : Block)],
            layout.Fits block := by
          intro block member
          rw [List.mem_singleton.mp member]
          exact chunkFits
        exact only.entry_kept (.inr low) (by rw [List.length_singleton]; omega) (by omega) alone
      have stillEmpty (other : Nat) (low : index + 1 ≤ other)
          (high : other < index + 1 + rest.length) :
          layout.EmptyAt (layout.putMarked middle index 0x01) other := by
        rw [Layout.EmptyAt, kept other (by omega) (by omega)]
        exact empty other (by omega) (by omega)
      have nextEmpty : layout.EmptyAt middle (index + 1) := by
        have unmarked : layout.entry (index + 1) ≠ layout.entry index := by
          simp only [Layout.entry]
          omega
        have still := stillEmpty (index + 1) (Nat.le_refl _) (by omega)
        rwa [Layout.EmptyAt, Layout.putMarked, Function.update_of_ne unmarked] at still
      obtain ⟨fresh, freshDcb, moved, freshFilling⟩ :=
        Device.storeBytes_full filled (by omega) (by omega) (by omega) nextEmpty last
      obtain ⟨t, after, storesRest, key, placed, blocksAt, onlyRest⟩ :=
        ih (data.drop room).length dropped freshFilling last
          (by rw [others]; omega) (by rw [others]; omega) (by rw [others]; exact stillEmpty) rfl
      rw [others] at placed blocksAt onlyRest
      have otherFits : ∀ other ∈ rest, layout.Fits other :=
        fun other member => fits other (List.mem_cons_of_mem _ member)
      have position : index + 1 + rest.length - 1 = index + (rest.length + 1) - 1 := by omega
      refine ⟨t, after, ?_, key, position ▸ placed, ⟨?_, ?_⟩, only.cons onlyRest⟩
      · rw [← joined, Device.storeBytes_append _ stores, moved]
        exact storesRest
      · have status : lastStatus rest = 0x01 := by
          rw [lastStatus, if_neg (List.ne_nil_of_length_pos occupied)]
        rw [status]
        exact blockAt.kept onlyRest (by omega) chunkFits otherFits
      · exact blocksAt.congr fun other low high => kept other (by omega) (by omega)

end Nd100x.Hdlc
