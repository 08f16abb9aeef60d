import Nd100x.Hdlc.Transmitter
import Nd100x.Hdlc.MessageMarks

namespace Nd100x.Hdlc

open Nd100x.Library

/-- A block has given some bytes after its displacement. The high half of a word has left its low
half for the next byte. -/
structure Reading (words : Nat → Word) (address displacement taken : Nat) (dcb : Dcb) : Prop where
  displaced : dcb.displacement.toNat = displacement
  read : dcb.dmaBytesRead = if taken = 0 then 0 else displacement + taken
  reached : dcb.dmaAddress = address + if taken = 0 then 0 else (displacement + taken) / 2
  fresh : taken = 0 → dcb.dmaReadData = none
  cached : taken ≠ 0 → (displacement + taken) % 2 = 1 →
    dcb.dmaReadData = some (words (address + (displacement + taken) / 2))

section Read

variable {words : Nat → Word} {address displacement taken size : Nat} {dcb : Dcb}

theorem lowHalf (word : Word) : (word &&& 0x00FF#16).setWidth 8 = word.setWidth 8 := by
  ext k inside
  interval_cases k <;> simp

theorem Reading.skipped (reading : Reading words address displacement taken dcb) :
    dcb.skipRead.dmaBytesRead = displacement + taken ∧
      dcb.skipRead.dmaAddress = address + (displacement + taken) / 2 ∧
      dcb.skipRead.dmaReadData = dcb.dmaReadData ∧
      dcb.skipRead.displacement = dcb.displacement := by
  have read := reading.read
  have reached := reading.reached
  have displaced := reading.displaced
  by_cases fresh : taken = 0
  · rw [if_pos fresh] at read reached
    by_cases shift : 0 < displacement
    · rw [Dcb.skipRead, if_pos ⟨read, displaced ▸ shift⟩]
      simp only [read, reached, displaced, fresh, and_self, and_true]
      omega
    · rw [Dcb.skipRead, if_neg (by omega), read, reached]
      refine ⟨?_, ?_, rfl, rfl⟩ <;> omega
  · rw [if_neg fresh] at read reached
    rw [Dcb.skipRead, if_neg (by omega)]
    exact ⟨read, reached, rfl, rfl⟩

theorem Dcb.readNextByteDma_kept (dcb : Dcb) (memory : CoreMemory) :
    (dcb.readNextByteDma memory).1.bufferAddress = dcb.bufferAddress ∧
      (dcb.readNextByteDma memory).1.keyValue = dcb.keyValue := by
  have skipped : dcb.skipRead.bufferAddress = dcb.bufferAddress ∧
      dcb.skipRead.keyValue = dcb.keyValue := by
    rw [Dcb.skipRead]
    split_ifs <;> exact ⟨rfl, rfl⟩
  simp only [Dcb.readNextByteDma]
  split_ifs <;> exact skipped

/-- The next byte of the memory is read. -/
theorem Reading.next (reading : Reading words address displacement taken dcb)
    (small : size ≤ 2 ^ 24) (inside : 2 * address + displacement + taken < 2 * size) :
    (dcb.readNextByteDma ⟨size, words⟩).2 = byteAt words (2 * address + displacement + taken) ∧
      Reading words address displacement (taken + 1) (dcb.readNextByteDma ⟨size, words⟩).1 := by
  obtain ⟨read, reached, data, kept⟩ := reading.skipped
  have displaced := reading.displaced
  have half : (2 * address + displacement + taken) / 2 = address + (displacement + taken) / 2 := by
    omega
  have parity : (2 * address + displacement + taken) % 2 = (displacement + taken) % 2 := by omega
  have loaded : CoreMemory.dmaRead ⟨size, words⟩ dcb.skipRead.dmaAddress =
      words (address + (displacement + taken) / 2) := by
    rw [reached]
    exact CoreMemory.dmaRead_installed small (by dsimp only; omega)
  have known : dcb.skipRead.dmaReadData.getD
        (CoreMemory.dmaRead ⟨size, words⟩ dcb.skipRead.dmaAddress) =
      words (address + (displacement + taken) / 2) ∨ (displacement + taken) % 2 = 0 := by
    rw [data, loaded]
    by_cases fresh : taken = 0
    · rw [reading.fresh fresh]
      exact .inl rfl
    · rcases Nat.mod_two_eq_zero_or_one (displacement + taken) with even | odd
      · exact .inr even
      · rw [reading.cached fresh odd]
        exact .inl rfl
  have nonzero := Nat.succ_ne_zero taken
  rw [byteAt, half, parity]
  by_cases even : (displacement + taken) % 2 = 0
  · have step : dcb.readNextByteDma ⟨size, words⟩ =
        ({ dcb.skipRead with
            dmaReadData := some (words (address + (displacement + taken) / 2))
            dmaBytesRead := displacement + taken + 1 },
          (words (address + (displacement + taken) / 2) >>> 8).setWidth 8) := by
      simp only [Dcb.readNextByteDma, read, if_pos even, loaded]
    have same : (displacement + (taken + 1)) / 2 = (displacement + taken) / 2 := by omega
    rw [step, if_pos even]
    refine ⟨rfl, (congrArg BitVec.toNat kept).trans displaced, ?_, ?_,
      fun zero => absurd zero nonzero, ?_⟩
    · rw [if_neg nonzero]
      rfl
    · rw [if_neg nonzero, same]
      exact reached
    · intro _ _
      rw [same]
  · have odd := known.resolve_right even
    have step : dcb.readNextByteDma ⟨size, words⟩ =
        ({ dcb.skipRead with
            dmaReadData := some (words (address + (displacement + taken) / 2))
            dmaAddress := dcb.skipRead.dmaAddress + 1
            dmaBytesRead := displacement + taken + 1 },
          (words (address + (displacement + taken) / 2) &&& 0x00FF#16).setWidth 8) := by
      simp only [Dcb.readNextByteDma, read, if_neg even, odd]
    have later : (displacement + (taken + 1)) / 2 = (displacement + taken) / 2 + 1 := by omega
    rw [step, if_neg even]
    refine ⟨lowHalf _, (congrArg BitVec.toNat kept).trans displaced, ?_, ?_,
      fun zero => absurd zero nonzero, ?_⟩
    · rw [if_neg nonzero]
      rfl
    · rw [if_neg nonzero, later]
      exact congrArg (· + 1) reached
    · intro _ stillOdd
      omega

/-- The bytes lie in the memory from a position on. -/
def BytesAt (words : Nat → Word) (position : Nat) (bytes : List Byte) : Prop :=
  ∀ k (inside : k < bytes.length), byteAt words (position + k) = bytes[k]

theorem Dcb.readBlock_done {bytesToSend : Nat} (done : bytesToSend ≤ dcb.dmaBytesRead)
    (memory : CoreMemory) (outbound : List Byte) :
    dcb.readBlock memory bytesToSend outbound = (dcb, outbound) := by
  rw [Dcb.readBlock, if_neg (Nat.not_lt.mpr done)]

/-- One more byte of the block enters the outbound buffer. -/
theorem Reading.readBlock_next (reading : Reading words address displacement taken dcb)
    (small : size ≤ 2 ^ 24) {bytes outbound : List Byte} {bytesToSend : Nat}
    (content : BytesAt words (2 * address + displacement) bytes) (more : taken < bytes.length)
    (inside : 2 * address + displacement + bytes.length ≤ 2 * size)
    (room : outbound.length < outboundBufferCapacity) (going : dcb.dmaBytesRead < bytesToSend) :
    dcb.readBlock ⟨size, words⟩ bytesToSend outbound =
      (dcb.readNextByteDma ⟨size, words⟩).1.readBlock ⟨size, words⟩ bytesToSend
        (outbound ++ [bytes[taken]]) := by
  have byte := (reading.next small (by omega)).1
  rw [content taken more] at byte
  rw [Dcb.readBlock, if_pos going, if_pos room, byte]

/-- The rest of a block is read. -/
theorem Reading.readBlock_rest (reading : Reading words address displacement taken dcb)
    (small : size ≤ 2 ^ 24) {bytes outbound : List Byte}
    (content : BytesAt words (2 * address + displacement) bytes) (nonempty : bytes ≠ [])
    (started : taken ≤ bytes.length)
    (inside : 2 * address + displacement + bytes.length ≤ 2 * size)
    (room : outbound.length + (bytes.length - taken) ≤ outboundBufferCapacity) :
    ∃ next, dcb.readBlock ⟨size, words⟩ (displacement + bytes.length) outbound =
        (next, outbound ++ bytes.drop taken) ∧
      next.bufferAddress = dcb.bufferAddress ∧ next.keyValue = dcb.keyValue := by
  have positive : 0 < bytes.length := List.length_pos_of_ne_nil nonempty
  induction remaining : bytes.length - taken generalizing dcb taken outbound with
  | zero =>
    have all : taken = bytes.length := by omega
    have read := reading.read
    rw [if_neg (by omega)] at read
    refine ⟨dcb, ?_, rfl, rfl⟩
    rw [Dcb.readBlock_done (by omega), all, List.drop_length, List.append_nil]
  | succ count ih =>
    have more : taken < bytes.length := by omega
    have going : dcb.dmaBytesRead < displacement + bytes.length := by
      rw [reading.read]
      split_ifs <;> omega
    have space : outbound.length < outboundBufferCapacity := by omega
    have step := reading.readBlock_next small content more inside space going
    obtain ⟨keptAddress, keptKey⟩ := dcb.readNextByteDma_kept ⟨size, words⟩
    have grown : (outbound ++ [bytes[taken]]).length + (bytes.length - (taken + 1)) ≤
        outboundBufferCapacity := by
      rw [List.length_append, List.length_singleton]
      omega
    obtain ⟨next, rest, sameAddress, sameKey⟩ :=
      ih (reading.next small (by omega)).2 (by omega) grown (by omega)
    refine ⟨next, ?_, sameAddress.trans keptAddress, sameKey.trans keptKey⟩
    rw [step, rest, List.append_assoc, List.singleton_append, List.getElem_cons_drop]

/-- The sixteen bits of the count decide how much of a block is read. -/
def readCount (displacement length : Nat) : Nat :=
  if displacement + length < 2 ^ 16 then length
  else if displacement + length = 2 ^ 16 then 0
  else 1

/-- A fresh block gives all its bytes, or at most one when its count does not fit sixteen bits. -/
theorem Reading.readBlock_fresh (reading : Reading words address displacement 0 dcb)
    (small : size ≤ 2 ^ 24) {bytes outbound : List Byte}
    (content : BytesAt words (2 * address + displacement) bytes) (nonempty : bytes ≠ [])
    (short : bytes.length < 2 ^ 15)
    (inside : 2 * address + displacement + bytes.length ≤ 2 * size)
    (room : outbound.length + bytes.length ≤ outboundBufferCapacity) :
    ∃ next, dcb.readBlock ⟨size, words⟩ ((displacement + bytes.length) % 2 ^ 16) outbound =
        (next, outbound ++ bytes.take (readCount displacement bytes.length)) ∧
      next.bufferAddress = dcb.bufferAddress ∧ next.keyValue = dcb.keyValue := by
  have positive : 0 < bytes.length := List.length_pos_of_ne_nil nonempty
  have limit : displacement < 2 ^ 16 := reading.displaced ▸ dcb.displacement.isLt
  rw [readCount]
  split_ifs with fits full
  · obtain ⟨next, read, kept⟩ := reading.readBlock_rest small content nonempty (Nat.zero_le _)
      inside (by omega)
    rw [Nat.mod_eq_of_lt fits]
    refine ⟨next, ?_, kept⟩
    rw [read, List.drop_zero, List.take_length]
  · refine ⟨dcb, ?_, rfl, rfl⟩
    rw [full, Nat.mod_self, Dcb.readBlock_done (Nat.zero_le _), List.take_zero, List.append_nil]
  · have wrapped : (displacement + bytes.length) % 2 ^ 16 =
        displacement + bytes.length - 2 ^ 16 := by omega
    have untouched := reading.read
    rw [if_pos rfl] at untouched
    have space : outbound.length < outboundBufferCapacity := by omega
    have going : dcb.dmaBytesRead < (displacement + bytes.length) % 2 ^ 16 := by omega
    have step := reading.readBlock_next small content positive inside space going
    have one := (reading.next small (by omega)).2
    have read := one.read
    rw [if_neg (by omega)] at read
    refine ⟨_, ?_, dcb.readNextByteDma_kept ⟨size, words⟩⟩
    rw [step, Dcb.readBlock_done (by omega)]
    have first : bytes.take 1 = [bytes[0]] := by
      rw [List.take_succ_eq_append_getElem positive, List.take_zero, List.nil_append]
    rw [first]

end Read

namespace Device

/-- Each descriptor of the transmit list takes four words. -/
def txEntry (s : Device) (k : Nat) : Nat := s.txListPointer + k * 4

/-- The third and fourth words of a descriptor name its data area. -/
def txArea (s : Device) (k : Nat) : Nat :=
  (s.memory.words (s.txEntry k + 2) &&& 0x00FF#16).toNat * 2 ^ 16 +
    (s.memory.words (s.txEntry k + 3)).toNat

/-- The bytes of a block start after its displacement. -/
def txPosition (s : Device) (k : Nat) : Nat :=
  2 * s.txArea k + (s.pickDisplacement k).toNat

/-- A descriptor of the list as it is loaded. -/
def txDescription (s : Device) (k : Nat) : Dcb where
  bufferAddress := s.txEntry k
  keyValue := s.memory.words (s.txEntry k)
  byteCount := s.memory.words (s.txEntry k + 1)
  mostAddress := s.memory.words (s.txEntry k + 2) &&& 0x00FF#16
  leastAddress := s.memory.words (s.txEntry k + 3)
  displacement := s.pickDisplacement k
  listPointer := s.txEntry k
  dmaAddress := s.txArea k
  dmaBytesRead := 0
  dmaBytesWritten := 0
  dmaReadData := none

end Device

/-- The transmit list is in memory with its blocks, and a descriptor of another key ends it. No block
holds a key word of the list. -/
structure TransmitList (s : Device) (blocks : List (Word × List Byte)) : Prop where
  present : s.txListPointer ≠ 0
  small : s.memory.size ≤ 2 ^ 24
  listInside : s.txEntry blocks.length + 4 ≤ s.memory.size
  transmitted : ∀ block ∈ blocks, block.1 &&& KeyFlag.maskKey = KeyFlag.blockToBeTransmitted
  nonempty : ∀ block ∈ blocks, block.2 ≠ []
  keys : ∀ k (inside : k < blocks.length), s.memory.words (s.txEntry k) = blocks[k].1
  counts : ∀ k (inside : k < blocks.length),
    s.memory.words (s.txEntry k + 1) = BitVec.ofNat 16 blocks[k].2.length
  content : ∀ k (inside : k < blocks.length),
    BytesAt s.memory.words (s.txPosition k) blocks[k].2
  areaInside : ∀ k (inside : k < blocks.length),
    s.txPosition k + blocks[k].2.length ≤ 2 * s.memory.size
  apart : ∀ k (inside : k < blocks.length), ∀ other < blocks.length,
    2 * s.txEntry other + 1 < s.txPosition k ∨
      s.txPosition k + blocks[k].2.length ≤ 2 * s.txEntry other
  ended : s.memory.words (s.txEntry blocks.length) &&& KeyFlag.maskKey ≠
    KeyFlag.blockToBeTransmitted

/-- The key of a sent block keeps its low byte. -/
def sentKey (keyValue : Word) : Word :=
  (keyValue &&& KeyFlag.maskDataflowCost) ||| KeyFlag.alreadyTransmittedBlock

/-- The descriptors before an index are marked as transmitted, and nothing else is written. -/
structure SentUpTo (s u : Device) (count : Nat) : Prop where
  size : u.memory.size = s.memory.size
  marked : ∀ j < count, u.memory.words (s.txEntry j) = sentKey (s.memory.words (s.txEntry j))
  others : ∀ address, (∀ j < count, address ≠ s.txEntry j) →
    u.memory.words address = s.memory.words address

/-- The loop has come to an index of the list and has loaded its descriptor. -/
structure Sending (s u : Device) (k : Nat) : Prop extends SentUpTo s u k where
  pointer : u.txListPointer = s.txListPointer
  offset : u.txListPointerOffset = k
  parameters : u.parameters = s.parameters
  loaded : u.txDCB = u.loadBufferDescription u.txListPointer (u.txListPointerOffset % 2 ^ 16)

section Step

variable {s u : Device} {blocks : List (Word × List Byte)} {k : Nat}

theorem txEntry_injective (s : Device) {j k : Nat} (same : s.txEntry j = s.txEntry k) : j = k := by
  simp only [Device.txEntry] at same
  omega

/-- The words of a descriptor besides the marked keys are kept. -/
theorem SentUpTo.word_kept (sent : SentUpTo s u k) {j offset : Nat}
    (later : k ≤ j ∨ offset ≠ 0) (within : offset ≤ 3) :
    u.memory.words (s.txEntry j + offset) = s.memory.words (s.txEntry j + offset) := by
  apply sent.others
  intro other low same
  simp only [Device.txEntry] at same
  omega

/-- The loaded descriptor is ready to be read. -/
theorem Sending.fresh (list : TransmitList s blocks) (sending : Sending s u k)
    (inside : k < blocks.length) (low : k < 2 ^ 16) :
    ∃ dcb, u.txDCB = some dcb ∧ dcb.keyValue = blocks[k].1 ∧ dcb.bufferAddress = s.txEntry k ∧
      dcb.byteCount = BitVec.ofNat 16 blocks[k].2.length ∧
      Reading u.memory.words (s.txArea k) (s.pickDisplacement k).toNat 0 dcb := by
  have bound := list.listInside
  have small := list.small
  have listed : s.txEntry k + 3 < s.memory.size := by
    simp only [Device.txEntry] at bound ⊢
    omega
  have read (offset : Nat) (later : offset ≤ 3) :
      u.dmaRead (s.txEntry k + offset) = s.memory.words (s.txEntry k + offset) := by
    rw [Device.dmaRead, CoreMemory.dmaRead_installed (by rw [sending.size]; exact small)
      (by rw [sending.size]; omega)]
    exact sending.word_kept (.inl (Nat.le_refl k)) later
  have present : s.memory.words (s.txEntry k) ≠ 0 := by
    rw [list.keys k inside]
    intro zero
    have key := list.transmitted _ (List.getElem_mem inside)
    rw [zero] at key
    exact absurd key (by decide)
  have description : u.txDCB = some (s.txDescription k) := by
    have masked : s.memory.words (s.txEntry k + 2) &&& 0x00FF#16 &&& 0x00FF#16 =
        s.memory.words (s.txEntry k + 2) &&& 0x00FF#16 := by
      rw [BitVec.and_assoc, BitVec.and_self]
    have actual : s.txListPointer + k * 4 = s.txEntry k := rfl
    have displacement : u.pickDisplacement k = s.pickDisplacement k := by
      rw [Device.pickDisplacement, Device.pickDisplacement, sending.parameters]
    have key := read 0 (Nat.zero_le 3)
    rw [Nat.add_zero] at key
    rw [sending.loaded, sending.offset, sending.pointer, Nat.mod_eq_of_lt low,
      Device.loadBufferDescription, if_neg list.present]
    simp only [actual, Device.readDcbWords, key, if_neg present, Dcb.dataMemoryAddress,
      read 1 (by decide), read 2 (by decide), read 3 (by decide), masked, displacement,
      Device.txDescription, Device.txArea, Dcb.init]
  have reading : Reading u.memory.words (s.txArea k) (s.pickDisplacement k).toNat 0
      (s.txDescription k) :=
    { displaced := rfl
      read := (if_pos rfl).symm
      reached := by
        have start : (s.txDescription k).dmaAddress = s.txArea k := rfl
        simp only [start, if_true, Nat.add_zero]
      fresh := fun _ => rfl
      cached := fun taken => absurd rfl taken }
  exact ⟨_, description, list.keys k inside, rfl, list.counts k inside, reading⟩

/-- The marked keys are not part of a block. -/
theorem SentUpTo.content (list : TransmitList s blocks) (sent : SentUpTo s u k)
    (inside : k < blocks.length) : BytesAt u.memory.words (s.txPosition k) blocks[k].2 := by
  intro position within
  have apart := list.apart k inside
  have word : u.memory.words ((s.txPosition k + position) / 2) =
      s.memory.words ((s.txPosition k + position) / 2) := by
    apply sent.others
    intro other low same
    have outside := apart other (by omega)
    omega
  rw [← list.content k inside position within, byteAt, byteAt, word]

/-- One more descriptor is marked. -/
theorem SentUpTo.mark {v : Device} (sent : SentUpTo s u k)
    (memory : v.memory = ⟨u.memory.size, Function.update u.memory.words (s.txEntry k)
      (sentKey (s.memory.words (s.txEntry k)))⟩) : SentUpTo s v (k + 1) := by
  refine ⟨by rw [memory]; exact sent.size, ?_, ?_⟩
  · intro j low
    rw [memory]
    rcases Nat.lt_succ_iff_lt_or_eq.mp low with earlier | last
    · have different : s.txEntry j ≠ s.txEntry k := fun same =>
        absurd (txEntry_injective s same) (Nat.ne_of_lt earlier)
      exact (Function.update_of_ne different _ _).trans (sent.marked j earlier)
    · rw [last]
      exact Function.update_self _ _ _
  · intro address other
    rw [memory]
    exact (Function.update_of_ne (other k (Nat.lt_succ_self k)) _ _).trans
      (sent.others address fun j low => other j (Nat.lt_succ_of_lt low))

theorem Device.markBufferSent_eq {dcb : Dcb} (loaded : u.txDCB = some dcb)
    (key : dcb.key = KeyFlag.blockToBeTransmitted) (small : u.memory.size ≤ 2 ^ 24)
    (inside : dcb.bufferAddress < u.memory.size) :
    u.markBufferSent = (u.putTxDCB (some { dcb with keyValue := sentKey dcb.keyValue })).putMemory
      ⟨u.memory.size, Function.update u.memory.words dcb.bufferAddress (sentKey dcb.keyValue)⟩ := by
  rw [Device.markBufferSent, loaded]
  simp only [if_pos key]
  have written := CoreMemory.dmaWrite_installed small inside (sentKey dcb.keyValue)
  exact congrArg (Device.putMemory _) written

theorem Device.sendOutboundFrame_eq (s : Device) :
    s.sendOutboundFrame =
      match buildFrame s.outboundBuffer frameBufferSize with
      | none => s
      | some wire => s.sendWire wire := by
  rw [Device.sendOutboundFrame]
  split_ifs with empty
  · have refused : buildFrame s.outboundBuffer frameBufferSize = none := by
      rw [buildFrame, if_pos (.inl empty)]
    rw [refused]
  · rfl

end Step

/-- The wire of a finished frame, if it fits the frame buffer. -/
def outgoingWire (payload : Option (List Byte)) : Option (List Byte) :=
  payload.bind fun data => buildFrame data frameBufferSize

/-- The effect of a block on the outbound buffer and on the sent wires. -/
structure BlockSent (u v : Device) (block : Word × List Byte) : Prop where
  outbound : v.outboundBuffer = (transmitBlock u.outboundBuffer block).1
  sent : v.sent = u.sent ++ (outgoingWire (transmitBlock u.outboundBuffer block).2).toList
  overrun : v.overrun = (u.overrun || (outgoingWire (transmitBlock u.outboundBuffer block).2).any
    fun wire => decide (maxFrameSize < wire.length))

section Send

variable {s u : Device} {blocks : List (Word × List Byte)} {k : Nat}

/-- The bytes that are read from a block. -/
def Device.readBytes (s : Device) (k : Nat) (bytes : List Byte) : List Byte :=
  bytes.take (readCount (s.pickDisplacement k).toNat bytes.length)

theorem Device.readTxBlock_eq {dcb : Dcb} (list : TransmitList s blocks) (sent : SentUpTo s u k)
    (inside : k < blocks.length) (short : blocks[k].2.length < 2 ^ 15) (byteCount : dcb.byteCount = BitVec.ofNat 16 blocks[k].2.length)
    (reading : Reading u.memory.words (s.txArea k) (s.pickDisplacement k).toNat 0 dcb)
    (room : u.outboundBuffer.length + blocks[k].2.length ≤ outboundBufferCapacity) :
    ∃ next, u.readTxBlock dcb = (u.putTxDCB (some next)).putOutboundBuffer
        (u.outboundBuffer ++ s.readBytes k blocks[k].2) ∧
      next.bufferAddress = dcb.bufferAddress ∧ next.keyValue = dcb.keyValue := by
  have member := List.getElem_mem inside
  have count : (dcb.byteCount + dcb.displacement).toNat =
      ((s.pickDisplacement k).toNat + blocks[k].2.length) % 2 ^ 16 := by
    rw [BitVec.toNat_add, byteCount, BitVec.toNat_ofNat, reading.displaced,
      Nat.mod_eq_of_lt (Nat.lt_trans short (by decide)), Nat.add_comm]
  have area := list.areaInside k inside
  have memory : u.memory = ⟨s.memory.size, u.memory.words⟩ := by rw [← sent.size]
  obtain ⟨next, read, kept⟩ := reading.readBlock_fresh list.small (sent.content list inside)
    (list.nonempty _ member) short area room
  refine ⟨next, ?_, kept⟩
  rw [Device.readTxBlock, count, memory, read]
  rfl

/-- The list and the memory stay while a block is read and its frame is sent. -/
structure SameList (u w : Device) : Prop where
  memory : w.memory = u.memory
  pointer : w.txListPointer = u.txListPointer
  offset : w.txListPointerOffset = u.txListPointerOffset
  parameters : w.parameters = u.parameters

theorem SameList.sendOutboundFrame (s : Device) : SameList s s.sendOutboundFrame := by
  rw [s.sendOutboundFrame_eq]
  split <;> exact ⟨rfl, rfl, rfl, rfl⟩

theorem Device.sendOutboundFrame_kept (s : Device) : s.sendOutboundFrame.txDCB = s.txDCB := by
  rw [s.sendOutboundFrame_eq]
  split <;> rfl

theorem Device.sendOutboundFrame_sent (s : Device) : s.sendOutboundFrame.sent =
    s.sent ++ (buildFrame s.outboundBuffer frameBufferSize).toList := by
  rw [s.sendOutboundFrame_eq]
  rcases buildFrame s.outboundBuffer frameBufferSize with _ | wire
  · exact (List.append_nil _).symm
  · rfl

theorem Device.sendOutboundFrame_overrun (s : Device) : s.sendOutboundFrame.overrun =
    (s.overrun || (buildFrame s.outboundBuffer frameBufferSize).any
      fun wire => decide (maxFrameSize < wire.length)) := by
  rw [s.sendOutboundFrame_eq]
  rcases buildFrame s.outboundBuffer frameBufferSize with _ | wire
  · exact (Bool.or_false _).symm
  · rfl

/-- Up to its mark, a block acts by the rule of the transmitter. -/
theorem Device.sendBlock_eq {dcb next : Dcb} {pending bytes : List Byte}
    (started : (if dcb.hasRsomFlag then u.putOutboundBuffer [] else u) = u.putOutboundBuffer pending)
    (read : (u.putOutboundBuffer pending).readTxBlock dcb =
      (u.putTxDCB (some next)).putOutboundBuffer (pending ++ bytes))
    (rule : transmitBlock u.outboundBuffer (dcb.keyValue, bytes) =
      if dcb.hasReomFlag then ([], some (pending ++ bytes)) else (pending ++ bytes, none)) :
    ∃ w, (u.sendBlock dcb).1 = w.markBufferSent ∧ w.txDCB = some next ∧ SameList u w ∧
      BlockSent u w (dcb.keyValue, bytes) := by
  let filled := (u.putTxDCB (some next)).putOutboundBuffer (pending ++ bytes)
  simp only [Device.sendBlock, started, read]
  by_cases last : dcb.hasReomFlag = true
  · rw [if_pos last] at rule ⊢
    have same := SameList.sendOutboundFrame filled
    refine ⟨filled.sendOutboundFrame.putOutboundBuffer [], rfl, filled.sendOutboundFrame_kept,
      ⟨same.memory, same.pointer, same.offset, same.parameters⟩, ?_, ?_, ?_⟩
    · rw [rule]
      rfl
    · rw [rule]
      exact filled.sendOutboundFrame_sent
    · rw [rule]
      exact filled.sendOutboundFrame_overrun
  · rw [if_neg last] at rule ⊢
    refine ⟨filled, rfl, rfl, ⟨rfl, rfl, rfl, rfl⟩, ?_, ?_, ?_⟩
    · rw [rule]
      rfl
    · rw [rule]
      exact (List.append_nil _).symm
    · rw [rule]
      exact (Bool.or_false _).symm

/-- One block of the list is read, sent at the end of its frame, and marked. -/
theorem Sending.sendBlock (list : TransmitList s blocks) (sending : Sending s u k)
    (inside : k < blocks.length) (low : k < 2 ^ 16) (short : blocks[k].2.length < 2 ^ 15)
    (room : (if anyBit blocks[k].1 KeyFlag.rcostRsom then [] else u.outboundBuffer).length +
      blocks[k].2.length ≤ outboundBufferCapacity) :
    ∃ dcb, u.txDCB = some dcb ∧ dcb.key = KeyFlag.blockToBeTransmitted ∧
      SentUpTo s (u.sendBlock dcb).1 (k + 1) ∧
      (u.sendBlock dcb).1.txListPointer = s.txListPointer ∧
      (u.sendBlock dcb).1.txListPointerOffset = k ∧
      (u.sendBlock dcb).1.parameters = s.parameters ∧
      BlockSent u (u.sendBlock dcb).1 (blocks[k].1, s.readBytes k blocks[k].2) := by
  obtain ⟨dcb, loaded, keyValue, bufferAddress, byteCount, reading⟩ :=
    sending.fresh list inside low
  have starts : dcb.hasRsomFlag = anyBit blocks[k].1 KeyFlag.rcostRsom := by
    rw [Dcb.hasRsomFlag, keyValue, anyBit]
  have ends : dcb.hasReomFlag = anyBit blocks[k].1 KeyFlag.rcostReom := by
    rw [Dcb.hasReomFlag, keyValue, anyBit]
  have rule (bytes : List Byte) : transmitBlock u.outboundBuffer (dcb.keyValue, bytes) =
      if dcb.hasReomFlag then
        ([], some ((if anyBit blocks[k].1 KeyFlag.rcostRsom then [] else u.outboundBuffer) ++ bytes))
      else ((if anyBit blocks[k].1 KeyFlag.rcostRsom then [] else u.outboundBuffer) ++ bytes, none) := by
    simp only [transmitBlock, ends, keyValue]
  have started : (if dcb.hasRsomFlag then u.putOutboundBuffer [] else u) = u.putOutboundBuffer
      (if anyBit blocks[k].1 KeyFlag.rcostRsom then [] else u.outboundBuffer) := by
    rw [starts]
    split_ifs <;> rfl
  generalize (if anyBit blocks[k].1 KeyFlag.rcostRsom then [] else u.outboundBuffer) = pending
    at started room rule
  have sent : SentUpTo s (u.putOutboundBuffer pending) k :=
    ⟨sending.size, sending.marked, sending.others⟩
  obtain ⟨next, read, nextAddress, nextKey⟩ :=
    Device.readTxBlock_eq list sent inside short byteCount reading room
  obtain ⟨w, sends, wLoaded, same, effect⟩ := Device.sendBlock_eq started read (rule _)
  have key : next.key = KeyFlag.blockToBeTransmitted := by
    rw [Dcb.key, nextKey, keyValue]
    exact list.transmitted _ (List.getElem_mem inside)
  have bound := list.listInside
  have small := list.small
  have memory := same.memory
  have size := sending.size
  have address : next.bufferAddress = s.txEntry k := nextAddress.trans bufferAddress
  have inMemory : next.bufferAddress < w.memory.size := by
    rw [address, memory, size]
    simp only [Device.txEntry] at bound ⊢
    omega
  have marked := Device.markBufferSent_eq wLoaded key (by rw [memory, size]; exact small) inMemory
  have value : sentKey next.keyValue = sentKey (s.memory.words (s.txEntry k)) := by
    rw [nextKey, keyValue, list.keys k inside]
  rw [address, value, memory] at marked
  rw [keyValue] at effect
  refine ⟨dcb, loaded, (congrArg (· &&& KeyFlag.maskKey) nextKey).symm.trans key, ?_, ?_, ?_, ?_, ?_⟩
  all_goals rw [sends, marked]
  · exact sending.toSentUpTo.mark rfl
  · exact same.pointer.trans sending.pointer
  · exact same.offset.trans sending.offset
  · exact same.parameters.trans sending.parameters
  · exact ⟨effect.outbound, effect.sent, effect.overrun⟩

end Send

end Nd100x.Hdlc
