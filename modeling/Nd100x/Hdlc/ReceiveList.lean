import Nd100x.Hdlc.Receiver
import Nd100x.Library.ByteMemory

namespace Nd100x.Hdlc

open Nd100x.Library
open Device (maxTries)

namespace CoreMemory

variable {memory : CoreMemory} {address : Nat}

theorem dmaRead_installed (small : memory.size ≤ 2 ^ 24) (inside : address < memory.size) :
    memory.dmaRead address = memory.words address := by
  have folded : address % 2 ^ 24 = address := Nat.mod_eq_of_lt (Nat.lt_of_lt_of_le inside small)
  rw [dmaRead, folded, if_pos inside]

theorem dmaWrite_installed (small : memory.size ≤ 2 ^ 24) (inside : address < memory.size)
    (data : Word) :
    memory.dmaWrite address data =
      { memory with words := Function.update memory.words address data } := by
  have folded : address % 2 ^ 24 = address := Nat.mod_eq_of_lt (Nat.lt_of_lt_of_le inside small)
  rw [dmaWrite, folded, if_pos inside]

end CoreMemory

namespace Device

variable (s : Device) (flag : Word)

section Report

@[simp] theorem setRxdmaFlag_memory : (s.setRxdmaFlag flag).memory = s.memory := by
  simp only [setRxdmaFlag]; split_ifs <;> rfl

@[simp] theorem setRxdmaFlag_parameters : (s.setRxdmaFlag flag).parameters = s.parameters := by
  simp only [setRxdmaFlag]; split_ifs <;> rfl

@[simp] theorem setRxdmaFlag_rxListPointer :
    (s.setRxdmaFlag flag).rxListPointer = s.rxListPointer := by
  simp only [setRxdmaFlag]; split_ifs <;> rfl

@[simp] theorem setRxdmaFlag_rxListPointerOffset :
    (s.setRxdmaFlag flag).rxListPointerOffset = s.rxListPointerOffset := by
  simp only [setRxdmaFlag]; split_ifs <;> rfl

@[simp] theorem setRxdmaFlag_rxDCB : (s.setRxdmaFlag flag).rxDCB = s.rxDCB := by
  simp only [setRxdmaFlag]; split_ifs <;> rfl

@[simp] theorem setRxdmaFlag_hdlcReceiveFrame :
    (s.setRxdmaFlag flag).hdlcReceiveFrame = s.hdlcReceiveFrame := by
  simp only [setRxdmaFlag]; split_ifs <;> rfl

@[simp] theorem setRxdmaFlag_rxTransferControl :
    (s.setRxdmaFlag flag).rxTransferControl = s.rxTransferControl := by
  simp only [setRxdmaFlag]; split_ifs <;> rfl

@[simp] theorem setRxdmaFlag_tcpReceiveBuffer :
    (s.setRxdmaFlag flag).tcpReceiveBuffer = s.tcpReceiveBuffer := by
  simp only [setRxdmaFlag]; split_ifs <;> rfl

/-- The report is in the trace. -/
theorem setRxdmaFlag_events : (s.setRxdmaFlag flag).events =
    s.events ++ if anyBit (s.reportedFlag flag) Rts.listEmpty then [.listEmpty] else [] := by
  have stopped : (if anyBit flag Rts.listEmpty then s.stopReceiver else s).reportedFlag flag =
      s.reportedFlag flag := by
    split_ifs <;> rfl
  have kept : s.stopReceiver.events = s.events := rfl
  simp only [setRxdmaFlag, stopped]
  split_ifs <;> simp [kept]

end Report

end Device

/-- A receive list owns its entries and one data area for each entry. All of them are installed,
and no two of them overlap. -/
structure Layout where
  size : Nat
  pointer : Nat
  count : Nat
  displacement1 : Nat
  displacement2 : Nat
  blockLength : Nat
  address : Nat → Nat
  installed : size ≤ 2 ^ 24
  present : pointer ≠ 0
  short : blockLength < 2 ^ 16
  displaced1 : displacement1 < blockLength
  displaced2 : displacement2 < blockLength
  listInside : pointer + 4 * count ≤ size
  areaInside : ∀ index < count, address index + (blockLength + 1) / 2 ≤ size
  listApart : ∀ index < count,
    address index + (blockLength + 1) / 2 ≤ pointer ∨ pointer + 4 * count ≤ address index
  areasApart : ∀ index < count, ∀ other < count, index ≠ other →
    address index + (blockLength + 1) / 2 ≤ address other ∨
      address other + (blockLength + 1) / 2 ≤ address index

namespace Layout

variable (layout : Layout)

/-- Each entry takes four words. -/
def entry (index : Nat) : Nat := layout.pointer + index * 4

def parameters : ParameterBuffer :=
  ⟨layout.displacement1, layout.displacement2, layout.blockLength⟩

/-- The displacement is picked by the position in the list. -/
def displacementAt (index : Nat) : Nat :=
  if index = 0 then layout.displacement1 else layout.displacement2

/-- The third and fourth words of every entry name its data area. -/
def Describes (words : Nat → Word) : Prop :=
  ∀ index < layout.count,
    (words (layout.entry index + 2) &&& 0x00FF#16).toNat * 2 ^ 16 +
      (words (layout.entry index + 3)).toNat = layout.address index

def EmptyAt (words : Nat → Word) (index : Nat) : Prop :=
  words (layout.entry index) &&& KeyFlag.maskKey = KeyFlag.emptyReceiverBlock

/-- A fresh block is the entry as it stands in memory. -/
def freshDcb (words : Nat → Word) (index : Nat) (displacement : Word) : Dcb where
  bufferAddress := layout.entry index
  keyValue := words (layout.entry index)
  byteCount := words (layout.entry index + 1)
  mostAddress := words (layout.entry index + 2) &&& 0x00FF#16
  leastAddress := words (layout.entry index + 3)
  displacement := displacement
  listPointer := layout.entry index
  dmaAddress := layout.address index
  dmaBytesRead := 0
  dmaBytesWritten := 0
  dmaReadData := none

theorem displacementAt_lt (index : Nat) : layout.displacementAt index < layout.blockLength := by
  rw [displacementAt]
  split_ifs
  · exact layout.displaced1
  · exact layout.displaced2

theorem entry_inside {index : Nat} (inside : index < layout.count) :
    layout.entry index + 3 < layout.size := by
  have bound := layout.listInside
  simp only [entry]
  omega

/-- The words of the list are not words of a data area. -/
theorem entry_apart {index other word : Nat} (inside : index < layout.count)
    (otherInside : other < layout.count) (low : layout.address other ≤ word)
    (high : word < layout.address other + (layout.blockLength + 1) / 2) :
    word < layout.entry index ∨ layout.entry index + 3 < word := by
  have apart := layout.listApart other otherInside
  simp only [entry]
  omega

end Layout

/-- The bus and the registers of the receiver fit the layout, and the list position is given. -/
structure Placed (layout : Layout) (words : Nat → Word) (s : Device) (index : Nat) : Prop where
  memory : s.memory = ⟨layout.size, words⟩
  pointer : s.rxListPointer = layout.pointer
  parameters : s.parameters = layout.parameters
  offset : s.rxListPointerOffset = index
  described : layout.Describes words

/-- The block of an entry has taken a number of bytes after its displacement. -/
structure Progress (layout : Layout) (index stored : Nat) (dcb : Dcb) : Prop where
  bufferAddress : dcb.bufferAddress = layout.entry index
  listPointer : dcb.listPointer = layout.entry index
  displaced : dcb.displacement.toNat = layout.displacementAt index
  written : dcb.dmaBytesWritten = if stored = 0 then 0 else layout.displacementAt index + stored
  reached : dcb.dmaAddress = layout.address index +
    if stored = 0 then 0 else (layout.displacementAt index + stored) / 2

/-- The loaded block is an empty entry of the list. -/
structure Filling (layout : Layout) (words : Nat → Word) (s : Device) (index stored : Nat)
    (dcb : Dcb) : Prop extends Placed layout words s index, Progress layout index stored dcb where
  inside : index < layout.count
  empty : layout.EmptyAt words index
  loaded : s.rxDCB = some dcb
  keyValue : dcb.keyValue = words (layout.entry index)

section Load

variable {layout : Layout} {words : Nat → Word} {s : Device} {index : Nat}

theorem Layout.dmaRead (memory : s.memory = ⟨layout.size, words⟩) (address : Nat)
    (inside : address < layout.size) : s.dmaRead address = words address := by
  rw [Device.dmaRead, memory]
  exact CoreMemory.dmaRead_installed layout.installed inside

theorem Layout.rxDmaWrite (memory : s.memory = ⟨layout.size, words⟩) (address : Nat)
    (inside : address < layout.size) (data : Word) :
    s.rxDmaWrite address data =
      (s.putMemory ⟨layout.size, Function.update words address data⟩).record
        (.write address data) := by
  have written : s.memory.dmaWrite address data =
      ⟨layout.size, Function.update words address data⟩ := by
    rw [memory]
    exact CoreMemory.dmaWrite_installed layout.installed inside data
  rw [Device.rxDmaWrite, Device.dmaWrite, written]

theorem pickDisplacement_toNat (parameters : s.parameters = layout.parameters) (index : Nat) :
    (s.pickDisplacement index).toNat = layout.displacementAt index := by
  have first := Nat.lt_trans layout.displaced1 layout.short
  have others := Nat.lt_trans layout.displaced2 layout.short
  rw [Device.pickDisplacement, parameters, Layout.displacementAt]
  split_ifs
  · exact Nat.mod_eq_of_lt first
  · exact Nat.mod_eq_of_lt others

/-- An empty entry is loaded as a fresh block. -/
theorem Placed.load (placed : Placed layout words s index) (inside : index < layout.count)
    (empty : layout.EmptyAt words index) :
    ∃ dcb, s.loadRxBuffer = (s.putRxDCB (some dcb)).record (.load index) ∧
      Filling layout words s.loadRxBuffer index 0 dcb := by
  have bound := layout.entry_inside inside
  have key := layout.dmaRead placed.memory (layout.entry index) (by omega)
  have present : words (layout.entry index) ≠ 0 := by
    intro zero
    rw [Layout.EmptyAt, zero] at empty
    exact absurd empty (by decide)
  have count := layout.dmaRead placed.memory (layout.entry index + 1) (by omega)
  have most := layout.dmaRead placed.memory (layout.entry index + 2) (by omega)
  have least := layout.dmaRead placed.memory (layout.entry index + 3) (by omega)
  have description : s.loadBufferDescription s.rxListPointer s.rxListPointerOffset =
      some (layout.freshDcb words index (s.pickDisplacement index)) := by
    have described := placed.described index inside
    have masked : words (layout.entry index + 2) &&& 0x00FF#16 &&& 0x00FF#16 =
        words (layout.entry index + 2) &&& 0x00FF#16 := by
      rw [BitVec.and_assoc, BitVec.and_self]
    have actual : layout.pointer + index * 4 = layout.entry index := rfl
    rw [placed.pointer, placed.offset, Device.loadBufferDescription, if_neg layout.present]
    simp only [actual, Device.readDcbWords, if_neg present, Dcb.dataMemoryAddress, key, count,
      most, least, masked, described, Layout.freshDcb, Dcb.init]
  have loaded : s.loadRxBuffer =
      (s.putRxDCB (some (layout.freshDcb words index (s.pickDisplacement index)))).record
        (.load index) := by
    rw [Device.loadRxBuffer, description, placed.offset]
  refine ⟨_, loaded, ?_⟩
  rw [loaded]
  exact
    { memory := placed.memory
      pointer := placed.pointer
      parameters := placed.parameters
      offset := placed.offset
      described := placed.described
      inside := inside
      empty := empty
      loaded := rfl
      bufferAddress := rfl
      listPointer := rfl
      keyValue := rfl
      displaced := pickDisplacement_toNat placed.parameters index
      written := rfl
      reached := rfl }

theorem Device.loadBufferDescription_key (s : Device) {listPointer : Nat} (present : listPointer ≠ 0)
    (offset : Nat) : ∃ dcb, s.loadBufferDescription listPointer offset = some dcb ∧
      dcb.keyValue = s.dmaRead (listPointer + offset * 4) := by
  rw [Device.loadBufferDescription, if_neg present]
  refine ⟨_, rfl, ?_⟩
  simp only [Device.readDcbWords]
  split_ifs <;> rfl

/-- Every entry is loaded with its key, and an empty one as a fresh block. -/
theorem Placed.load_key (placed : Placed layout words s index) (inside : index < layout.count) :
    ∃ dcb, dcb.keyValue = words (layout.entry index) ∧
      s.loadRxBuffer = (s.putRxDCB (some dcb)).record (.load index) ∧
      (layout.EmptyAt words index →
        Filling layout words ((s.putRxDCB (some dcb)).record (.load index)) index 0 dcb) := by
  by_cases empty : layout.EmptyAt words index
  · obtain ⟨dcb, loaded, filling⟩ := placed.load inside empty
    rw [loaded] at filling
    exact ⟨dcb, filling.keyValue, loaded, fun _ => filling⟩
  · have bound := layout.entry_inside inside
    have key := layout.dmaRead placed.memory (layout.entry index) (by omega)
    obtain ⟨dcb, description, keyValue⟩ := s.loadBufferDescription_key layout.present index
    refine ⟨dcb, keyValue.trans key, ?_, fun found => absurd found empty⟩
    rw [Device.loadRxBuffer, placed.pointer, placed.offset, description]

theorem Filling.rxKey {stored : Nat} {dcb : Dcb} (filling : Filling layout words s index stored dcb) :
    s.rxKey = KeyFlag.emptyReceiverBlock := by
  rw [Device.rxKey, filling.loaded]
  exact (congrArg (· &&& KeyFlag.maskKey) filling.keyValue).trans filling.empty

/-- The next entry is loaded when it is empty and the list does not wrap around. -/
theorem Placed.loadNext (placed : Placed layout words s index) (inside : index + 1 < layout.count)
    (straight : index < 128) (empty : layout.EmptyAt words (index + 1)) :
    ∃ dcb, s.loadNextRxBuffer =
        (((s.putRxListPointerOffset (index + 1)).putRxDCB (some dcb)).record (.load (index + 1)),
          true) ∧
      Filling layout words s.loadNextRxBuffer.1 (index + 1) 0 dcb := by
  have moved : Placed layout words (s.putRxListPointerOffset (index + 1)) (index + 1) :=
    ⟨placed.memory, placed.pointer, placed.parameters, rfl, placed.described⟩
  obtain ⟨dcb, loaded, filling⟩ := moved.load inside empty
  have key := filling.rxKey
  have next : (if 128 < s.rxListPointerOffset + 1 then 0 else s.rxListPointerOffset + 1) =
      index + 1 := by
    rw [placed.offset, if_neg (by omega)]
  have plain : KeyFlag.emptyReceiverBlock ≠ KeyFlag.newListPointer := by decide
  have found : s.loadNextRxBuffer = ((s.putRxListPointerOffset (index + 1)).loadRxBuffer, true) := by
    simp only [Device.loadNextRxBuffer, next, key, plain, if_false, decide_true]
  refine ⟨dcb, ?_, ?_⟩
  · rw [found, loaded]
  · rw [found]
    exact filling

end Load

section Transfer

variable {layout : Layout} {words : Nat → Word} {s : Device} {index stored : Nat} {dcb : Dcb}

/-- This is the position of the next byte. -/
def Layout.position (layout : Layout) (index stored : Nat) : Nat :=
  2 * layout.address index + (layout.displacementAt index + stored)

/-- One byte enters the data area, and the byte count is updated. -/
def Layout.putStored (layout : Layout) (words : Nat → Word) (index stored : Nat) (data : Byte) :
    Nat → Word :=
  Function.update (putByte words (layout.position index stored) data) (layout.entry index + 1)
    (BitVec.ofNat 16 (layout.displacementAt index + stored + 1))

theorem Progress.skipped (progress : Progress layout index stored dcb) :
    dcb.skipWrite.dmaBytesWritten = layout.displacementAt index + stored ∧
      dcb.skipWrite.dmaAddress =
        layout.address index + (layout.displacementAt index + stored) / 2 := by
  have written := progress.written
  have reached := progress.reached
  have displaced := progress.displaced
  by_cases fresh : stored = 0
  · rw [if_pos fresh] at written reached
    by_cases shift : 0 < layout.displacementAt index
    · rw [Dcb.skipWrite, if_pos ⟨written, displaced ▸ shift⟩]
      simp only [written, reached, displaced, fresh]
      omega
    · rw [Dcb.skipWrite, if_neg (by omega), written, reached]
      omega
  · rw [if_neg fresh] at written reached
    rw [Dcb.skipWrite, if_neg (by omega)]
    exact ⟨written, reached⟩

theorem Dcb.skipWrite_kept (dcb : Dcb) :
    dcb.skipWrite.bufferAddress = dcb.bufferAddress ∧
      dcb.skipWrite.listPointer = dcb.listPointer ∧ dcb.skipWrite.keyValue = dcb.keyValue ∧
      dcb.skipWrite.displacement = dcb.displacement := by
  rw [Dcb.skipWrite]
  split_ifs <;> exact ⟨rfl, rfl, rfl, rfl⟩

/-- A word outside the data area and the byte count is kept. -/
theorem Layout.putStored_other (data : Byte) {address : Nat}
    (room : layout.displacementAt index + stored < layout.blockLength)
    (notCount : address ≠ layout.entry index + 1)
    (outside : address < layout.address index ∨
      layout.address index + (layout.blockLength + 1) / 2 ≤ address) :
    layout.putStored words index stored data address = words address := by
  rw [Layout.putStored, Function.update_of_ne notCount]
  apply putByte_other_word
  simp only [Layout.position]
  omega

/-- The key word and the address words of every entry are kept. -/
theorem Layout.putStored_entry (data : Byte) {other offset : Nat} (inside : index < layout.count)
    (otherInside : other < layout.count)
    (room : layout.displacementAt index + stored < layout.blockLength)
    (notCount : offset ≠ 1) (within : offset ≤ 3) :
    layout.putStored words index stored data (layout.entry other + offset) =
      words (layout.entry other + offset) := by
  apply layout.putStored_other data room
  · simp only [Layout.entry]
    omega
  · by_contra area
    have low : layout.address index ≤ layout.entry other + offset := by omega
    have apart := layout.entry_apart otherInside inside low (by omega)
    omega

theorem Layout.putStored_describes (described : layout.Describes words) (data : Byte)
    (inside : index < layout.count)
    (room : layout.displacementAt index + stored < layout.blockLength) :
    layout.Describes (layout.putStored words index stored data) := by
  intro other otherInside
  rw [layout.putStored_entry data inside otherInside room (by decide) (by decide),
    layout.putStored_entry data inside otherInside room (by decide) (by decide)]
  exact described other otherInside

theorem Layout.putStored_key (data : Byte) {other : Nat} (inside : index < layout.count)
    (otherInside : other < layout.count)
    (room : layout.displacementAt index + stored < layout.blockLength) :
    layout.putStored words index stored data (layout.entry other) = words (layout.entry other) :=
  layout.putStored_entry data inside otherInside room (by decide) (Nat.zero_le 3)

/-- One byte is merged into its word, and then the byte count is written. -/
theorem Progress.write_eq (progress : Progress layout index stored dcb)
    (memory : s.memory = ⟨layout.size, words⟩) (inside : index < layout.count)
    (present : s.rxDCB = some dcb) (room : layout.displacementAt index + stored < layout.blockLength) (data : Byte) :
    ∃ word, s.writeNextByteDma data =
      ((((s.putRxDCB (some dcb.skipWrite.advanceWrite)).putMemory
        ⟨layout.size, putByte words (layout.position index stored) data⟩).record
          (.write (layout.position index stored / 2) word)).putMemory
        ⟨layout.size, layout.putStored words index stored data⟩).record
          (.write (layout.entry index + 1)
            (BitVec.ofNat 16 (layout.displacementAt index + stored + 1))) := by
  obtain ⟨written, reached⟩ := progress.skipped
  have keptPointer := dcb.skipWrite_kept.2.1
  have area := layout.areaInside index inside
  have listed := layout.entry_inside inside
  have half : layout.position index stored / 2 =
      layout.address index + (layout.displacementAt index + stored) / 2 := by
    simp only [Layout.position]
    omega
  have parity : layout.position index stored % 2 =
      (layout.displacementAt index + stored) % 2 := by
    simp only [Layout.position]
    omega
  have loaded : s.dmaRead dcb.skipWrite.dmaAddress = words (layout.position index stored / 2) := by
    rw [layout.dmaRead memory _ (by omega), reached, half]
  have merged : (if dcb.skipWrite.dmaBytesWritten % 2 = 0 then
        (s.dmaRead dcb.skipWrite.dmaAddress &&& 0x00FF#16) ||| (data.setWidth 16 <<< 8)
      else (s.dmaRead dcb.skipWrite.dmaAddress &&& 0xFF00#16) ||| data.setWidth 16) =
      mergeByte (words (layout.position index stored / 2)) (layout.position index stored) data := by
    rw [loaded, written, mergeByte, parity]
  have target : dcb.skipWrite.dmaAddress = layout.position index stored / 2 := reached.trans half.symm
  have counter : dcb.skipWrite.listPointer + 1 = layout.entry index + 1 := by
    rw [keptPointer, progress.listPointer]
  have counted : dcb.skipWrite.advanceWrite.dmaBytesWritten =
      layout.displacementAt index + stored + 1 := by
    rw [Dcb.advanceWrite, written]
  have moved : (s.putRxDCB (some dcb.skipWrite.advanceWrite)).memory = ⟨layout.size, words⟩ :=
    memory
  have first := layout.rxDmaWrite moved (layout.position index stored / 2) (by omega)
    (mergeByte (words (layout.position index stored / 2)) (layout.position index stored) data)
  rw [Device.writeNextByteDma, present]
  simp only [merged]
  rw [target, counter, counted, first]
  exact ⟨_, layout.rxDmaWrite rfl _ (by omega) _⟩

theorem Progress.advance (progress : Progress layout index stored dcb) :
    Progress layout index (stored + 1) dcb.skipWrite.advanceWrite := by
  obtain ⟨written, reached⟩ := progress.skipped
  obtain ⟨keptAddress, keptPointer, _, keptDisplacement⟩ := dcb.skipWrite_kept
  refine ⟨keptAddress.trans progress.bufferAddress, keptPointer.trans progress.listPointer,
    (congrArg BitVec.toNat keptDisplacement).trans progress.displaced, ?_, ?_⟩
  · rw [Dcb.advanceWrite, written, if_neg (Nat.succ_ne_zero stored)]
    rfl
  · rw [Dcb.advanceWrite, written, reached, if_neg (Nat.succ_ne_zero stored)]
    split_ifs <;> dsimp only <;> omega

/-- One byte is stored while the block has room. -/
theorem Filling.write (filling : Filling layout words s index stored dcb)
    (room : layout.displacementAt index + stored < layout.blockLength) (data : Byte) :
    ∃ next, Filling layout (layout.putStored words index stored data) (s.writeNextByteDma data)
      index (stored + 1) next := by
  have keptKey := dcb.skipWrite_kept.2.2.1
  obtain ⟨word, stores⟩ :=
    filling.toProgress.write_eq filling.memory filling.inside filling.loaded room data
  refine ⟨dcb.skipWrite.advanceWrite, ?_⟩
  rw [stores]
  exact
    { filling.toProgress.advance with
      memory := rfl
      pointer := filling.pointer
      parameters := filling.parameters
      offset := filling.offset
      described := layout.putStored_describes filling.described data filling.inside room
      inside := filling.inside
      empty := by
        rw [Layout.EmptyAt, layout.putStored_key data filling.inside filling.inside room]
        exact filling.empty
      loaded := rfl
      keyValue := by
        rw [layout.putStored_key data filling.inside filling.inside room]
        exact keptKey.trans filling.keyValue }

end Transfer

section Mark

variable {layout : Layout} {words : Nat → Word} {s : Device} {index stored : Nat} {dcb : Dcb}

/-- The status replaces the low byte, and the block is done. -/
def markedKey (keyValue : Word) (rxStatus : Byte) : Word :=
  ((keyValue &&& 0xFF00#16) ||| rxStatus.setWidth 16) ||| KeyFlag.blockDoneBit

def Dcb.marked (dcb : Dcb) (rxStatus : Byte) : Dcb :=
  { dcb with keyValue := markedKey dcb.keyValue rxStatus }

def Layout.putMarked (layout : Layout) (words : Nat → Word) (index : Nat) (rxStatus : Byte) :
    Nat → Word :=
  Function.update words (layout.entry index) (markedKey (words (layout.entry index)) rxStatus)

/-- A key word describes no data area. -/
theorem Layout.update_describes (described : layout.Describes words) (keyValue : Word) :
    layout.Describes (Function.update words (layout.entry index) keyValue) := by
  intro other otherInside
  have most : layout.entry other + 2 ≠ layout.entry index := by
    simp only [Layout.entry]
    omega
  have least : layout.entry other + 3 ≠ layout.entry index := by
    simp only [Layout.entry]
    omega
  rw [Function.update_of_ne most, Function.update_of_ne least]
  exact described other otherInside

theorem Layout.putMarked_empty (rxStatus : Byte) {other : Nat} (apart : other ≠ index)
    (empty : layout.EmptyAt words other) :
    layout.EmptyAt (layout.putMarked words index rxStatus) other := by
  have different : layout.entry other ≠ layout.entry index := by
    simp only [Layout.entry]
    omega
  rw [Layout.EmptyAt, Layout.putMarked, Function.update_of_ne different]
  exact empty

/-- An empty block is given back with its status. -/
theorem Device.markBufferReceived_eq (loaded : s.rxDCB = some dcb)
    (empty : dcb.key = KeyFlag.emptyReceiverBlock) (rxStatus : Byte) :
    s.markBufferReceived rxStatus =
      ((s.putRxDCB (some (dcb.marked rxStatus))).rxDmaWrite
        dcb.bufferAddress (markedKey dcb.keyValue rxStatus)).record
          (.returned dcb.bufferAddress (markedKey dcb.keyValue rxStatus)) := by
  rw [Device.markBufferReceived, loaded]
  simp only [if_pos empty]
  rfl

theorem Filling.mark (filling : Filling layout words s index stored dcb) (rxStatus : Byte) :
    Placed layout (layout.putMarked words index rxStatus) (s.markBufferReceived rxStatus) index := by
  have key : dcb.key = KeyFlag.emptyReceiverBlock := by
    rw [Dcb.key, filling.keyValue]
    exact filling.empty
  have listed := layout.entry_inside filling.inside
  let next := s.putRxDCB (some (dcb.marked rxStatus))
  have memory : next.memory = ⟨layout.size, words⟩ := filling.memory
  have written := layout.rxDmaWrite memory (layout.entry index) (by omega)
    (markedKey dcb.keyValue rxStatus)
  rw [Device.markBufferReceived_eq filling.loaded key, filling.bufferAddress, written,
    filling.keyValue]
  exact ⟨rfl, filling.pointer, filling.parameters, filling.offset,
    layout.update_describes filling.described _⟩

end Mark

/-- A relation that holds along the basic steps of the receive list. -/
structure ListSteps (related : Device → Device → Prop) : Prop where
  refl : ∀ s, related s s
  trans : ∀ {s t u}, related s t → related t u → related s u
  report : ∀ s flag, related s (s.setRxdmaFlag flag)
  mark : ∀ s rxStatus, rxStatus = 0x01 ∨ rxStatus = 0x03 → related s (s.markBufferReceived rxStatus)
  write : ∀ s dcb data, s.rxDCB = some dcb →
    dcb.dmaBytesWritten < s.parameters.maxReceiverBlockLength →
    dcb.key = KeyFlag.emptyReceiverBlock → related s (s.writeNextByteDma data)
  drop : ∀ s, related s (s.putRxDCB none)
  load : ∀ s offset, offset ≤ 128 → related s (s.putRxListPointerOffset offset).loadRxBuffer

namespace ListSteps

variable {related : Device → Device → Prop} (steps : ListSteps related) (s : Device)

include steps

theorem loadNextRxBuffer : related s s.loadNextRxBuffer.1 := by
  have bound : (if 128 < s.rxListPointerOffset + 1 then 0 else s.rxListPointerOffset + 1) ≤ 128 := by
    split_ifs <;> omega
  simp only [Device.loadNextRxBuffer]
  generalize (if 128 < s.rxListPointerOffset + 1 then 0 else s.rxListPointerOffset + 1) = offset
    at bound
  split_ifs
  · exact steps.trans (steps.load s offset bound) (steps.load _ 0 (Nat.zero_le _))
  · exact steps.load s offset bound

theorem findNextReceiveBuffer : related s s.findNextReceiveBuffer.1 := by
  simp only [Device.findNextReceiveBuffer]
  split_ifs
  · exact steps.refl s
  · exact steps.loadNextRxBuffer s
  · exact steps.trans (steps.loadNextRxBuffer s) (steps.report _ _)

theorem receiveDataBufferByte (data : Byte) : related s (s.receiveDataBufferByte data).1 := by
  rw [Device.receiveDataBufferByte]
  split
  · exact steps.refl s
  · next dcb loaded =>
      split_ifs with full empty
      · exact steps.trans (steps.trans (steps.mark s _ (.inl rfl)) (steps.report _ _)) (steps.drop _)
      · exact steps.write s dcb data loaded (Nat.lt_of_not_le full) empty
      · exact steps.refl s

theorem storeByte (tries : Nat) (data : Byte) : related s (s.storeByte tries data).1 := by
  induction tries generalizing s with
  | zero => exact steps.refl s
  | succ tries ih =>
    have received := steps.receiveDataBufferByte s data
    rw [Device.storeByte]
    split
    · next t found => rwa [found] at received
    · next t found => rwa [found] at received
    · next t found =>
        rw [found] at received
        have sought := steps.findNextReceiveBuffer t
        split
        · next u next =>
            rw [next] at sought
            exact steps.trans (steps.trans received sought) (ih u)
        · next u next =>
            rw [next] at sought
            exact steps.trans (steps.trans received sought) (steps.report u _)

/-- A byte that is not written goes on after the full block. -/
theorem retry {t : Device} {data : Byte} (received : s.receiveDataBufferByte data = (t, .bufferFull))
    (tries : Nat) : related t (s.storeByte (tries + 1) data).1 := by
  have sought := steps.findNextReceiveBuffer t
  rw [Device.storeByte, received]
  dsimp only
  split
  · next u next =>
      rw [next] at sought
      exact steps.trans sought (steps.storeByte u tries data)
  · next u next =>
      rw [next] at sought
      exact steps.trans sought (steps.report u _)

theorem storeBytes (data : List Byte) : related s (s.storeBytes data).1 := by
  induction data generalizing s with
  | nil => exact steps.refl s
  | cons first rest ih =>
    have stored := steps.storeByte s Device.maxTries first
    rw [Device.storeBytes]
    split
    · next t found =>
        rw [found] at stored
        exact steps.trans stored (ih t)
    · next t found => rwa [found] at stored

theorem endFrame : related s s.endFrame := steps.trans (steps.mark s 0x03 (.inr rfl)) (steps.report _ _)

theorem ensureRxBuffer : related s s.ensureRxBuffer := by
  rw [Device.ensureRxBuffer]
  split_ifs
  · exact steps.refl s
  · exact steps.loadNextRxBuffer s

section Line

variable (putFrame : ∀ s frame, related s (s.putFrame frame))
  (putQueue : ∀ s queue, related s (s.putQueue queue))

include putFrame

theorem finishFrame : related s s.finishFrame := by
  have processed : related s s.processCompleteFrame.1 := by
    simp only [Device.processCompleteFrame]
    split_ifs
    · exact steps.trans (steps.trans (steps.storeBytes s _) (steps.endFrame _)) (putFrame _ _)
    · exact steps.trans (steps.storeBytes s _) (putFrame _ _)
    · exact putFrame _ _
  have loaded := steps.trans processed (steps.loadNextRxBuffer _)
  simp only [Device.finishFrame]
  split_ifs
  · exact loaded
  · exact steps.trans loaded (steps.report _ _)

include putQueue

theorem pullBytes (queue : List Byte) : related s (s.pullBytes queue) := by
  induction queue generalizing s with
  | nil => exact steps.refl s
  | cons data rest ih =>
    have ensured := steps.ensureRxBuffer s
    simp only [Device.pullBytes]
    split_ifs
    · exact steps.trans (steps.trans (steps.trans ensured (putQueue _ rest)) (putFrame _ _))
        (steps.finishFrame _ putFrame)
    · exact steps.trans (steps.trans (steps.trans ensured (putQueue _ rest)) (putFrame _ _))
        (ih _)
    · exact steps.trans ensured (steps.report _ _)

theorem processBufferedData : related s s.processBufferedData := by
  rw [Device.processBufferedData]
  split_ifs
  · exact steps.pullBytes s putFrame putQueue _
  · exact steps.refl s

end Line

end ListSteps

/-- The operations on the list leave the line side of the receiver alone, and the trace grows. -/
structure SameLine (s t : Device) : Prop where
  frame : t.hdlcReceiveFrame = s.hdlcReceiveFrame
  queue : t.tcpReceiveBuffer = s.tcpReceiveBuffer
  control : t.rxTransferControl = s.rxTransferControl
  events : s.events <+: t.events

namespace SameLine

theorem refl (s : Device) : SameLine s s := ⟨rfl, rfl, rfl, List.prefix_refl _⟩

theorem trans {s t u : Device} (first : SameLine s t) (second : SameLine t u) : SameLine s u :=
  ⟨second.frame.trans first.frame, second.queue.trans first.queue,
    second.control.trans first.control, first.events.trans second.events⟩

theorem putRxDCB (s : Device) (dcb : Option Dcb) : SameLine s (s.putRxDCB dcb) :=
  ⟨rfl, rfl, rfl, List.prefix_refl _⟩

theorem putRxListPointerOffset (s : Device) (offset : Nat) :
    SameLine s (s.putRxListPointerOffset offset) := ⟨rfl, rfl, rfl, List.prefix_refl _⟩

theorem record (s : Device) (event : Event) : SameLine s (s.record event) :=
  ⟨rfl, rfl, rfl, List.prefix_append _ _⟩

theorem rxDmaWrite (s : Device) (address : Nat) (data : Word) :
    SameLine s (s.rxDmaWrite address data) := ⟨rfl, rfl, rfl, List.prefix_append _ _⟩

theorem setRxdmaFlag (s : Device) (flag : Word) : SameLine s (s.setRxdmaFlag flag) := by
  refine ⟨s.setRxdmaFlag_hdlcReceiveFrame flag, s.setRxdmaFlag_tcpReceiveBuffer flag,
    s.setRxdmaFlag_rxTransferControl flag, ?_⟩
  rw [s.setRxdmaFlag_events]
  exact List.prefix_append _ _

theorem markBufferReceived (s : Device) (rxStatus : Byte) :
    SameLine s (s.markBufferReceived rxStatus) := by
  rw [Device.markBufferReceived]
  split
  · exact refl s
  · dsimp only
    split_ifs
    · exact ((putRxDCB s _).trans (rxDmaWrite _ _ _)).trans (record _ _)
    · exact refl s

theorem writeNextByteDma (s : Device) (data : Byte) : SameLine s (s.writeNextByteDma data) := by
  rw [Device.writeNextByteDma]
  split
  · exact refl s
  · exact ((putRxDCB s _).trans (rxDmaWrite _ _ _)).trans (rxDmaWrite _ _ _)

theorem loadRxBuffer (s : Device) : SameLine s s.loadRxBuffer := by
  rw [Device.loadRxBuffer]
  split
  · exact putRxDCB s none
  · exact (putRxDCB s _).trans (record _ _)

theorem steps : ListSteps SameLine where
  refl := refl
  trans := trans
  report := setRxdmaFlag
  mark := fun s rxStatus _ => markBufferReceived s rxStatus
  write := fun s _ data _ _ _ => writeNextByteDma s data
  drop := fun s => putRxDCB s none
  load := fun s offset _ => (putRxListPointerOffset s offset).trans (loadRxBuffer _)

end SameLine

/-- The trace grows by allowed events only. -/
def Grows (allowed : Event → Prop) (s t : Device) : Prop :=
  ∃ events, t.events = s.events ++ events ∧ ∀ event ∈ events, allowed event

namespace Grows

variable {allowed : Event → Prop} {s t u : Device}

theorem of_same (same : t.events = s.events) : Grows allowed s t :=
  ⟨[], same.trans (List.append_nil _).symm, fun _ member => absurd member List.not_mem_nil⟩

theorem trans (first : Grows allowed s t) (second : Grows allowed t u) : Grows allowed s u := by
  obtain ⟨middle, grown, early⟩ := first
  obtain ⟨last, later, late⟩ := second
  refine ⟨middle ++ last, ?_, ?_⟩
  · rw [later, grown, List.append_assoc]
  · intro event member
    rcases List.mem_append.mp member with before | after
    · exact early event before
    · exact late event after

theorem record (s : Device) {event : Event} (permitted : allowed event) :
    Grows allowed s (s.record event) :=
  ⟨[event], rfl, fun _ member => List.mem_singleton.mp member ▸ permitted⟩

theorem setRxdmaFlag (s : Device) (flag : Word) (permitted : allowed .listEmpty) :
    Grows allowed s (s.setRxdmaFlag flag) := by
  refine ⟨_, s.setRxdmaFlag_events flag, ?_⟩
  intro event member
  split_ifs at member
  · exact List.mem_singleton.mp member ▸ permitted
  · exact absurd member List.not_mem_nil

theorem rxDmaWrite (s : Device) {address : Nat} {data : Word}
    (permitted : allowed (.write address data)) : Grows allowed s (s.rxDmaWrite address data) :=
  record (s.dmaWrite address data) permitted

theorem markBufferReceived (s : Device) (rxStatus : Byte)
    (writes : ∀ address data, allowed (.write address data))
    (returns : ∀ address keyValue, allowed (.returned address (markedKey keyValue rxStatus))) :
    Grows allowed s (s.markBufferReceived rxStatus) := by
  rcases loaded : s.rxDCB with _ | dcb
  · rw [Device.markBufferReceived, loaded]
    exact of_same rfl
  by_cases empty : dcb.key = KeyFlag.emptyReceiverBlock
  · rw [Device.markBufferReceived_eq loaded empty]
    exact (rxDmaWrite (s.putRxDCB _) (writes _ _)).trans (record _ (returns _ _))
  · rw [Device.markBufferReceived, loaded]
    simp only [if_neg empty]
    exact of_same rfl

theorem writeNextByteDma (s : Device) (data : Byte)
    (writes : ∀ address data, allowed (.write address data)) :
    Grows allowed s (s.writeNextByteDma data) := by
  rw [Device.writeNextByteDma]
  split
  · exact of_same rfl
  · exact (rxDmaWrite (s.putRxDCB _) (writes _ _)).trans (rxDmaWrite _ (writes _ _))

theorem loadRxBuffer (s : Device) (loads : ∀ offset, allowed (.load offset)) :
    Grows allowed s s.loadRxBuffer := by
  rw [Device.loadRxBuffer]
  split
  · exact of_same rfl
  · exact record (s.putRxDCB _) (loads _)

theorem loadNextRxBuffer (s : Device) (loads : ∀ offset, allowed (.load offset)) :
    Grows allowed s s.loadNextRxBuffer.1 := by
  have first (t : Device) (offset : Nat) :
      Grows allowed t (t.putRxListPointerOffset offset).loadRxBuffer :=
    loadRxBuffer (t.putRxListPointerOffset offset) loads
  simp only [Device.loadNextRxBuffer]
  split_ifs
  · exact (first s _).trans (first _ _)
  · exact first s _
  · exact (first s _).trans (first _ _)
  · exact first s _

end Grows

end Nd100x.Hdlc
