import Nd100x.Hdlc.Receiver

namespace Nd100x.Hdlc

namespace Device

/-- The key of a descriptor of the receive list, as it stands in memory. -/
def keyAt (s : Device) (offset : Nat) : Word :=
  s.dmaRead (s.rxListPointer + offset * 4) &&& KeyFlag.maskKey

/-- The next buffer is valid exactly when it would be loaded, and only a list without a next buffer
is reported as empty. -/
def ListEmptyTold (s : Device) : Prop :=
  s.isNextRxbufValid = s.loadNextRxBuffer.2 ∧
    ∀ flag, anyBit flag Rts.listEmpty = false → anyBit (s.reportedFlag flag) Rts.listEmpty →
      s.loadNextRxBuffer.2 = false

/-- The descriptor after the position tells what the load will find. The load stays on it unless it
is a new list pointer or the position is the last of the list. -/
def NextTells (s : Device) : Prop :=
  if s.rxListPointer = 0 then s.keyAt (s.rxListPointerOffset + 1) ≠ KeyFlag.emptyReceiverBlock
  else if s.rxListPointerOffset < 128 then
    ¬ (s.keyAt (s.rxListPointerOffset + 1) = KeyFlag.newListPointer ∧
      s.keyAt 0 = KeyFlag.emptyReceiverBlock)
  else
    (s.keyAt (s.rxListPointerOffset + 1) = KeyFlag.emptyReceiverBlock ↔
      s.keyAt 0 = KeyFlag.emptyReceiverBlock)

section Load

variable (s : Device)

theorem readDcbWords_key (description : Dcb) (address : Nat) :
    (s.readDcbWords description address).key = s.dmaRead address &&& KeyFlag.maskKey := by
  rw [readDcbWords]
  split_ifs with zero
  · rfl
  · rfl

theorem loadRxBuffer_key : s.loadRxBuffer.rxKey =
    if s.rxListPointer = 0 then 0 else s.keyAt s.rxListPointerOffset := by
  by_cases unset : s.rxListPointer = 0
  · rw [if_pos unset, loadRxBuffer, loadBufferDescription, if_pos unset]
    rfl
  · rw [if_neg unset, loadRxBuffer, loadBufferDescription, if_neg unset]
    exact s.readDcbWords_key _ _

theorem loadRxBuffer_keyAt (offset : Nat) : s.loadRxBuffer.keyAt offset = s.keyAt offset := by
  rw [loadRxBuffer]
  split <;> rfl

theorem loadRxBuffer_pointer : s.loadRxBuffer.rxListPointer = s.rxListPointer := by
  rw [loadRxBuffer]
  split <;> rfl

/-- The load finds the key at the offset after the position, or at the start of the list. -/
theorem loadNextRxBuffer_found {offset : Nat}
    (next : (if 128 < s.rxListPointerOffset + 1 then 0 else s.rxListPointerOffset + 1) = offset)
    (set : s.rxListPointer ≠ 0) :
    s.loadNextRxBuffer.2 = decide (
      (if s.keyAt offset = KeyFlag.newListPointer then s.keyAt 0 else s.keyAt offset) =
        KeyFlag.emptyReceiverBlock) := by
  have loaded : (s.putRxListPointerOffset offset).loadRxBuffer.rxKey = s.keyAt offset := by
    rw [loadRxBuffer_key, putRxListPointerOffset_rxListPointer, if_neg set]
    rfl
  simp only [loadNextRxBuffer, next, loaded]
  by_cases isPointer : s.keyAt offset = KeyFlag.newListPointer
  · have pointer : ((s.putRxListPointerOffset offset).loadRxBuffer.putRxListPointerOffset
        0).rxListPointer ≠ 0 := by
      rw [putRxListPointerOffset_rxListPointer, loadRxBuffer_pointer]
      exact set
    rw [if_pos isPointer, if_pos isPointer, loadRxBuffer_key, if_neg pointer]
    congr 2
    exact loadRxBuffer_keyAt _ 0
  · rw [if_neg isPointer, if_neg isPointer, loaded]

theorem loadNextRxBuffer_unset (unset : s.rxListPointer = 0) : s.loadNextRxBuffer.2 = false := by
  have nothing (t : Device) (none_ : t.rxListPointer = 0) : t.loadRxBuffer.rxKey = 0 := by
    rw [loadRxBuffer_key, if_pos none_]
  have first := nothing (s.putRxListPointerOffset
    (if 128 < s.rxListPointerOffset + 1 then 0 else s.rxListPointerOffset + 1)) unset
  have other : (0 : Word) ≠ KeyFlag.newListPointer := by decide
  simp only [loadNextRxBuffer]
  rw [first, if_neg other, first]
  rfl

end Load

section Report

variable {s : Device}

theorem isNextRxbufValid_eq : s.isNextRxbufValid =
    decide (s.keyAt (s.rxListPointerOffset + 1) = KeyFlag.emptyReceiverBlock) := rfl

/-- Only a list whose next buffer is not valid is reported as empty. -/
theorem reportedFlag_listEmpty {flag : Word} (other : anyBit flag Rts.listEmpty = false)
    (reported : anyBit (s.reportedFlag flag) Rts.listEmpty) : s.isNextRxbufValid = false := by
  by_contra valid
  rw [Bool.not_eq_false] at valid
  have kept : s.reportedFlag flag = flag ||| (Rts.signalDetector ||| Rts.dataSetReady) := by
    rw [reportedFlag, if_pos valid]
  have others : (Rts.signalDetector ||| Rts.dataSetReady) &&& Rts.listEmpty = 0 := by decide
  have clear : flag &&& Rts.listEmpty = 0 := by simpa [anyBit] using other
  rw [kept, anyBit, BitVec.and_or_distrib_right, clear, others] at reported
  exact absurd reported (by decide)

theorem listEmptyTold_of_same (same : s.isNextRxbufValid = s.loadNextRxBuffer.2) :
    s.ListEmptyTold :=
  ⟨same, fun _ other reported => same ▸ reportedFlag_listEmpty other reported⟩

end Report

/-- The truth is told exactly when the next descriptor is the one that will be loaded, or agrees
with it. -/
theorem listEmptyTold_iff (s : Device) : s.ListEmptyTold ↔ s.NextTells := by
  have reduced : s.ListEmptyTold ↔ s.isNextRxbufValid = s.loadNextRxBuffer.2 :=
    ⟨And.left, listEmptyTold_of_same⟩
  have distinct : KeyFlag.newListPointer ≠ KeyFlag.emptyReceiverBlock := by decide
  rw [reduced, isNextRxbufValid_eq, NextTells]
  by_cases unset : s.rxListPointer = 0
  · rw [if_pos unset, loadNextRxBuffer_unset s unset, decide_eq_false_iff_not]
  rw [if_neg unset]
  by_cases inside : s.rxListPointerOffset < 128
  · rw [if_pos inside, loadNextRxBuffer_found s (if_neg (by omega)) unset, decide_eq_decide]
    by_cases isPointer : s.keyAt (s.rxListPointerOffset + 1) = KeyFlag.newListPointer
    · simp [isPointer, distinct]
    · simp [isPointer]
  · rw [if_neg inside, loadNextRxBuffer_found s (if_pos (by omega)) unset, decide_eq_decide]
    by_cases isPointer : s.keyAt 0 = KeyFlag.newListPointer
    · simp [isPointer]
    · simp [isPointer]

/-- The list has one empty block, which is followed by a new list pointer. -/
def oneBlockRing : Device where
  memory := ⟨2 ^ 16, fun address => if address = 0x1000 then 0x0200 else 0x0600⟩
  parameters := ⟨0, 0, 64⟩
  outboundBuffer := []
  txListPointer := 0
  txListPointerOffset := 0
  txDCB := none
  rxListPointer := 0x1000
  rxListPointerOffset := 0
  rxDCB := none
  hdlcReceiveFrame := ⟨.idle, Vector.replicate maxFrameSize 0, 0, 0, fcsInit, false, false⟩
  dmaSenderState := .stopped
  rxTransferStatus := Rts.receiverActive
  rxTransferControl := Rtc.enableReceiverDMA
  txTransferStatus := 0
  txTransferControl := 0
  interruptBits := 0
  tcpReceiveBuffer := []
  processTcpBufDelay := 0
  sent := []
  overrun := false
  events := []

/-- The ring has an empty block at its start, but the list is reported as empty. -/
theorem oneBlockRing_misreported : oneBlockRing.loadNextRxBuffer.2 = true ∧
    oneBlockRing.isNextRxbufValid = false ∧ ¬ oneBlockRing.ListEmptyTold := by
  have loads : oneBlockRing.loadNextRxBuffer.2 = true := by decide
  have invalid : oneBlockRing.isNextRxbufValid = false := by decide
  refine ⟨loads, invalid, fun told => ?_⟩
  rw [told.1, loads] at invalid
  cases invalid

end Device

end Nd100x.Hdlc
