import Nd100x.Hdlc.ListEmpty
import Nd100x.Hdlc.Reception
import Mathlib.Logic.Function.Iterate

namespace Nd100x.Hdlc

open Nd100x.Library

/-- These events fill a descriptor and its buffer. -/
def Event.isFill : Event → Bool
  | .write _ _ | .returned _ _ => true
  | _ => false

namespace Device

def fills (s : Device) : List Event := s.events.filter Event.isFill

/-- One tick handles the next completed frame, which waits while no empty block is found. -/
def takeFrame (s : Device) : List Frame → Device × List Frame
  | [] => (s, [])
  | completed :: rest =>
    let s := s.ensureRxBuffer
    if s.rxKey = KeyFlag.emptyReceiverBlock then ((s.putFrame completed).finishFrame, rest)
    else (s.setRxdmaFlag (Rts.receiverOverrun ||| Rts.listEmpty), completed :: rest)

/-- The list position is loaded, and the frames arrive one after the other. -/
def takeFrames (s : Device) (frames : List Frame) (ticks : Nat) : Device × List Frame :=
  (fun link : Device × List Frame => link.1.takeFrame link.2)^[ticks] (s.loadRxBuffer, frames)

/-- A bad frame that a good frame follows is taken in a list of one block only. -/
def SparesBuffer (s : Device) : List Frame → Prop
  | [] => True
  | completed :: rest =>
    completed.crcValid = true ∨ (∀ later ∈ rest, later.crcValid = false) ∨
      (s.ensureRxBuffer.rxKey = KeyFlag.emptyReceiverBlock →
        s.ensureRxBuffer.rxListPointerOffset = 0 ∧
          s.ensureRxBuffer.keyAt 1 = KeyFlag.newListPointer)

/-- The devices differ in the frame under reception, in the queued bytes and in what was loaded
and reported only. -/
def Alike (s t : Device) : Prop :=
  ∃ frame queue events,
    t = { s with hdlcReceiveFrame := frame, tcpReceiveBuffer := queue, events := events } ∧
      events.filter Event.isFill = s.fills

namespace Alike

variable {s t : Device}

theorem refl (s : Device) : Alike s s := ⟨_, _, _, rfl, rfl⟩

theorem fills (alike : Alike s t) : t.fills = s.fills := by
  obtain ⟨frame, queue, events, rfl, same⟩ := alike
  exact same

theorem trans {u : Device} (first : Alike s t) (second : Alike t u) : Alike s u := by
  obtain ⟨frame, queue, events, rfl, same⟩ := first
  obtain ⟨frame, queue, events, rfl, again⟩ := second
  exact ⟨_, _, _, rfl, again.trans same⟩

theorem symm (alike : Alike s t) : Alike t s := by
  obtain ⟨frame, queue, events, rfl, same⟩ := alike
  exact ⟨s.hdlcReceiveFrame, s.tcpReceiveBuffer, s.events, rfl, same.symm⟩

theorem record (alike : Alike s t) (event : Event) : Alike (s.record event) (t.record event) := by
  obtain ⟨frame, queue, events, rfl, same⟩ := alike
  refine ⟨frame, queue, events ++ [event], rfl, ?_⟩
  rw [List.filter_append, same, Device.fills, ← List.filter_append]
  rfl

theorem rxKey (alike : Alike s t) : t.rxKey = s.rxKey := by
  obtain ⟨frame, queue, events, rfl, -⟩ := alike
  rfl

/-- A change that looks neither at the frame nor at the events keeps devices alike. -/
theorem change (alike : Alike s t) {f : Device → Device}
    (blind : ∀ u frame queue events,
      f { u with hdlcReceiveFrame := frame, tcpReceiveBuffer := queue, events := events } =
        { f u with hdlcReceiveFrame := frame, tcpReceiveBuffer := queue, events := events }) :
    Alike (f s) (f t) := by
  obtain ⟨frame, queue, events, rfl, same⟩ := alike
  have unchanged := congrArg Device.events (blind s s.hdlcReceiveFrame s.tcpReceiveBuffer s.events)
  have kept : (f s).events = s.events := unchanged
  refine ⟨frame, queue, events, blind s frame queue events, ?_⟩
  rw [same, Device.fills, Device.fills, kept]

theorem putRxDCB (alike : Alike s t) (dcb : Option Dcb) :
    Alike (s.putRxDCB dcb) (t.putRxDCB dcb) :=
  alike.change (f := fun u => u.putRxDCB dcb) fun _ _ _ _ => rfl

theorem putRxListPointerOffset (alike : Alike s t) (offset : Nat) :
    Alike (s.putRxListPointerOffset offset) (t.putRxListPointerOffset offset) :=
  alike.change (f := fun u => u.putRxListPointerOffset offset) fun _ _ _ _ => rfl

theorem rxDmaWrite (alike : Alike s t) (address : Nat) (data : Word) :
    Alike (s.rxDmaWrite address data) (t.rxDmaWrite address data) :=
  (alike.change (f := fun u => u.dmaWrite address data) fun _ _ _ _ => rfl).record _

theorem rxDCB (alike : Alike s t) : t.rxDCB = s.rxDCB := by
  obtain ⟨frame, queue, events, rfl, -⟩ := alike
  rfl

theorem loadRxBuffer (alike : Alike s t) : Alike s.loadRxBuffer t.loadRxBuffer := by
  have described : t.loadBufferDescription t.rxListPointer t.rxListPointerOffset =
      s.loadBufferDescription s.rxListPointer s.rxListPointerOffset := by
    obtain ⟨frame, queue, events, rfl, -⟩ := alike
    rfl
  have offset : t.rxListPointerOffset = s.rxListPointerOffset := by
    obtain ⟨frame, queue, events, rfl, -⟩ := alike
    rfl
  rw [Device.loadRxBuffer, Device.loadRxBuffer, described, offset]
  cases s.loadBufferDescription s.rxListPointer s.rxListPointerOffset with
  | none => exact alike.putRxDCB none
  | some dcb => exact (alike.putRxDCB _).record _

theorem loadNextRxBuffer (alike : Alike s t) :
    Alike s.loadNextRxBuffer.1 t.loadNextRxBuffer.1 ∧
      t.loadNextRxBuffer.2 = s.loadNextRxBuffer.2 := by
  have offset : t.rxListPointerOffset = s.rxListPointerOffset := by
    obtain ⟨frame, queue, events, rfl, -⟩ := alike
    rfl
  simp only [Device.loadNextRxBuffer, offset]
  generalize (if 128 < s.rxListPointerOffset + 1 then 0 else s.rxListPointerOffset + 1) = next
  have first := (alike.putRxListPointerOffset next).loadRxBuffer
  have again := (first.putRxListPointerOffset 0).loadRxBuffer
  rw [first.rxKey]
  split_ifs
  · exact ⟨again, by rw [again.rxKey]⟩
  · exact ⟨first, by rw [first.rxKey]⟩

theorem stopReceiver (alike : Alike s t) : Alike s.stopReceiver t.stopReceiver :=
  alike.change (f := Device.stopReceiver) fun _ _ _ _ => rfl

theorem branch {u v : Device} (alike : Alike s t) (others : Alike u v) (condition : Prop)
    [Decidable condition] : Alike (if condition then s else u) (if condition then t else v) := by
  split_ifs
  · exact alike
  · exact others

theorem rxTransferControl (alike : Alike s t) : t.rxTransferControl = s.rxTransferControl := by
  obtain ⟨frame, queue, events, rfl, -⟩ := alike
  rfl

theorem setRxdmaFlag (alike : Alike s t) (flag : Word) :
    Alike (s.setRxdmaFlag flag) (t.setRxdmaFlag flag) := by
  have stopped := alike.stopReceiver.branch alike (anyBit flag Rts.listEmpty)
  simp only [Device.setRxdmaFlag]
  generalize (if anyBit flag Rts.listEmpty then s.stopReceiver else s) = u at stopped ⊢
  generalize (if anyBit flag Rts.listEmpty then t.stopReceiver else t) = v at stopped ⊢
  have status : v.rxTransferStatus = u.rxTransferStatus := by
    obtain ⟨frame, queue, events, rfl, -⟩ := stopped
    rfl
  have reported : v.reportedFlag flag = u.reportedFlag flag := by
    obtain ⟨frame, queue, events, rfl, -⟩ := stopped
    rfl
  rw [stopped.rxTransferControl, status, reported]
  generalize (if requestsDma _ _ _ then _ else _) = word
  have put : Alike (u.putRxTransferStatus word) (v.putRxTransferStatus word) :=
    stopped.change (f := fun w => w.putRxTransferStatus word) fun _ _ _ _ => rfl
  have recorded := (put.record .listEmpty).branch put (anyBit (u.reportedFlag flag) Rts.listEmpty)
  rw [recorded.rxTransferControl]
  exact (recorded.change (f := fun w => w.setInterruptBit 13) fun _ _ _ _ => rfl).branch recorded _

theorem markBufferReceived (alike : Alike s t) (rxStatus : Byte) :
    Alike (s.markBufferReceived rxStatus) (t.markBufferReceived rxStatus) := by
  rw [Device.markBufferReceived, Device.markBufferReceived, alike.rxDCB]
  cases s.rxDCB with
  | none => exact alike
  | some dcb =>
    dsimp only
    split_ifs
    · exact ((alike.putRxDCB _).rxDmaWrite _ _).record _
    · exact alike

theorem writeNextByteDma (alike : Alike s t) (data : Byte) :
    Alike (s.writeNextByteDma data) (t.writeNextByteDma data) := by
  have read (address : Nat) : t.dmaRead address = s.dmaRead address := by
    obtain ⟨frame, queue, events, rfl, -⟩ := alike
    rfl
  rw [Device.writeNextByteDma, Device.writeNextByteDma, alike.rxDCB]
  cases s.rxDCB with
  | none => exact alike
  | some dcb =>
    simp only [read]
    exact ((alike.putRxDCB _).rxDmaWrite _ _).rxDmaWrite _ _

theorem findNextReceiveBuffer (alike : Alike s t) :
    Alike s.findNextReceiveBuffer.1 t.findNextReceiveBuffer.1 ∧
      t.findNextReceiveBuffer.2 = s.findNextReceiveBuffer.2 := by
  obtain ⟨loaded, found⟩ := alike.loadNextRxBuffer
  simp only [Device.findNextReceiveBuffer, alike.rxKey, found]
  split_ifs
  · exact ⟨alike, rfl⟩
  · exact ⟨loaded, rfl⟩
  · exact ⟨loaded.setRxdmaFlag _, rfl⟩

theorem receiveDataBufferByte (alike : Alike s t) (data : Byte) :
    Alike (s.receiveDataBufferByte data).1 (t.receiveDataBufferByte data).1 ∧
      (t.receiveDataBufferByte data).2 = (s.receiveDataBufferByte data).2 := by
  have parameters : t.parameters = s.parameters := by
    obtain ⟨frame, queue, events, rfl, -⟩ := alike
    rfl
  rw [Device.receiveDataBufferByte, Device.receiveDataBufferByte, alike.rxDCB, parameters]
  cases s.rxDCB with
  | none => exact ⟨alike, rfl⟩
  | some dcb =>
    dsimp only
    split_ifs
    · exact ⟨((alike.markBufferReceived _).setRxdmaFlag _).putRxDCB none, rfl⟩
    · exact ⟨alike.writeNextByteDma data, rfl⟩
    · exact ⟨alike, rfl⟩

theorem storeByte (alike : Alike s t) (tries : Nat) (data : Byte) :
    Alike (Device.storeByte tries s data).1 (Device.storeByte tries t data).1 ∧
      (Device.storeByte tries t data).2 = (Device.storeByte tries s data).2 := by
  induction tries generalizing s t with
  | zero => exact ⟨alike, rfl⟩
  | succ tries ih =>
    obtain ⟨received, status⟩ := alike.receiveDataBufferByte data
    rw [Device.storeByte, Device.storeByte]
    rcases first : s.receiveDataBufferByte data with ⟨s', answer⟩
    rcases second : t.receiveDataBufferByte data with ⟨t', other⟩
    rw [first, second] at received status
    dsimp only at received status
    subst status
    cases other with
    | ok => exact ⟨received, rfl⟩
    | noBuffer => exact ⟨received, rfl⟩
    | bufferFull =>
      obtain ⟨sought, found⟩ := received.findNextReceiveBuffer
      rcases third : s'.findNextReceiveBuffer with ⟨s'', has⟩
      rcases fourth : t'.findNextReceiveBuffer with ⟨t'', hasToo⟩
      rw [third, fourth] at sought found
      dsimp only at sought found
      subst found
      cases hasToo with
      | true =>
        simp only [third, fourth]
        exact ih sought
      | false =>
        simp only [third, fourth]
        exact ⟨sought.setRxdmaFlag _, trivial⟩

theorem storeBytes (alike : Alike s t) (data : List Byte) :
    Alike (s.storeBytes data).1 (t.storeBytes data).1 ∧
      (t.storeBytes data).2 = (s.storeBytes data).2 := by
  induction data generalizing s t with
  | nil => exact ⟨alike, rfl⟩
  | cons byte rest ih =>
    obtain ⟨stored, answer⟩ := alike.storeByte maxTries byte
    rw [Device.storeBytes, Device.storeBytes]
    rcases first : Device.storeByte maxTries s byte with ⟨s', has⟩
    rcases second : Device.storeByte maxTries t byte with ⟨t', hasToo⟩
    rw [first, second] at stored answer
    dsimp only at stored answer
    subst answer
    cases hasToo with
    | true => exact ih stored
    | false => exact ⟨stored, rfl⟩

theorem putFrame (alike : Alike s t) (first second : Frame) :
    Alike (s.putFrame first) (t.putFrame second) := by
  obtain ⟨other, queue, events, rfl, same⟩ := alike
  exact ⟨second, queue, events, rfl, same⟩

theorem ensureRxBuffer (alike : Alike s t) : Alike s.ensureRxBuffer t.ensureRxBuffer := by
  rw [Device.ensureRxBuffer, Device.ensureRxBuffer, alike.rxKey]
  exact alike.branch alike.loadNextRxBuffer.1 _

theorem endFrame (alike : Alike s t) : Alike s.endFrame t.endFrame :=
  (alike.markBufferReceived _).setRxdmaFlag _

theorem processCompleteFrame (alike : Alike s t) (frame : Frame) :
    Alike (s.putFrame frame).processCompleteFrame.1 (t.putFrame frame).processCompleteFrame.1 := by
  have put := alike.putFrame frame frame
  simp only [Device.processCompleteFrame, putFrame_hdlcReceiveFrame]
  by_cases valid : frame.crcValid = true
  · obtain ⟨stored, answer⟩ := put.storeBytes (frame.bytes.take (frame.frameLength - 2))
    simp only [valid, if_true, answer]
    exact (stored.endFrame.branch stored _).putFrame _ _
  · simp only [valid]
    exact put.putFrame _ _

/-- Devices that are alike take a completed frame alike. -/
theorem finishFrame (alike : Alike s t) (frame : Frame) :
    Alike (s.putFrame frame).finishFrame (t.putFrame frame).finishFrame := by
  obtain ⟨loaded, found⟩ := (alike.processCompleteFrame frame).loadNextRxBuffer
  simp only [Device.finishFrame, found]
  exact loaded.branch (loaded.setRxdmaFlag _) _

end Alike

section Loads

variable {s : Device}

/-- The description under reception is the one that stands in memory. -/
def Loaded (s : Device) : Prop :=
  s.rxDCB = s.loadBufferDescription s.rxListPointer s.rxListPointerOffset

theorem loadRxBuffer_set (set : s.rxListPointer ≠ 0) : s.loadRxBuffer =
    (s.putRxDCB (s.loadBufferDescription s.rxListPointer s.rxListPointerOffset)).record
      (.load s.rxListPointerOffset) := by
  rcases described : s.loadBufferDescription s.rxListPointer s.rxListPointerOffset with _ | dcb
  · rw [loadBufferDescription, if_neg set] at described
    cases described
  · rw [loadRxBuffer, described]

theorem loaded_loadRxBuffer (s : Device) : s.loadRxBuffer.Loaded := by
  rcases described : s.loadBufferDescription s.rxListPointer s.rxListPointerOffset with _ | dcb
  · rw [loadRxBuffer, described]
    exact described.symm
  · rw [loadRxBuffer, described]
    exact described.symm

theorem loaded_loadNextRxBuffer (s : Device) : s.loadNextRxBuffer.1.Loaded := by
  simp only [loadNextRxBuffer]
  split_ifs <;> exact loaded_loadRxBuffer _

theorem loadBufferDescription_congr {t : Device} (memory : t.memory = s.memory)
    (parameters : t.parameters = s.parameters) :
    t.loadBufferDescription = s.loadBufferDescription := by
  have read : t.dmaRead = s.dmaRead := by
    funext address
    rw [dmaRead, dmaRead, memory]
  have words : t.readDcbWords = s.readDcbWords := by
    funext description address
    rw [readDcbWords, readDcbWords, read]
  funext listPointer offset
  rw [loadBufferDescription, loadBufferDescription, words, pickDisplacement, pickDisplacement,
    parameters]

theorem Loaded.setRxdmaFlag (loaded : s.Loaded) (flag : Word) : (s.setRxdmaFlag flag).Loaded := by
  rw [Loaded, setRxdmaFlag_rxDCB, setRxdmaFlag_rxListPointer, setRxdmaFlag_rxListPointerOffset,
    loadBufferDescription_congr (setRxdmaFlag_memory s flag) (setRxdmaFlag_parameters s flag)]
  exact loaded

theorem Loaded.ensureRxBuffer (loaded : s.Loaded) : s.ensureRxBuffer.Loaded := by
  rw [Device.ensureRxBuffer]
  split_ifs
  · exact loaded
  · exact loaded_loadNextRxBuffer s

theorem Loaded.takeFrame (loaded : s.Loaded) (frames : List Frame) :
    (s.takeFrame frames).1.Loaded := by
  cases frames with
  | nil => exact loaded
  | cons completed rest =>
    simp only [Device.takeFrame]
    split_ifs
    · simp only [finishFrame]
      split_ifs
      · exact loaded_loadNextRxBuffer _
      · exact (loaded_loadNextRxBuffer _).setRxdmaFlag _
    · exact loaded.ensureRxBuffer.setRxdmaFlag _

theorem record_fills {event : Event} (other : event.isFill = false) :
    (s.record event).fills = s.fills := by
  rw [fills, fills, record_events, List.filter_append, List.filter_singleton, other]
  exact List.append_nil _

theorem loadRxBuffer_fills (s : Device) : s.loadRxBuffer.fills = s.fills := by
  rw [loadRxBuffer]
  split
  · rfl
  · exact record_fills rfl

theorem loadNextRxBuffer_fills (s : Device) : s.loadNextRxBuffer.1.fills = s.fills := by
  simp only [loadNextRxBuffer]
  generalize (if 128 < s.rxListPointerOffset + 1 then 0 else s.rxListPointerOffset + 1) = offset
  split_ifs
  · exact (loadRxBuffer_fills _).trans (loadRxBuffer_fills _)
  · exact loadRxBuffer_fills _

theorem setRxdmaFlag_fills (s : Device) (flag : Word) : (s.setRxdmaFlag flag).fills = s.fills := by
  rw [fills, fills, setRxdmaFlag_events, List.filter_append]
  split_ifs <;> simp [Event.isFill]

theorem ensureRxBuffer_fills (s : Device) : s.ensureRxBuffer.fills = s.fills := by
  rw [ensureRxBuffer]
  split_ifs
  · rfl
  · exact loadNextRxBuffer_fills s

theorem ensureRxBuffer_empty (empty : s.rxKey = KeyFlag.emptyReceiverBlock) :
    s.ensureRxBuffer = s := if_pos empty

/-- A load replaces the description only. -/
theorem loadRxBuffer_alike (s : Device) : ∃ dcb, Alike (s.putRxDCB dcb) s.loadRxBuffer := by
  rw [loadRxBuffer]
  split
  · exact ⟨none, Alike.refl _⟩
  · next dcb _ =>
      exact ⟨some dcb, _, _, _, rfl, by
        rw [putRxDCB_events, List.filter_append]
        exact List.append_nil _⟩

/-- What is loaded can be loaded again. -/
theorem Loaded.reload (loaded : s.Loaded) (set : s.rxListPointer ≠ 0) (dcb : Option Dcb) :
    Alike s (s.putRxDCB dcb).loadRxBuffer := by
  have still : (s.putRxDCB dcb).rxListPointer ≠ 0 := set
  have described := loadBufferDescription_congr (s := s) (t := s.putRxDCB dcb) rfl rfl
  rw [loadRxBuffer_set still, described, putRxDCB_rxListPointer, putRxDCB_rxListPointerOffset,
    ← loaded]
  exact ⟨_, _, _, rfl, by
    rw [putRxDCB_events, putRxDCB_events, List.filter_append]
    exact List.append_nil _⟩

/-- In a list of one block the next load finds the same block. -/
theorem Loaded.loadNext_ring (loaded : s.Loaded) (empty : s.rxKey = KeyFlag.emptyReceiverBlock)
    (start : s.rxListPointerOffset = 0) (ring : s.keyAt 1 = KeyFlag.newListPointer) :
    Alike s s.loadNextRxBuffer.1 ∧ s.loadNextRxBuffer.2 = true := by
  have set : s.rxListPointer ≠ 0 := by
    intro unset
    rw [rxKey, loaded, loadBufferDescription, if_pos unset] at empty
    exact absurd empty (by decide)
  have next : (if 128 < s.rxListPointerOffset + 1 then 0 else s.rxListPointerOffset + 1) = 1 := by
    rw [start]
    rfl
  have pointer : (s.putRxListPointerOffset 1).loadRxBuffer.rxKey = KeyFlag.newListPointer := by
    rw [loadRxBuffer_key, putRxListPointerOffset_rxListPointer, if_neg set]
    exact ring
  obtain ⟨dcb, moved⟩ := (s.putRxListPointerOffset 1).loadRxBuffer_alike
  have back : ((s.putRxListPointerOffset 1).putRxDCB dcb).putRxListPointerOffset 0 =
      s.putRxDCB dcb := by
    rw [← start]
    rfl
  have again : Alike s
      ((s.putRxListPointerOffset 1).loadRxBuffer.putRxListPointerOffset 0).loadRxBuffer := by
    have reloaded := (moved.putRxListPointerOffset 0).loadRxBuffer
    rw [back] at reloaded
    exact (loaded.reload set dcb).trans reloaded
  simp only [loadNextRxBuffer, next, pointer, if_true]
  exact ⟨again, by rw [again.rxKey, empty, decide_eq_true rfl]⟩

end Loads

/-- One link has the bad frames and the other has not, but they fill their blocks alike. -/
structure Spared (link other : Device × List Frame) : Prop where
  pending : other.2 = link.2.filter Frame.crcValid
  filled : other.1.fills = link.1.fills
  loaded : link.1.Loaded
  alike : other.2 ≠ [] → Alike other.1.ensureRxBuffer link.1.ensureRxBuffer

section Spare

variable {s t : Device} {frames others : List Frame}

/-- A bad frame fills nothing. -/
theorem takeFrame_bad {completed : Frame} (bad : completed.crcValid = false) (rest : List Frame) :
    (s.takeFrame (completed :: rest)).1.fills = s.fills := by
  simp only [takeFrame]
  split_ifs
  · have dropped : ((s.ensureRxBuffer.putFrame completed).processCompleteFrame).1 =
        (s.ensureRxBuffer.putFrame completed).clearReceiveFrameState := by
      simp [processCompleteFrame, bad]
    have kept : (s.ensureRxBuffer.putFrame completed).clearReceiveFrameState.fills = s.fills :=
      ensureRxBuffer_fills s
    simp only [finishFrame, dropped]
    split_ifs
    · rw [loadNextRxBuffer_fills, kept]
    · rw [setRxdmaFlag_fills, loadNextRxBuffer_fills, kept]
  · rw [setRxdmaFlag_fills, ensureRxBuffer_fills]

/-- A bad frame in a list of one block leaves the block. -/
theorem Loaded.finishFrame_ring (loaded : s.Loaded)
    (empty : s.rxKey = KeyFlag.emptyReceiverBlock) (start : s.rxListPointerOffset = 0)
    (ring : s.keyAt 1 = KeyFlag.newListPointer) {completed : Frame}
    (bad : completed.crcValid = false) : Alike s (s.putFrame completed).finishFrame := by
  have dropped : (s.putFrame completed).processCompleteFrame.1 =
      (s.putFrame completed).clearReceiveFrameState := by
    simp [processCompleteFrame, bad]
  have cleared : Alike s (s.putFrame completed).clearReceiveFrameState :=
    ⟨completed.reset, s.tcpReceiveBuffer, s.events, rfl, rfl⟩
  obtain ⟨again, found⟩ := loaded.loadNext_ring empty start ring
  obtain ⟨next, same⟩ := cleared.loadNextRxBuffer
  simp only [finishFrame, dropped, same, found, if_true]
  exact again.trans next

theorem takeFrame_found (found : s.ensureRxBuffer.rxKey = KeyFlag.emptyReceiverBlock)
    (completed : Frame) (rest : List Frame) : s.takeFrame (completed :: rest) =
      ((s.ensureRxBuffer.putFrame completed).finishFrame, rest) := if_pos found

theorem takeFrame_stalled (stalled : s.ensureRxBuffer.rxKey ≠ KeyFlag.emptyReceiverBlock)
    (completed : Frame) (rest : List Frame) : s.takeFrame (completed :: rest) =
      (s.ensureRxBuffer.setRxdmaFlag (Rts.receiverOverrun ||| Rts.listEmpty), completed :: rest) :=
  if_neg stalled

/-- Every tick of the one link is matched by a tick of the other, or by none. -/
theorem Spared.step {link other : Device × List Frame} (spared : Spared link other)
    (spares : link.1.SparesBuffer link.2) :
    Spared (link.1.takeFrame link.2) other ∨
      Spared (link.1.takeFrame link.2) (other.1.takeFrame other.2) := by
  obtain ⟨s, frames⟩ := link
  obtain ⟨t, others⟩ := other
  obtain ⟨pending, filled, loaded, alike⟩ := spared
  dsimp only at *
  rcases frames with _ | ⟨completed, rest⟩
  · exact .inl ⟨pending, filled, loaded, alike⟩
  have loadedNext := loaded.takeFrame (completed :: rest)
  cases valid : completed.crcValid with
  | true =>
    rw [List.filter_cons_of_pos valid] at pending
    subst pending
    have same := alike (List.cons_ne_nil _ _)
    right
    by_cases found : s.ensureRxBuffer.rxKey = KeyFlag.emptyReceiverBlock
    · have foundToo := same.rxKey.symm.trans found
      have taken := same.finishFrame completed
      rw [takeFrame_found found] at loadedNext ⊢
      rw [takeFrame_found foundToo]
      exact ⟨rfl, taken.fills.symm, loadedNext, fun _ => taken.ensureRxBuffer⟩
    · have foundNot := fun foundToo => found (same.rxKey.trans foundToo)
      have stalled := same.setRxdmaFlag (Rts.receiverOverrun ||| Rts.listEmpty)
      rw [takeFrame_stalled found] at loadedNext ⊢
      rw [takeFrame_stalled foundNot]
      exact ⟨(List.filter_cons_of_pos valid).symm, stalled.fills.symm, loadedNext,
        fun _ => stalled.ensureRxBuffer⟩
  | false =>
    have skipped : (completed :: rest).filter Frame.crcValid = rest.filter Frame.crcValid :=
      List.filter_cons_of_neg (by simp [valid])
    rw [skipped] at pending
    have filledNext : t.fills = (s.takeFrame (completed :: rest)).1.fills :=
      filled.trans (takeFrame_bad valid rest).symm
    by_cases done : others = []
    · left
      refine ⟨?_, filledNext, loadedNext, fun more => absurd done more⟩
      rw [pending]
      by_cases found : s.ensureRxBuffer.rxKey = KeyFlag.emptyReceiverBlock
      · rw [takeFrame_found found]
      · rw [takeFrame_stalled found]
        exact skipped.symm
    have same := alike done
    by_cases found : s.ensureRxBuffer.rxKey = KeyFlag.emptyReceiverBlock
    · left
      rcases spares with good | last | ring
      · rw [valid] at good
        cases good
      · refine absurd ?_ done
        rw [pending, List.filter_eq_nil_iff]
        exact fun later inside => by simp [last later inside]
      obtain ⟨start, pointer⟩ := ring found
      have kept := loaded.ensureRxBuffer.finishFrame_ring found start pointer valid
      have key := kept.rxKey.trans found
      rw [takeFrame_found found] at loadedNext filledNext ⊢
      refine ⟨pending, filledNext, loadedNext, fun _ => ?_⟩
      rw [ensureRxBuffer_empty key]
      exact same.trans kept
    · right
      obtain ⟨next, later, rfl⟩ := List.exists_cons_of_ne_nil done
      have foundNot := fun foundToo => found (same.rxKey.trans foundToo)
      have stalled := same.setRxdmaFlag (Rts.receiverOverrun ||| Rts.listEmpty)
      rw [takeFrame_stalled found] at loadedNext ⊢
      rw [takeFrame_stalled foundNot]
      exact ⟨pending.trans skipped.symm, stalled.fills.symm, loadedNext,
        fun _ => stalled.ensureRxBuffer⟩

end Spare

/-- Where no good frame follows a bad one that skips a block, the good frames fill the same blocks
as without the bad frames. -/
theorem takeFrames_spared (s : Device) (frames : List Frame) (ticks : Nat)
    (spares : ∀ tick < ticks,
      (s.takeFrames frames tick).1.SparesBuffer (s.takeFrames frames tick).2) :
    ∃ others ≤ ticks,
      (s.takeFrames (frames.filter Frame.crcValid) others).2 =
          (s.takeFrames frames ticks).2.filter Frame.crcValid ∧
        (s.takeFrames (frames.filter Frame.crcValid) others).1.fills =
          (s.takeFrames frames ticks).1.fills := by
  have simulated : ∃ others ≤ ticks, Spared (s.takeFrames frames ticks)
      (s.takeFrames (frames.filter Frame.crcValid) others) := by
    induction ticks with
    | zero => exact ⟨0, Nat.le_refl 0, rfl, rfl, loaded_loadRxBuffer s, fun _ => Alike.refl _⟩
    | succ ticks ih =>
      obtain ⟨others, bound, spared⟩ :=
        ih fun tick before => spares tick (Nat.lt_succ_of_lt before)
      have next (frames : List Frame) (tick : Nat) : s.takeFrames frames (tick + 1) =
          (s.takeFrames frames tick).1.takeFrame (s.takeFrames frames tick).2 :=
        Function.iterate_succ_apply' _ _ _
      rcases spared.step (spares ticks (Nat.lt_succ_self _)) with waits | moves
      · exact ⟨others, Nat.le_succ_of_le bound, (next frames ticks).symm ▸ waits⟩
      · refine ⟨others + 1, Nat.succ_le_succ bound, ?_⟩
        rw [next, next]
        exact moves
  obtain ⟨others, bound, spared⟩ := simulated
  exact ⟨others, bound, spared.pending, spared.filled⟩

/-- This frame has its two check bytes only. -/
def checkFrame (crcValid : Bool) : Frame where
  state := .idle
  frameBuffer := Vector.replicate maxFrameSize 0
  prevByte := 0
  frameLength := 2
  crc := 0
  frameComplete := true
  crcValid := crcValid

theorem takeFrames_spared_ring :
    ∃ others ≤ 2,
      (oneBlockRing.takeFrames ([checkFrame false, checkFrame true].filter Frame.crcValid)
            others).2 =
          (oneBlockRing.takeFrames [checkFrame false, checkFrame true] 2).2.filter Frame.crcValid ∧
        (oneBlockRing.takeFrames ([checkFrame false, checkFrame true].filter Frame.crcValid)
            others).1.fills =
          (oneBlockRing.takeFrames [checkFrame false, checkFrame true] 2).1.fills := by
  apply takeFrames_spared
  intro tick before
  match tick, before with
  | 0, _ => exact .inr (.inr fun _ => ⟨by decide, by decide⟩)
  | 1, _ => exact .inl rfl

/-- The list has two empty blocks before the new list pointer. -/
def twoBlockRing : Device := oneBlockRing.putMemory
  ⟨2 ^ 16, fun address =>
    if address = 0x1000 ∨ address = 0x1004 then 0x0200 else if address = 0x1008 then 0x0600 else 0⟩

/-- The good frame after a bad one fills the second block, and the first one stays empty. -/
theorem twoBlockRing_skipped : ¬ ∀ (s : Device) (frames : List Frame) (ticks : Nat),
    ∃ others ≤ ticks,
      (s.takeFrames (frames.filter Frame.crcValid) others).2 =
          (s.takeFrames frames ticks).2.filter Frame.crcValid ∧
        (s.takeFrames (frames.filter Frame.crcValid) others).1.fills =
          (s.takeFrames frames ticks).1.fills := by
  intro always
  obtain ⟨others, bound, -, filled⟩ := always twoBlockRing [checkFrame false, checkFrame true] 2
  have second : (twoBlockRing.takeFrames [checkFrame false, checkFrame true] 2).1.fills =
      [.write 0x1004 0x0303, .returned 0x1004 0x0303] := by decide
  have first : ∀ others ≤ 2, (twoBlockRing.takeFrames
      ([checkFrame false, checkFrame true].filter Frame.crcValid) others).1.fills ≠
        [.write 0x1004 0x0303, .returned 0x1004 0x0303] := by decide
  exact first others bound (filled.trans second)

end Device

end Nd100x.Hdlc
