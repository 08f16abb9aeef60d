import Nd100x.Hdlc.MessagePlacement

namespace Nd100x.Hdlc

/-- A stopped receiver may only report again or be started. -/
def afterEvent : Bool → Event → Option Bool
  | _, .start => some false
  | _, .listEmpty => some true
  | true, _ => none
  | false, _ => some false

/-- This tells whether the receiver is stopped, or nothing if it did not stay out of memory. -/
def standing (events : List Event) : Option Bool := events.foldlM afterEvent false

/-- After a report of an empty list and before the next start, the receiver loads no descriptor,
gives none back and writes no word. -/
def StaysOut (events : List Event) : Prop :=
  ∀ before middle after event, events = before ++ .listEmpty :: (middle ++ event :: after) →
    .start ∉ middle → event = .listEmpty ∨ event = .start

theorem standing_append (first second : List Event) :
    standing (first ++ second) = (standing first).bind fun stopped => second.foldlM afterEvent stopped :=
  List.foldlM_append

/-- A stopped receiver stays stopped up to the next start. -/
theorem foldlM_stopped {events : List Event} {stopped : Bool}
    (followed : events.foldlM afterEvent true = some stopped) (unstarted : .start ∉ events) :
    stopped = true := by
  induction events with
  | nil => exact (Option.some.inj followed).symm
  | cons event rest ih =>
    have different : event ≠ .start := fun same => unstarted (same ▸ List.mem_cons_self)
    have later : .start ∉ rest := fun member => unstarted (List.mem_cons_of_mem event member)
    rw [List.foldlM_cons] at followed
    cases event with
    | listEmpty => exact ih followed later
    | start => exact absurd rfl different
    | load offset => cases followed
    | write address data => cases followed
    | returned address keyValue => cases followed

theorem staysOut_of_standing {events : List Event} {stopped : Bool}
    (followed : standing events = some stopped) : StaysOut events := by
  rintro before middle after event rfl unstarted
  rw [standing_append] at followed
  rcases reached : standing before with _ | earlier
  · rw [reached] at followed
    cases followed
  rw [reached] at followed
  have reported : (middle ++ event :: after).foldlM afterEvent true = some stopped := followed
  rw [List.foldlM_append] at reported
  rcases waited : middle.foldlM afterEvent true with _ | still
  · rw [waited] at reported
    cases reported
  have idle := foldlM_stopped waited unstarted
  rw [waited, idle] at reported
  cases event with
  | listEmpty => exact .inl rfl
  | start => exact .inr rfl
  | load offset => cases reported
  | write address data => cases reported
  | returned address keyValue => cases reported

/-- These are the steps around the receiver. The registers may take any value through the guest, the
modem and the serial chip, and every word of the memory may be written by others. -/
inductive Input where
  | tick
  | arrive (data : List Byte)
  | start (currentDMAAddress : Nat)
  | clear
  | loadParameters (currentDMAAddress : Nat)
  | registers (control status : Word)
  | memory (words : Nat → Word)

namespace Device

/-- The queue, the list pointers and the loaded descriptions are dropped. -/
def commandDeviceClear (s : Device) : Device :=
  { s with
    tcpReceiveBuffer := []
    txDCB := none
    rxDCB := none
    txListPointer := 0
    txListPointerOffset := 0
    rxListPointer := 0
    rxListPointerOffset := 0
    outboundBuffer := [] }

def step (capacity : Nat) (s : Device) : Input → Device
  | .tick => s.rxTick
  | .arrive data => s.onModemReceivedData capacity data
  | .start currentDMAAddress => s.commandReceiverStart currentDMAAddress
  | .clear => s.commandDeviceClear
  | .loadParameters currentDMAAddress => s.commandInitialize currentDMAAddress
  | .registers control status => (s.putRxTransferControl control).putRxTransferStatus status
  | .memory words => s.putMemory { s.memory with words := words }

def run (capacity : Nat) (s : Device) (inputs : List Input) : Device :=
  inputs.foldl (step capacity) s

end Device

/-- The first frame that the bytes complete, and the bytes after it. -/
def Frame.firstComplete (frame : Frame) : List Byte → Option (Frame × List Byte)
  | [] => none
  | data :: rest =>
    match frame.addByte data with
    | (next, true) => some (next, rest)
    | (next, false) => next.firstComplete rest

namespace Device

/-- A full block is followed by an empty one. -/
def ContinuesAt (tries : Nat) (s : Device) (data : Byte) : Prop :=
  match tries with
  | 0 => True
  | tries + 1 =>
    (s.receiveDataBufferByte data).2 = .bufferFull →
      (s.markBufferReceived 0x01).isNextRxbufValid = true ∧
        s.closeBlock.loadNextRxBuffer.2 = true ∧
        ContinuesAt tries s.closeBlock.loadNextRxBuffer.1 data

/-- Every full block and the last block of the data are followed by an empty one. -/
def Continues (s : Device) : List Byte → Prop
  | [] => (s.markBufferReceived 0x03).isNextRxbufValid = true
  | data :: rest =>
    s.ContinuesAt maxTries data ∧
      ((s.storeByte maxTries data).2 = true → (s.storeByte maxTries data).1.Continues rest)

/-- The next good frame in the queue does not meet the end of the list before its own end. -/
def FrameContinues (s : Device) (queue : List Byte) : Prop :=
  ∀ frame rest, s.hdlcReceiveFrame.firstComplete queue = some (frame, rest) →
    frame.crcValid = true → s.ensureRxBuffer.rxKey = KeyFlag.emptyReceiverBlock →
    ((s.ensureRxBuffer.putQueue rest).putFrame frame).Continues
      (frame.bytes.take (frame.frameLength - 2))

/-- Nothing is pulled from the queue at this tick. -/
def Idle (s : Device) : Prop :=
  0 < s.processTcpBufDelay ∨ s.tcpReceiveBuffer = [] ∨
    anyBit s.rxTransferControl Rtc.enableReceiverDMA = false ∨ s.rxDCB = none

/-- A stopped receiver has an empty block and completes no frame, and a running one does not meet
the end of its list before the end of the frame. -/
def Meets (s : Device) : Input → Prop
  | .tick =>
    s.Idle ∨
      (standing s.events = some true ∧ s.rxKey = KeyFlag.emptyReceiverBlock ∧
        s.hdlcReceiveFrame.firstComplete s.tcpReceiveBuffer = none) ∨
      (standing s.events = some false ∧
        s.FrameContinues s.tcpReceiveBuffer)
  | _ => True

/-- Every step meets the condition in the state before it. -/
def RunMeets (capacity : Nat) (s : Device) : List Input → Prop
  | [] => True
  | input :: rest => s.Meets input ∧ (s.step capacity input).RunMeets capacity rest

end Device

/-- The receiver works on its list. -/
def Event.Uses (event : Event) : Prop := event ≠ .listEmpty ∧ event ≠ .start

section Trace

variable {s t : Device} {stopped : Bool}

theorem Event.Uses.running {event : Event} (uses : event.Uses) :
    afterEvent false event = some false := by
  cases event with
  | listEmpty => exact absurd rfl uses.1
  | start => exact absurd rfl uses.2
  | load offset => rfl
  | write address data => rfl
  | returned address keyValue => rfl

/-- A running receiver may work on its list. -/
theorem Grows.running (grown : Grows Event.Uses s t) (running : standing s.events = some false) :
    standing t.events = some false := by
  obtain ⟨events, all, uses⟩ := grown
  have kept : events.foldlM afterEvent false = some false := by
    clear all
    induction events with
    | nil => rfl
    | cons event rest ih =>
      rw [List.foldlM_cons, (uses event List.mem_cons_self).running]
      exact ih fun other member => uses other (List.mem_cons_of_mem event member)
  rw [all, standing_append, running]
  exact kept

theorem standing_record_start (s : Device) (followed : standing s.events = some stopped) :
    standing (s.record .start).events = some false := by
  change standing (s.events ++ [.start]) = _
  rw [standing_append, followed]
  cases stopped <;> rfl

/-- A report is always allowed. -/
theorem standing_setRxdmaFlag (flag : Word) (followed : standing s.events = some stopped) :
    ∃ after, standing (s.setRxdmaFlag flag).events = some after := by
  rw [s.setRxdmaFlag_events, standing_append, followed]
  split_ifs
  · exact ⟨true, by cases stopped <;> rfl⟩
  · exact ⟨stopped, rfl⟩

/-- The trace is silent about a report without an empty list. -/
theorem Grows.silent {allowed : Event → Prop} {flag : Word}
    (plain : anyBit (flag ||| (Rts.signalDetector ||| Rts.dataSetReady)) Rts.listEmpty = false)
    (valid : s.isNextRxbufValid = true) : Grows allowed s (s.setRxdmaFlag flag) := by
  apply of_same
  rw [s.setRxdmaFlag_events, Device.reportedFlag, if_pos valid, plain]
  exact List.append_nil _

end Trace

section Store

variable {s : Device}

theorem mark_uses (s : Device) (rxStatus : Byte) :
    Grows Event.Uses s (s.markBufferReceived rxStatus) :=
  .markBufferReceived s rxStatus (fun _ _ => ⟨nofun, nofun⟩) fun _ _ => ⟨nofun, nofun⟩

theorem loadNext_uses (s : Device) : Grows Event.Uses s s.loadNextRxBuffer.1 :=
  .loadNextRxBuffer s fun _ => ⟨nofun, nofun⟩

theorem writeNext_uses (s : Device) (data : Byte) :
    Grows Event.Uses s (s.writeNextByteDma data) :=
  .writeNextByteDma s data fun _ _ => ⟨nofun, nofun⟩

theorem closeBlock_uses (valid : (s.markBufferReceived 0x01).isNextRxbufValid = true) :
    Grows Event.Uses s s.closeBlock :=
  ((mark_uses s 0x01).trans (.silent (by decide) valid)).trans (.of_same rfl)

theorem receiveDataBufferByte_cases (s : Device) (data : Byte) :
    s.receiveDataBufferByte data = (s.closeBlock, .bufferFull) ∨
      (s.receiveDataBufferByte data).2 ≠ .bufferFull ∧
        Grows Event.Uses s (s.receiveDataBufferByte data).1 := by
  rw [Device.receiveDataBufferByte]
  split
  · exact .inr ⟨ReceiveStatus.noConfusion, .of_same rfl⟩
  · split_ifs
    · exact .inl rfl
    · exact .inr ⟨ReceiveStatus.noConfusion, writeNext_uses s data⟩
    · exact .inr ⟨ReceiveStatus.noConfusion, .of_same rfl⟩

theorem storeByte_uses {tries : Nat} {data : Byte} (continues : s.ContinuesAt tries data) :
    Grows Event.Uses s (s.storeByte tries data).1 := by
  induction tries generalizing s with
  | zero => exact .of_same rfl
  | succ tries ih =>
    rcases receiveDataBufferByte_cases s data with full | ⟨other, grown⟩
    · obtain ⟨valid, found, later⟩ := continues (congrArg Prod.snd full)
      have missing : s.closeBlock.rxKey ≠ KeyFlag.emptyReceiverBlock := by
        change (0 : Word) ≠ KeyFlag.emptyReceiverBlock
        decide
      have sought : s.closeBlock.findNextReceiveBuffer = (s.closeBlock.loadNextRxBuffer.1, true) := by
        rw [Device.findNextReceiveBuffer, if_neg missing]
        simp only [found, if_true]
      simp only [Device.storeByte, full, sought]
      exact ((closeBlock_uses valid).trans (loadNext_uses _)).trans (ih later)
    · rw [Device.storeByte]
      split
      · next t received => rwa [received] at grown
      · next t received => rwa [received] at grown
      · next t received =>
          rw [received] at other
          exact absurd rfl other

theorem storeBytes_uses {data : List Byte} (continues : s.Continues data) :
    Grows Event.Uses s (s.storeBytes data).1 ∧ ((s.storeBytes data).2 = true →
      ((s.storeBytes data).1.markBufferReceived 0x03).isNextRxbufValid = true) := by
  induction data generalizing s with
  | nil => exact ⟨.of_same rfl, fun _ => continues⟩
  | cons first rest ih =>
    obtain ⟨byte, later⟩ := continues
    have grown := storeByte_uses byte
    rw [Device.storeBytes]
    split
    · next t stored =>
        rw [stored] at grown later
        obtain ⟨others, last⟩ := ih (later rfl)
        exact ⟨grown.trans others, last⟩
    · next t stored =>
        rw [stored] at grown
        exact ⟨grown, fun continued => absurd continued Bool.false_ne_true⟩

end Store

section Pull

variable {s : Device}

theorem finishFrame_standing (running : standing s.events = some false)
    (continues : s.hdlcReceiveFrame.crcValid = true →
      s.Continues (s.hdlcReceiveFrame.bytes.take (s.hdlcReceiveFrame.frameLength - 2))) :
    ∃ after, standing s.finishFrame.events = some after := by
  have processed : Grows Event.Uses s s.processCompleteFrame.1 := by
    simp only [Device.processCompleteFrame]
    split_ifs with valid stored
    · obtain ⟨grown, last⟩ := storeBytes_uses (continues valid)
      exact ((grown.trans (mark_uses _ 0x03)).trans (.silent (by decide) (last stored))).trans
        (.of_same rfl)
    · exact (storeBytes_uses (continues valid)).1.trans (.of_same rfl)
    · exact .of_same rfl
  have loaded := (processed.trans (loadNext_uses _)).running running
  simp only [Device.finishFrame]
  split_ifs
  · exact ⟨false, loaded⟩
  · exact standing_setRxdmaFlag _ loaded

/-- A running receiver pulls bytes. -/
theorem pullBytes_standing {queue : List Byte} (running : standing s.events = some false)
    (continues : s.FrameContinues queue) :
    ∃ after, standing (s.pullBytes queue).events = some after := by
  induction queue generalizing s with
  | nil => exact ⟨false, running⟩
  | cons data rest ih =>
    have ensured : Grows Event.Uses s s.ensureRxBuffer := by
      rw [Device.ensureRxBuffer]
      split_ifs
      · exact .of_same rfl
      · exact loadNext_uses s
    have line := SameLine.steps.ensureRxBuffer s
    have still := ensured.running running
    rw [Device.FrameContinues, ← line.frame] at continues
    simp only [Device.pullBytes]
    generalize s.ensureRxBuffer = u at still continues ⊢
    rw [Device.putQueue_hdlcReceiveFrame]
    rcases added : u.hdlcReceiveFrame.addByte data with ⟨next, complete⟩
    have placed : standing ((u.putQueue rest).putFrame next).events = some false := still
    by_cases empty : u.rxKey = KeyFlag.emptyReceiverBlock
    · rw [if_pos empty]
      cases complete with
      | true =>
        rw [if_pos rfl]
        apply finishFrame_standing placed
        intro valid
        refine continues next rest ?_ valid empty
        rw [Frame.firstComplete, added]
      | false =>
        rw [if_neg Bool.false_ne_true]
        apply ih placed
        have stay : ((u.putQueue rest).putFrame next).ensureRxBuffer =
            (u.putQueue rest).putFrame next := if_pos empty
        rw [Device.FrameContinues, stay]
        intro frame later found valid _
        refine continues frame later ?_ valid empty
        rw [Frame.firstComplete, added]
        exact found
    · rw [if_neg empty]
      exact standing_setRxdmaFlag _ still

/-- A stopped receiver with an empty block pulls bytes that complete no frame. -/
theorem pullBytes_stopped {queue : List Byte} (empty : s.rxKey = KeyFlag.emptyReceiverBlock)
    (incomplete : s.hdlcReceiveFrame.firstComplete queue = none) :
    (s.pullBytes queue).events = s.events := by
  induction queue generalizing s with
  | nil => rfl
  | cons data rest ih =>
    rw [Frame.firstComplete] at incomplete
    rcases added : s.hdlcReceiveFrame.addByte data with ⟨next, done⟩
    rw [added] at incomplete
    cases done with
    | true => cases incomplete
    | false =>
      have step : s.pullBytes (data :: rest) = ((s.putQueue rest).putFrame next).pullBytes rest := by
        simp only [Device.pullBytes, Device.ensureRxBuffer, empty, if_true,
          Device.putQueue_hdlcReceiveFrame, added]
        rfl
      rw [step]
      exact ih (s := (s.putQueue rest).putFrame next) empty incomplete

end Pull

section Run

variable {s : Device} {stopped : Bool}

theorem rxTick_standing (followed : standing s.events = some stopped) (meets : s.Meets .tick) :
    ∃ after, standing s.rxTick.events = some after := by
  have same (t : Device) (quiet : t.events = s.events) : ∃ after, standing t.events = some after :=
    ⟨stopped, quiet ▸ followed⟩
  rw [Device.rxTick]
  by_cases delayed : 0 < s.processTcpBufDelay
  · rw [if_pos delayed]
    exact same _ rfl
  rw [if_neg delayed]
  by_cases queued : s.tcpReceiveBuffer = []
  · rw [if_pos queued]
    exact same _ rfl
  rw [if_neg queued]
  change ∃ after, standing s.processBufferedData.events = some after
  rw [Device.processBufferedData]
  by_cases enabled : anyBit s.rxTransferControl Rtc.enableReceiverDMA = true ∧ s.rxDCB.isSome = true
  · rw [if_pos enabled]
    rcases meets with idle | ⟨_, empty, incomplete⟩ | ⟨running, continues⟩
    · rcases idle with delay | none | disabled | missing
      · exact absurd delay delayed
      · exact absurd none queued
      · rw [disabled] at enabled
        exact absurd enabled.1 Bool.false_ne_true
      · rw [missing] at enabled
        exact absurd enabled.2 Bool.false_ne_true
    · exact same _ (pullBytes_stopped empty incomplete)
    · exact pullBytes_standing running continues
  · rw [if_neg enabled]
    exact same _ rfl

/-- A start may load descriptors, and then it may report. -/
theorem commandReceiverStart_standing (currentDMAAddress : Nat)
    (followed : standing s.events = some stopped) :
    ∃ after, standing (s.commandReceiverStart currentDMAAddress).events = some after := by
  have load (t : Device) : Grows Event.Uses t t.loadRxBuffer :=
    .loadRxBuffer t fun _ => ⟨nofun, nofun⟩
  have find (t : Device) (running : standing t.events = some false) :
      ∃ after, standing t.findNextReceiveBuffer.1.events = some after := by
    have loaded := (loadNext_uses t).running running
    simp only [Device.findNextReceiveBuffer]
    split_ifs
    · exact ⟨false, running⟩
    · exact ⟨false, loaded⟩
    · exact standing_setRxdmaFlag _ loaded
  let pointed : Device :=
    { s.record .start with rxListPointer := currentDMAAddress, rxListPointerOffset := 0 }
  have started : standing pointed.events = some false := standing_record_start s followed
  have first : standing pointed.loadRxBuffer.events = some false := (load pointed).running started
  change ∃ after, standing (pointed.loadRxBuffer.setReceiverState).events = some after
  simp only [Device.setReceiverState]
  apply find
  split_ifs
  · exact first
  · exact (load _).running first

theorem step_standing (capacity : Nat) {input : Input} (followed : standing s.events = some stopped)
    (meets : s.Meets input) : ∃ after, standing (s.step capacity input).events = some after := by
  cases input with
  | tick => exact rxTick_standing followed meets
  | arrive data =>
    refine ⟨stopped, ?_⟩
    rw [Device.step, Device.onModemReceivedData]
    split_ifs <;> exact followed
  | start currentDMAAddress => exact commandReceiverStart_standing currentDMAAddress followed
  | clear => exact ⟨stopped, followed⟩
  | loadParameters currentDMAAddress =>
    refine ⟨stopped, ?_⟩
    simp only [Device.step, Device.commandInitialize]
    split_ifs <;> exact followed
  | registers control status => exact ⟨stopped, followed⟩
  | memory words => exact ⟨stopped, followed⟩

/-- In every run whose steps meet the condition, the stopped receiver stays out of memory. -/
theorem run_staysOut (capacity : Nat) (s : Device) (inputs : List Input) (fresh : s.events = [])
    (meets : s.RunMeets capacity inputs) : StaysOut (s.run capacity inputs).events := by
  have started : standing s.events = some false := by rw [fresh]; rfl
  obtain ⟨after, followed⟩ : ∃ after, standing (s.run capacity inputs).events = some after := by
    clear fresh
    generalize false = stopped at started
    induction inputs generalizing s stopped with
    | nil => exact ⟨stopped, started⟩
    | cons input rest ih =>
      obtain ⟨next, followed⟩ := step_standing capacity started meets.1
      exact ih (s.step capacity input) meets.2 next followed
  exact staysOut_of_standing followed

end Run

section Sample

/-- One byte waits in the queue when a list without an empty descriptor is started. -/
def leftoverRun : List Input := [.start 4, .arrive [flag], .start 12, .tick]

theorem leftoverRun_events :
    ((queuedDevice twoBlocks twoBlocksMemory []).run 16 leftoverRun).events =
      [.start, .load 0, .start, .load 0, .load 1, .listEmpty, .load 2, .listEmpty] := by
  decide

/-- The tick after the report takes the next words for a descriptor. -/
theorem leftoverRun_loads :
    ¬ StaysOut ((queuedDevice twoBlocks twoBlocksMemory []).run 16 leftoverRun).events := by
  intro stays
  have allowed := stays [.start, .load 0, .start, .load 0, .load 1] [] [.listEmpty] (.load 2)
    leftoverRun_events List.not_mem_nil
  rcases allowed with report | start
  · cases report
  · cases start

/-- Nothing is left in the queue when the second list is started. -/
theorem run_staysOut_empty :
    StaysOut ((queuedDevice twoBlocks twoBlocksMemory []).run 16
      [.start 4, .tick, .start 12, .tick]).events := by
  apply run_staysOut 16 (queuedDevice twoBlocks twoBlocksMemory []) _ rfl
  exact ⟨trivial, .inl (.inr (.inl rfl)), trivial, .inl (.inr (.inl rfl)), trivial⟩

end Sample

end Nd100x.Hdlc
