import Nd100x.Octobus.Card

namespace Nd100x.Octobus

open Nd100x.Library Nd100x.Devices

namespace Card

/-- These fields decide what the input side shows and gives. -/
structure Inbox where
  rxFifo : Ring Word octobusRxFifoWords
  busyRetry : Ring Word octobusBusyRetryWords
  stationAddress : Word
  fifoNotFull : Bool
  dataAvailable : Bool

def inbox (card : Card) : Inbox :=
  ⟨card.data.rxFifo, card.data.busyRetry, card.data.stationAddress,
    card.data.statusRegister.fifoNotFull, card.data.statusRegister.dataAvailable⟩

/-- The status of the input follows its fifo. -/
def Inbox.shown (inbox : Inbox) : Inbox :=
  { inbox with
    fifoNotFull := decide (inbox.rxFifo.count < octobusRxFifoWords)
    dataAvailable := decide (0 < inbox.rxFifo.count) }

section Frame

variable (card : Card)

theorem updateInterrupt_data :
    card.updateInterrupt.data =
      { card.data with lineHigh := card.inputActive || card.outputActive } := by
  rw [updateInterrupt]
  exact Device.setInterruptStatus_data _ _ _

@[simp] theorem inbox_updateInterrupt : card.updateInterrupt.inbox = card.inbox := by
  rw [inbox, updateInterrupt_data]
  rfl

@[simp] theorem inbox_raiseInputEvent : card.raiseInputEvent.inbox = card.inbox := by
  rw [raiseInputEvent, inbox_updateInterrupt]
  rfl

@[simp] theorem inbox_raiseOutputEvent : card.raiseOutputEvent.inbox = card.inbox := by
  rw [raiseOutputEvent, inbox_updateInterrupt]
  rfl

@[simp] theorem inbox_completed : card.completed.inbox = card.inbox := by
  rw [completed, inbox_raiseOutputEvent]
  rfl

@[simp] theorem inbox_updateFifoStatus : card.updateFifoStatus.inbox = card.inbox.shown := by
  rw [updateFifoStatus, inbox_updateInterrupt]
  split_ifs <;> rfl

@[simp] theorem inbox_applyTestMode (control : Word) :
    (card.applyTestMode control).inbox = card.inbox := by
  rw [applyTestMode]
  split_ifs <;> rfl

@[simp] theorem inbox_enableInterrupt (enabled isInput : Bool) :
    (card.enableInterrupt enabled isInput).inbox = card.inbox := by
  rw [enableInterrupt, inbox_updateInterrupt]
  split_ifs <;> rfl

@[simp] theorem inbox_applyContinue (control : Word) :
    (card.applyContinue control).inbox = card.inbox := by
  rw [applyContinue]
  split_ifs <;> rfl

/-- A control word of the output leaves what was received. -/
theorem inbox_outputControl (control : Word) :
    (card.processControlChange control false).inbox = card.inbox := by
  have reset : (card.applyReset control false).inbox = card.inbox := by
    rw [applyReset]
    split_ifs
    · rw [inbox_updateInterrupt]
      rfl
    · rfl
  have clear (card : Card) : (card.applyClear control false).inbox = card.inbox := by
    rw [applyClear]
    split_ifs
    · rw [inbox_updateInterrupt]
      rfl
    · rfl
  rw [processControlChange, inbox_applyContinue, clear, inbox_enableInterrupt,
    inbox_applyTestMode, reset]

/-- So does a control word of the input that neither resets nor clears it. -/
theorem inbox_inputControl {control : Word} (reset : controlReset control = false)
    (clear : controlDeviceClear control = false) :
    (card.processControlChange control true).inbox = card.inbox := by
  rw [processControlChange, inbox_applyContinue, applyClear, clear, if_neg Bool.false_ne_true,
    inbox_enableInterrupt, inbox_applyTestMode, applyReset, reset, if_neg Bool.false_ne_true]

end Frame

/-- These words are in the fifo, and these wait for room in it. -/
structure Buffers (inbox : Inbox) (fifo waiting : List Word) : Prop where
  stored : inbox.rxFifo.values = fifo
  parked : inbox.busyRetry.values = waiting
  station : inbox.stationAddress = octobusNd100Station
  notFull : inbox.fifoNotFull = decide (fifo.length < octobusRxFifoWords)
  available : inbox.dataAvailable = decide (0 < fifo.length)

/-- A word waits only while the fifo is full. -/
def Parked (fifo waiting : List Word) : Prop := waiting ≠ [] → fifo.length = octobusRxFifoWords

section Buffers

variable {card : Card} {fifo waiting : List Word}

theorem Inbox.shown_buffers {inbox : Inbox} (fifo_ : inbox.rxFifo.values = fifo)
    (waiting_ : inbox.busyRetry.values = waiting)
    (station : inbox.stationAddress = octobusNd100Station) :
    Buffers inbox.shown fifo waiting := by
  have count : fifo.length = inbox.rxFifo.count := by
    rw [← fifo_, Ring.values_length]
  refine ⟨fifo_, waiting_, station, ?_, ?_⟩
  · rw [count]
    rfl
  · rw [count]
    rfl

theorem Buffers.count (buffers : Buffers card.inbox fifo waiting) :
    card.data.rxFifo.count = fifo.length := by
  rw [← buffers.stored]
  exact (Ring.values_length _).symm

theorem Buffers.parkedCount (buffers : Buffers card.inbox fifo waiting) :
    card.data.busyRetry.count = waiting.length := by
  rw [← buffers.parked]
  exact (Ring.values_length _).symm

theorem Buffers.short (buffers : Buffers card.inbox fifo waiting) :
    fifo.length ≤ octobusRxFifoWords := buffers.count ▸ card.data.rxFifo.fits

/-- An update keeps what is shown of the same words. -/
theorem Buffers.shown (buffers : Buffers card.inbox fifo waiting) :
    Buffers card.inbox.shown fifo waiting :=
  Inbox.shown_buffers buffers.stored buffers.parked buffers.station

theorem fifoPush_spec (buffers : Buffers card.inbox fifo waiting)
    (room : fifo.length < octobusRxFifoWords) (word : Word) :
    (card.fifoPush word).2 = true ∧
      Buffers (card.fifoPush word).1.inbox (fifo ++ [word]) waiting := by
  have open_ : card.data.rxFifo.count < octobusRxFifoWords := buffers.count ▸ room
  rw [fifoPush, dif_pos open_]
  refine ⟨rfl, ?_⟩
  rw [inbox_updateFifoStatus]
  refine Inbox.shown_buffers ?_ buffers.parked buffers.station
  exact (Ring.put_values _ _ _).trans (congrArg (· ++ [word]) buffers.stored)

theorem fifoPush_full (buffers : Buffers card.inbox fifo waiting)
    (full : fifo.length = octobusRxFifoWords) (word : Word) :
    card.fifoPush word = (card, false) := by
  rw [fifoPush, dif_neg]
  rw [buffers.count, full]
  exact Nat.lt_irrefl _

theorem landed_spec (buffers : Buffers card.inbox fifo waiting)
    (room : fifo.length < octobusRxFifoWords) (word : Word) :
    Buffers (card.landed word).inbox (fifo ++ [word]) waiting := by
  rw [landed, inbox_raiseInputEvent]
  exact (fifoPush_spec buffers room word).2

theorem fifoPop_spec {first : Word} {rest : List Word}
    (buffers : Buffers card.inbox (first :: rest) waiting) :
    card.fifoPop.2 = first ∧ Buffers card.fifoPop.1.inbox rest waiting := by
  have some_ : card.data.rxFifo.count ≠ 0 := by
    rw [buffers.count]
    exact Nat.succ_ne_zero _
  have split : card.data.rxFifo.first :: card.data.rxFifo.take.values = first :: rest :=
    (Ring.values_take _ some_).symm.trans buffers.stored
  rw [fifoPop, if_neg some_]
  refine ⟨(List.cons.inj split).1, ?_⟩
  rw [inbox_updateFifoStatus]
  exact Inbox.shown_buffers (List.cons.inj split).2 buffers.parked buffers.station

/-- The frames that wait move in their order until the fifo is full. -/
theorem pumpBusyRetry_spec (buffers : Buffers card.inbox fifo waiting) :
    ∃ fifo' waiting', Buffers (card.pumpBusyRetry waiting.length).inbox fifo' waiting' ∧
      fifo' ++ waiting' = fifo ++ waiting ∧ Parked fifo' waiting' := by
  induction waiting generalizing card fifo with
  | nil => exact ⟨fifo, [], buffers, rfl, fun none_ => absurd rfl none_⟩
  | cons frame waiting ih =>
    rw [List.length_cons, pumpBusyRetry]
    split_ifs with room
    · have some_ : card.data.busyRetry.count ≠ 0 := by
        rw [buffers.parkedCount]
        exact Nat.succ_ne_zero _
      have split : card.data.busyRetry.first :: card.data.busyRetry.take.values =
          frame :: waiting := (Ring.values_take _ some_).symm.trans buffers.parked
      obtain ⟨first, rest⟩ := List.cons.inj split
      have left : Buffers card.takeWaiting.inbox fifo waiting :=
        ⟨buffers.stored, rest, buffers.station, buffers.notFull, buffers.available⟩
      have moved := landed_spec left (buffers.count ▸ room) card.data.busyRetry.first
      obtain ⟨fifo', waiting', next, same, parked⟩ := ih moved
      refine ⟨fifo', waiting', next, ?_, parked⟩
      rw [same, first, List.append_assoc]
      rfl
    · refine ⟨fifo, frame :: waiting, buffers, rfl, fun _ => ?_⟩
      have short := buffers.short
      rw [buffers.count] at room
      omega

/-- A read takes the first word, and the frames that wait follow. -/
theorem readInputData_spec {first : Word} {rest : List Word}
    (buffers : Buffers card.inbox (first :: rest) waiting) :
    card.readInputData.2 = first ∧
      ∃ fifo' waiting', Buffers card.readInputData.1.inbox fifo' waiting' ∧
        fifo' ++ waiting' = rest ++ waiting ∧ Parked fifo' waiting' := by
  obtain ⟨value, popped⟩ := fifoPop_spec buffers
  have some_ : 0 < card.data.rxFifo.count := by
    rw [buffers.count]
    exact Nat.succ_pos _
  let kept := card.fifoPop.1.withInputData card.fifoPop.2
  have keptBuffers : Buffers kept.inbox rest waiting := popped
  obtain ⟨fifo', waiting', pumped, same, parked⟩ := pumpBusyRetry_spec keptBuffers
  rw [← keptBuffers.parkedCount] at pumped
  rw [readInputData, if_pos some_]
  refine ⟨value, fifo', waiting', ?_, same, parked⟩
  dsimp only
  split_ifs
  · rw [inbox_raiseInputEvent]
    exact pumped
  · exact pumped

theorem readInputData_empty (buffers : Buffers card.inbox [] waiting) :
    card.readInputData.1 = card := by
  rw [readInputData, if_neg]
  rw [buffers.count]
  exact Nat.lt_irrefl 0

/-- An accepted frame comes behind the others. -/
theorem rxPush_spec (buffers : Buffers card.inbox fifo waiting) (parked : Parked fifo waiting)
    (word : Word) :
    ∃ fifo' waiting', Buffers (card.rxPush word).1.inbox fifo' waiting' ∧ Parked fifo' waiting' ∧
      fifo' ++ waiting' = fifo ++ waiting ++ if (card.rxPush word).2 then [word] else [] := by
  have short := buffers.short
  have count := buffers.count
  have waitingCount := buffers.parkedCount
  by_cases waits : 0 < card.data.busyRetry.count ∨ octobusRxFifoWords ≤ card.data.rxFifo.count
  · rw [rxPush, if_pos waits]
    by_cases room : card.data.busyRetry.count < octobusBusyRetryWords
    · rw [dif_pos room, if_pos rfl]
      refine ⟨fifo, waiting ++ [word], ⟨buffers.stored, ?_, buffers.station, buffers.notFull,
        buffers.available⟩, fun _ => ?_, ?_⟩
      · exact (Ring.put_values _ _ _).trans (congrArg (· ++ [word]) buffers.parked)
      · rcases waits with some_ | full
        · rw [waitingCount] at some_
          exact parked (List.length_pos_iff.mp some_)
        · omega
      · rw [List.append_assoc]
    · rw [dif_neg room, if_neg Bool.false_ne_true, List.append_nil]
      exact ⟨fifo, waiting, buffers, parked, rfl⟩
  · have none_ : waiting = [] := by
      rw [← List.length_eq_zero_iff]
      omega
    have landed := landed_spec buffers (by omega) word
    rw [rxPush, if_neg waits, if_pos rfl]
    rw [none_] at landed ⊢
    refine ⟨fifo ++ [word], [], landed, fun some_ => absurd rfl some_, ?_⟩
    rw [List.append_nil, List.append_nil]

end Buffers

section Busy

variable (card : Card)

def outputBusy : Bool := card.data.outputStatusRegister.busy

@[simp] theorem updateInterrupt_busy : card.updateInterrupt.outputBusy = card.outputBusy := by
  rw [outputBusy, updateInterrupt_data]
  rfl

@[simp] theorem raiseInputEvent_busy : card.raiseInputEvent.outputBusy = card.outputBusy := by
  rw [raiseInputEvent, updateInterrupt_busy]
  rfl

@[simp] theorem raiseOutputEvent_busy : card.raiseOutputEvent.outputBusy = card.outputBusy := by
  rw [raiseOutputEvent, updateInterrupt_busy]
  rfl

@[simp] theorem completed_busy : card.completed.outputBusy = false := by
  rw [completed, raiseOutputEvent_busy]
  rfl

/-- A fifo with room releases the output of a card in loopback. -/
theorem updateFifoStatus_busy : card.updateFifoStatus.outputBusy =
    (card.outputBusy && !(decide (card.data.rxFifo.count < octobusRxFifoWords) &&
      card.data.loopbackMode)) := by
  rw [updateFifoStatus, updateInterrupt_busy]
  split_ifs with released
  · rw [Bool.and_eq_true] at released
    have open_ : (decide (card.data.rxFifo.count < octobusRxFifoWords) &&
      card.data.loopbackMode) = true := released.1
    rw [open_, Bool.not_true, Bool.and_false]
    rfl
  · change card.outputBusy = _
    rw [Bool.and_eq_true] at released
    rcases busy : card.outputBusy with _ | _
    · rfl
    · have closed : ¬ (decide (card.data.rxFifo.count < octobusRxFifoWords) &&
          card.data.loopbackMode) = true := fun open_ => released ⟨open_, busy⟩
      rw [Bool.not_eq_true] at closed
      rw [closed]
      rfl

@[simp] theorem inbox_loadRegisters (value : Word) :
    (card.loadRegisters value).inbox = card.inbox := by
  rw [loadRegisters]
  split_ifs <;> rfl

@[simp] theorem loadRegisters_busy (value : Word) :
    (card.loadRegisters value).outputBusy = card.outputBusy := by
  rw [loadRegisters]
  split_ifs <;> rfl

@[simp] theorem inbox_completeCommand : card.completeCommand.inbox = card.inbox := by
  rw [completeCommand]
  split_ifs
  · rfl
  · exact inbox_raiseOutputEvent _

@[simp] theorem completeCommand_busy : card.completeCommand.outputBusy = card.outputBusy := by
  rw [completeCommand]
  split_ifs
  · rfl
  · exact raiseOutputEvent_busy _

end Busy

section Loop

variable {card : Card} {fifo waiting : List Word}

/-- The frame of a command comes back. -/
def echoes (card : Card) : Bool := card.data.loopbackMode || !card.data.cpuAttached

def echoed (value : Word) : Word := (value &&& 0xC0FF) ||| ((octobusNd100Station &&& 0x3F) <<< 8)

/-- An echo finds room in the fifo, or it leaves the output busy. -/
theorem processTransmitQueue_spec (buffers : Buffers card.inbox fifo waiting)
    (parked : Parked fifo waiting) (echo : Bool) :
    ∃ fifo' waiting', Buffers (card.processTransmitQueue echo).inbox fifo' waiting' ∧
      Parked fifo' waiting' ∧
      ((card.processTransmitQueue echo).outputBusy = true → fifo'.length = octobusRxFifoWords) ∧
      fifo' ++ waiting' = fifo ++ waiting ++
        if echo && !(card.processTransmitQueue echo).outputBusy then
          [echoed card.data.outputData] else [] := by
  cases echo with
  | false =>
    refine ⟨fifo, waiting, ?_, parked, fun busy => ?_, (List.append_nil _).symm⟩
    · rw [processTransmitQueue, if_neg Bool.false_ne_true, inbox_completed]
      exact buffers
    · rw [processTransmitQueue, if_neg Bool.false_ne_true, completed_busy] at busy
      cases busy
  | true =>
    let stamped := card.withStation (card.data.stationAddress.setWidth 6)
    have stampedBuffers : Buffers stamped.inbox fifo waiting := buffers
    have frame : echoFrame stamped.data = echoed card.data.outputData := by
      change _ ||| ((card.data.stationAddress &&& 0x3F) <<< 8) = _
      rw [show card.data.stationAddress = octobusNd100Station from buffers.station]
      rfl
    by_cases room : fifo.length < octobusRxFifoWords
    · obtain ⟨pushed, landed⟩ := fifoPush_spec stampedBuffers room (echoFrame stamped.data)
      have none_ : waiting = [] := by
        by_contra some_
        exact absurd (parked some_) (Nat.ne_of_lt room)
      have result : card.processTransmitQueue true =
          (((stamped.fifoPush (echoFrame stamped.data)).1.withInputData
            (echoFrame stamped.data)).raiseInputEvent).completed := by
        rw [processTransmitQueue, if_pos rfl]
        exact if_pos pushed
      rw [result, completed_busy, inbox_completed, inbox_raiseInputEvent]
      refine ⟨fifo ++ [echoFrame stamped.data], waiting, landed, ?_, Bool.noConfusion, ?_⟩
      · exact fun some_ => absurd none_ some_
      · rw [frame, none_, List.append_nil, List.append_nil]
        rfl
    · have full : fifo.length = octobusRxFifoWords :=
        Nat.le_antisymm buffers.short (Nat.le_of_not_lt room)
      have result : card.processTransmitQueue true =
          (stamped.holdOutput true).updateFifoStatus := by
        rw [processTransmitQueue, if_pos rfl]
        dsimp only
        rw [fifoPush_full stampedBuffers full, if_neg Bool.false_ne_true]
      have busy : (card.processTransmitQueue true).outputBusy = true := by
        rw [result, updateFifoStatus_busy]
        have closed : ¬ card.data.rxFifo.count < octobusRxFifoWords := buffers.count ▸ room
        change (true && !(decide (card.data.rxFifo.count < octobusRxFifoWords) && _)) = true
        rw [decide_eq_false closed]
        rfl
      rw [busy, result, inbox_updateFifoStatus]
      exact ⟨fifo, waiting, stampedBuffers.shown, parked, fun _ => full,
        (List.append_nil _).symm⟩

/-- A command to the card itself accepts its echo unless the output is left busy. -/
theorem writeSelfLoop_spec (buffers : Buffers card.inbox fifo waiting)
    (parked : Parked fifo waiting) {value : Word} (answer : BusAnswer)
    (selfLoop : octobusIsSelfLoop ((value >>> 8) &&& 0x3F) octobusNd100Station = true) :
    ∃ fifo' waiting',
      Buffers (card.write .outputCommand value answer).inbox fifo' waiting' ∧
      Parked fifo' waiting' ∧
      fifo' ++ waiting' = fifo ++ waiting ++
        if card.echoes && !(card.write .outputCommand value answer).outputBusy then
          [echoed value] else [] := by
  have started : Buffers (card.startCommand value).inbox fifo waiting := buffers
  have own : (card.startCommand value).data.stationAddress = octobusNd100Station :=
    buffers.station
  have delivered : (card.startCommand value).deliver value answer =
      (card.startCommand value).processTransmitQueue card.echoes := by
    rw [deliver]
    dsimp only
    rw [own, if_pos selfLoop]
    rfl
  obtain ⟨fifo', waiting', next, parked', full, same⟩ :=
    processTransmitQueue_spec started parked card.echoes
  let looped := (card.startCommand value).processTransmitQueue card.echoes
  have busy : (card.write .outputCommand value answer).outputBusy = looped.outputBusy := by
    rw [Card.write, writeOutputCommand, completeCommand_busy, loadRegisters_busy, delivered, updateFifoStatus_busy]
    rcases busy : looped.outputBusy with _ | _
    · rfl
    · have closed : ¬ looped.data.rxFifo.count < octobusRxFifoWords := by
        rw [Buffers.count next, full busy]
        exact Nat.lt_irrefl _
      change (true && !(decide (looped.data.rxFifo.count < octobusRxFifoWords) && _)) = true
      rw [decide_eq_false closed]
      rfl
  refine ⟨fifo', waiting', ?_, parked', ?_⟩
  · rw [Card.write, writeOutputCommand, inbox_completeCommand, inbox_loadRegisters,
      inbox_updateFifoStatus, delivered]
    exact next.shown
  · rw [busy]
    exact same

end Loop

end Card

/-- Frames, commands of the card to itself, reads and control words reach the card. -/
inductive ReceiveStep where
  | push (word : Word)
  | command (value : Word)
  | read
  | inputControl (control : Word)
  | outputControl (control : Word)
  deriving DecidableEq, Repr

/-- The commands stay on the card, and the input controller is neither reset nor cleared. -/
def ReceiveStep.Allowed : ReceiveStep → Prop
  | .command value => octobusIsSelfLoop ((value >>> 8) &&& 0x3F) octobusNd100Station = true
  | .inputControl control =>
    Card.controlReset control = false ∧ Card.controlDeviceClear control = false
  | _ => True

/-- The words that were accepted and those that were read are recorded. -/
structure Exchange where
  card : Card
  accepted : List Word
  delivered : List Word

namespace Exchange

/-- Nobody answers on the bus. -/
def silence : BusAnswer := ⟨false, []⟩

def step (exchange : Exchange) : ReceiveStep → Exchange
  | .push word =>
    let pushed := exchange.card.rxPush word
    { exchange with
      card := pushed.1
      accepted := exchange.accepted ++ if pushed.2 then [word] else [] }
  | .command value =>
    let card := exchange.card.write .outputCommand value silence
    { exchange with
      card := card
      accepted := exchange.accepted ++
        if exchange.card.echoes && !card.outputBusy then [Card.echoed value] else [] }
  | .read =>
    let result := exchange.card.read .inputData
    { exchange with
      card := result.1
      delivered := exchange.delivered ++
        if exchange.card.data.statusRegister.dataAvailable then [result.2] else [] }
  | .inputControl control =>
    { exchange with card := exchange.card.write .inputControl control silence }
  | .outputControl control =>
    { exchange with card := exchange.card.write .outputControl control silence }

def run (exchange : Exchange) (steps : List ReceiveStep) : Exchange := steps.foldl step exchange

/-- The accepted words that were not read yet are on the card in their order. -/
def Ordered (exchange : Exchange) : Prop :=
  ∃ fifo waiting, Card.Buffers exchange.card.inbox fifo waiting ∧ Card.Parked fifo waiting ∧
    exchange.accepted = exchange.delivered ++ (fifo ++ waiting)

theorem step_ordered {exchange : Exchange} (ordered : exchange.Ordered) {step : ReceiveStep}
    (allowed : step.Allowed) : (exchange.step step).Ordered := by
  obtain ⟨fifo, waiting, buffers, parked, accepted⟩ := ordered
  cases step with
  | push word =>
    obtain ⟨fifo', waiting', next, parked', same⟩ := Card.rxPush_spec buffers parked word
    refine ⟨fifo', waiting', next, parked', ?_⟩
    rw [same, ← List.append_assoc]
    exact congrArg (· ++ _) accepted
  | command value =>
    obtain ⟨fifo', waiting', next, parked', same⟩ :=
      Card.writeSelfLoop_spec buffers parked silence allowed
    refine ⟨fifo', waiting', next, parked', ?_⟩
    rw [same, ← List.append_assoc]
    exact congrArg (· ++ _) accepted
  | read =>
    have shown : exchange.card.data.statusRegister.dataAvailable = decide (0 < fifo.length) :=
      buffers.available
    cases fifo with
    | nil =>
      have same := Card.readInputData_empty buffers
      refine ⟨[], waiting, ?_, parked, ?_⟩
      · change Card.Buffers exchange.card.readInputData.1.inbox [] waiting
        rw [same]
        exact buffers
      · change exchange.accepted = (exchange.delivered ++
          if exchange.card.data.statusRegister.dataAvailable then _ else []) ++ _
        rw [shown, accepted]
        exact congrArg (· ++ _) (List.append_nil _).symm
    | cons first rest =>
      obtain ⟨value, fifo', waiting', next, same, parked'⟩ := Card.readInputData_spec buffers
      refine ⟨fifo', waiting', next, parked', ?_⟩
      have taken : (exchange.card.read .inputData).2 = first := value
      change exchange.accepted = (exchange.delivered ++
        if exchange.card.data.statusRegister.dataAvailable then
          [(exchange.card.read .inputData).2] else []) ++ _
      rw [shown, same, accepted, taken, List.append_assoc]
      rfl
  | inputControl control =>
    refine ⟨fifo, waiting, ?_, parked, accepted⟩
    change Card.Buffers (Card.processControlChange _ control true).inbox fifo waiting
    rw [Card.inbox_inputControl _ allowed.1 allowed.2]
    exact buffers
  | outputControl control =>
    refine ⟨fifo, waiting, ?_, parked, accepted⟩
    change Card.Buffers (Card.processControlChange _ control false).inbox fifo waiting
    rw [Card.inbox_outputControl]
    exact buffers

theorem run_ordered {exchange : Exchange} (ordered : exchange.Ordered) (steps : List ReceiveStep)
    (allowed : ∀ step ∈ steps, step.Allowed) : (exchange.run steps).Ordered := by
  induction steps generalizing exchange with
  | nil => exact ordered
  | cons step steps ih =>
    exact ih (step_ordered ordered (allowed step List.mem_cons_self))
      fun later member => allowed later (List.mem_cons_of_mem _ member)

end Exchange

/-- The input controller of this card has been reset or cleared. -/
def Card.Fresh (card : Card) : Prop := Card.Buffers card.inbox [] []

theorem create_fresh (thumbwheel : Fin 4) : (Card.create thumbwheel).Fresh := by
  have data : (Card.create thumbwheel).data.rxFifo.values = [] := by
    rw [Card.create, Card.reset, Device.setInterruptStatus_data]
    rfl
  refine ⟨data, ?_, ?_, ?_, ?_⟩ <;>
    · rw [Card.inbox, Card.create, Card.reset, Device.setInterruptStatus_data]
      rfl

/-- The words come out in the order in which they were accepted. -/
theorem accepted_delivered_in_order {card : Card} (fresh : card.Fresh)
    (steps : List ReceiveStep) (allowed : ∀ step ∈ steps, step.Allowed) :
    let last := Exchange.run ⟨card, [], []⟩ steps
    ∃ remaining, last.accepted = last.delivered ++ remaining ∧
      (last.card.data.statusRegister.dataAvailable = true ↔ remaining ≠ []) ∧
      (last.card.data.statusRegister.fifoNotFull = true ↔
        last.card.data.rxFifo.count < octobusRxFifoWords) := by
  have start : (⟨card, [], []⟩ : Exchange).Ordered :=
    ⟨[], [], fresh, fun some_ => absurd rfl some_, rfl⟩
  obtain ⟨fifo, waiting, buffers, parked, accepted⟩ :=
    Exchange.run_ordered start steps allowed
  refine ⟨fifo ++ waiting, accepted, ?_, ?_⟩
  · change (Card.inbox _).dataAvailable = true ↔ _
    rw [buffers.available, decide_eq_true_eq, List.length_pos_iff]
    refine ⟨fun some_ none_ => some_ (List.append_eq_nil_iff.mp none_).1, fun some_ none_ => ?_⟩
    have waits : waiting ≠ [] := fun empty => some_ (by rw [none_, empty]; rfl)
    have full := parked waits
    rw [none_] at full
    cases full
  · change (Card.inbox _).fifoNotFull = true ↔ _
    rw [buffers.notFull, decide_eq_true_eq, buffers.count]

/-- Two frames and an echo between them are read in this order. -/
theorem accepted_delivered_in_order_three :
    (Exchange.run ⟨Card.create 0, [], []⟩
      [.push 0x8711, .command 0x0022, .push 0x8733, .read, .read, .read]).delivered =
        [0x8711, 0x0122, 0x8733] ∧
      ∃ remaining, (Exchange.run ⟨Card.create 0, [], []⟩
        [.push 0x8711, .command 0x0022, .push 0x8733, .read, .read, .read]).accepted =
          [0x8711, 0x0122, 0x8733] ++ remaining := by
  have delivered : (Exchange.run ⟨Card.create 0, [], []⟩
      [.push 0x8711, .command 0x0022, .push 0x8733, .read, .read, .read]).delivered =
        [0x8711, 0x0122, 0x8733] := by decide
  obtain ⟨remaining, accepted, -⟩ := accepted_delivered_in_order (create_fresh 0)
    [.push 0x8711, .command 0x0022, .push 0x8733, .read, .read, .read]
    (by
      intro step member
      simp only [List.mem_cons, List.not_mem_nil, or_false] at member
      rcases member with rfl | rfl | rfl | rfl | rfl | rfl <;> first | exact trivial | rfl)
  rw [delivered] at accepted
  exact ⟨delivered, remaining, accepted⟩

end Nd100x.Octobus
