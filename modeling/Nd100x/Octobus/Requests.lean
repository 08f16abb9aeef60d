import Nd100x.Octobus.Bench

namespace Nd100x.Octobus

open Nd100x.Library Nd100x.Devices

namespace Card

def active (card : Card) : Bool := card.inputActive || card.outputActive

def line (card : Card) : Bool := card.interruptBits.getLsbD octobusInterruptLevel

/-- The line and the word that remembers it follow the requests. -/
def Settled (card : Card) : Prop := card.line = card.active ∧ card.data.lineHigh = card.active

/-- The line may be low for a request, and it is not high without one. -/
def Lined (card : Card) : Prop :=
  (card.line = true → card.active = true) ∧ card.data.lineHigh = card.active

/-- A card that does not loop back has a processor station on its bus. -/
def Wired (data : OctobusData) : Prop :=
  data.loopbackMode = false → data.cpuAttached = true ∧ data.transmit = true

/-- A transfer is held back by a full fifo only. -/
def Held (data : OctobusData) : Prop :=
  data.outputStatusRegister.busy = true →
    data.loopbackMode = true ∧ data.rxFifo.count = octobusRxFifoWords

/-- The frames in the fifo have a request. -/
def Noted (data : OctobusData) : Prop := 0 < data.rxFifo.count → data.inputIrqPending = true

/-- No request is lost between two states of a card. -/
structure Progress (before after : OctobusData) : Prop where
  identCode : after.identCode = before.identCode
  cpuAttached : after.cpuAttached = before.cpuAttached
  transmit : after.transmit = before.transmit
  loopbackMode : before.loopbackMode = true → after.loopbackMode = true
  inputEnabled : after.statusRegister.interruptEnabled = before.statusRegister.interruptEnabled
  outputEnabled :
    after.outputStatusRegister.interruptEnabled = before.outputStatusRegister.interruptEnabled
  inputPending : before.inputIrqPending = true → after.inputIrqPending = true
  outputPending : before.outputIrqPending = true → after.outputIrqPending = true
  released : before.outputStatusRegister.busy = true → after.outputStatusRegister.busy = false →
    after.outputIrqPending = true

section Progress

variable {before middle after : OctobusData} (card : Card)

theorem still_busy {busy : Bool} {P : Prop} (held : busy = true) (free : busy = false) : P :=
  Bool.noConfusion (held.symm.trans free)

theorem Progress.refl (data : OctobusData) : Progress data data :=
  ⟨rfl, rfl, rfl, id, rfl, rfl, id, id, still_busy⟩

theorem Progress.trans (first : Progress before middle) (second : Progress middle after) :
    Progress before after where
  identCode := second.identCode.trans first.identCode
  cpuAttached := second.cpuAttached.trans first.cpuAttached
  transmit := second.transmit.trans first.transmit
  loopbackMode := second.loopbackMode ∘ first.loopbackMode
  inputEnabled := second.inputEnabled.trans first.inputEnabled
  outputEnabled := second.outputEnabled.trans first.outputEnabled
  inputPending := second.inputPending ∘ first.inputPending
  outputPending := second.outputPending ∘ first.outputPending
  released := by
    intro busy free
    by_cases held : middle.outputStatusRegister.busy = true
    · exact second.released held free
    · exact second.outputPending (first.released busy (Bool.not_eq_true _ ▸ held))

theorem Progress.behind (second : Progress middle after) (first : Progress before middle) :
    Progress before after := first.trans second

theorem Wired.kept (wired : Wired before) (cpuAttached : after.cpuAttached = before.cpuAttached)
    (transmit : after.transmit = before.transmit)
    (loopbackMode : before.loopbackMode = true → after.loopbackMode = true) : Wired after := by
  intro off
  have on : before.loopbackMode = false := by
    by_contra on
    exact Bool.noConfusion ((loopbackMode (Bool.not_eq_false _ ▸ on)).symm.trans off)
  rw [cpuAttached, transmit]
  exact wired on

theorem Progress.wired (progress : Progress before after) (wired : Wired before) :
    Wired after := wired.kept progress.cpuAttached progress.transmit progress.loopbackMode

theorem progress_withInputData (word : Word) :
    Progress card.data (card.withInputData word).data :=
  ⟨rfl, rfl, rfl, id, rfl, rfl, id, id, still_busy⟩

theorem progress_withStation (station : BitVec 6) :
    Progress card.data (card.withStation station).data :=
  ⟨rfl, rfl, rfl, id, rfl, rfl, id, id, still_busy⟩

theorem progress_takeWaiting : Progress card.data card.takeWaiting.data :=
  ⟨rfl, rfl, rfl, id, rfl, rfl, id, id, still_busy⟩

theorem progress_updateInterrupt : Progress card.data card.updateInterrupt.data := by
  rw [updateInterrupt_data]
  exact ⟨rfl, rfl, rfl, id, rfl, rfl, id, id, still_busy⟩

theorem progress_raiseInputEvent : Progress card.data card.raiseInputEvent.data :=
  Progress.behind (progress_updateInterrupt _)
    ⟨rfl, rfl, rfl, id, rfl, rfl, fun _ => rfl, id, still_busy⟩

theorem progress_raiseOutputEvent : Progress card.data card.raiseOutputEvent.data :=
  Progress.behind (progress_updateInterrupt _)
    ⟨rfl, rfl, rfl, id, rfl, rfl, id, fun _ => rfl, still_busy⟩

theorem raiseInputEvent_pending : card.raiseInputEvent.data.inputIrqPending = true := by
  rw [raiseInputEvent, updateInterrupt_data]
  rfl

theorem raiseOutputEvent_pending : card.raiseOutputEvent.data.outputIrqPending = true := by
  rw [raiseOutputEvent, updateInterrupt_data]
  rfl

theorem progress_completed : Progress card.data card.completed.data := by
  have later := progress_raiseOutputEvent (card.holdOutput false)
  exact ⟨later.identCode, later.cpuAttached, later.transmit, later.loopbackMode,
    later.inputEnabled, later.outputEnabled, later.inputPending, later.outputPending,
    fun _ _ => raiseOutputEvent_pending _⟩

theorem progress_updateFifoStatus : Progress card.data card.updateFifoStatus.data := by
  rw [updateFifoStatus]
  refine Progress.trans ?_ (progress_updateInterrupt _)
  split_ifs
  · exact ⟨rfl, rfl, rfl, id, rfl, rfl, id, fun _ => rfl, fun _ _ => rfl⟩
  · exact ⟨rfl, rfl, rfl, id, rfl, rfl, id, id, still_busy⟩

theorem progress_fifoPush (word : Word) : Progress card.data (card.fifoPush word).1.data := by
  rw [fifoPush]
  split_ifs
  · exact Progress.behind (progress_updateFifoStatus _)
            ⟨rfl, rfl, rfl, id, rfl, rfl, id, id, still_busy⟩
  · exact Progress.refl _

theorem progress_fifoPop : Progress card.data card.fifoPop.1.data := by
  rw [fifoPop]
  split_ifs
  · exact Progress.refl _
  · exact Progress.behind (progress_updateFifoStatus _)
            ⟨rfl, rfl, rfl, id, rfl, rfl, id, id, still_busy⟩

theorem progress_landed (frame : Word) : Progress card.data (card.landed frame).data :=
  (progress_fifoPush card frame).trans
    ((progress_withInputData _ frame).trans
      ((progress_withStation _ (stationOf frame)).trans (progress_raiseInputEvent _)))

theorem progress_pumpBusyRetry (waiting : Nat) :
    Progress card.data (card.pumpBusyRetry waiting).data := by
  induction waiting generalizing card with
  | zero => exact Progress.refl _
  | succ waiting ih =>
    rw [pumpBusyRetry]
    split_ifs
    · exact (progress_takeWaiting card).trans
        ((progress_landed _ _).trans (ih _))
    · exact Progress.refl _

theorem progress_readInputData : Progress card.data card.readInputData.1.data := by
  rw [readInputData]
  split_ifs
  · have pumped := (progress_fifoPop card).trans ((progress_withInputData _ card.fifoPop.2).trans
      (progress_pumpBusyRetry _ (card.fifoPop.1.withInputData card.fifoPop.2).data.busyRetry.count))
    dsimp only
    split_ifs
    · exact pumped.trans (progress_raiseInputEvent _)
    · exact pumped
  · exact Progress.refl _

theorem progress_rxPush (word : Word) : Progress card.data (card.rxPush word).1.data := by
  rw [rxPush]
  split_ifs
  · exact ⟨rfl, rfl, rfl, id, rfl, rfl, id, id, still_busy⟩
  · exact ⟨rfl, rfl, rfl, id, rfl, rfl, id, id, still_busy⟩
  · exact progress_landed card word

theorem progress_holdOutput : Progress card.data (card.holdOutput true).data :=
  ⟨rfl, rfl, rfl, id, rfl, rfl, id, id, fun _ free => Bool.noConfusion free⟩

theorem progress_processTransmitQueue (echo : Bool) :
    Progress card.data (card.processTransmitQueue echo).data := by
  rw [processTransmitQueue]
  split_ifs
  · refine (progress_withStation card (card.data.stationAddress.setWidth 6)).trans ?_
    dsimp only
    split_ifs
    · exact (progress_fifoPush _ _).trans ((progress_withInputData _ _).trans
        ((progress_raiseInputEvent _).trans (progress_completed _)))
    · exact (progress_holdOutput _).trans (progress_updateFifoStatus _)
  · exact progress_completed card

theorem progress_replies (replies : List Word) :
    Progress card.data (replies.foldl (fun card reply => (Card.rxPush card reply).1) card).data := by
  induction replies generalizing card with
  | nil => exact Progress.refl _
  | cons reply replies ih =>
    exact (progress_rxPush card reply).trans (ih _)

theorem progress_deliver (value : Word) (answer : BusAnswer) :
    Progress card.data (card.deliver value answer).data := by
  rw [deliver]
  dsimp only
  split_ifs
  · exact progress_processTransmitQueue card _
  · exact progress_processTransmitQueue card _
  · exact progress_replies card _
  · exact (progress_replies card _).trans ⟨rfl, rfl, rfl, id, rfl, rfl, id, id, still_busy⟩

theorem progress_loadRegisters (value : Word) :
    Progress card.data (card.loadRegisters value).data := by
  rw [loadRegisters]
  split_ifs <;> exact ⟨rfl, rfl, rfl, id, rfl, rfl, id, id, still_busy⟩

theorem progress_completeCommand : Progress card.data card.completeCommand.data := by
  rw [completeCommand]
  split_ifs
  · exact Progress.refl _
  · exact Progress.behind (progress_raiseOutputEvent _)
      ⟨rfl, rfl, rfl, id, rfl, rfl, id, id, still_busy⟩

theorem progress_startCommand (value : Word) :
    Progress card.data (card.startCommand value).data :=
  ⟨rfl, rfl, rfl, id, rfl, rfl, id, id, still_busy⟩

theorem progress_command (value : Word) (answer : BusAnswer) :
    Progress card.data (card.write .outputCommand value answer).data :=
  (progress_startCommand card value).trans ((progress_deliver _ value answer).trans
    ((progress_updateFifoStatus _).trans
      ((progress_loadRegisters _ value).trans (progress_completeCommand _))))

end Progress

section Settled

variable (card : Card)

theorem updateInterrupt_settled : card.updateInterrupt.Settled := by
  have active_ : card.updateInterrupt.active = card.active := by
    simp only [active, inputActive, outputActive, updateInterrupt_data]
  refine ⟨?_, ?_⟩
  · rw [active_, line, updateInterrupt]
    change (Device.setInterruptStatus _ card.active octobusInterruptLevel).interruptBits.getLsbD
      octobusInterruptLevel = card.active
    rw [Device.setInterruptStatus]
    cases card.active <;>
      simp [Device.generateInterrupt, Device.clearInterrupt, octobusInterruptLevel]
  · rw [active_, updateInterrupt_data]
    rfl

theorem Settled.lined {card : Card} (settled : card.Settled) : card.Lined :=
  ⟨fun high => settled.1.symm.trans high, settled.2⟩

theorem raiseInputEvent_settled : card.raiseInputEvent.Settled := updateInterrupt_settled _

theorem raiseOutputEvent_settled : card.raiseOutputEvent.Settled := updateInterrupt_settled _

theorem updateFifoStatus_settled : card.updateFifoStatus.Settled := updateInterrupt_settled _

theorem landed_settled (frame : Word) : (card.landed frame).Settled := raiseInputEvent_settled _

theorem pumpBusyRetry_settled (settled : card.Settled) (waiting : Nat) :
    (card.pumpBusyRetry waiting).Settled := by
  induction waiting generalizing card with
  | zero => exact settled
  | succ waiting ih =>
    rw [pumpBusyRetry]
    split_ifs
    · exact ih _ (landed_settled _ _)
    · exact settled

/-- A read from an empty fifo does nothing. -/
theorem readInputData_settled : card.readInputData.1.Settled ∨ card.readInputData.1 = card := by
  rw [readInputData]
  split_ifs with some_
  · left
    have popped : (card.fifoPop.1.withInputData card.fifoPop.2).Settled := by
      rw [fifoPop, if_neg (Nat.ne_of_gt some_)]
      exact updateFifoStatus_settled (card.onData fun data => { data with rxFifo := data.rxFifo.take })
    dsimp only
    split_ifs
    · exact raiseInputEvent_settled _
    · exact pumpBusyRetry_settled _ popped _
  · exact .inr rfl

theorem loadRegisters_settled (settled : card.Settled) (value : Word) :
    (card.loadRegisters value).Settled := by
  rw [loadRegisters]
  split_ifs <;> exact settled

theorem completeCommand_settled (settled : card.Settled) : card.completeCommand.Settled := by
  rw [completeCommand]
  split_ifs
  · exact settled
  · exact raiseOutputEvent_settled _

theorem command_settled (value : Word) (answer : BusAnswer) :
    (card.write .outputCommand value answer).Settled :=
  completeCommand_settled _ (loadRegisters_settled _ (updateFifoStatus_settled _) value)

theorem enableInterrupt_settled (enabled isInput : Bool) :
    (card.enableInterrupt enabled isInput).Settled := updateInterrupt_settled _

end Settled

section Hold

variable (card : Card)

/-- These words tell when a transfer is held back. -/
def hold : Bool × Bool × Nat :=
  (card.outputBusy, card.data.loopbackMode, card.data.rxFifo.count)

@[simp] theorem hold_updateInterrupt : card.updateInterrupt.hold = card.hold := by
  rw [hold, hold, outputBusy, updateInterrupt_data]
  rfl

@[simp] theorem hold_raiseOutputEvent : card.raiseOutputEvent.hold = card.hold := by
  rw [raiseOutputEvent, hold_updateInterrupt]
  rfl

theorem hold_updateFifoStatus : card.updateFifoStatus.hold =
    (card.outputBusy && !(decide (card.data.rxFifo.count < octobusRxFifoWords) &&
      card.data.loopbackMode), card.data.loopbackMode, card.data.rxFifo.count) := by
  have busy := updateFifoStatus_busy card
  rw [hold, busy]
  rw [updateFifoStatus, updateInterrupt_data]
  split_ifs <;> rfl

theorem Held.of_hold {before after : Card} (held : Held before.data)
    (same : after.hold = before.hold) : Held after.data := by
  obtain ⟨busy, loopback, count⟩ : after.outputBusy = before.outputBusy ∧
      after.data.loopbackMode = before.data.loopbackMode ∧
      after.data.rxFifo.count = before.data.rxFifo.count :=
    ⟨congrArg Prod.fst same, congrArg (·.2.1) same, congrArg (·.2.2) same⟩
  intro on
  rw [loopback, count]
  exact held (busy.symm.trans on)

theorem Held.of_free {data : OctobusData} (free : data.outputStatusRegister.busy = false) :
    Held data := fun busy => Bool.noConfusion (busy.symm.trans free)

/-- A transfer that is held back stays so while the fifo is full. -/
theorem updateFifoStatus_held (held : Held card.data) : Held card.updateFifoStatus.data := by
  have same := hold_updateFifoStatus card
  rcases busy : card.outputBusy with _ | _
  · rw [busy] at same
    exact Held.of_free (congrArg Prod.fst same)
  · obtain ⟨-, full⟩ := held busy
    refine Held.of_hold held (same.trans ?_)
    rw [full, decide_eq_false (Nat.lt_irrefl _), hold, full, busy]
    rfl

/-- A frame that finds room finds no transfer that is held back. -/
theorem fifoPush_free (held : Held card.data) (room : card.data.rxFifo.count < octobusRxFifoWords)
    (word : Word) : (card.fifoPush word).1.outputBusy = false := by
  have free : card.outputBusy = false := by
    by_contra busy
    have full := (held (Bool.not_eq_false _ ▸ busy)).2
    exact absurd full (Nat.ne_of_lt room)
  rw [fifoPush, dif_pos room, updateFifoStatus_busy]
  change (card.outputBusy && _) = false
  rw [free, Bool.false_and]

/-- A read releases the transfer that is held back. -/
theorem fifoPop_free (held : Held card.data) (some_ : 0 < card.data.rxFifo.count) :
    card.fifoPop.1.outputBusy = false := by
  have room : card.data.rxFifo.count - 1 < octobusRxFifoWords := by
    have short := card.data.rxFifo.fits
    omega
  rw [fifoPop, if_neg (Nat.ne_of_gt some_), updateFifoStatus_busy]
  change (card.outputBusy && !(decide (card.data.rxFifo.count - 1 < octobusRxFifoWords) &&
    card.data.loopbackMode)) = false
  rcases busy : card.outputBusy with _ | _
  · rfl
  · rw [decide_eq_true room, (held busy).1]
    rfl

theorem landed_free (held : Held card.data) (room : card.data.rxFifo.count < octobusRxFifoWords)
    (frame : Word) : (card.landed frame).outputBusy = false := by
  rw [landed, raiseInputEvent_busy]
  exact fifoPush_free card held room frame

theorem rxPush_held (held : Held card.data) (word : Word) : Held (card.rxPush word).1.data := by
  rw [rxPush]
  split_ifs with waits
  · exact held
  · exact held
  · exact Held.of_free (landed_free card held (by omega) word)

theorem pumpBusyRetry_free (free : card.outputBusy = false) (waiting : Nat) :
    (card.pumpBusyRetry waiting).outputBusy = false := by
  induction waiting generalizing card with
  | zero => exact free
  | succ waiting ih =>
    rw [pumpBusyRetry]
    split_ifs with room
    · exact ih _ (landed_free card.takeWaiting (Held.of_free free) room _)
    · exact free

theorem readInputData_held (held : Held card.data) : Held card.readInputData.1.data := by
  rw [readInputData]
  split_ifs with some_
  · have free := pumpBusyRetry_free (card.fifoPop.1.withInputData card.fifoPop.2)
      (fifoPop_free card held some_)
      (card.fifoPop.1.withInputData card.fifoPop.2).data.busyRetry.count
    dsimp only
    split_ifs
    · exact Held.of_free ((raiseInputEvent_busy _).trans free)
    · exact Held.of_free free
  · exact held

theorem processTransmitQueue_held (echo : Bool)
    (loops : echo = true → card.data.loopbackMode = true) :
    Held (card.processTransmitQueue echo).data := by
  rw [processTransmitQueue]
  split_ifs with echoes
  · dsimp only
    split_ifs with pushed
    · exact Held.of_free (completed_busy _)
    · refine updateFifoStatus_held _ fun _ => ⟨loops echoes, ?_⟩
      have short := card.data.rxFifo.fits
      rw [fifoPush] at pushed
      split_ifs at pushed with room
      · exact absurd rfl pushed
      · exact Nat.le_antisymm short (Nat.le_of_not_lt room)
  · exact Held.of_free (completed_busy _)

theorem replies_held (held : Held card.data) (replies : List Word) :
    Held (replies.foldl (fun card reply => (Card.rxPush card reply).1) card).data := by
  induction replies generalizing card with
  | nil => exact held
  | cons reply replies ih =>
    exact ih _ (rxPush_held card held reply)

theorem deliver_held (held : Held card.data) (wired : Wired card.data) (value : Word)
    (answer : BusAnswer) : Held (card.deliver value answer).data := by
  rw [deliver]
  dsimp only
  split_ifs with own alone
  · refine processTransmitQueue_held card _ fun echo => ?_
    by_contra off
    rw [Bool.not_eq_true] at off
    rw [off, (wired off).1] at echo
    cases echo
  · refine processTransmitQueue_held card _ fun _ => ?_
    by_contra off
    rw [Bool.not_eq_true] at off
    exact Bool.noConfusion ((wired off).2.symm.trans alone)
  · exact replies_held card held _
  · exact replies_held card held _

theorem hold_loadRegisters (value : Word) : (card.loadRegisters value).hold = card.hold := by
  rw [loadRegisters]
  split_ifs <;> rfl

theorem hold_completeCommand : card.completeCommand.hold = card.hold := by
  rw [completeCommand]
  split_ifs
  · rfl
  · exact hold_raiseOutputEvent _

theorem command_held (held : Held card.data) (wired : Wired card.data) (value : Word)
    (answer : BusAnswer) : Held (card.write .outputCommand value answer).data :=
  Held.of_hold (updateFifoStatus_held _ (deliver_held (card.startCommand value) held wired value
    answer)) ((hold_completeCommand _).trans (hold_loadRegisters _ value))

end Hold

section Noted

variable {before after : OctobusData} (card : Card)

theorem Noted.of_pending {data : OctobusData} (pending : data.inputIrqPending = true) :
    Noted data := fun _ => pending

theorem Noted.kept (noted : Noted before) (progress : Progress before after)
    (count : after.rxFifo.count = before.rxFifo.count) : Noted after := by
  intro some_
  rw [count] at some_
  exact progress.inputPending (noted some_)

theorem rxPush_noted (noted : Noted card.data) (word : Word) :
    Noted (card.rxPush word).1.data := by
  rw [rxPush]
  split_ifs
  · exact noted
  · exact noted
  · exact Noted.of_pending (raiseInputEvent_pending _)

/-- A read that leaves a frame asks for the interrupt again. -/
theorem readInputData_noted : Noted card.readInputData.1.data := by
  rw [readInputData]
  split_ifs with some_
  · dsimp only
    split_ifs with more
    · exact Noted.of_pending (raiseInputEvent_pending _)
    · exact fun frame => absurd frame more
  · exact fun frame => absurd frame some_

theorem processTransmitQueue_noted (noted : Noted card.data) (echo : Bool) :
    Noted (card.processTransmitQueue echo).data := by
  rw [processTransmitQueue]
  split_ifs
  · dsimp only
    split_ifs
    · exact Noted.of_pending ((progress_completed _).inputPending (raiseInputEvent_pending _))
    · refine noted.kept ((progress_withStation card _).trans ((progress_holdOutput _).trans
        (progress_updateFifoStatus _))) ?_
      exact congrArg (·.2.2) (hold_updateFifoStatus _)
  · exact noted.kept (progress_completed card) (congrArg (·.2.2) (hold_raiseOutputEvent _))

theorem replies_noted (noted : Noted card.data) (replies : List Word) :
    Noted (replies.foldl (fun card reply => (Card.rxPush card reply).1) card).data := by
  induction replies generalizing card with
  | nil => exact noted
  | cons reply replies ih =>
    exact ih _ (rxPush_noted card noted reply)

theorem deliver_noted (noted : Noted card.data) (value : Word) (answer : BusAnswer) :
    Noted (card.deliver value answer).data := by
  rw [deliver]
  dsimp only
  split_ifs
  · exact processTransmitQueue_noted card noted _
  · exact processTransmitQueue_noted card noted _
  · exact replies_noted card noted _
  · exact replies_noted card noted _

theorem command_noted (noted : Noted card.data) (value : Word) (answer : BusAnswer) :
    Noted (card.write .outputCommand value answer).data := by
  have delivered := deliver_noted (card.startCommand value) noted value answer
  have updated := delivered.kept (progress_updateFifoStatus _)
    (congrArg (·.2.2) (hold_updateFifoStatus _))
  have loaded := updated.kept (progress_loadRegisters _ value)
    (congrArg (·.2.2) (hold_loadRegisters _ value))
  exact loaded.kept (progress_completeCommand _) (congrArg (·.2.2) (hold_completeCommand _))

end Noted

section Asked

variable {before after : OctobusData} {card : Card}

/-- The driver has something to answer, now or when the fifo has room. -/
def Asked (data : OctobusData) : Prop :=
  data.inputIrqPending = true ∨ data.outputIrqPending = true ∨
    data.outputStatusRegister.busy = true

theorem Progress.asked (progress : Progress before after) (asked : Asked before) :
    Asked after := by
  rcases asked with input | output | busy
  · exact .inl (progress.inputPending input)
  · exact .inr (.inl (progress.outputPending output))
  · by_cases held : after.outputStatusRegister.busy = true
    · exact .inr (.inr held)
    · exact .inr (.inl (progress.released busy (Bool.not_eq_true _ ▸ held)))

theorem asked_of_active (active : card.active = true) : Asked card.data := by
  rw [Card.active, Bool.or_eq_true] at active
  rcases active with input | output
  · rw [inputActive, Bool.and_eq_true] at input
    exact .inl input.1
  · rw [outputActive, Bool.and_eq_true, Bool.and_eq_true] at output
    exact .inr (.inl output.1.1)

/-- With both controllers enabled, a transfer that is held back has a frame before it. -/
theorem active_of_asked (held : Held card.data) (noted : Noted card.data)
    (input : card.data.statusRegister.interruptEnabled = true)
    (output : card.data.outputStatusRegister.interruptEnabled = true)
    (asked : Asked card.data) : card.active = true := by
  rw [active, inputActive, outputActive, input, output, Bool.and_true, Bool.and_true]
  by_cases busy : card.data.outputStatusRegister.busy = true
  · have full := (held busy).2
    have pending := noted (by
      rw [full]
      decide)
    rw [pending]
    rfl
  · rw [Bool.not_eq_true] at busy
    rw [busy, Bool.not_false, Bool.and_true, Bool.or_eq_true]
    rcases asked with pending | pending | held_
    · exact .inl pending
    · exact .inr pending
    · exact Bool.noConfusion (busy.symm.trans held_)

theorem rxPush_settled (settled : card.Settled) (word : Word) :
    (card.rxPush word).1.Settled := by
  rw [rxPush]
  split_ifs
  · exact settled
  · exact settled
  · exact landed_settled card word

theorem rxPush_lined (lined : card.Lined) (word : Word) : (card.rxPush word).1.Lined := by
  rw [rxPush]
  split_ifs
  · exact lined
  · exact lined
  · exact (landed_settled card word).lined

theorem tick_data (lined : card.Lined) : card.tick.data = card.data := by
  rw [tick]
  split_ifs
  · rw [updateInterrupt_data]
    change { card.data with lineHigh := card.active } = card.data
    rw [← lined.2]
  · rfl

/-- A card that the tick passes over has neither a request nor its line. -/
theorem tick_settled (lined : card.Lined) : card.tick.Settled := by
  rw [tick]
  split_ifs with works
  · exact updateInterrupt_settled card
  · rw [Bool.or_eq_true, not_or, Bool.not_eq_true, Bool.not_eq_true] at works
    have quiet : card.active = false := works.1
    refine ⟨?_, lined.2⟩
    rw [quiet]
    by_contra high
    exact Bool.noConfusion ((lined.1 (Bool.not_eq_false _ ▸ high)).symm.trans quiet)

end Asked

section Controls

variable (card : Card)

/-- A control word that enables a controller keeps the requests. -/
structure Enables (isInput : Bool) (before after : OctobusData) : Prop where
  identCode : after.identCode = before.identCode
  cpuAttached : after.cpuAttached = before.cpuAttached
  transmit : after.transmit = before.transmit
  loopbackMode : before.loopbackMode = true → after.loopbackMode = true
  inputPending : after.inputIrqPending = before.inputIrqPending
  outputPending : after.outputIrqPending = before.outputIrqPending
  busy : after.outputStatusRegister.busy = before.outputStatusRegister.busy
  rxFifo : after.rxFifo = before.rxFifo
  inputEnabled : after.statusRegister.interruptEnabled =
    (isInput || before.statusRegister.interruptEnabled)
  outputEnabled : after.outputStatusRegister.interruptEnabled =
    (!isInput || before.outputStatusRegister.interruptEnabled)

theorem Enables.held {isInput : Bool} {before after : OctobusData}
    (enables : Enables isInput before after) (held : Held before) : Held after := by
  intro busy
  rw [enables.busy] at busy
  rw [enables.rxFifo]
  exact ⟨enables.loopbackMode (held busy).1, (held busy).2⟩

theorem control_eq {control : Word} (enabled : controlInterruptEnabled control = true)
    (reset : controlReset control = false) (clear : controlDeviceClear control = false)
    (isInput : Bool) :
    card.processControlChange control isInput =
      ((card.applyTestMode control).enableInterrupt true isInput).applyContinue control := by
  rw [processControlChange, applyReset, reset, if_neg Bool.false_ne_true, applyClear, clear,
    if_neg Bool.false_ne_true, enabled]

theorem applyContinue_settled {card : Card} (settled : card.Settled) (control : Word) :
    (card.applyContinue control).Settled := by
  rw [applyContinue]
  split_ifs
  · exact settled
  · exact settled

theorem control_settled {control : Word} (enabled : controlInterruptEnabled control = true)
    (reset : controlReset control = false) (clear : controlDeviceClear control = false)
    (isInput : Bool) : (card.processControlChange control isInput).Settled := by
  rw [control_eq card enabled reset clear]
  exact applyContinue_settled (enableInterrupt_settled _ true isInput) control

theorem control_enables {control : Word} (enabled : controlInterruptEnabled control = true)
    (reset : controlReset control = false) (clear : controlDeviceClear control = false)
    (isInput : Bool) :
    Enables isInput card.data (card.processControlChange control isInput).data := by
  have kept (card : Card) : Enables isInput card.data (card.enableInterrupt true isInput).data := by
    rw [enableInterrupt, updateInterrupt_data]
    cases isInput <;> exact ⟨rfl, rfl, rfl, id, rfl, rfl, rfl, rfl, rfl, rfl⟩
  have tested : Enables isInput card.data
      ((card.applyTestMode control).enableInterrupt true isInput).data := by
    rw [applyTestMode]
    split_ifs
    · exact { kept _ with loopbackMode := fun _ => (kept _).loopbackMode rfl }
    · exact kept card
  rw [control_eq card enabled reset clear, applyContinue]
  split_ifs
  · exact { tested with }
  · exact tested

/-- The control word of a controller is stored first. -/
theorem writeControl_enables (control : Word)
    (enabled : controlInterruptEnabled control = true) (reset : controlReset control = false) (clear : controlDeviceClear control = false)
    (answer : BusAnswer) :
    Enables true card.data (card.write .inputControl control answer).data ∧
      Enables false card.data (card.write .outputControl control answer).data := by
  have input := control_enables (card.onData fun data => { data with controlWord := control })
    enabled reset clear true
  have output :=
    control_enables (card.onData fun data => { data with outputControlWord := control })
      enabled reset clear false
  exact ⟨{ input with }, { output with }⟩

theorem writeControl_settled (control : Word)
    (enabled : controlInterruptEnabled control = true) (reset : controlReset control = false) (clear : controlDeviceClear control = false)
    (answer : BusAnswer) :
    (card.write .inputControl control answer).Settled ∧
      (card.write .outputControl control answer).Settled := by
  constructor
  · rw [write]
    exact control_settled _ enabled reset clear true
  · rw [write]
    exact control_settled _ enabled reset clear false

end Controls

end Card

end Nd100x.Octobus
