import Nd100x.Octobus.Requests
import Mathlib.Data.List.TakeWhile

namespace Nd100x.Octobus

open Nd100x.Library Nd100x.Devices

section Manager

variable {manager : CardManager}

theorem cardTable_interrupts (devices : DeviceArray 1 Empty OctobusData) :
    cardTable.interrupts devices = (devices 0).interruptBits := by
  change (0 : Word) ||| (devices 0).interruptBits = _
  exact BitVec.zero_or

theorem perform_cardEffect_fresh (fresh : Manager.Fresh cardTable manager) (accessed : Bool)
    (change : Card → Card) :
    Manager.Fresh cardTable (manager.perform (cardEffect accessed change)) := by
  rw [Manager.Fresh, Manager.perform, Bool.or_eq_true]
  by_cases moved : (change (manager.devices 0)).interruptBits = (manager.devices 0).interruptBits
  · refine fresh.imp .inl fun same => ?_
    rw [same, cardTable_interrupts, cardTable_interrupts]
    exact moved.symm
  · exact .inl (.inr (decide_eq_true moved))

/-- The manager serves this card alone. -/
structure Serves (manager : CardManager) (card : Card) : Prop where
  short : manager.tickList.length ≤ 1
  order : ∀ d, manager.tickOrder d = 0
  fresh : Manager.Fresh cardTable manager
  card : manager.devices 0 = card

variable {card : Card}

theorem Serves.perform (serves : Serves manager card) (accessed : Bool) (change : Card → Card) :
    Serves (manager.perform (cardEffect accessed change)) (change card) where
  short := serves.short
  order := serves.order
  fresh := perform_cardEffect_fresh serves.fresh accessed change
  card := congrArg change serves.card

theorem Serves.rebuild (serves : Serves manager card) :
    Serves (manager.rebuildTickList cardTable) card where
  short := (List.length_take_le' _ _).trans (List.length_filter_le _ _)
  order := fun d => congrArg Fin.val (Subsingleton.elim d 0)
  fresh := serves.fresh
  card := serves.card

theorem Serves.prepare (serves : Serves manager card) :
    Serves (manager.prepare cardTable) card := by
  rw [Manager.prepare]
  split_ifs
  · exact serves
  · have rebuilt := @Serves.rebuild { manager with
        inTickList := fun _ => false
        tickListDevices := some 1 } _
      ⟨serves.short, serves.order, serves.fresh, serves.card⟩
    exact ⟨rebuilt.short, rebuilt.order, .inl rfl, rebuilt.card⟩

theorem Serves.takeRequests (serves : Serves manager card) :
    Serves (manager.takeRequests cardTable).1 card := by
  rw [Manager.takeRequests]
  have asked (inTickList : Fin 1 → Bool) : Serves { manager with
      tickWanted := false
      inTickList := inTickList } card :=
    ⟨serves.short, serves.order, serves.fresh, serves.card⟩
  split_ifs
  · exact (asked _).rebuild
  · exact asked _
  · exact serves

theorem Serves.leave (serves : Serves manager card) (d : Fin 1) (removed : Bool) :
    Serves (manager.leave cardTable d removed).1 card := by
  obtain ⟨devices, list, order, fresh⟩ :=
    @Manager.leave_frame _ _ _ cardTable manager removed d
  refine ⟨?_, fun e => ?_, fresh serves.fresh, (congrFun devices 0).trans serves.card⟩
  · rw [list]
    exact serves.short
  · rw [order]
    exact serves.order e

theorem Serves.refreshBits (serves : Serves manager card) :
    Serves (manager.refreshBits cardTable) card ∧
      (manager.refreshBits cardTable).irqBits = card.interruptBits := by
  rw [Manager.refreshBits]
  split_ifs with dirty
  · refine ⟨⟨serves.short, serves.order, .inr rfl, serves.card⟩, ?_⟩
    dsimp only
    rw [cardTable_interrupts, serves.card]
  · have bits := serves.fresh.resolve_left dirty
    rw [cardTable_interrupts, serves.card] at bits
    exact ⟨serves, bits⟩

/-- A card is ticked once at most. -/
theorem tickFrom_serves (serves : Serves manager card) :
    ∃ last, Manager.tickFrom cardTable 1 manager 0 false = some last ∧
      (Serves last.1 card ∨ Serves last.1 card.tick) := by
  rw [Manager.tickFrom]
  rcases listed : manager.tickList[0]? with _ | d
  · exact ⟨_, rfl, .inl serves⟩
  · have asked := ((serves.perform false Card.tick).leave d false).takeRequests
    dsimp only
    rw [Manager.tickFrom, if_neg]
    · exact ⟨_, rfl, .inr asked⟩
    · rw [Nat.not_lt]
      split_ifs with joined
      · refine Nat.le_of_eq (congrArg List.length (List.takeWhile_eq_self_iff.mpr ?_)).symm
        intro e _
        rw [decide_eq_true_eq]
        exact (asked.order e).trans_le (Nat.zero_le _)
      · exact asked.short

/-- The bits that a tick returns are those of the card. -/
theorem tick_serves (serves : Serves manager card) :
    ∃ result, manager.tick cardTable = some result ∧
      ∃ ticked, (ticked = card ∨ ticked = card.tick) ∧ Serves result.1 ticked ∧
        result.2.1 = ticked.interruptBits := by
  obtain ⟨last, walked, served⟩ := tickFrom_serves serves.prepare.takeRequests
  rw [Manager.tick, walked]
  refine ⟨_, rfl, ?_⟩
  have kept {ticked : Card} (last_ : Serves last.1 ticked) :
      Serves (if last.2.1 then last.1.rebuildTickList cardTable else last.1) ticked := by
    split_ifs
    · exact last_.rebuild
    · exact last_
  rcases served with same | ticked
  · exact ⟨card, .inl rfl, (kept same).refreshBits⟩
  · exact ⟨card.tick, .inr rfl, (kept ticked).refreshBits⟩

/-- The manager lowers the line of a card that has answered. -/
def lowered (card : Card) : Card :=
  { (card.ident octobusInterruptLevel).1 with
    interruptBits := (card.ident octobusInterruptLevel).1.interruptBits &&&
      ~~~BitVec.twoPow 16 octobusInterruptLevel }

theorem lowered_line (card : Card) : (lowered card).line = false := by
  rw [Card.line, lowered, BitVec.getLsbD_and, octobusInterruptLevel]
  simp

theorem identFrom_serves (serves : Serves manager card) (high : card.line = true)
    (answers : (card.ident octobusInterruptLevel).2 ≠ 0) :
    ∃ after, manager.identFrom cardIdent octobusInterruptLevel [0] =
      (after, some (card.ident octobusInterruptLevel).2) ∧ Serves after (lowered card) := by
  have same := serves.card
  subst same
  have code : (cardIdent 0 manager.devices).2 ≠ 0 := answers
  have bit : (manager.devices 0).interruptBits.getLsbD octobusInterruptLevel = true := high
  rw [Manager.identFrom, if_pos bit]
  dsimp only
  rw [if_neg code]
  exact ⟨_, rfl, serves.short, serves.order, .inl rfl, rfl⟩

end Manager

/-- No frame and no transfer of the bench waits without a request. -/
structure Bench.Sound (bench : Bench) : Prop where
  serves : Serves bench.manager bench.card
  wired : Card.Wired bench.card.data
  held : Card.Held bench.card.data
  lined : bench.card.Lined
  code : bench.card.data.identCode ≠ 0 ∧ bench.card.data.identCode + 1 ≠ 0
  noted : bench.driver ≠ .reading → Card.Noted bench.card.data
  input : bench.driver = .idle ∨ bench.driver = .enablingOutput →
    bench.card.data.statusRegister.interruptEnabled = true
  output : bench.driver ≠ .enablingOutput →
    bench.card.data.outputStatusRegister.interruptEnabled = true
  owed : bench.owed = true →
    bench.card.data.outputIrqPending = true ∨ bench.card.data.outputStatusRegister.busy = true
  settled : bench.driver = .idle → bench.card.Settled
  interrupt : bench.driver = .idle → bench.interrupt = true → bench.card.line = true

namespace Bench

open Card

variable {bench : Bench}

/-- An idle driver has the line high while something is to be answered. -/
theorem Sound.line (sound : bench.Sound) (idle : bench.driver = .idle) :
    bench.card.line = true ↔ Asked bench.card.data := by
  have reading : bench.driver ≠ .reading := by
    rw [idle]
    exact Driver.noConfusion
  have enabling : bench.driver ≠ .enablingOutput := by
    rw [idle]
    exact Driver.noConfusion
  rw [(sound.settled idle).1]
  exact ⟨asked_of_active, active_of_asked sound.held (sound.noted reading) (sound.input (.inl idle))
    (sound.output enabling)⟩

theorem perform_card (accessed : Bool) (change : Card → Card) (value : Option Word) :
    (bench.perform accessed change value).card = change bench.card := rfl

/-- What was owed stays so, and a completed transfer has its request or is behind another one. -/
theorem perform_owed (accessed : Bool) (change : Card → Card) (value : Option Word)
    (owed : bench.owed = true →
      bench.card.data.outputIrqPending = true ∨ bench.card.data.outputStatusRegister.busy = true)
    (progress : Progress bench.card.data (change bench.card).data)
    (asks : value.isSome = true →
      (change bench.card).outputBusy = true ∨ (change bench.card).data.outputIrqPending = true)
    (after : (bench.perform accessed change value).owed = true) :
    (change bench.card).data.outputIrqPending = true ∨
      (change bench.card).data.outputStatusRegister.busy = true := by
  rcases (Bool.or_eq_true _ _).mp after with before | completed
  · rcases owed before with pending | busy
    · exact .inl (progress.outputPending pending)
    · by_cases free : (change bench.card).data.outputStatusRegister.busy = true
      · exact .inr free
      · exact .inl (progress.released busy (Bool.not_eq_true _ ▸ free))
  · rw [completes, Bool.or_eq_true] at completed
    rcases completed with given | released
    · rcases value with _ | value
      · exact Bool.noConfusion given
      · exact (asks rfl).symm
    · rw [Bool.and_eq_true, Bool.not_eq_true'] at released
      exact .inl (progress.released released.1 released.2)

/-- The driver keeps its place while frames come and commands go. -/
theorem Sound.perform (sound : bench.Sound) {accessed : Bool} {change : Card → Card}
    {value : Option Word} (progress : Progress bench.card.data (change bench.card).data)
    (held : Held (change bench.card).data) (lined : (change bench.card).Lined)
    (noted : Noted bench.card.data → Noted (change bench.card).data)
    (settled : bench.card.Settled → (change bench.card).Settled)
    (asks : value.isSome = true →
      (change bench.card).outputBusy = true ∨ (change bench.card).data.outputIrqPending = true) :
    (bench.perform accessed change value).Sound where
  serves := sound.serves.perform accessed change
  wired := progress.wired sound.wired
  held := held
  lined := lined
  code := by
    rw [perform_card, progress.identCode]
    exact sound.code
  noted := fun reading => noted (sound.noted reading)
  input := fun place => progress.inputEnabled.trans (sound.input place)
  output := fun place => progress.outputEnabled.trans (sound.output place)
  owed := perform_owed accessed change value sound.owed progress asks
  settled := fun idle => settled (sound.settled idle)
  interrupt := by
    intro idle high
    have asked := (sound.line idle).mp (sound.interrupt idle high)
    have place : bench.driver ≠ .reading ∧ bench.driver ≠ .enablingOutput := by
      rw [show bench.driver = .idle from idle]
      exact ⟨Driver.noConfusion, Driver.noConfusion⟩
    refine (settled (sound.settled idle)).1.trans (active_of_asked held
      (noted (sound.noted place.1)) ?_ ?_ (progress.asked asked))
    · exact progress.inputEnabled.trans (sound.input (.inl idle))
    · exact progress.outputEnabled.trans (sound.output place.2)

theorem Sound.arrive (sound : bench.Sound) (word : Word) :
    (bench.perform false (fun card => (card.rxPush word).1) none).Sound :=
  sound.perform (progress_rxPush _ word) (rxPush_held _ sound.held word)
    (rxPush_lined sound.lined word) (fun noted => rxPush_noted _ noted word)
    (fun settled => rxPush_settled settled word) Bool.noConfusion

theorem command_asks (card : Card) (value : Word) (answer : BusAnswer) :
    (card.write .outputCommand value answer).outputBusy = true ∨
      (card.write .outputCommand value answer).data.outputIrqPending = true := by
  rw [Card.write, writeOutputCommand, completeCommand]
  split_ifs with busy
  · exact .inl busy
  · exact .inr (raiseOutputEvent_pending _)

theorem Sound.command (sound : bench.Sound) (value : Word) (answer : BusAnswer) :
    (bench.perform true (fun card => card.write .outputCommand value answer)
      (some value)).Sound :=
  have settled := command_settled bench.card value answer
  sound.perform (progress_command _ value answer)
    (command_held _ sound.held sound.wired value answer) settled.lined
    (fun noted => command_noted _ noted value answer) (fun _ => settled)
    fun _ => command_asks _ value answer

/-- A tick changes nothing but the line, and the line is returned. -/
theorem Sound.tick (sound : bench.Sound) :
    ∃ after, bench.tick = some after ∧ after.Sound ∧ after.driver = bench.driver ∧
      after.owed = bench.owed ∧ after.card.data = bench.card.data ∧
      after.interrupt = after.card.line := by
  obtain ⟨result, ran, ticked, same, serves, bits⟩ := tick_serves sound.serves
  have data : ticked.data = bench.card.data := by
    rcases same with rfl | rfl
    · rfl
    · exact tick_data sound.lined
  have lined : ticked.Lined := by
    rcases same with rfl | rfl
    · exact sound.lined
    · exact (tick_settled sound.lined).lined
  have settled (before : bench.card.Settled) : ticked.Settled := by
    rcases same with rfl | rfl
    · exact before
    · exact tick_settled sound.lined
  let after : Bench := { bench with
    manager := result.1
    interrupt := result.2.1.getLsbD octobusInterruptLevel }
  have card : after.card = ticked := serves.card
  have line : after.interrupt = ticked.line := congrArg (·.getLsbD octobusInterruptLevel) bits
  refine ⟨after, ?_, ?_, rfl, rfl, card ▸ data, line.trans (card ▸ rfl)⟩
  · rw [Bench.tick, ran]
    rfl
  · constructor
    · exact ⟨serves.short, serves.order, serves.fresh, rfl⟩
    all_goals rw [card]
    all_goals try rw [data]
    · exact sound.wired
    · exact sound.held
    · exact lined
    · exact sound.code
    · exact sound.noted
    · exact sound.input
    · exact sound.output
    · exact sound.owed
    · exact fun idle => settled (sound.settled idle)
    · exact fun _ high => line.symm.trans high

theorem Sound.read (sound : bench.Sound) (reading : bench.driver = .reading) :
    { ({ bench with interrupt := false } : Bench).perform true
        (fun card => (card.read .inputData).1) none with driver := .enablingInput }.Sound := by
  have progress : Progress bench.card.data bench.card.readInputData.1.data :=
    progress_readInputData _
  have enabling : bench.driver ≠ .enablingOutput := by
    rw [reading]
    exact Driver.noConfusion
  have serves := sound.serves.perform true fun card => (card.read .inputData).1
  exact {
    serves := ⟨serves.short, serves.order, serves.fresh, rfl⟩
    wired := progress.wired sound.wired
    held := readInputData_held _ sound.held
    lined := by
      change bench.card.readInputData.1.Lined
      rcases readInputData_settled bench.card with settled | same
      · exact settled.lined
      · rw [same]
        exact sound.lined
    code := by
      change bench.card.readInputData.1.data.identCode ≠ 0 ∧
        bench.card.readInputData.1.data.identCode + 1 ≠ 0
      rw [progress.identCode]
      exact sound.code
    noted := fun _ => readInputData_noted _
    input := by rintro (idle | idle) <;> cases idle
    output := fun _ => progress.outputEnabled.trans (sound.output enabling)
    owed := perform_owed true (fun card => (card.read .inputData).1) none sound.owed progress
      Bool.noConfusion
    settled := Driver.noConfusion
    interrupt := Driver.noConfusion }

/-- A control word that enables the controller that was answered brings the driver back. -/
theorem Sound.enable (sound : bench.Sound) (register : WriteRegister) (control : Word)
    (settled : (bench.card.write register control Exchange.silence).Settled) {isInput : Bool}
    (enables : Enables isInput bench.card.data
      (bench.card.write register control Exchange.silence).data)
    (noted : Noted bench.card.data)
    (input : isInput = true ∨ bench.card.data.statusRegister.interruptEnabled = true)
    (output : isInput = false ∨ bench.card.data.outputStatusRegister.interruptEnabled = true) :
    { ({ bench with interrupt := false } : Bench).perform true
        (fun card => card.write register control Exchange.silence) none with
      driver := .idle }.Sound := by
  have serves := sound.serves.perform true fun card => card.write register control Exchange.silence
  have busy : (bench.card.write register control Exchange.silence).outputBusy =
      bench.card.outputBusy := enables.busy
  exact {
    serves := ⟨serves.short, serves.order, serves.fresh, rfl⟩
    wired := sound.wired.kept enables.cpuAttached enables.transmit enables.loopbackMode
    held := enables.held sound.held
    lined := settled.lined
    code := by
      change (bench.card.write register control Exchange.silence).data.identCode ≠ 0 ∧
        (bench.card.write register control Exchange.silence).data.identCode + 1 ≠ 0
      rw [enables.identCode]
      exact sound.code
    noted := by
      intro _ some_
      change 0 < (bench.card.write register control Exchange.silence).data.rxFifo.count at some_
      rw [enables.rxFifo] at some_
      exact enables.inputPending.trans (noted some_)
    input := fun _ => enables.inputEnabled.trans ((Bool.or_eq_true _ _).mpr input)
    output := fun _ => enables.outputEnabled.trans (by
      rw [Bool.or_eq_true, Bool.not_eq_true']
      exact output)
    owed := by
      intro owed
      rcases (Bool.or_eq_true _ _).mp owed with before | completed
      · exact (sound.owed before).imp enables.outputPending.trans enables.busy.trans
      · change (false || (bench.card.outputBusy &&
          !(bench.card.write register control Exchange.silence).outputBusy)) = true at completed
        rw [busy, Bool.false_or, Bool.and_not_self] at completed
        exact Bool.noConfusion completed
    settled := fun _ => settled
    interrupt := fun _ high => Bool.noConfusion high }

def answeredInput (card : Card) : Card :=
  card.onData fun data =>
    { data with
      inputIrqPending := false
      statusRegister := { data.statusRegister with interruptEnabled := false } }

def answeredOutput (card : Card) : Card :=
  card.onData fun data =>
    { data with
      outputIrqPending := false
      outputStatusRegister :=
        { data.outputStatusRegister with interruptEnabled := false } }

theorem ident_input {card : Card} (high : card.line = true) (first : card.inputActive = true) :
    card.ident octobusInterruptLevel =
      ((answeredInput card).updateInterrupt, card.data.identCode) := by
  have bit : card.interruptBits.getLsbD octobusInterruptLevel = true := high
  rw [Card.ident, if_pos bit, if_pos first]
  rfl

theorem ident_output {card : Card} (high : card.line = true) (none_ : card.inputActive = false)
    (second : card.outputActive = true) :
    card.ident octobusInterruptLevel =
      ((answeredOutput card).updateInterrupt, card.data.identCode + 1) := by
  have bit : card.interruptBits.getLsbD octobusInterruptLevel = true := high
  have answers := (Bool.and_eq_true _ _).mp second
  rw [Card.ident, if_pos bit, none_, if_neg Bool.false_ne_true, if_pos answers.1]
  rfl

/-- The input is answered first. -/
def answer (card : Card) : Word :=
  if card.data.inputIrqPending then card.data.identCode else card.data.identCode + 1

theorem identify_lined {card changed : Card} (code : Word)
    (result : card.ident octobusInterruptLevel = (changed.updateInterrupt, code)) :
    (lowered card).data = changed.updateInterrupt.data ∧ (lowered card).Lined := by
  have data : (lowered card).data = changed.updateInterrupt.data :=
    congrArg (·.1.data) result
  refine ⟨data, fun high => Bool.noConfusion ((lowered_line card).symm.trans high), ?_⟩
  have settled := (updateInterrupt_settled changed).2
  rw [active, inputActive, outputActive, data]
  exact settled

theorem Sound.answeredInput (sound : bench.Sound) (idle : bench.driver = .idle)
    {manager : CardManager} (serves : Serves manager (lowered bench.card))
    (answered : bench.card.ident octobusInterruptLevel =
      ((answeredInput bench.card).updateInterrupt, bench.card.data.identCode)) :
    { bench with manager := manager, driver := .reading : Bench }.Sound := by
  obtain ⟨data, lined⟩ := identify_lined _ answered
  have card : manager.devices 0 = lowered bench.card := serves.card
  rw [updateInterrupt_data, ← card] at data
  rw [← card] at lined
  exact {
    serves := ⟨serves.short, serves.order, serves.fresh, rfl⟩
    wired := by
      change Wired (manager.devices 0).data
      rw [data]
      exact sound.wired
    held := by
      change Held (manager.devices 0).data
      rw [data]
      exact sound.held
    lined := lined
    code := by
      change (manager.devices 0).data.identCode ≠ 0 ∧ (manager.devices 0).data.identCode + 1 ≠ 0
      rw [data]
      exact sound.code
    noted := fun reading => absurd rfl reading
    input := by rintro (idle | idle) <;> cases idle
    output := by
      intro _
      change (manager.devices 0).data.outputStatusRegister.interruptEnabled = true
      rw [data]
      exact sound.output (idle ▸ Driver.noConfusion)
    owed := by
      intro owed
      change (manager.devices 0).data.outputIrqPending = true ∨
        (manager.devices 0).data.outputStatusRegister.busy = true
      rw [data]
      exact sound.owed owed
    settled := Driver.noConfusion
    interrupt := Driver.noConfusion }

theorem Sound.answeredOutput (sound : bench.Sound) (idle : bench.driver = .idle)
    {manager : CardManager} (serves : Serves manager (lowered bench.card))
    (answered : bench.card.ident octobusInterruptLevel =
      ((answeredOutput bench.card).updateInterrupt, bench.card.data.identCode + 1)) :
    { bench with manager := manager, driver := .enablingOutput, owed := false : Bench }.Sound := by
  obtain ⟨data, lined⟩ := identify_lined _ answered
  have card : manager.devices 0 = lowered bench.card := serves.card
  rw [updateInterrupt_data, ← card] at data
  rw [← card] at lined
  exact {
    serves := ⟨serves.short, serves.order, serves.fresh, rfl⟩
    wired := by
      change Wired (manager.devices 0).data
      rw [data]
      exact sound.wired
    held := by
      change Held (manager.devices 0).data
      rw [data]
      exact sound.held
    lined := lined
    code := by
      change (manager.devices 0).data.identCode ≠ 0 ∧ (manager.devices 0).data.identCode + 1 ≠ 0
      rw [data]
      exact sound.code
    noted := by
      intro _
      change Noted (manager.devices 0).data
      rw [data]
      exact sound.noted (idle ▸ Driver.noConfusion)
    input := by
      intro _
      change (manager.devices 0).data.statusRegister.interruptEnabled = true
      rw [data]
      exact sound.input (.inl idle)
    output := fun enabling => absurd rfl enabling
    owed := Bool.noConfusion
    settled := Driver.noConfusion
    interrupt := Driver.noConfusion }

/-- The driver goes to the controller that has answered. -/
theorem Sound.identify (sound : bench.Sound) (idle : bench.driver = .idle)
    (high : bench.card.line = true) :
    bench.identify.2 = some (answer bench.card) ∧ bench.identify.1.Sound := by
  have active := (Bool.or_eq_true _ _).mp (sound.lined.1 high)
  by_cases pending : bench.card.data.inputIrqPending = true
  · have first : bench.card.inputActive = true := by
      rw [inputActive, pending, sound.input (.inl idle), Bool.true_and]
    have answered := ident_input high first
    obtain ⟨manager, identified, serves⟩ := identFrom_serves sound.serves high (by
      rw [answered]
      exact sound.code.1)
    rw [Bench.identify, identified, answered, answer, if_pos pending]
    dsimp only
    rw [if_pos rfl]
    exact ⟨rfl, sound.answeredInput idle serves answered⟩
  · have none_ : bench.card.inputActive = false := by
      rw [inputActive, Bool.eq_false_iff.mpr pending, Bool.false_and]
    have second : bench.card.outputActive = true :=
      active.resolve_left (none_ ▸ Bool.false_ne_true)
    have answered := ident_output high none_ second
    obtain ⟨manager, identified, serves⟩ := identFrom_serves sound.serves high (by
      rw [answered]
      exact sound.code.2)
    have other : bench.card.data.identCode + 1 ≠ bench.card.data.identCode := by
      bv_omega
    rw [Bench.identify, identified, answered, answer, if_neg pending]
    dsimp only
    rw [if_neg fun same => other (Option.some.inj same), if_pos rfl]
    exact ⟨rfl, sound.answeredOutput idle serves answered⟩

theorem Sound.taken (sound : bench.Sound) : { bench with interrupt := false }.Sound :=
  { sound with
    interrupt := fun _ high => Bool.noConfusion high }

theorem Sound.drive (sound : bench.Sound) {control : Word}
    (allowed : BenchStep.Allowed (.drive control)) : (bench.drive control).Sound := by
  obtain ⟨enabled, reset, clear⟩ := allowed
  obtain ⟨inputSettled, outputSettled⟩ :=
    writeControl_settled bench.card control enabled reset clear Exchange.silence
  obtain ⟨inputEnables, outputEnables⟩ :=
    writeControl_enables bench.card control enabled reset clear Exchange.silence
  obtain ⟨manager, driver, interrupt, owed⟩ := bench
  cases driver with
  | idle =>
    rw [Bench.drive]
    dsimp only
    split_ifs with high
    · exact (sound.taken.identify rfl (sound.interrupt rfl high)).2
    · exact sound
  | reading => exact sound.read rfl
  | enablingInput =>
    exact sound.enable .inputControl control inputSettled inputEnables
      (sound.noted Driver.noConfusion) (.inl rfl) (.inr (sound.output Driver.noConfusion))
  | enablingOutput =>
    exact sound.enable .outputControl control outputSettled outputEnables
      (sound.noted Driver.noConfusion) (.inr (sound.input (.inr rfl))) (.inl rfl)

theorem Sound.step (sound : bench.Sound) {step : BenchStep} (allowed : step.Allowed) :
    ∃ after, bench.step step = some after ∧ after.Sound := by
  cases step with
  | arrive word => exact ⟨_, rfl, sound.arrive word⟩
  | command value answer => exact ⟨_, rfl, sound.command value answer⟩
  | tick =>
    obtain ⟨after, ran, sound_, -⟩ := sound.tick
    exact ⟨after, ran, sound_⟩
  | drive control => exact ⟨_, rfl, sound.drive allowed⟩

theorem Sound.run (sound : bench.Sound) (steps : List BenchStep)
    (allowed : ∀ step ∈ steps, step.Allowed) :
    ∃ after, bench.run steps = some after ∧ after.Sound := by
  induction steps generalizing bench with
  | nil => exact ⟨bench, rfl, sound⟩
  | cons step steps ih =>
    obtain ⟨middle, first, middle_⟩ := sound.step (allowed step List.mem_cons_self)
    obtain ⟨after, last, sound_⟩ :=
      ih middle_ fun later member => allowed later (List.mem_cons_of_mem _ member)
    refine ⟨after, ?_, sound_⟩
    rw [Bench.run, first]
    exact last

end Bench

open Card in
/-- A card that was built has nothing to answer. -/
theorem created_quiet (wiring : Wiring) (thumbwheel : Fin 4) :
    let data := (wiring.connect (Card.create thumbwheel)).data
    Wired data ∧ data.outputStatusRegister.busy = false ∧ data.rxFifo.count = 0 ∧
      data.identCode ≠ 0 ∧ data.identCode + 1 ≠ 0 := by
  have code : ∀ thumbwheel : Fin 4, (0x20 + BitVec.ofNat 16 (2 * thumbwheel.val) : Word) ≠ 0 ∧
      (0x20 + BitVec.ofNat 16 (2 * thumbwheel.val) : Word) + 1 ≠ 0 := by decide
  obtain ⟨first, second⟩ := code thumbwheel
  cases wiring with
  | standalone =>
    rw [Wiring.connect, Card.create, Card.reset, Device.setInterruptStatus_data]
    exact ⟨Bool.noConfusion, rfl, rfl, first, second⟩
  | bus =>
    rw [Wiring.connect, Card.setTransmit, Card.onData, Card.create, Card.reset,
      Device.setInterruptStatus_data]
    exact ⟨Bool.noConfusion, rfl, rfl, first, second⟩
  | processor =>
    rw [Wiring.connect, Card.setCpuAttached, Card.onData, Card.setTransmit, Card.onData,
      Card.create, Card.reset, Device.setInterruptStatus_data]
    exact ⟨fun _ => ⟨rfl, rfl⟩, rfl, rfl, first, second⟩

open Card in
theorem bench_sound (wiring : Wiring) (thumbwheel : Fin 4) : (wiring.bench thumbwheel).Sound := by
  obtain ⟨wired, free, empty, code⟩ := created_quiet wiring thumbwheel
  have input :=
    (writeControl_enables (wiring.connect (Card.create thumbwheel)) 1 rfl rfl rfl Exchange.silence).1
  let enabled := (wiring.connect (Card.create thumbwheel)).write .inputControl 1 Exchange.silence
  have output := (writeControl_enables enabled 1 rfl rfl rfl Exchange.silence).2
  have settled := (writeControl_settled enabled 1 rfl rfl rfl Exchange.silence).2
  have data : (wiring.bench thumbwheel).card =
      enabled.write .outputControl 1 Exchange.silence := rfl
  have none_ : (enabled.write .outputControl 1 Exchange.silence).data.rxFifo.count = 0 := by
    rw [output.rxFifo, input.rxFifo, empty]
  constructor
  · exact ⟨Nat.zero_le _, fun _ => rfl, .inl rfl, rfl⟩
  all_goals rw [data]
  · exact (wired.kept input.cpuAttached input.transmit input.loopbackMode).kept
      output.cpuAttached output.transmit output.loopbackMode
  · exact Held.of_free (output.busy.trans (input.busy.trans free))
  · exact settled.lined
  · rw [output.identCode, input.identCode]
    exact code
  · exact fun _ some_ => absurd none_ (Nat.ne_of_gt some_)
  · exact fun _ => output.inputEnabled.trans input.inputEnabled
  · exact fun _ => output.outputEnabled
  · exact Bool.noConfusion
  · exact fun _ => settled
  · exact fun _ => Bool.noConfusion

open Card in
/-- The line is high while a frame is stored or a completed transfer is owed, and the controller
that the driver identifies is the one that asks. -/
theorem requests_reach_driver (wiring : Wiring) (thumbwheel : Fin 4) (steps : List BenchStep)
    (allowed : ∀ step ∈ steps, step.Allowed) :
    ∃ bench, (wiring.bench thumbwheel).run steps = some bench ∧
      (bench.driver = .idle →
        bench.card.data.statusRegister.interruptEnabled = true ∧
        bench.card.data.outputStatusRegister.interruptEnabled = true ∧
        ((0 < bench.card.data.rxFifo.count ∨ bench.owed = true) →
          bench.card.line = true ∧
          ∃ after, bench.tick = some after ∧ after.interrupt = true) ∧
        (bench.interrupt = true →
          bench.identify.2 = some (if bench.card.data.inputIrqPending then
            bench.card.data.identCode else bench.card.data.identCode + 1))) := by
  obtain ⟨bench, ran, sound⟩ := (bench_sound wiring thumbwheel).run steps allowed
  refine ⟨bench, ran, fun idle => ⟨sound.input (.inl idle), sound.output (idle ▸ Driver.noConfusion),
    fun waits => ?_, fun high => (sound.identify idle (sound.interrupt idle high)).1⟩⟩
  have asked : Asked bench.card.data := by
    rcases waits with frame | owed
    · exact .inl (sound.noted (idle ▸ Driver.noConfusion) frame)
    · exact .inr (sound.owed owed)
  refine ⟨(sound.line idle).mpr asked, ?_⟩
  obtain ⟨after, ran_, sound_, driver, -, data, high⟩ := sound.tick
  refine ⟨after, ran_, high.trans ((sound_.line (driver.trans idle)).mpr ?_)⟩
  rw [data]
  exact asked

/-- A frame comes while the driver answers another one. -/
theorem requests_reach_driver_second :
    ∃ bench, (Wiring.standalone.bench 0).run
        [.arrive 0x8711, .tick, .drive 1, .arrive 0x8722, .drive 1, .drive 1] = some bench ∧
      bench.card.line = true ∧ ∃ after, bench.tick = some after ∧ after.interrupt = true := by
  let steps : List BenchStep :=
    [.arrive 0x8711, .tick, .drive 1, .arrive 0x8722, .drive 1, .drive 1]
  have shown : ((Wiring.standalone.bench 0).run steps).map
      (fun bench => (bench.driver, bench.card.data.rxFifo.count)) = some (.idle, 1) := by
    decide
  obtain ⟨bench, ran, idle⟩ := requests_reach_driver .standalone 0 steps (by
    intro step member
    simp only [steps, List.mem_cons, List.not_mem_nil, or_false] at member
    rcases member with rfl | rfl | rfl | rfl | rfl | rfl <;>
      first | exact trivial | exact ⟨rfl, rfl, rfl⟩)
  rw [ran, Option.map_some, Option.some.injEq, Prod.mk.injEq] at shown
  obtain ⟨-, -, line, -⟩ := idle shown.1
  exact ⟨bench, ran, line (.inl (shown.2 ▸ Nat.one_pos))⟩

end Nd100x.Octobus
