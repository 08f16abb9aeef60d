import Mathlib.Data.BitVec
import Mathlib.Tactic.SplitIfs
import Nd100x.Library.PulseTrain
import Mathlib.Tactic.Linarith

namespace Nd100x.Devices

def ticks20ms : Int := 10550

def rtcWallPeriodNs : Nat := 20000000

def rtcWallBatchNs : BitVec 64 := 50000

def rtcWallBatchMax : BitVec 64 := 64

structure RtcStatus where
  interruptEnabled : Bool
  externalHoldPulse : Bool
  readyForTransfer : Bool
  deriving DecidableEq

structure RtcDevice where
  interruptBits : BitVec 16
  identCode : BitVec 16
  rtcCounter : Int
  divisionNumberN : Int
  register1 : BitVec 16
  clockCountingStarted : Bool
  nextPulseNs : BitVec 64
  wallLastReadNs : BitVec 64
  wallBatch : BitVec 32
  wallSkip : BitVec 32
  controlRegister : BitVec 16
  status : RtcStatus
  deriving DecidableEq

def rtcInterruptLevel : Nat := 13

def RtcDevice.setInterruptStatus (device : RtcDevice) (active : Bool) (level : Nat) : RtcDevice :=
  { device with interruptBits :=
      if 10 ≤ level ∧ level ≤ 13 then
        if active then device.interruptBits ||| BitVec.twoPow 16 level
        else device.interruptBits &&& ~~~BitVec.twoPow 16 level
      else device.interruptBits }

def rtcReset (device : RtcDevice) : RtcDevice :=
  { device with
    rtcCounter := 0
    divisionNumberN := ticks20ms
    register1 := 0
    status := ⟨false, false, false⟩
    controlRegister := 0
    nextPulseNs := 0
    wallLastReadNs := 0
    wallBatch := 0
    wallSkip := 0 }

def rtcClearClockTicks (device : RtcDevice) : RtcDevice :=
  { device with rtcCounter := device.divisionNumberN }

/-- A pulse makes the clock ready and interrupts if that is enabled. -/
def rtcPulse (device : RtcDevice) : RtcDevice :=
  let ready := { device with status := { device.status with readyForTransfer := true } }
  let interrupted :=
    if ready.status.interruptEnabled then ready.setInterruptStatus true rtcInterruptLevel else ready
  rtcClearClockTicks interrupted

/-- A tick may read the host clock and may give a pulse. -/
structure RtcTick where
  reading : Option (BitVec 64)
  pulsed : Bool
  deriving DecidableEq

/-- The next batch lasts about as long as its share of the period. -/
def rtcBatch (device : RtcDevice) (now : BitVec 64) : BitVec 32 :=
  if device.wallLastReadNs ≠ 0 then
    let perTick := (now - device.wallLastReadNs) / (device.wallBatch.setWidth 64 + 1)
    if perTick = 0 ∨ rtcWallBatchMax ≤ rtcWallBatchNs / perTick then rtcWallBatchMax.setWidth 32
    else (rtcWallBatchNs / perTick).setWidth 32
  else 0

/-- A backlog of more than ten periods is dropped. -/
def rtcAdvance (device : RtcDevice) (now : BitVec 64) : RtcDevice :=
  let next := device.nextPulseNs + BitVec.ofNat 64 rtcWallPeriodNs
  { device with nextPulseNs :=
      if ((10 * rtcWallPeriodNs : Nat) : Int) < (now - next).toInt then
        now + BitVec.ofNat 64 rtcWallPeriodNs
      else next }

def rtcStartBatch (device : RtcDevice) (now : BitVec 64) : RtcDevice :=
  { device with
    wallLastReadNs := now
    wallBatch := rtcBatch device now
    wallSkip := rtcBatch device now }

def rtcArm (device : RtcDevice) (now : BitVec 64) : RtcDevice :=
  if device.nextPulseNs = 0 then
    { device with nextPulseNs := now + BitVec.ofNat 64 rtcWallPeriodNs }
  else device

/-- The host clock is read at the end of a batch. -/
def rtcReadClock (device : RtcDevice) (now : BitVec 64) : RtcDevice × RtcTick :=
  let armed := rtcArm (rtcStartBatch device now) now
  if armed.nextPulseNs ≤ now then (rtcAdvance (rtcPulse armed) now, ⟨some now, true⟩)
  else (armed, ⟨some now, false⟩)

def rtcCountDown (device : RtcDevice) : RtcDevice :=
  { device with rtcCounter := device.rtcCounter - 1 }

def rtcReload (device : RtcDevice) : RtcDevice :=
  if device.rtcCounter ≤ 0 then rtcClearClockTicks device else device

/-- The clock queues no delays. -/
def rtcTick (wall : Bool) (now : BitVec 64) (device : RtcDevice) : RtcDevice × RtcTick :=
  let counted := rtcCountDown device
  if wall then
    let reloaded := rtcReload counted
    if 0 < reloaded.wallSkip then
      ({ reloaded with wallSkip := reloaded.wallSkip - 1 }, ⟨none, false⟩)
    else rtcReadClock reloaded now
  else if counted.rtcCounter ≤ 0 then (rtcPulse counted, ⟨none, true⟩)
  else (counted, ⟨none, false⟩)

def rtcClearCounter : Nat := 1

def rtcWriteControl : Nat := 3

/-- These are the parts of a control word in turn. -/
def rtcControl (device : RtcDevice) (value : BitVec 16) : RtcDevice :=
  let enabled := { device with
    controlRegister := value
    status := { device.status with interruptEnabled := value.getLsbD 0 } }
  let disabled :=
    if enabled.status.interruptEnabled then enabled
    else enabled.setInterruptStatus false rtcInterruptLevel
  let cleared :=
    if value.getLsbD 13 then
      { disabled with
        status := { disabled.status with readyForTransfer := false }
        interruptBits := disabled.interruptBits &&& ~~~BitVec.twoPow 16 13 }
    else disabled
  let released :=
    if value.getLsbD 14 then
      { cleared with status := { cleared.status with externalHoldPulse := false } }
    else cleared
  if value.getLsbD 15 then { rtcClearClockTicks released with clockCountingStarted := true }
  else released

def rtcWrite (device : RtcDevice) (reg : Nat) (value : BitVec 16) : RtcDevice :=
  if reg = rtcClearCounter then
    let cleared := rtcClearClockTicks device
    { cleared with status := { cleared.status with readyForTransfer := false } }.setInterruptStatus
      false rtcInterruptLevel
  else if reg = rtcWriteControl then rtcControl device value
  else device

/-- An interrupt that is identified goes, and its code is given. -/
def rtcIdent (device : RtcDevice) (level : Nat) : RtcDevice × BitVec 16 :=
  if device.interruptBits.getLsbD level then
    let cleared := rtcClearClockTicks device
    ({ cleared with status := { cleared.status with interruptEnabled := false } }.setInterruptStatus
      false level, device.identCode)
  else (device, 0)

/-- A tick comes with the time that the host clock would give. -/
inductive RtcStep
  | tick (now : BitVec 64)
  | write (reg : Nat) (value : BitVec 16)
  | ident (level : Nat)

def rtcStep (wall : Bool) (device : RtcDevice) : RtcStep → RtcDevice × List RtcTick
  | .tick now => ((rtcTick wall now device).1, [(rtcTick wall now device).2])
  | .write reg value => (rtcWrite device reg value, [])
  | .ident level => ((rtcIdent device level).1, [])

def rtcRun (wall : Bool) (device : RtcDevice) : List RtcStep → RtcDevice × List RtcTick
  | [] => (device, [])
  | step :: rest =>
    let first := rtcStep wall device step
    let later := rtcRun wall first.1 rest
    (later.1, first.2 ++ later.2)

/-- The readings of the host clock, each with its pulse. -/
def rtcReadings (ticks : List RtcTick) : PulseTrain.Readings :=
  ticks.filterMap fun tick => tick.reading.map fun now => (now.toNat, tick.pulsed)

end Nd100x.Devices

namespace Nd100x.Devices

open PulseTrain

section Guest

variable {device : RtcDevice}

/-- The guest may reload the countdown and moves nothing else that the ticks go by. -/
structure RtcDevice.Served (before after : RtcDevice) : Prop where
  pulse : after.nextPulseNs = before.nextPulseNs
  skip : after.wallSkip = before.wallSkip
  division : after.divisionNumberN = before.divisionNumberN
  counter : after.rtcCounter = before.rtcCounter ∨ after.rtcCounter = before.divisionNumberN

theorem rtcControl_served (value : BitVec 16) : device.Served (rtcControl device value) := by
  rw [rtcControl]
  dsimp only
  constructor
  · split_ifs <;> rfl
  · split_ifs <;> rfl
  · split_ifs <;> rfl
  · split_ifs
    all_goals first | exact .inl rfl | exact .inr rfl

theorem rtcWrite_served (reg : Nat) (value : BitVec 16) :
    device.Served (rtcWrite device reg value) := by
  rw [rtcWrite]
  split_ifs
  · exact ⟨rfl, rfl, rfl, .inr rfl⟩
  · exact rtcControl_served value
  · exact ⟨rfl, rfl, rfl, .inl rfl⟩

theorem rtcIdent_served (level : Nat) : device.Served (rtcIdent device level).1 := by
  rw [rtcIdent]
  split_ifs
  · exact ⟨rfl, rfl, rfl, .inr rfl⟩
  · exact ⟨rfl, rfl, rfl, .inl rfl⟩

/-- The guest sees a pulse in the status, and by an interrupt if it enabled that. -/
def RtcDevice.Pulsed (before after : RtcDevice) : Prop :=
  after.status.readyForTransfer = true ∧ (before.status.interruptEnabled = true →
    after.interruptBits.getLsbD rtcInterruptLevel = true)

/-- The guest sees neither the countdown nor the times of the host. -/
structure RtcDevice.Hidden (before after : RtcDevice) : Prop where
  status : after.status = before.status
  bits : after.interruptBits = before.interruptBits

end Guest

section Wall

variable {device : RtcDevice} {now : BitVec 64}

/-- The host clock counts nanoseconds from its start, and a period more still fits. -/
def HostClock (readings : Readings) : Prop :=
  ∀ reading ∈ readings, reading.1 + rtcWallPeriodNs < 18446744073709551616

theorem rtcBatch_le (device : RtcDevice) (now : BitVec 64) : (rtcBatch device now).toNat ≤ 64 := by
  rw [rtcBatch]
  dsimp only
  split_ifs with read quick
  · exact Nat.le_refl _
  · rw [not_or, BitVec.not_le] at quick
    have short : (rtcWallBatchNs / ((now - device.wallLastReadNs) /
        (device.wallBatch.setWidth 64 + 1))).toNat < 64 := BitVec.lt_def.mp quick.2
    rw [BitVec.toNat_setWidth]
    exact Nat.le_trans (Nat.mod_le _ _) (Nat.le_of_lt short)
  · exact Nat.zero_le _

theorem rtcPulse_kept : (rtcPulse device).nextPulseNs = device.nextPulseNs ∧
    (rtcPulse device).wallSkip = device.wallSkip := by
  rw [rtcPulse]
  dsimp only
  split_ifs <;> exact ⟨rfl, rfl⟩

/-- The first reading arms the pulse train. -/
theorem rtcReadClock_first (unarmed : device.nextPulseNs = 0)
    (fits : now.toNat + rtcWallPeriodNs < 18446744073709551616) :
    (rtcReadClock device now).1.nextPulseNs.toNat = now.toNat + rtcWallPeriodNs ∧
      (rtcReadClock device now).2 = ⟨some now, false⟩ := by
  have sum : (now + BitVec.ofNat 64 rtcWallPeriodNs).toNat = now.toNat + rtcWallPeriodNs := by
    rw [BitVec.toNat_add, BitVec.toNat_ofNat]
    rw [rtcWallPeriodNs] at fits ⊢
    omega
  have armed : (rtcArm (rtcStartBatch device now) now).nextPulseNs =
      now + BitVec.ofNat 64 rtcWallPeriodNs := by
    rw [rtcArm, if_pos (show (rtcStartBatch device now).nextPulseNs = 0 from unarmed)]
  have early : ¬now + BitVec.ofNat 64 rtcWallPeriodNs ≤ now := by
    rw [BitVec.le_def, sum, rtcWallPeriodNs]
    omega
  rw [rtcReadClock]
  rw [armed, if_neg early]
  dsimp only
  rw [armed]
  exact ⟨sum, rfl⟩

/-- A later reading gives the pulse that is due, and the next one is due a period later. -/
theorem rtcReadClock_armed (armed : device.nextPulseNs ≠ 0)
    (fits : now.toNat + rtcWallPeriodNs < 18446744073709551616)
    (prompt : now.toNat ≤ device.nextPulseNs.toNat + 10 * rtcWallPeriodNs) :
    ∃ pulsed, (rtcReadClock device now).2 = ⟨some now, pulsed⟩ ∧
      (pulsed = true ↔ device.nextPulseNs.toNat ≤ now.toNat) ∧
      (rtcReadClock device now).1.nextPulseNs.toNat =
        device.nextPulseNs.toNat + if pulsed then rtcWallPeriodNs else 0 := by
  have still : (rtcArm (rtcStartBatch device now) now).nextPulseNs = device.nextPulseNs := by
    rw [rtcArm, if_neg (show ¬(rtcStartBatch device now).nextPulseNs = 0 from armed)]
    rfl
  rw [rtcReadClock]
  rw [still]
  split_ifs with due
  · have order : device.nextPulseNs.toNat ≤ now.toNat := BitVec.le_def.mp due
    have sum : (device.nextPulseNs + BitVec.ofNat 64 rtcWallPeriodNs).toNat =
        device.nextPulseNs.toNat + rtcWallPeriodNs := by
      rw [BitVec.toNat_add, BitVec.toNat_ofNat]
      rw [rtcWallPeriodNs] at fits ⊢
      omega
    have near : ¬((10 * rtcWallPeriodNs : Nat) : Int) <
        (now - (device.nextPulseNs + BitVec.ofNat 64 rtcWallPeriodNs)).toInt := by
      rw [BitVec.toInt_eq_toNat_cond, BitVec.toNat_sub, sum]
      have bound := now.isLt
      rw [rtcWallPeriodNs] at fits prompt ⊢
      split_ifs <;> omega
    refine ⟨true, rfl, ⟨fun _ => order, fun _ => rfl⟩, ?_⟩
    rw [rtcAdvance]
    dsimp only
    rw [rtcPulse_kept.1, still, if_neg near, if_pos rfl]
    exact sum
  · refine ⟨false, rfl, ⟨fun no => Bool.noConfusion no, fun order => ?_⟩, ?_⟩
    · exact absurd (BitVec.le_def.mpr order) due
    · exact congrArg BitVec.toNat still

theorem rtcReload_kept : (rtcReload device).nextPulseNs = device.nextPulseNs ∧
    (rtcReload device).wallSkip = device.wallSkip := by
  rw [rtcReload]
  split_ifs <;> exact ⟨rfl, rfl⟩

/-- A tick of a batch reads no clock. -/
theorem rtcTick_skip (waits : 0 < device.wallSkip) :
    (rtcTick true now device).2 = ⟨none, false⟩ ∧
      (rtcTick true now device).1.nextPulseNs = device.nextPulseNs ∧
      (rtcTick true now device).1.wallSkip = device.wallSkip - 1 := by
  obtain ⟨pulse, skip⟩ := @rtcReload_kept (rtcCountDown device)
  rw [rtcTick]
  dsimp only
  rw [if_pos rfl, skip, if_pos (show 0 < (rtcCountDown device).wallSkip from waits)]
  exact ⟨rfl, pulse, rfl⟩

/-- The tick after a batch reads the clock. -/
theorem rtcTick_read (ended : ¬0 < device.wallSkip) :
    rtcTick true now device = rtcReadClock (rtcReload (rtcCountDown device)) now := by
  rw [rtcTick]
  dsimp only
  rw [if_pos rfl, rtcReload_kept.2, if_neg (show ¬0 < (rtcCountDown device).wallSkip from ended)]

theorem rtcReadClock_skip (device : RtcDevice) (now : BitVec 64) :
    (rtcReadClock device now).1.wallSkip.toNat ≤ 64 ∧
      (rtcReadClock device now).2.reading = some now := by
  have batch : (rtcArm (rtcStartBatch device now) now).wallSkip.toNat ≤ 64 := by
    rw [rtcArm]
    split_ifs <;> exact rtcBatch_le device now
  rw [rtcReadClock]
  split_ifs
  · refine ⟨?_, rfl⟩
    rw [rtcAdvance]
    dsimp only
    rw [rtcPulse_kept.2]
    exact batch
  · exact ⟨batch, rfl⟩

theorem rtcStep_guest {step : RtcStep} (guest : ∀ now, step ≠ .tick now) (wall : Bool) :
    device.Served (rtcStep wall device step).1 ∧ (rtcStep wall device step).2 = [] := by
  cases step with
  | tick now => exact absurd rfl (guest now)
  | write reg value => exact ⟨rtcWrite_served reg value, rfl⟩
  | ident level => exact ⟨rtcIdent_served level, rfl⟩

theorem rtcReadings_append (first later : List RtcTick) :
    rtcReadings (first ++ later) = rtcReadings first ++ rtcReadings later :=
  List.filterMap_append

theorem rtcReadings_read {tick : RtcTick} (read : tick.reading = some now) :
    rtcReadings [tick] = [(now.toNat, tick.pulsed)] := by
  rw [rtcReadings, List.filterMap_cons, read]
  rfl

/-- A clock whose train is armed gives its pulses when they are due. -/
theorem rtcRun_armed (steps : List RtcStep) (armed : device.nextPulseNs ≠ 0)
    (host : HostClock (rtcReadings (rtcRun true device steps).2))
    (prompt : Prompt device.nextPulseNs.toNat rtcWallPeriodNs (10 * rtcWallPeriodNs)
      (rtcReadings (rtcRun true device steps).2)) :
    Paced device.nextPulseNs.toNat rtcWallPeriodNs
      (rtcReadings (rtcRun true device steps).2) := by
  induction steps generalizing device with
  | nil => exact fun _ _ none_ => absurd none_ (Option.some_ne_none _).symm
  | cons step rest ih =>
    rw [rtcRun] at host prompt ⊢
    dsimp only at host prompt ⊢
    by_cases guest : ∀ now, step ≠ .tick now
    · obtain ⟨served, silent⟩ := @rtcStep_guest device step guest true
      rw [silent, List.nil_append] at host prompt ⊢
      rw [← served.pulse] at armed prompt ⊢
      exact ih armed host prompt
    · push Not at guest
      obtain ⟨now, rfl⟩ := guest
      change HostClock (rtcReadings ([(rtcTick true now device).2] ++ _)) at host
      change Prompt _ _ _ (rtcReadings ([(rtcTick true now device).2] ++ _)) at prompt
      change Paced _ _ (rtcReadings ([(rtcTick true now device).2] ++ _))
      by_cases waits : 0 < device.wallSkip
      · obtain ⟨silent, pulse, _⟩ := @rtcTick_skip device now waits
        rw [silent] at host prompt ⊢
        rw [← pulse] at armed prompt ⊢
        exact ih armed host prompt
      · have reads := @rtcTick_read device now waits
        have pulse := (@rtcReload_kept (rtcCountDown device)).1
        have ticked : (rtcStep true device (.tick now)).1 =
            (rtcReadClock (rtcReload (rtcCountDown device)) now).1 := congrArg Prod.fst reads
        have read := rtcReadings_read
          (rtcReadClock_skip (rtcReload (rtcCountDown device)) now).2
        rw [reads, ticked, rtcReadings_append, read] at host prompt
        rw [reads, ticked, rtcReadings_append, read]
        rw [← show (rtcReload (rtcCountDown device)).nextPulseNs = device.nextPulseNs from pulse]
          at armed prompt ⊢
        obtain ⟨first, later⟩ := prompt_cons.mp prompt
        obtain ⟨pulsed, report, given, next⟩ :=
          rtcReadClock_armed armed (host _ List.mem_cons_self) first
        rw [report] at later ⊢
        refine paced_cons.mpr ⟨given, ?_⟩
        rw [← next] at later ⊢
        refine ih (fun zero => armed (BitVec.eq_of_toNat_eq ?_))
          (fun reading member => host reading (List.mem_cons_of_mem _ member)) later
        rw [zero] at next
        exact Nat.eq_zero_of_add_eq_zero_right next.symm

/-- The first reading starts the train. -/
theorem rtcRun_first (steps : List RtcStep) (unarmed : device.nextPulseNs = 0)
    (host : HostClock (rtcReadings (rtcRun true device steps).2)) {origin : ℕ × Bool}
    {rest : Readings} (first : rtcReadings (rtcRun true device steps).2 = origin :: rest)
    (prompt : Prompt (origin.1 + rtcWallPeriodNs) rtcWallPeriodNs (10 * rtcWallPeriodNs)
      (origin :: rest)) :
    Paced (origin.1 + rtcWallPeriodNs) rtcWallPeriodNs (origin :: rest) := by
  induction steps generalizing device with
  | nil => exact absurd first (List.cons_ne_nil _ _).symm
  | cons step steps ih =>
    rw [rtcRun] at host first
    dsimp only at host first
    by_cases guest : ∀ now, step ≠ .tick now
    · obtain ⟨served, silent⟩ := @rtcStep_guest device step guest true
      rw [silent, List.nil_append] at host first
      exact ih (served.pulse.trans unarmed) host first
    · push Not at guest
      obtain ⟨now, rfl⟩ := guest
      change HostClock (rtcReadings ([(rtcTick true now device).2] ++ _)) at host
      change rtcReadings ([(rtcTick true now device).2] ++ _) = _ at first
      by_cases waits : 0 < device.wallSkip
      · obtain ⟨silent, pulse, _⟩ := @rtcTick_skip device now waits
        rw [silent] at host first
        exact ih (pulse.trans unarmed) host first
      · have reads := @rtcTick_read device now waits
        have ticked : (rtcStep true device (.tick now)).1 =
            (rtcReadClock (rtcReload (rtcCountDown device)) now).1 := congrArg Prod.fst reads
        have read := rtcReadings_read
          (rtcReadClock_skip (rtcReload (rtcCountDown device)) now).2
        rw [reads, ticked, rtcReadings_append, read] at host first
        obtain ⟨here, later⟩ := List.cons.inj first
        obtain ⟨next, report⟩ := rtcReadClock_first
          ((@rtcReload_kept (rtcCountDown device)).1.trans unarmed)
          (host _ List.mem_cons_self)
        rw [report] at here
        subst here
        have later_ := (prompt_cons.mp prompt).2
        refine paced_cons.mpr ⟨⟨fun no => Bool.noConfusion no, fun due => ?_⟩, ?_⟩
        · rw [rtcWallPeriodNs] at due
          exact absurd due (by omega)
        · rw [← later] at later_ ⊢
          simp only [Bool.false_eq_true, if_false, Nat.add_zero] at later_ ⊢
          rw [← next] at later_ ⊢
          refine rtcRun_armed steps (fun zero => ?_)
            (fun reading member => host reading (List.mem_cons_of_mem _ member)) later_
          rw [zero, show (0 : BitVec 64).toNat = 0 from rfl, rtcWallPeriodNs] at next
          omega

theorem rtcTick_skipped (waits : 0 < device.wallSkip) (now : BitVec 64) :
    (rtcTick true now device).1.wallSkip.toNat + 1 = device.wallSkip.toNat := by
  have positive : 0 < device.wallSkip.toNat := BitVec.lt_def.mp waits
  have one : (1 : BitVec 32) ≤ device.wallSkip := BitVec.le_def.mpr positive
  rw [(rtcTick_skip waits).2.2, BitVec.toNat_sub_of_le one]
  exact Nat.sub_add_cancel positive

theorem rtcTick_skipBound (skip : device.wallSkip.toNat ≤ 64) (now : BitVec 64) :
    (rtcTick true now device).1.wallSkip.toNat ≤ 64 := by
  by_cases waits : 0 < device.wallSkip
  · have fewer := rtcTick_skipped waits now
    omega
  · rw [rtcTick_read waits]
    exact (rtcReadClock_skip _ now).1

/-- The tick after the ticks still to skip reads the clock. -/
theorem rtcRun_next (steps : List RtcStep)
    (ends : device.wallSkip.toNat < (rtcRun true device steps).2.length) :
    ∃ tick, (rtcRun true device steps).2[device.wallSkip.toNat]? = some tick ∧
      tick.reading.isSome := by
  induction steps generalizing device with
  | nil => exact absurd ends (Nat.not_lt_zero _)
  | cons step steps ih =>
    rw [rtcRun] at ends ⊢
    dsimp only at ends ⊢
    by_cases guest : ∀ now, step ≠ .tick now
    · obtain ⟨served, silent⟩ := @rtcStep_guest device step guest true
      rw [silent, List.nil_append, ← served.skip] at ends ⊢
      exact ih ends
    · push Not at guest
      obtain ⟨now, rfl⟩ := guest
      change _ < ((rtcTick true now device).2 :: _).length at ends
      change ∃ tick, ((rtcTick true now device).2 :: _)[_]? = some tick ∧ _
      by_cases waits : 0 < device.wallSkip
      · rw [← rtcTick_skipped waits now, List.length_cons] at ends
        rw [← rtcTick_skipped waits now, List.getElem?_cons_succ]
        exact ih (Nat.lt_of_succ_lt_succ ends)
      · have zero : device.wallSkip.toNat = 0 :=
          Nat.eq_zero_of_not_pos fun positive => waits (BitVec.lt_def.mpr positive)
        rw [zero]
        refine ⟨_, rfl, ?_⟩
        rw [rtcTick_read waits, (rtcReadClock_skip _ now).2]
        rfl

/-- Among 65 ticks in turn one reads the clock. -/
theorem rtcRun_reads (steps : List RtcStep) (skip : device.wallSkip.toNat ≤ 64) (index : Nat)
    (inside : index + 65 ≤ (rtcRun true device steps).2.length) :
    ∃ at_ tick, index ≤ at_ ∧ at_ < index + 65 ∧
      (rtcRun true device steps).2[at_]? = some tick ∧ tick.reading.isSome := by
  induction steps generalizing device index with
  | nil => exact absurd inside (by rw [rtcRun, List.length_nil]; omega)
  | cons step steps ih =>
    cases index with
    | zero =>
      obtain ⟨tick, here, read⟩ := rtcRun_next (step :: steps)
        (Nat.lt_of_lt_of_le (Nat.lt_succ_of_le skip) (by omega))
      exact ⟨_, tick, Nat.zero_le _, by omega, here, read⟩
    | succ index =>
      rw [rtcRun] at inside ⊢
      dsimp only at inside ⊢
      by_cases guest : ∀ now, step ≠ .tick now
      · obtain ⟨served, silent⟩ := @rtcStep_guest device step guest true
        rw [silent, List.nil_append] at inside ⊢
        rw [← served.skip] at skip
        exact ih skip _ inside
      · push Not at guest
        obtain ⟨now, rfl⟩ := guest
        change _ ≤ ((rtcTick true now device).2 ::
          (rtcRun true (rtcTick true now device).1 steps).2).length at inside
        rw [List.length_cons] at inside
        obtain ⟨at_, tick, after, before, here, read⟩ :=
          ih (rtcTick_skipBound skip now) index (by omega)
        exact ⟨at_ + 1, tick, by omega, by omega, here, read⟩

end Wall

section Counted

variable {device : RtcDevice}

/-- The countdown stays within the ticks of a pulse. -/
structure RtcDevice.Counting (device : RtcDevice) : Prop where
  division : device.divisionNumberN = ticks20ms
  low : 0 ≤ device.rtcCounter
  high : device.rtcCounter ≤ ticks20ms

theorem rtcReset_counting (device : RtcDevice) : (rtcReset device).Counting :=
  ⟨rfl, le_refl _, show (0 : Int) ≤ 10550 by decide⟩

theorem RtcDevice.Counting.served {after : RtcDevice} (counting : device.Counting)
    (served : device.Served after) : after.Counting where
  division := served.division.trans counting.division
  low := by
    rcases served.counter with same | reloaded
    · exact same ▸ counting.low
    · rw [reloaded, counting.division]
      decide
  high := by
    rcases served.counter with same | reloaded
    · exact same ▸ counting.high
    · rw [reloaded, counting.division]

theorem rtcPulse_counter : (rtcPulse device).rtcCounter = device.divisionNumberN ∧
    (rtcPulse device).divisionNumberN = device.divisionNumberN := by
  rw [rtcPulse]
  dsimp only
  split_ifs <;> exact ⟨rfl, rfl⟩

/-- A tick counts down, and the last one gives the pulse and reloads. -/
theorem rtcTick_counted (now : BitVec 64) :
    ((rtcTick false now device).2.pulsed = true ↔ device.rtcCounter ≤ 1) ∧
      (rtcTick false now device).1.divisionNumberN = device.divisionNumberN ∧
      (rtcTick false now device).1.rtcCounter =
        if device.rtcCounter ≤ 1 then device.divisionNumberN else device.rtcCounter - 1 := by
  have last : (rtcCountDown device).rtcCounter ≤ 0 ↔ device.rtcCounter ≤ 1 := by
    change device.rtcCounter - 1 ≤ 0 ↔ _
    omega
  rw [rtcTick]
  dsimp only
  rw [if_neg Bool.false_ne_true]
  by_cases ends : device.rtcCounter ≤ 1
  · rw [if_pos (last.mpr ends), if_pos ends]
    exact ⟨⟨fun _ => ends, fun _ => rfl⟩, rtcPulse_counter.2, rtcPulse_counter.1⟩
  · rw [if_neg fun low => ends (last.mp low), if_neg ends]
    exact ⟨⟨fun no => Bool.noConfusion no, fun low => absurd low ends⟩, rfl, rfl⟩

theorem rtcTick_counting (counting : device.Counting) (now : BitVec 64) :
    (rtcTick false now device).1.Counting := by
  obtain ⟨_, division, counter⟩ := @rtcTick_counted device now
  have low := counting.low
  have high := counting.high
  have whole := counting.division
  rw [ticks20ms] at high whole
  refine ⟨division.trans counting.division, ?_, ?_⟩
  · rw [counter]
    split_ifs <;> omega
  · rw [counter, ticks20ms]
    split_ifs <;> omega

theorem rtcRun_counting (steps : List RtcStep) (counting : device.Counting) :
    (rtcRun false device steps).1.Counting := by
  induction steps generalizing device with
  | nil => exact counting
  | cons step steps ih =>
    by_cases guest : ∀ now, step ≠ .tick now
    · exact ih (counting.served (rtcStep_guest guest false).1)
    · push Not at guest
      obtain ⟨now, rfl⟩ := guest
      exact ih (rtcTick_counting counting now)

/-- The counter is cleared, or the clock is restarted, or its interrupt is identified. -/
def RtcStep.Reloads (device : RtcDevice) : RtcStep → Prop
  | .tick _ => False
  | .write reg value =>
    reg = rtcClearCounter ∨ reg = rtcWriteControl ∧ value.getLsbD 15 = true
  | .ident level => device.interruptBits.getLsbD level = true

instance (device : RtcDevice) : ∀ step : RtcStep, Decidable (step.Reloads device)
  | .tick _ => inferInstanceAs (Decidable False)
  | .write _ _ => inferInstanceAs (Decidable (_ ∨ _))
  | .ident _ => inferInstanceAs (Decidable (_ = true))

def Undisturbed (device : RtcDevice) : List RtcStep → Prop
  | [] => True
  | step :: rest => ¬step.Reloads device ∧ Undisturbed (rtcStep false device step).1 rest

instance decidableUndisturbed : ∀ (steps : List RtcStep) (device : RtcDevice),
    Decidable (Undisturbed device steps)
  | [], _ => inferInstanceAs (Decidable True)
  | step :: rest, device =>
    haveI := decidableUndisturbed rest (rtcStep false device step).1
    inferInstanceAs (Decidable (¬step.Reloads device ∧ _))

theorem rtcStep_undisturbed {step : RtcStep} (guest : ∀ now, step ≠ .tick now)
    (undisturbed : ¬step.Reloads device) :
    (rtcStep false device step).1.rtcCounter = device.rtcCounter := by
  cases step with
  | tick now => exact absurd rfl (guest now)
  | write reg value =>
    rw [RtcStep.Reloads, not_or, not_and] at undisturbed
    change (rtcWrite device reg value).rtcCounter = _
    rw [rtcWrite, if_neg undisturbed.1]
    split_ifs with control
    · rw [rtcControl]
      dsimp only
      rw [if_neg (undisturbed.2 control)]
      split_ifs <;> rfl
    · rfl
  | ident level =>
    change (rtcIdent device level).1.rtcCounter = _
    rw [RtcStep.Reloads] at undisturbed
    rw [rtcIdent, if_neg undisturbed]

/-- An undisturbed clock gives one pulse in its number of ticks. -/
theorem rtcRun_counted (steps : List RtcStep) (counting : device.Counting)
    (undisturbed : Undisturbed device steps) (index : Nat) (tick : RtcTick)
    (here : (rtcRun false device steps).2[index]? = some tick) :
    tick.pulsed = true ↔ index % 10550 = (device.rtcCounter - 1).toNat := by
  induction steps generalizing device index with
  | nil => exact absurd here (Option.some_ne_none _).symm
  | cons step steps ih =>
    rw [rtcRun] at here
    dsimp only at here
    by_cases guest : ∀ now, step ≠ .tick now
    · obtain ⟨served, silent⟩ := @rtcStep_guest device step guest false
      rw [silent, List.nil_append] at here
      rw [← rtcStep_undisturbed guest undisturbed.1]
      exact ih (counting.served served) undisturbed.2 index here
    · push Not at guest
      obtain ⟨now, rfl⟩ := guest
      change ((rtcTick false now device).2 :: _)[index]? = some tick at here
      obtain ⟨last, _, counter⟩ := @rtcTick_counted device now
      have low := counting.low
      have high := counting.high
      have whole := counting.division
      rw [ticks20ms] at high whole
      cases index with
      | zero =>
        obtain rfl := Option.some.inj here
        rw [last]
        omega
      | succ index =>
        have later :=
          ih (rtcTick_counting counting now) undisturbed.2 index here
        change _ ↔ _ = ((rtcTick false now device).1.rtcCounter - 1).toNat at later
        rw [later, counter]
        split_ifs <;> omega

end Counted

section Beat

/-- The clock pulses at the first reading for each pulse, and reads the host clock in time. By
its ticks an undisturbed clock pulses once in 20 ms of ticks. -/
theorem rtc_keeps_beat (device : RtcDevice) :
    (∀ steps origin rest,
      HostClock (rtcReadings (rtcRun true (rtcReset device) steps).2) →
      rtcReadings (rtcRun true (rtcReset device) steps).2 = origin :: rest →
      Prompt (origin.1 + rtcWallPeriodNs) rtcWallPeriodNs (10 * rtcWallPeriodNs)
        (origin :: rest) →
      ∀ number index, GivesPulse (origin :: rest) (number + 1) index ↔
        IsLeast { index | DueAt origin.1 rtcWallPeriodNs (origin :: rest) (number + 1) index }
          index) ∧
    (∀ steps index, index + 65 ≤ (rtcRun true (rtcReset device) steps).2.length →
      ∃ at_ tick, index ≤ at_ ∧ at_ < index + 65 ∧
        (rtcRun true (rtcReset device) steps).2[at_]? = some tick ∧ tick.reading.isSome) ∧
    ∀ earlier later, Undisturbed (rtcRun false (rtcReset device) earlier).1 later →
      ∃ first < 10550, ∀ index tick,
        (rtcRun false (rtcRun false (rtcReset device) earlier).1 later).2[index]? = some tick →
        (tick.pulsed = true ↔ index % 10550 = first) := by
  refine ⟨fun steps origin rest host first prompt number index => ?_,
    fun steps index inside => rtcRun_reads steps (Nat.zero_le _) index inside,
    fun earlier later undisturbed => ?_⟩
  · exact (rtcRun_first steps rfl host first prompt).gives_iff
  · have counting := rtcRun_counting earlier (rtcReset_counting device)
    have high := counting.high
    rw [ticks20ms] at high
    exact ⟨_, by omega, fun index tick here =>
      rtcRun_counted later counting undisturbed index tick here⟩

def rtcOff : RtcDevice := ⟨0, 1, 0, 0, 0, false, 0, 0, 0, 0, 0, ⟨false, false, false⟩⟩

/-- The guest serves the first pulse between two readings. -/
def servedSteps : List RtcStep :=
  [.write 3 1, .tick 1000, .tick 20001000, .ident 13, .write 1 0, .tick 40001000]

theorem rtc_keeps_beat_served :
    (GivesPulse [(1000, false), (20001000, true), (40001000, true)] 2 2 ↔
      IsLeast { index | DueAt 1000 rtcWallPeriodNs
        [(1000, false), (20001000, true), (40001000, true)] 2 index } 2) ∧
    ∃ first < 10550, ∀ index tick,
      (rtcRun false (rtcRun false (rtcReset rtcOff) [.write 3 1]).1 [.tick 0, .tick 0]).2[index]? =
        some tick →
      (tick.pulsed = true ↔ index % 10550 = first) := by
  have readings : rtcReadings (rtcRun true (rtcReset rtcOff) servedSteps).2 =
      [(1000, false), (20001000, true), (40001000, true)] := by decide
  refine ⟨(rtc_keeps_beat rtcOff).1 servedSteps _ _ ?_ readings ?_ 1 2,
    (rtc_keeps_beat rtcOff).2.2 [.write 3 1] [.tick 0, .tick 0] (by decide)⟩
  · rw [readings]
    unfold HostClock
    decide
  · simp only [prompt_cons, prompt_nil, rtcWallPeriodNs]
    decide

theorem rtcRun_append (wall : Bool) (device : RtcDevice) (first later : List RtcStep) :
    rtcRun wall device (first ++ later) =
      ((rtcRun wall (rtcRun wall device first).1 later).1,
        (rtcRun wall device first).2 ++ (rtcRun wall (rtcRun wall device first).1 later).2) := by
  induction first generalizing device with
  | nil => rfl
  | cons step first ih =>
    rw [List.cons_append, rtcRun, ih, rtcRun]
    dsimp only
    rw [List.append_assoc]

/-- Ticks alone leave the clock undisturbed. -/
theorem undisturbed_replicate (now : BitVec 64) (count : Nat) (device : RtcDevice) :
    Undisturbed device (List.replicate count (.tick now)) ∧
      (rtcRun false device (List.replicate count (.tick now))).2.length = count := by
  induction count generalizing device with
  | zero => exact ⟨trivial, rfl⟩
  | succ count ih =>
    obtain ⟨undisturbed, length⟩ := ih (rtcStep false device (.tick now)).1
    exact ⟨⟨not_false, undisturbed⟩, congrArg (· + 1) length⟩

def RtcStep.ClearsOrRestarts : RtcStep → Prop
  | .tick _ => False
  | .write reg value =>
    reg = rtcClearCounter ∨ reg = rtcWriteControl ∧ value.getLsbD 15 = true
  | .ident _ => False

/-- An interrupt that is identified two ticks late moves the next pulse. -/
theorem rtc_ident_restarts :
    ∃ earlier later, (∀ step ∈ later, ¬step.ClearsOrRestarts) ∧
      ¬∃ first < 10550, ∀ index tick,
        (rtcRun false (rtcRun false (rtcReset rtcOff) earlier).1 later).2[index]? = some tick →
        (tick.pulsed = true ↔ index % 10550 = first) := by
  refine ⟨[.write 3 1], [.tick 0, .tick 0, .ident 13] ++ List.replicate 10549 (.tick 0), ?_, ?_⟩
  · intro step member
    rcases List.mem_append.mp member with served | ticked
    · simp only [List.mem_cons, List.not_mem_nil, or_false] at served
      rcases served with rfl | rfl | rfl
      all_goals exact not_false
    · rw [List.eq_of_mem_replicate ticked]
      exact not_false
  · rintro ⟨first, _, pulses⟩
    rw [rtcRun_append] at pulses
    have start := (pulses 0 ⟨none, true⟩ rfl).mp rfl
    set served := (rtcRun false (rtcRun false (rtcReset rtcOff) [.write 3 1]).1
      [.tick 0, .tick 0, .ident 13]).1 with servedIs
    obtain ⟨undisturbed, length⟩ := undisturbed_replicate 0 10549 served
    have counting : served.Counting :=
      rtcRun_counting _ (rtcRun_counting _ (rtcReset_counting rtcOff))
    have counter : served.rtcCounter = 10550 := by
      rw [servedIs]
      decide
    have inside : 10548 < (rtcRun false served (List.replicate 10549 (.tick 0))).2.length := by
      rw [length]
      omega
    obtain ⟨tick, here⟩ := Option.ne_none_iff_exists'.mp fun none_ =>
      Nat.not_le.mpr inside (List.getElem?_eq_none_iff.mp none_)
    have silent := rtcRun_counted _ counting undisturbed 10548 tick here
    have two : (rtcRun false (rtcRun false (rtcReset rtcOff) [.write 3 1]).1
        [.tick 0, .tick 0, .ident 13]).2.length = 2 := by decide
    have after : ∀ ticks : List RtcTick, ticks.length = 2 →
        (ticks ++ (rtcRun false served (List.replicate 10549 (.tick 0))).2)[10550]? =
          some tick := by
      intro ticks length
      have beyond : 10550 - ticks.length = 10548 := by omega
      rw [List.getElem?_append_right (by omega), beyond, here]
    have pulsed := (pulses 10550 tick (after _ two)).mpr (by omega)
    rw [counter] at silent
    exact absurd (silent.mp pulsed) (by omega)

end Beat

end Nd100x.Devices
