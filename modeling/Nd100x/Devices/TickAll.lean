import Nd100x.Devices.Manager

namespace Nd100x.Devices

section TickAll

variable {n : Nat} {κ δ : Type} (table : DeviceTable n κ δ)

namespace DeviceTable

/-- Only this device of the table asks for its ticks. -/
def conditional (d : Fin n) : Prop := table.ticks d = true ∧ table.tickAlways d = false

/-- A tick is asked for when a device gets work, and the bits that moved are reported. -/
structure Announced (before : DeviceArray n κ δ) (outcome : Outcome n κ δ) : Prop where
  work : ∀ d, table.conditional d → table.hasWork before d = false →
    table.hasWork outcome.devices d = true → outcome.wanted = true
  bits : ∀ d, (outcome.devices d).interruptBits ≠ (before d).interruptBits →
    outcome.dirty = true

def Announces (effect : Effect n κ δ) : Prop :=
  ∀ devices, table.Announced devices (effect devices)

/-- The tick of a device without work does nothing. -/
structure Lawful : Prop where
  idle : ∀ devices d, table.conditional d → table.hasWork devices d = false →
    (table.tickOne d devices).devices = devices
  announces : ∀ d, table.Announces (table.tickOne d)

/-- Every device is ticked in its turn. -/
def tickEach (order : List (Fin n)) (devices : DeviceArray n κ δ) : DeviceArray n κ δ :=
  order.foldl (fun devices d => (table.tickOne d devices).devices) devices

/-- These devices have work when their turn comes. -/
def working : List (Fin n) → DeviceArray n κ δ → List (Fin n)
  | [], _ => []
  | d :: order, devices =>
    let rest := working order (table.tickOne d devices).devices
    if table.ticks d && (table.tickAlways d || table.hasWork devices d) then d :: rest else rest

def tickAll (devices : DeviceArray n κ δ) : DeviceArray n κ δ :=
  table.tickEach (List.finRange n) devices

end DeviceTable

namespace Manager

variable {table} {manager : Manager n κ δ}

/-- Every device that asks for a tick and has work is in the list. -/
def Covered (table : DeviceTable n κ δ) (manager : Manager n κ δ) : Prop :=
  ∀ d, table.conditional d → table.hasWork manager.devices d = true →
    manager.inTickList d = true

/-- The bits are those of the devices, or they are computed again. -/
def Fresh (table : DeviceTable n κ δ) (manager : Manager n κ δ) : Prop :=
  manager.irqDirty = true ∨ manager.irqBits = table.interrupts manager.devices

/-- The list has the devices that are in it. -/
structure Listed (table : DeviceTable n κ δ) (manager : Manager n κ δ) : Prop where
  order : ∀ d, manager.tickOrder d = d.val
  list : manager.tickList = (List.finRange n).filter (manager.listed table)

/-- The manager is between two ticks. -/
structure Valid (table : DeviceTable n κ δ) (manager : Manager n κ δ) : Prop where
  listed : Listed table manager
  covered : manager.tickWanted = true ∨ Covered table manager
  fresh : Fresh table manager

section Steps

variable {effect : Effect n κ δ}

theorem interrupts_congr {first second : DeviceArray n κ δ}
    (same : ∀ d, (first d).interruptBits = (second d).interruptBits) :
    table.interrupts first = table.interrupts second := by
  simp only [DeviceTable.interrupts, same]

theorem perform_fresh (announces : table.Announces effect) (fresh : Fresh table manager) :
    Fresh table (manager.perform effect) := by
  rw [Fresh, perform, Bool.or_eq_true]
  rcases fresh with dirty | same
  · exact .inl (.inl dirty)
  · by_cases moved : (effect manager.devices).dirty = true
    · exact .inl (.inr moved)
    · refine .inr (same.trans (interrupts_congr fun d => ?_))
      by_contra other
      exact moved ((announces _).bits d (Ne.symm other))

theorem perform_covered (announces : table.Announces effect) (covered : Covered table manager) :
    (manager.perform effect).tickWanted = true ∨ Covered table (manager.perform effect) := by
  by_cases wanted : (effect manager.devices).wanted = true
  · exact .inl (by rw [perform, wanted, Bool.or_true])
  · refine .inr fun d conditional work => covered d conditional ?_
    by_contra none_
    exact wanted ((announces _).work d conditional (Bool.eq_false_iff.mpr none_) work)

theorem perform_valid (announces : table.Announces effect) (valid : Valid table manager) :
    Valid table (manager.perform effect) := by
  refine ⟨⟨valid.listed.order, valid.listed.list⟩, ?_, perform_fresh announces valid.fresh⟩
  rcases valid.covered with wanted | covered
  · exact .inl (by rw [perform, wanted, Bool.true_or])
  · exact perform_covered announces covered

theorem rebuild_listed (manager : Manager n κ δ) :
    Listed table (manager.rebuildTickList table) := by
  refine ⟨fun _ => rfl, ?_⟩
  have short : ((List.finRange n).filter (manager.listed table)).length ≤ tickListSize := by
    refine (List.length_filter_le _ _).trans ?_
    rw [List.length_finRange]
    exact table.fits.trans (by decide)
  exact List.take_of_length_le short

/-- The requests are taken, and no device with work is outside the list. -/
structure Taken (table : DeviceTable n κ δ) (before : Manager n κ δ)
    (after : Manager n κ δ × Bool) : Prop where
  devices : after.1.devices = before.devices
  quiet : after.1.tickWanted = false
  covered : Covered table after.1
  fresh : Fresh table after.1
  joined : after.2 = true → Listed table after.1
  same : after.2 = false → after.1.inTickList = before.inTickList ∧
    after.1.tickList = before.tickList ∧ after.1.tickOrder = before.tickOrder

theorem takeRequests_spec (covered : manager.tickWanted = true ∨ Covered table manager)
    (fresh : Fresh table manager) : Taken table manager (manager.takeRequests table) := by
  rw [takeRequests]
  by_cases wanted : manager.tickWanted = true
  · have taken : ∀ d, table.conditional d → table.hasWork manager.devices d = true →
        (manager.inTickList d || manager.joins table d) = true := by
      intro d conditional work
      rw [joins, conditional.1, conditional.2, work]
      cases manager.inTickList d <;> rfl
    rw [if_pos wanted]
    dsimp only
    split_ifs with joined
    · exact ⟨rfl, rfl, taken, fresh, fun _ => rebuild_listed _, Bool.noConfusion⟩
    · refine ⟨rfl, rfl, taken, fresh, Bool.noConfusion, fun _ => ⟨?_, rfl, rfl⟩⟩
      funext d
      have out : manager.joins table d = false := by
        by_contra in_
        exact joined (List.any_eq_true.mpr ⟨d, List.mem_finRange d, Bool.not_eq_false _ ▸ in_⟩)
      dsimp only
      rw [out, Bool.or_false]
  · rw [if_neg wanted]
    exact ⟨rfl, Bool.eq_false_iff.mpr wanted, covered.resolve_left wanted, fresh,
      Bool.noConfusion, fun _ => ⟨rfl, rfl, rfl⟩⟩

end Steps

section Walk

variable {rest : List (Fin n)} {index : Nat} {removed : Bool}

/-- These devices of the table come after the device that was ticked last. -/
structure Walking (table : DeviceTable n κ δ) (manager : Manager n κ δ) (index : Nat)
    (removed : Bool) (rest : List (Fin n)) : Prop where
  order : ∀ d, manager.tickOrder d = d.val
  suffix : manager.tickList.drop index = rest.filter (manager.listed table)
  whole : removed = false → manager.tickList = (List.finRange n).filter (manager.listed table)
  covered : Covered table manager
  quiet : manager.tickWanted = false
  fresh : Fresh table manager

theorem idle_outside (lawful : table.Lawful) (covered : Covered table manager) {d : Fin n}
    (outside : manager.listed table d = false) :
    (table.tickOne d manager.devices).devices = manager.devices ∧
      (table.ticks d && (table.tickAlways d || table.hasWork manager.devices d)) = false := by
  rw [listed] at outside
  rcases ticks : table.ticks d with _ | _
  · have none_ : table.tick d = none := Option.not_isSome_iff_eq_none.mp
      (Bool.eq_false_iff.mp ticks)
    rw [DeviceTable.tickOne, none_]
    exact ⟨rfl, rfl⟩
  · rw [ticks, Bool.true_and, Bool.or_eq_false_iff] at outside
    have conditional : table.conditional d := ⟨ticks, outside.1⟩
    have idle : table.hasWork manager.devices d = false := by
      by_contra work
      have inside := covered d conditional (Bool.not_eq_false _ ▸ work)
      exact Bool.noConfusion (inside.symm.trans outside.2)
    rw [outside.1, idle]
    exact ⟨lawful.idle _ d conditional idle, rfl⟩

/-- The devices outside the list may be passed over. -/
theorem pass_outside (lawful : table.Lawful) (covered : Covered table manager)
    {skipped : List (Fin n)} (outside : ∀ d ∈ skipped, manager.listed table d = false)
    (rest : List (Fin n)) :
    table.tickEach (skipped ++ rest) manager.devices = table.tickEach rest manager.devices ∧
      table.working (skipped ++ rest) manager.devices = table.working rest manager.devices := by
  induction skipped with
  | nil => exact ⟨rfl, rfl⟩
  | cons d skipped ih =>
    obtain ⟨same, none_⟩ := idle_outside lawful covered (outside d List.mem_cons_self)
    obtain ⟨each, working⟩ := ih fun e member =>
      outside e (List.mem_cons_of_mem _ member)
    constructor
    · rw [List.cons_append, DeviceTable.tickEach, List.foldl_cons, same]
      exact each
    · rw [List.cons_append, DeviceTable.working, same, none_, if_neg Bool.false_ne_true]
      exact working

theorem leave_listed {d e : Fin n} (other : e ≠ d) :
    (manager.leave table d removed).1.inTickList e = manager.inTickList e := by
  rw [leave]
  split_ifs
  · exact Function.update_of_ne other _ _
  · rfl

theorem leave_kept {d : Fin n} (kept : (manager.leave table d removed).2 = false) :
    (manager.leave table d removed).1 = manager ∧ removed = false := by
  rw [leave] at kept ⊢
  split_ifs at kept ⊢
  exact ⟨rfl, kept⟩

/-- A device that leaves has no work. -/
theorem leave_covered {d : Fin n} (covered : manager.tickWanted = true ∨ Covered table manager) :
    (manager.leave table d removed).1.tickWanted = true ∨
      Covered table (manager.leave table d removed).1 := by
  rw [leave]
  split_ifs with leaves
  · refine covered.imp id fun covered e conditional work => ?_
    dsimp only
    by_cases same : e = d
    · rw [same] at work
      rw [show table.hasWork manager.devices d = true from work, Bool.not_true,
        Bool.and_false] at leaves
      exact absurd leaves Bool.false_ne_true
    · rw [Function.update_of_ne same]
      exact covered e conditional work
  · exact covered

theorem leave_frame (d : Fin n) :
    (manager.leave table d removed).1.devices = manager.devices ∧
      (manager.leave table d removed).1.tickList = manager.tickList ∧
      (manager.leave table d removed).1.tickOrder = manager.tickOrder ∧
      (Fresh table manager → Fresh table (manager.leave table d removed).1) := by
  rw [leave]
  split_ifs <;> exact ⟨rfl, rfl, rfl, id⟩

/-- The list is entered behind the device that was ticked last. -/
theorem drop_passed {order : Fin n → Nat} (order_ : ∀ e, order e = e.val) {d : Fin n}
    {before after : List (Fin n)} (small : ∀ e ∈ before, e.val ≤ d.val)
    (large : ∀ e ∈ after, d.val < e.val) :
    (before ++ after).drop
      ((before ++ after).takeWhile fun e => order e ≤ d.val).length = after := by
  have passed : (before ++ after).takeWhile (fun e => decide (order e ≤ d.val)) = before := by
    rw [List.takeWhile_append_of_pos fun e member => by
      rw [order_]
      exact decide_eq_true (small e member)]
    rcases after with _ | ⟨e, after⟩
    · rw [List.takeWhile_nil, List.append_nil]
    · have above := large e List.mem_cons_self
      rw [List.takeWhile_cons_of_neg, List.append_nil]
      rw [order_, decide_eq_true_eq]
      omega
  rw [passed, List.drop_left]

/-- The state after the tick of one device of the list. -/
def walked (table : DeviceTable n κ δ) (manager : Manager n κ δ) (d : Fin n) (removed : Bool) :
    Manager n κ δ × Bool :=
  ((manager.perform (table.tickOne d)).leave table d removed).1.takeRequests table

theorem walked_taken (lawful : table.Lawful) (walking : Walking table manager index removed rest)
    (d : Fin n) :
    Taken table ((manager.perform (table.tickOne d)).leave table d removed).1
      (walked table manager d removed) :=
  takeRequests_spec
    (leave_covered (perform_covered (lawful.announces d) walking.covered))
    ((leave_frame d).2.2.2 (perform_fresh (lawful.announces d) walking.fresh))

theorem walked_devices (lawful : table.Lawful)
    (walking : Walking table manager index removed rest) (d : Fin n) :
    (walked table manager d removed).1.devices = (table.tickOne d manager.devices).devices :=
  (walked_taken lawful walking d).devices.trans (leave_frame d).1

/-- No request makes the list again, and the walk goes on in it. -/
theorem walked_on (lawful : table.Lawful) {d : Fin n} {more : List (Fin n)}
    (walking : Walking table manager index removed rest)
    (found : rest.filter (manager.listed table) = d :: (more.filter (manager.listed table)))
    (later : d ∉ more) (kept : (walked table manager d removed).2 = false) :
    Walking table (walked table manager d removed).1 (index + 1)
      ((manager.perform (table.tickOne d)).leave table d removed).2 more := by
  have taken := walked_taken lawful walking d
  obtain ⟨-, list, order, -⟩ :=
    @leave_frame _ _ _ table (manager.perform (table.tickOne d)) removed d
  obtain ⟨inTickList, tickList, tickOrder⟩ := taken.same kept
  refine ⟨fun e => ?_, ?_, fun stays => ?_, taken.covered, taken.quiet, taken.fresh⟩
  · rw [tickOrder, order]
    exact walking.order e
  · rw [tickList, list, ← List.tail_drop]
    change (manager.tickList.drop index).tail = _
    rw [walking.suffix, found, List.tail_cons]
    refine List.filter_congr fun e member => ?_
    rw [listed, listed, inTickList, leave_listed fun same : e = d => later (same ▸ member)]
    rfl
  · obtain ⟨same, whole⟩ := leave_kept stays
    rw [tickList, list]
    refine (walking.whole whole).trans (List.filter_congr fun e _ => ?_)
    rw [listed, listed, inTickList, same]
    rfl

/-- A request made the list again, and the walk goes on behind the device. -/
theorem walked_again (lawful : table.Lawful) {d : Fin n} {before more : List (Fin n)}
    (walking : Walking table manager index removed rest)
    (split : List.finRange n = (before ++ [d]) ++ more)
    (joined : (walked table manager d removed).2 = true) :
    Walking table (walked table manager d removed).1
      (((walked table manager d removed).1.tickList.takeWhile fun e =>
        (walked table manager d removed).1.tickOrder e ≤ d.val).length) false more := by
  have taken := walked_taken lawful walking d
  have listed := taken.joined joined
  have sorted := List.pairwise_lt_finRange n
  rw [split, List.pairwise_append, List.pairwise_append] at sorted
  obtain ⟨⟨-, -, small⟩, -, large⟩ := sorted
  refine ⟨listed.order, ?_, fun _ => listed.list, taken.covered, taken.quiet, taken.fresh⟩
  rw [listed.list, split, List.filter_append]
  refine drop_passed listed.order (fun e member => ?_) fun e member => ?_
  · rcases List.mem_append.mp (List.mem_of_mem_filter member) with earlier | last
    · exact Nat.le_of_lt (small e earlier d (List.mem_singleton.mpr rfl))
    · exact Nat.le_of_eq (congrArg Fin.val (List.mem_singleton.mp last))
  · exact large d (List.mem_append_right _ (List.mem_singleton.mpr rfl)) e
      (List.mem_of_mem_filter member)

/-- The walk ends with the ticks of the devices that come after its place. -/
structure Walked (table : DeviceTable n κ δ) (before : Manager n κ δ) (rest : List (Fin n))
    (last : Manager n κ δ × Bool × List (Fin n)) : Prop where
  devices : last.1.devices = table.tickEach rest before.devices
  order : ∀ d, last.1.tickOrder d = d.val
  whole : last.2.1 = false → last.1.tickList = (List.finRange n).filter (last.1.listed table)
  covered : Covered table last.1
  fresh : Fresh table last.1
  ticked : last.2.2.Sublist rest
  working : table.working rest before.devices ⊆ last.2.2

/-- No device of the rest is in the list. -/
theorem walked_ended (lawful : table.Lawful) (walking : Walking table manager index removed rest)
    (outside : rest.filter (manager.listed table) = []) :
    manager.tickList.length ≤ index ∧ Walked table manager rest (manager, removed, []) := by
  have none_ : ∀ d ∈ rest, manager.listed table d = false := fun d member =>
    Bool.eq_false_iff.mpr (List.filter_eq_nil_iff.mp outside d member)
  obtain ⟨each, working⟩ := pass_outside lawful walking.covered none_ []
  rw [List.append_nil] at each working
  refine ⟨List.drop_eq_nil_iff.mp (walking.suffix.trans outside), each.symm, walking.order,
    walking.whole, walking.covered, walking.fresh, List.nil_sublist _, ?_⟩
  rw [working]
  exact List.nil_subset _

theorem tickFrom_spec (lawful : table.Lawful) (fuel : Nat) {done : List (Fin n)}
    (split : List.finRange n = done ++ rest) (enough : rest.length ≤ fuel)
    (walking : Walking table manager index removed rest) :
    ∃ last, tickFrom table fuel manager index removed = some last ∧
      Walked table manager rest last := by
  induction fuel generalizing manager index removed rest done with
  | zero =>
    have empty : rest = [] := List.length_eq_zero_iff.mp (Nat.le_zero.mp enough)
    obtain ⟨length, walked⟩ := walked_ended lawful walking (by rw [empty, List.filter_nil])
    exact ⟨_, by rw [tickFrom, if_neg (Nat.not_lt.mpr length)], walked⟩
  | succ fuel ih =>
    rcases found : rest.filter (manager.listed table) with _ | ⟨d, listed⟩
    · obtain ⟨length, walked⟩ := walked_ended lawful walking found
      exact ⟨_, by rw [tickFrom, List.getElem?_eq_none length], walked⟩
    · obtain ⟨skipped, more, rfl, outside, inside, rfl⟩ := List.filter_eq_cons_iff.mp found
      have here : manager.tickList[index]? = some d := by
        have first := congrArg (·[0]?) (walking.suffix.trans found)
        rw [List.getElem?_drop] at first
        exact first
      have split_ : List.finRange n = ((done ++ skipped) ++ [d]) ++ more := by
        rw [split]
        simp only [List.append_assoc, List.cons_append, List.nil_append]
      have later : d ∉ more := by
        have unique := List.nodup_finRange n
        rw [split_] at unique
        exact fun member => (List.nodup_append.mp unique).2.2 d
          (List.mem_append_right _ (List.mem_singleton.mpr rfl)) d member rfl
      obtain ⟨each, working⟩ := pass_outside lawful walking.covered
        (fun e member => Bool.eq_false_iff.mpr (outside e member)) (d :: more)
      have fewer : more.length ≤ fuel := by
        rw [List.length_append, List.length_cons] at enough
        omega
      have devices := walked_devices lawful walking d
      -- The walk goes on in the state after the tick, at its next index.
      have goes (next : Nat) (left : Bool)
          (on : Walking table (walked table manager d removed).1 next left more) :
          ∃ last, (tickFrom table fuel (walked table manager d removed).1 next left).map
            (fun last => (last.1, last.2.1, d :: last.2.2)) = some last ∧
              Walked table manager (skipped ++ d :: more) last := by
        obtain ⟨last, result, walked⟩ := ih split_ fewer on
        refine ⟨(last.1, last.2.1, d :: last.2.2), by rw [result]; rfl, ?_, walked.order,
          walked.whole, walked.covered, walked.fresh, ?_, ?_⟩
        · rw [each, walked.devices, devices]
          rfl
        · exact (walked.ticked.cons_cons d).trans (List.sublist_append_right _ _)
        · have rest := walked.working
          rw [devices] at rest
          rw [working, DeviceTable.working]
          split_ifs
          · exact List.cons_subset_cons d rest
          · exact fun e member => List.mem_cons_of_mem _ (rest member)
      rw [tickFrom, here]
      change ∃ last, (tickFrom table fuel (walked table manager d removed).1
        (if (walked table manager d removed).2 then (_, _) else (_, _) : Nat × Bool).1
        (if (walked table manager d removed).2 then (_, _) else (_, _) : Nat × Bool).2).map _ =
          some last ∧ _
      rcases joined : (walked table manager d removed).2 with _ | _
      · rw [if_neg Bool.false_ne_true]
        exact goes _ _ (walked_on lawful walking found later joined)
      · rw [if_pos rfl, walking.order]
        exact goes _ _ (walked_again lawful walking split_ joined)

end Walk

section Tick

/-- The list was not built yet, or the manager is between two ticks. -/
def Ready (table : DeviceTable n κ δ) (manager : Manager n κ δ) : Prop :=
  manager.tickListDevices = some n → Valid table manager

theorem prepare_spec (ready : Ready table manager) :
    Valid table (manager.prepare table) ∧ (manager.prepare table).devices = manager.devices := by
  rw [prepare]
  split_ifs with built
  · exact ⟨ready built, rfl⟩
  · have listed := @rebuild_listed _ _ _ table
      { manager with inTickList := fun _ => false, tickListDevices := some n }
    exact ⟨⟨⟨listed.order, listed.list⟩, .inl rfl, .inl rfl⟩, rfl⟩

theorem walking_start (valid : Valid table manager) :
    Walking table (manager.takeRequests table).1 0 false (List.finRange n) := by
  have taken := takeRequests_spec valid.covered valid.fresh
  have listed : Listed table (manager.takeRequests table).1 := by
    rcases joined : (manager.takeRequests table).2 with _ | _
    · obtain ⟨inTickList, tickList, tickOrder⟩ := taken.same joined
      refine ⟨fun d => by rw [tickOrder]; exact valid.listed.order d, ?_⟩
      rw [tickList, valid.listed.list]
      refine List.filter_congr fun d _ => ?_
      rw [Manager.listed, Manager.listed, inTickList]
    · exact taken.joined joined
  exact ⟨listed.order, listed.list, fun _ => listed.list, taken.covered, taken.quiet,
    taken.fresh⟩

theorem refreshBits_spec (fresh : Fresh table manager) :
    (manager.refreshBits table).irqBits = table.interrupts manager.devices ∧
      (manager.refreshBits table).devices = manager.devices := by
  rw [refreshBits]
  split_ifs with dirty
  · exact ⟨rfl, rfl⟩
  · exact ⟨fresh.resolve_left dirty, rfl⟩

/-- A tick is a tick of every device in its turn. -/
structure Ticked (table : DeviceTable n κ δ) (before : DeviceArray n κ δ)
    (after : Manager n κ δ × BitVec 16 × List (Fin n)) : Prop where
  valid : Valid table after.1
  devices : after.1.devices = table.tickAll before
  bits : after.2.1 = table.interrupts (table.tickAll before)
  once : after.2.2.Pairwise (· < ·)
  working : table.working (List.finRange n) before ⊆ after.2.2

theorem tick_spec (lawful : table.Lawful) (ready : Ready table manager) :
    ∃ after, manager.tick table = some after ∧ Ticked table manager.devices after := by
  obtain ⟨prepared, same⟩ := prepare_spec ready
  have taken := takeRequests_spec prepared.covered prepared.fresh
  obtain ⟨last, result, walked⟩ := tickFrom_spec lawful n (List.nil_append _).symm
    (Nat.le_of_eq List.length_finRange) (walking_start prepared)
  have devices := walked.devices
  have working := walked.working
  rw [taken.devices, same] at devices working
  -- The list is made again when a device left it.
  let kept := if last.2.1 then last.1.rebuildTickList table else last.1
  have standing : Listed table kept ∧ kept.devices = last.1.devices ∧ Covered table kept ∧
      Fresh table kept := by
    rcases removed : last.2.1 with _ | _
    · rw [show kept = last.1 from if_neg (by rw [removed]; exact Bool.false_ne_true)]
      exact ⟨⟨walked.order, walked.whole removed⟩, rfl, walked.covered, walked.fresh⟩
    · rw [show kept = last.1.rebuildTickList table from if_pos removed]
      exact ⟨rebuild_listed _, rfl, walked.covered, walked.fresh⟩
  obtain ⟨listed, keptDevices, covered, fresh⟩ := standing
  obtain ⟨bits, refreshed⟩ := refreshBits_spec fresh
  refine ⟨(kept.refreshBits table, (kept.refreshBits table).irqBits, last.2.2), ?_, ?_, ?_, ?_,
    ?_, working⟩
  · rw [tick, result]
    rfl
  · rw [refreshBits] at bits ⊢
    split_ifs at bits ⊢
    · exact ⟨⟨listed.order, listed.list⟩, .inr covered, .inr rfl⟩
    · exact ⟨listed, .inr covered, fresh⟩
  · rw [refreshed, keptDevices]
    exact devices
  · rw [bits, keptDevices, devices]
    rfl
  · exact (List.pairwise_lt_finRange n).sublist walked.ticked

end Tick

end Manager

section Runs

/-- The processor and the devices act between two ticks. -/
inductive ManagerStep (n : Nat) (κ δ : Type) where
  | event (effect : Effect n κ δ)
  | tick

/-- A tick returns bits and has ticked some devices. -/
structure TickReport (n : Nat) where
  bits : BitVec 16
  ticked : List (Fin n)

/-- The devices are ticked when they have work. -/
def Manager.run (table : DeviceTable n κ δ) :
    List (ManagerStep n κ δ) → Manager n κ δ → Option (Manager n κ δ × List (TickReport n))
  | [], manager => some (manager, [])
  | .event effect :: steps, manager => run table steps (manager.perform effect)
  | .tick :: steps, manager =>
    (manager.tick table).bind fun after =>
      (run table steps after.1).map fun last => (last.1, ⟨after.2.1, after.2.2⟩ :: last.2)

/-- Every device is ticked, and the report has those with work. -/
def DeviceTable.runAll (table : DeviceTable n κ δ) :
    List (ManagerStep n κ δ) → DeviceArray n κ δ → DeviceArray n κ δ × List (TickReport n)
  | [], devices => (devices, [])
  | .event effect :: steps, devices => runAll table steps (effect devices).devices
  | .tick :: steps, devices =>
    let last := runAll table steps (table.tickAll devices)
    (last.1, ⟨table.interrupts (table.tickAll devices),
      table.working (List.finRange n) devices⟩ :: last.2)

/-- No device is ticked twice, and none with work is left out. -/
structure TickReport.Agrees (report expected : TickReport n) : Prop where
  bits : report.bits = expected.bits
  once : report.ticked.Pairwise (· < ·)
  working : expected.ticked ⊆ report.ticked

end Runs

end TickAll

end Nd100x.Devices
