import Mathlib.Data.BitVec
import Mathlib.Data.List.Forall2
import Mathlib.Data.Option.Basic
import Mathlib.Tactic.SplitIfs
import Mathlib.Data.List.Basic
import Mathlib.Data.List.Pairwise
import Mathlib.Tactic.Linarith

namespace Nd100x.Devices

/-- A call asks for a callback of type `κ` after its ticks. -/
structure DelayCall (κ : Type) where
  ticks : BitVec 32
  callback : κ
  param : BitVec 32
  irqlevel : BitVec 8

structure DelayedIoInfo (κ : Type) where
  delayTicks : Int
  callback : κ
  parameter : BitVec 32
  level : BitVec 8

/-- A larger block is not to be had, or the array stays in place, or it moves. -/
inductive Realloc
  | failed
  | inPlace
  | moved
  deriving DecidableEq

/-- The allocator answers the calls of `realloc` in turn. A freed block holds any byte. -/
structure Allocator where
  realloc : Nat → Realloc
  freed : Nat → BitVec 8

/-- The array of delays has a capacity and lies in a block. -/
structure DelayDevice (κ σ : Type) where
  ioDelays : List (DelayedIoInfo κ)
  ioDelayCapacity : Nat
  reallocs : Nat
  block : Nat
  interruptBits : BitVec 16
  data : σ

def initialIoDelayCapacity : Nat := 16

section Queueing

variable {κ σ : Type}

def DelayDevice.init (interruptBits : BitVec 16) (data : σ) : DelayDevice κ σ :=
  ⟨[], initialIoDelayCapacity, 0, 0, interruptBits, data⟩

/-- The ticks become a signed number. -/
def DelayCall.info (call : DelayCall κ) : DelayedIoInfo κ :=
  ⟨call.ticks.toInt, call.callback, call.param, call.irqlevel⟩

/-- The capacity doubles when the array is full. Without a larger block the call is lost. -/
def DelayDevice.queueIoDelay (allocator : Allocator) (device : DelayDevice κ σ)
    (call : DelayCall κ) : DelayDevice κ σ :=
  if device.ioDelays.length < device.ioDelayCapacity then
    { device with ioDelays := device.ioDelays ++ [call.info] }
  else
    match allocator.realloc device.reallocs with
    | .failed => { device with reallocs := device.reallocs + 1 }
    | .inPlace =>
      { device with
        ioDelays := device.ioDelays ++ [call.info]
        ioDelayCapacity := device.ioDelayCapacity * 2
        reallocs := device.reallocs + 1 }
    | .moved =>
      { device with
        ioDelays := device.ioDelays ++ [call.info]
        ioDelayCapacity := device.ioDelayCapacity * 2
        reallocs := device.reallocs + 1
        block := device.reallocs + 1 }

/-- So many calls of `realloc` are made for a number of new delays. -/
def growths (count capacity : Nat) : Nat → Nat
  | 0 => 0
  | more + 1 =>
    if count < capacity then growths (count + 1) capacity more
    else growths (count + 1) (capacity * 2) more + 1

/-- The array gets the blocks that a number of new delays need, and stays in place if it must. -/
def Allocator.Grants (allocator : Allocator) (stays : Bool) (device : DelayDevice κ σ)
    (more : Nat) : Prop :=
  ∀ k < growths device.ioDelays.length device.ioDelayCapacity more,
    allocator.realloc (device.reallocs + k) ≠ .failed ∧
      (stays = true → allocator.realloc (device.reallocs + k) ≠ .moved)

instance (allocator : Allocator) (stays : Bool) (device : DelayDevice κ σ) (more : Nat) :
    Decidable (allocator.Grants stays device more) :=
  inferInstanceAs (Decidable (∀ k < _, _))

/-- A granted call puts its delay last and leaves the rest to the calls after it. -/
theorem DelayDevice.queueIoDelay_granted {allocator : Allocator} {stays : Bool}
    {device : DelayDevice κ σ} {more : Nat} (granted : allocator.Grants stays device (more + 1))
    (call : DelayCall κ) :
    (device.queueIoDelay allocator call).ioDelays = device.ioDelays ++ [call.info] ∧
      (stays = true → (device.queueIoDelay allocator call).block = device.block) ∧
      allocator.Grants stays (device.queueIoDelay allocator call) more := by
  rw [Allocator.Grants, growths] at granted
  rw [DelayDevice.queueIoDelay]
  split_ifs at granted ⊢
  · refine ⟨rfl, fun _ => rfl, ?_⟩
    rw [Allocator.Grants, List.length_append]
    exact granted
  · have later : ∀ k < growths (device.ioDelays.length + 1) (device.ioDelayCapacity * 2) more,
        allocator.realloc (device.reallocs + 1 + k) ≠ .failed ∧
          (stays = true → allocator.realloc (device.reallocs + 1 + k) ≠ .moved) := by
      intro k inside
      rw [Nat.add_assoc, Nat.add_comm 1 k]
      exact granted (k + 1) (Nat.add_lt_add_right inside 1)
    have first := granted 0 (Nat.succ_pos _)
    rw [Nat.add_zero] at first
    rcases answer : allocator.realloc device.reallocs
    · exact absurd answer first.1
    · refine ⟨rfl, fun _ => rfl, ?_⟩
      rw [Allocator.Grants, List.length_append]
      exact later
    · refine ⟨rfl, fun must => absurd answer (first.2 must), ?_⟩
      rw [Allocator.Grants, List.length_append]
      exact later

end Queueing

section Run

variable {κ σ : Type}

/-- A callback queues delays, moves interrupt bits and other data, and may ask for an interrupt. -/
structure Reaction (κ σ : Type) where
  calls : List (DelayCall κ)
  interruptBits : BitVec 16
  data : σ
  triggered : Bool

abbrev Callbacks (κ σ : Type) := κ → BitVec 32 → BitVec 16 → σ → Reaction κ σ

/-- The call was made after these whole ticks, and after so many had begun. -/
structure QueuedCall (κ : Type) where
  call : DelayCall κ
  completed : Nat
  begun : Nat

/-- The callback left these bits, and the device then had those. -/
structure Firing (κ : Type) where
  callback : κ
  parameter : BitVec 32
  tick : Nat
  triggered : Bool
  left : BitVec 16
  bits : BitVec 16

/-- A device is at an index of the walk of a tick, or between two ticks. -/
structure DelayRun (κ σ : Type) where
  device : DelayDevice κ σ
  walking : Option Nat
  completed : Nat
  calls : List (QueuedCall κ)
  fired : List (Firing κ)

def DelayRun.start (interruptBits : BitVec 16) (data : σ) : DelayRun κ σ :=
  ⟨.init interruptBits data, none, 0, [], []⟩

def DelayRun.begun (run : DelayRun κ σ) : Nat := run.completed + run.walking.toList.length

def DelayRun.queue (allocator : Allocator) (run : DelayRun κ σ) (call : DelayCall κ) :
    DelayRun κ σ :=
  { run with
    device := run.device.queueIoDelay allocator call
    calls := run.calls ++ [⟨call, run.completed, run.begun⟩] }

def generateInterrupt (bits : BitVec 16) (level : Nat) : BitVec 16 :=
  if 10 ≤ level ∧ level ≤ 13 then bits ||| BitVec.twoPow 16 level else bits

/-- The level of a delay is read through the pointer from before its callback. -/
def DelayDevice.levelAt (allocator : Allocator) (device : DelayDevice κ σ) (block index : Nat) :
    BitVec 8 :=
  if device.block = block then ((device.ioDelays[index]?).map DelayedIoInfo.level).getD 0
  else allocator.freed device.reallocs

/-- The delay at this index is due. -/
def DelayRun.fire (allocator : Allocator) (callbacks : Callbacks κ σ) (run : DelayRun κ σ)
    (index : Nat) (delay : DelayedIoInfo κ) : DelayRun κ σ :=
  let reaction :=
    callbacks delay.callback delay.parameter run.device.interruptBits run.device.data
  let called := reaction.calls.foldl (DelayRun.queue allocator)
    { run with device := { run.device with
        interruptBits := reaction.interruptBits
        data := reaction.data } }
  let level := called.device.levelAt allocator run.device.block index
  let bits :=
    if reaction.triggered ∧ 0 < level.toNat then
      generateInterrupt called.device.interruptBits level.toNat
    else called.device.interruptBits
  { called with
    device := { called.device with
      ioDelays := called.device.ioDelays.eraseIdx index
      interruptBits := bits }
    fired := called.fired ++ [⟨delay.callback, delay.parameter, run.begun, reaction.triggered,
      called.device.interruptBits, bits⟩] }

def DelayedIoInfo.counted (delay : DelayedIoInfo κ) : DelayedIoInfo κ :=
  { delay with delayTicks := delay.delayTicks - 1 }

/-- The delay at this index loses a tick. -/
def DelayRun.count (run : DelayRun κ σ) (index : Nat) (delay : DelayedIoInfo κ) : DelayRun κ σ :=
  { run with device := { run.device with
      ioDelays := run.device.ioDelays.set index delay.counted } }

/-- One round of the loop of `dev_tick_io_delay`. -/
def DelayRun.walk (allocator : Allocator) (callbacks : Callbacks κ σ) (run : DelayRun κ σ)
    (index : Nat) : DelayRun κ σ :=
  match run.device.ioDelays[index]? with
  | none => { run with walking := none, completed := run.completed + 1 }
  | some delay =>
    if delay.counted.delayTicks ≤ 0 then
      (run.count index delay).fire allocator callbacks index delay.counted
    else { run.count index delay with walking := some (index + 1) }

inductive DelayStep (κ : Type)
  | queue (call : DelayCall κ)
  | tick
  | walk

/-- Between two ticks delays are queued, and in a tick only the callbacks queue. -/
def DelayRun.step (allocator : Allocator) (callbacks : Callbacks κ σ) (run : DelayRun κ σ) :
    DelayStep κ → Option (DelayRun κ σ)
  | .queue call => if run.walking = none then some (run.queue allocator call) else none
  | .tick => if run.walking = none then some { run with walking := some 0 } else none
  | .walk => run.walking.map (run.walk allocator callbacks)

def DelayRun.steps (allocator : Allocator) (callbacks : Callbacks κ σ) (run : DelayRun κ σ) :
    List (DelayStep κ) → Option (DelayRun κ σ)
  | [] => some run
  | step :: rest =>
    (run.step allocator callbacks step).bind (DelayRun.steps allocator callbacks · rest)

end Run

section Due

variable {κ σ : Type}

def DelayCall.Short (call : DelayCall κ) : Prop := call.ticks.toNat < 2147483648

instance (call : DelayCall κ) : Decidable call.Short := inferInstanceAs (Decidable (_ < _))

/-- A delay counts the ticks that begin or go on after its call. No ticks count as one. -/
def QueuedCall.due (queued : QueuedCall κ) : Nat := queued.completed + max 1 queued.call.ticks.toNat

/-- This tick is the one that follows the call by its number of ticks. -/
def QueuedCall.latest (queued : QueuedCall κ) : Nat := queued.begun + max 1 queued.call.ticks.toNat

/-- The callback of the call ran with its parameter, at its tick and with its interrupt. -/
structure QueuedCall.Fires (queued : QueuedCall κ) (firing : Firing κ) : Prop where
  callback : firing.callback = queued.call.callback
  parameter : firing.parameter = queued.call.param
  tick : firing.tick = queued.due
  bits : firing.bits =
    if firing.triggered then generateInterrupt firing.left queued.call.irqlevel.toNat
    else firing.left

/-- A call comes before another by its due tick, and by its place when both are due together. -/
def Before (calls : List (QueuedCall κ)) (first second : Nat) : Prop :=
  ∃ earlier later, calls[first]? = some earlier ∧ calls[second]? = some later ∧
    (earlier.due < later.due ∨ earlier.due = later.due ∧ first < second)

/-- The calls that have fired are in order, and all that were due by the tick are among them. -/
def DelayRun.FiredBy (run : DelayRun κ σ) (calls : List (QueuedCall κ)) (tick : Nat) : Prop :=
  ∃ serials : List Nat,
    List.Forall₂ (fun serial firing => ∃ queued, run.calls[serial]? = some queued ∧
      queued.Fires firing ∧ queued.due ≤ queued.latest) serials run.fired ∧
    serials.Pairwise (Before run.calls) ∧
    ∀ serial queued, calls[serial]? = some queued → queued.due ≤ tick → serial ∈ serials

end Due

section Tracks

variable {κ σ : Type}

/-- The delay of a call has lost the ticks up to the clock. -/
def Waits (calls : List (QueuedCall κ)) (clock serial : Nat) (delay : DelayedIoInfo κ) : Prop :=
  ∃ queued, calls[serial]? = some queued ∧ delay.callback = queued.call.callback ∧
    delay.parameter = queued.call.param ∧ delay.level = queued.call.irqlevel ∧
    (queued.due : Int) = clock + max 1 delay.delayTicks

/-- The calls of the delays that the walk has passed, of those ahead and of those that fired. -/
structure DelayRun.Tracks (run : DelayRun κ σ) (passed ahead serials : List Nat) : Prop where
  array : ∃ front back, run.device.ioDelays = front ++ back ∧
    front.length = run.walking.getD 0 ∧
    List.Forall₂ (Waits run.calls (run.completed + 1)) passed front ∧
    List.Forall₂ (Waits run.calls run.completed) ahead back
  ordered : (passed ++ ahead).Pairwise (· < ·)
  begun : ∀ queued ∈ run.calls, queued.completed ≤ queued.begun
  fired : List.Forall₂ (fun serial firing => ∃ queued, run.calls[serial]? = some queued ∧
    queued.Fires firing) serials run.fired
  sorted : serials.Pairwise (Before run.calls)
  gone : ∀ serial ∈ serials, ∃ queued, run.calls[serial]? = some queued ∧
    (queued.due ≤ run.completed ∨
      run.walking.isSome ∧ queued.due = run.completed + 1 ∧ ∀ waiting ∈ ahead, serial < waiting)
  all : ∀ serial < run.calls.length, serial ∈ passed ∨ serial ∈ ahead ∨ serial ∈ serials

theorem placed_kept {calls : List (QueuedCall κ)} {serial : Nat} {queued : QueuedCall κ}
    (placed : calls[serial]? = some queued) (more : List (QueuedCall κ)) :
    (calls ++ more)[serial]? = some queued := by
  obtain ⟨inside, here⟩ := List.getElem?_eq_some_iff.mp placed
  rw [List.getElem?_append_left inside]
  exact placed

theorem Waits.kept {calls : List (QueuedCall κ)} {clock serial : Nat} {delay : DelayedIoInfo κ}
    (waits : Waits calls clock serial delay) (more : List (QueuedCall κ)) :
    Waits (calls ++ more) clock serial delay := by
  obtain ⟨queued, placed, rest⟩ := waits
  exact ⟨queued, placed_kept placed more, rest⟩

theorem Waits.inside {calls : List (QueuedCall κ)} {clock serial : Nat} {delay : DelayedIoInfo κ}
    (waits : Waits calls clock serial delay) : serial < calls.length := by
  obtain ⟨queued, placed, _⟩ := waits
  exact (List.getElem?_eq_some_iff.mp placed).1

theorem Before.kept {calls : List (QueuedCall κ)} {first second : Nat}
    (before : Before calls first second) (more : List (QueuedCall κ)) :
    Before (calls ++ more) first second := by
  obtain ⟨earlier, later, placed, other, order⟩ := before
  exact ⟨earlier, later, placed_kept placed more, placed_kept other more, order⟩

/-- Every serial on one side of related lists has a delay. -/
theorem waits_of_mem {calls : List (QueuedCall κ)} {clock : Nat} {serials : List Nat}
    {delays : List (DelayedIoInfo κ)} (waits : List.Forall₂ (Waits calls clock) serials delays) :
    ∀ serial ∈ serials, ∃ delay, Waits calls clock serial delay := by
  induction waits with
  | nil => exact fun _ member => absurd member List.not_mem_nil
  | cons head _ ih =>
    intro serial member
    rcases List.mem_cons.mp member with rfl | later
    · exact ⟨_, head⟩
    · exact ih serial later

variable {run : DelayRun κ σ} {passed ahead serials : List Nat}

theorem start_tracks (interruptBits : BitVec 16) (data : σ) :
    (DelayRun.start interruptBits data : DelayRun κ σ).Tracks [] [] [] where
  array := ⟨[], [], rfl, rfl, .nil, .nil⟩
  ordered := .nil
  begun := fun _ member => absurd member List.not_mem_nil
  fired := .nil
  sorted := .nil
  gone := fun _ member => absurd member List.not_mem_nil
  all := fun _ inside => absurd inside (Nat.not_lt_zero _)

/-- Only the array of the device is tracked. -/
theorem DelayRun.Tracks.device (tracks : run.Tracks passed ahead serials)
    {device : DelayDevice κ σ} (same : device.ioDelays = run.device.ioDelays) :
    { run with device := device }.Tracks passed ahead serials where
  array := by
    rw [same]
    exact tracks.array
  ordered := tracks.ordered
  begun := tracks.begun
  fired := tracks.fired
  sorted := tracks.sorted
  gone := tracks.gone
  all := tracks.all

theorem Waits.late {calls : List (QueuedCall κ)} {clock serial : Nat} {delay : DelayedIoInfo κ}
    (waits : Waits calls clock serial delay) {queued : QueuedCall κ}
    (placed : calls[serial]? = some queued) : clock < queued.due := by
  obtain ⟨_, found, _, _, _, clocked⟩ := waits
  obtain rfl := Option.some.inj (placed.symm.trans found)
  omega

/-- A tracked run has fired what was due, once and in order. -/
theorem DelayRun.Tracks.firedBy (tracks : run.Tracks passed ahead serials)
    {calls : List (QueuedCall κ)} (earlier : calls <+: run.calls) {tick : Nat}
    (begun : tick ≤ run.completed + 1)
    (handled : ∀ serial ∈ ahead, serial < calls.length → tick ≤ run.completed) :
    run.FiredBy calls tick := by
  refine ⟨serials, ?_, tracks.sorted, ?_⟩
  · refine tracks.fired.imp fun serial firing fires => ?_
    obtain ⟨queued, placed, fires⟩ := fires
    exact ⟨queued, placed, fires, Nat.add_le_add_right
      (tracks.begun queued (List.mem_of_getElem? placed)) _⟩
  · intro serial queued first due
    have inside := (List.getElem?_eq_some_iff.mp first).1
    obtain ⟨rest, whole⟩ := earlier
    have placed := placed_kept first rest
    rw [whole] at placed
    obtain ⟨front, back, _, _, atFront, atBack⟩ := tracks.array
    rcases tracks.all serial (List.getElem?_eq_some_iff.mp placed).1 with member | member | member
    · obtain ⟨_, waits⟩ := waits_of_mem atFront serial member
      exact absurd (waits.late placed) (by omega)
    · obtain ⟨_, waits⟩ := waits_of_mem atBack serial member
      have := handled serial member inside
      exact absurd (waits.late placed) (by omega)
    · exact member

/-- A queued delay waits last. -/
theorem DelayRun.Tracks.queue (tracks : run.Tracks passed ahead serials) {allocator : Allocator}
    {stays : Bool} {more : Nat} (granted : allocator.Grants stays run.device (more + 1))
    {call : DelayCall κ} (short : call.Short) :
    (run.queue allocator call).Tracks passed (ahead ++ [run.calls.length]) serials := by
  have array := (DelayDevice.queueIoDelay_granted granted call).1
  obtain ⟨front, back, shape, walked, atFront, atBack⟩ := tracks.array
  have older : ∀ serial ∈ passed ++ ahead, serial < run.calls.length := by
    intro serial member
    rcases List.mem_append.mp member with member | member
    · obtain ⟨_, waits⟩ := waits_of_mem atFront serial member
      exact waits.inside
    · obtain ⟨_, waits⟩ := waits_of_mem atBack serial member
      exact waits.inside
  have newest : Waits (run.calls ++ [⟨call, run.completed, run.begun⟩]) run.completed
      run.calls.length call.info := by
    refine ⟨_, List.getElem?_concat_length, rfl, rfl, rfl, ?_⟩
    change ((run.completed + max 1 call.ticks.toNat : Nat) : Int) =
      run.completed + max 1 call.ticks.toInt
    rw [BitVec.toInt_eq_toNat_of_lt (by have := short; rw [DelayCall.Short] at this; omega)]
    omega
  exact {
    array := by
      refine ⟨front, back ++ [call.info], ?_, walked, atFront.imp fun _ _ waits => waits.kept _,
        List.rel_append (atBack.imp fun _ _ waits => waits.kept _) (.cons newest .nil)⟩
      rw [← List.append_assoc, ← shape]
      exact array
    ordered := by
      rw [← List.append_assoc]
      refine List.pairwise_append.mpr ⟨tracks.ordered, List.pairwise_singleton _ _, ?_⟩
      intro serial member last here
      rw [List.mem_singleton.mp here]
      exact older serial member
    begun := by
      intro queued member
      rcases List.mem_append.mp member with member | member
      · exact tracks.begun queued member
      · rw [List.mem_singleton.mp member]
        exact Nat.le_add_right _ _
    fired := tracks.fired.imp fun _ _ ⟨queued, placed, fires⟩ =>
      ⟨queued, placed_kept placed _, fires⟩
    sorted := tracks.sorted.imp fun before => before.kept _
    gone := by
      intro serial member
      obtain ⟨queued, placed, due⟩ := tracks.gone serial member
      refine ⟨queued, placed_kept placed _, due.imp_right fun ⟨walking, due, first⟩ =>
        ⟨walking, due, fun waiting here => ?_⟩⟩
      rcases List.mem_append.mp here with here | here
      · exact first waiting here
      · rw [List.mem_singleton.mp here]
        exact (List.getElem?_eq_some_iff.mp placed).1
    all := by
      intro serial inside
      rw [DelayRun.queue, List.length_append] at inside
      rcases Nat.lt_succ_iff_lt_or_eq.mp inside with inside | rfl
      · exact (tracks.all serial inside).imp_right (.imp_left (List.mem_append_left _))
      · exact .inr (.inl List.mem_concat_self) }

/-- The calls of a callback come after the calls before it, and its delays after theirs. -/
structure Queued (stays : Bool) (run last : DelayRun κ σ) (more : List Nat)
    (infos : List (DelayedIoInfo κ)) : Prop where
  array : last.device.ioDelays = run.device.ioDelays ++ infos
  block : stays = true → last.device.block = run.device.block
  calls : run.calls <+: last.calls
  later : ∀ serial ∈ more, run.calls.length ≤ serial
  walking : last.walking = run.walking
  completed : last.completed = run.completed
  fired : last.fired = run.fired

theorem DelayRun.Tracks.queueAll {allocator : Allocator} {stays : Bool}
    {calls : List (DelayCall κ)} (short : ∀ call ∈ calls, call.Short)
    (tracks : run.Tracks passed ahead serials)
    (granted : allocator.Grants stays run.device calls.length) :
    ∃ more, (calls.foldl (DelayRun.queue allocator) run).Tracks passed (ahead ++ more) serials ∧
      Queued stays run (calls.foldl (DelayRun.queue allocator) run) more
        (calls.map DelayCall.info) := by
  induction calls generalizing run ahead with
  | nil =>
    refine ⟨[], ?_, List.append_nil _ |>.symm, fun _ => rfl, List.prefix_refl _,
      fun _ member => absurd member List.not_mem_nil, rfl, rfl, rfl⟩
    rw [List.append_nil]
    exact tracks
  | cons call calls ih =>
    obtain ⟨array, block, later⟩ := DelayDevice.queueIoDelay_granted granted call
    obtain ⟨more, last, queued⟩ := ih
      (fun other member => short other (List.mem_cons_of_mem _ member))
      (tracks.queue granted (short call List.mem_cons_self)) later
    refine ⟨run.calls.length :: more, ?_, ?_, fun must => (queued.block must).trans (block must),
      (List.prefix_append _ _).trans queued.calls, ?_, queued.walking, queued.completed,
      queued.fired⟩
    · rw [List.append_cons]
      exact last
    · refine queued.array.trans ?_
      change (run.device.queueIoDelay allocator call).ioDelays ++ _ = _
      rw [array, List.append_assoc]
      rfl
    · intro serial member
      rcases List.mem_cons.mp member with rfl | member
      · exact Nat.le_refl _
      · refine Nat.le_trans ?_ (queued.later serial member)
        change _ ≤ (run.calls ++ _).length
        rw [List.length_append]
        exact Nat.le_add_right _ _

/-- The array splits at the index of the walk. -/
theorem DelayRun.Tracks.split (tracks : run.Tracks passed ahead serials) {index : Nat}
    (walking : run.walking = some index) {delay : DelayedIoInfo κ}
    (found : run.device.ioDelays[index]? = some delay) :
    ∃ front rest serial later, run.device.ioDelays = front ++ delay :: rest ∧
      front.length = index ∧ ahead = serial :: later ∧
      List.Forall₂ (Waits run.calls (run.completed + 1)) passed front ∧
      Waits run.calls run.completed serial delay ∧
      List.Forall₂ (Waits run.calls run.completed) later rest := by
  obtain ⟨front, back, shape, walked, atFront, atBack⟩ := tracks.array
  rw [walking, Option.getD_some] at walked
  rw [shape, List.getElem?_append_right (Nat.le_of_eq walked), walked, Nat.sub_self] at found
  cases atBack with
  | nil => exact absurd found.symm (Option.some_ne_none _)
  | cons waits rest =>
    obtain rfl := Option.some.inj found
    exact ⟨_, _, _, _, shape, walked, rfl, atFront, waits, rest⟩

theorem set_at {front rest : List (DelayedIoInfo κ)} {delay : DelayedIoInfo κ} {index : Nat}
    (walked : front.length = index) (changed : DelayedIoInfo κ) :
    (front ++ delay :: rest).set index changed = front ++ changed :: rest := by
  rw [← walked, List.set_append_right _ _ (Nat.le_refl _), Nat.sub_self]
  rfl

/-- A delay that is due stays due while its callback runs. -/
theorem DelayRun.Tracks.count (tracks : run.Tracks passed ahead serials) {index : Nat}
    (walking : run.walking = some index) {delay : DelayedIoInfo κ}
    (found : run.device.ioDelays[index]? = some delay) (due : delay.counted.delayTicks ≤ 0) :
    (run.count index delay).Tracks passed ahead serials where
  array := by
    obtain ⟨front, rest, serial, later, shape, walked, rfl, atFront, waits, atRest⟩ :=
      tracks.split walking found
    refine ⟨front, delay.counted :: rest, ?_, ?_, atFront,
      .cons ?_ atRest⟩
    · change run.device.ioDelays.set index _ = _
      rw [shape, set_at walked]
    · change _ = run.walking.getD 0
      rw [walking]
      exact walked
    · obtain ⟨queued, placed, callback, parameter, level, clocked⟩ := waits
      refine ⟨queued, placed, callback, parameter, level, clocked.trans ?_⟩
      change delay.delayTicks - 1 ≤ 0 at due
      change (run.completed : Int) + max 1 delay.delayTicks =
        run.completed + max 1 (delay.delayTicks - 1)
      omega
  ordered := tracks.ordered
  begun := tracks.begun
  fired := tracks.fired
  sorted := tracks.sorted
  gone := tracks.gone
  all := tracks.all

/-- A delay with ticks left is passed. -/
theorem DelayRun.Tracks.pass (tracks : run.Tracks passed ahead serials) {index : Nat}
    (walking : run.walking = some index) {delay : DelayedIoInfo κ}
    (found : run.device.ioDelays[index]? = some delay) (waiting : ¬delay.counted.delayTicks ≤ 0) :
    ∃ serial later, ahead = serial :: later ∧
      { run.count index delay with walking := some (index + 1) }.Tracks (passed ++ [serial]) later
        serials := by
  obtain ⟨front, rest, serial, later, shape, walked, rfl, atFront, waits, atRest⟩ :=
    tracks.split walking found
  refine ⟨serial, later, rfl, ?_⟩
  exact {
    array := by
      refine ⟨front ++ [delay.counted], rest, ?_, ?_,
        List.rel_append atFront (.cons ?_ .nil), atRest⟩
      · change run.device.ioDelays.set index _ = _
        rw [shape, set_at walked, List.append_assoc]
        rfl
      · rw [List.length_append, walked]
        rfl
      · obtain ⟨queued, placed, callback, parameter, level, clocked⟩ := waits
        refine ⟨queued, placed, callback, parameter, level, clocked.trans ?_⟩
        change ¬delay.delayTicks - 1 ≤ 0 at waiting
        change (run.completed : Int) + max 1 delay.delayTicks =
          ((run.completed + 1 : Nat) : Int) + max 1 (delay.delayTicks - 1)
        omega
    ordered := by
      rw [List.append_assoc]
      exact tracks.ordered
    begun := tracks.begun
    fired := tracks.fired
    sorted := tracks.sorted
    gone := by
      intro gone member
      obtain ⟨queued, placed, due⟩ := tracks.gone gone member
      exact ⟨queued, placed, due.imp_right fun ⟨_, due, first⟩ =>
        ⟨rfl, due, fun other here => first other (List.mem_cons_of_mem _ here)⟩⟩
    all := by
      intro other inside
      have := tracks.all other inside
      simp only [List.mem_append, List.mem_cons, List.not_mem_nil, or_false] at this ⊢
      tauto }

@[simp] theorem generateInterrupt_zero (bits : BitVec 16) : generateInterrupt bits 0 = bits := rfl

/-- A due delay fires when the array stays where it is, or when no interrupt is asked for. -/
theorem DelayRun.Tracks.fire (tracks : run.Tracks passed ahead serials) {index : Nat}
    (walking : run.walking = some index) {delay : DelayedIoInfo κ}
    (found : run.device.ioDelays[index]? = some delay) (due : delay.delayTicks ≤ 0)
    {allocator : Allocator} {callbacks : Callbacks κ σ} {reaction : Reaction κ σ}
    (reacts : callbacks delay.callback delay.parameter run.device.interruptBits run.device.data =
      reaction)
    (short : ∀ call ∈ reaction.calls, call.Short)
    (granted : allocator.Grants reaction.triggered run.device reaction.calls.length) :
    ∃ serial later more, ahead = serial :: later ∧
      (run.fire allocator callbacks index delay).Tracks passed (later ++ more)
        (serials ++ [serial]) ∧
      run.calls <+: (run.fire allocator callbacks index delay).calls ∧
      (∀ serial ∈ more, run.calls.length ≤ serial) ∧
      (run.fire allocator callbacks index delay).walking = run.walking ∧
      (run.fire allocator callbacks index delay).completed = run.completed := by
  obtain ⟨more, called, queued⟩ := DelayRun.Tracks.queueAll short
    (@DelayRun.Tracks.device _ _ _ _ _ _ tracks { run.device with
      interruptBits := reaction.interruptBits
      data := reaction.data } rfl) granted
  rw [DelayRun.fire, reacts]
  dsimp only
  set last := reaction.calls.foldl (DelayRun.queue allocator) _ with lastIs
  have inside := (List.getElem?_eq_some_iff.mp found).1
  have still : last.device.ioDelays[index]? = some delay := by
    rw [queued.array, List.getElem?_append_left inside]
    exact found
  obtain ⟨front, rest, serial, later, shape, walked, split, atFront, waits, atRest⟩ :=
    called.split (queued.walking.trans walking) still
  cases ahead with
  | nil =>
    obtain ⟨front, back, shape, walked, _, atBack⟩ := tracks.array
    cases atBack
    rw [walking, Option.getD_some] at walked
    rw [shape, List.append_nil, walked] at inside
    exact absurd inside (Nat.lt_irrefl _)
  | cons first ahead =>
    obtain ⟨rfl, rfl⟩ := List.cons.inj split
    obtain ⟨call, placed, callback, parameter, level, clocked⟩ := waits
    have dueNow : call.due = last.completed + 1 := by
      have : max 1 delay.delayTicks = 1 := by omega
      rw [this] at clocked
      omega
    have tick : run.begun = call.due := by
      rw [dueNow, queued.completed, DelayRun.begun, walking]
      rfl
    refine ⟨first, ahead, more, rfl, ?_, queued.calls, queued.later, queued.walking,
      queued.completed⟩
    exact {
      array := by
        refine ⟨front, rest, ?_, walked.trans ?_, atFront, atRest⟩
        · change last.device.ioDelays.eraseIdx index = _
          rw [shape, ← walked, List.eraseIdx_append_of_length_le (Nat.le_refl _), Nat.sub_self]
          rfl
        · change index = last.walking.getD 0
          rw [queued.walking, walking]
          rfl
      ordered := by
        have ordered := called.ordered
        exact ordered.sublist (List.Sublist.append_left (List.sublist_cons_self _ _) _)
      begun := called.begun
      fired := by
        refine List.rel_append called.fired (.cons ⟨call, placed, ?_⟩ .nil)
        refine ⟨callback, parameter, tick, ?_⟩
        dsimp only
        rcases asked : reaction.triggered
        · rfl
        · have stayed : last.device.levelAt allocator run.device.block index =
              call.call.irqlevel := by
            rw [DelayDevice.levelAt, if_pos (queued.block asked), still, Option.map_some,
              Option.getD_some, level]
          rw [stayed]
          by_cases some_ : 0 < call.call.irqlevel.toNat
          · rw [if_pos ⟨rfl, some_⟩, if_pos rfl]
          · rw [if_neg fun both => some_ both.2, if_pos rfl, Nat.eq_zero_of_not_pos some_,
              generateInterrupt_zero]
      sorted := by
        refine List.pairwise_append.mpr ⟨called.sorted, List.pairwise_singleton _ _, ?_⟩
        intro serial member other here
        rw [List.mem_singleton.mp here]
        obtain ⟨gone, goneAt, order⟩ := called.gone serial member
        refine ⟨gone, call, goneAt, placed, ?_⟩
        rcases order with early | ⟨_, together, before⟩
        · exact .inl (by omega)
        · exact .inr ⟨together.trans dueNow.symm, before first List.mem_cons_self⟩
      gone := by
        intro serial member
        rcases List.mem_append.mp member with member | member
        · obtain ⟨gone, goneAt, order⟩ := called.gone serial member
          exact ⟨gone, goneAt, order.imp_right fun ⟨walks, together, before⟩ =>
            ⟨walks, together, fun waiting here => before waiting (List.mem_cons_of_mem _ here)⟩⟩
        · rw [List.mem_singleton.mp member]
          refine ⟨call, placed, .inr ⟨?_, dueNow, ?_⟩⟩
          · change last.walking.isSome = true
            rw [queued.walking, walking]
            rfl
          · exact (List.pairwise_cons.mp (List.pairwise_append.mp called.ordered).2.1).1
      all := by
        intro other inside
        have := called.all other inside
        simp only [List.mem_append, List.mem_cons, List.not_mem_nil, or_false,
          List.cons_append] at this ⊢
        tauto }

/-- A walk at the end of the array completes its tick. -/
theorem DelayRun.Tracks.finish (tracks : run.Tracks passed ahead serials) {index : Nat}
    (walking : run.walking = some index) (ended : run.device.ioDelays[index]? = none) :
    { run with walking := none, completed := run.completed + 1 }.Tracks [] passed serials := by
  obtain ⟨front, back, shape, walked, atFront, atBack⟩ := tracks.array
  rw [walking, Option.getD_some] at walked
  have empty : back = [] := by
    rw [List.getElem?_eq_none_iff, shape, List.length_append, walked] at ended
    exact List.length_eq_zero_iff.mp (by omega)
  subst empty
  cases atBack
  exact {
    array := ⟨[], front, shape.trans (List.append_nil front), rfl, .nil, atFront⟩
    ordered := by
      have ordered := tracks.ordered
      rw [List.append_nil] at ordered
      exact ordered
    begun := tracks.begun
    fired := tracks.fired
    sorted := tracks.sorted
    gone := by
      intro serial member
      obtain ⟨queued, placed, order⟩ := tracks.gone serial member
      refine ⟨queued, placed, .inl ?_⟩
      change queued.due ≤ run.completed + 1
      rcases order with early | ⟨_, together, _⟩
      · exact Nat.le_succ_of_le early
      · exact Nat.le_of_eq together
    all := by
      intro serial inside
      rcases tracks.all serial inside with member | member | member
      · exact .inr (.inl member)
      · exact absurd member List.not_mem_nil
      · exact .inr (.inr member) }

/-- A tick begins with every delay ahead. -/
theorem DelayRun.Tracks.tick (tracks : run.Tracks passed ahead serials)
    (idle : run.walking = none) : { run with walking := some 0 }.Tracks passed ahead serials where
  array := by
    obtain ⟨front, back, shape, walked, atFront, atBack⟩ := tracks.array
    rw [idle] at walked
    exact ⟨front, back, shape, walked, atFront, atBack⟩
  ordered := tracks.ordered
  begun := tracks.begun
  fired := tracks.fired
  sorted := tracks.sorted
  gone := by
    intro serial member
    obtain ⟨queued, placed, order⟩ := tracks.gone serial member
    refine ⟨queued, placed, order.imp_right fun ⟨walks, _⟩ => ?_⟩
    rw [idle] at walks
    exact Bool.noConfusion walks
  all := tracks.all

end Tracks

section Steady

variable {κ σ : Type} {allocator : Allocator} {callbacks : Callbacks κ σ}

/-- The calls are short and get their blocks, and a callback that asks for an interrupt leaves
the array in place. -/
def DelayRun.Steady (allocator : Allocator) (callbacks : Callbacks κ σ) (run : DelayRun κ σ) :
    DelayStep κ → Prop
  | .queue call => call.Short ∧ allocator.Grants false run.device 1
  | .tick => True
  | .walk => ∀ index ∈ run.walking, ∀ delay ∈ run.device.ioDelays[index]?,
      delay.delayTicks ≤ 1 →
        let reaction :=
          callbacks delay.callback delay.parameter run.device.interruptBits run.device.data
        (∀ call ∈ reaction.calls, call.Short) ∧
          allocator.Grants reaction.triggered run.device reaction.calls.length

instance (run : DelayRun κ σ) : ∀ step, Decidable (run.Steady allocator callbacks step)
  | .queue call => inferInstanceAs (Decidable (call.Short ∧ _))
  | .tick => inferInstanceAs (Decidable True)
  | .walk => inferInstanceAs (Decidable (∀ index ∈ run.walking, _))

def DelayRun.SteadySteps (allocator : Allocator) (callbacks : Callbacks κ σ)
    (run : DelayRun κ σ) : List (DelayStep κ) → Prop
  | [] => True
  | step :: rest => run.Steady allocator callbacks step ∧
      ∀ next ∈ run.step allocator callbacks step, next.SteadySteps allocator callbacks rest

instance decidableSteadySteps (run : DelayRun κ σ) :
    ∀ steps, Decidable (run.SteadySteps allocator callbacks steps)
  | [] => inferInstanceAs (Decidable True)
  | step :: rest =>
    haveI := fun next : DelayRun κ σ => decidableSteadySteps next rest
    inferInstanceAs (Decidable (run.Steady allocator callbacks step ∧ _))

variable {run : DelayRun κ σ} {passed ahead serials : List Nat}

/-- Each round deals with one delay, and new delays come last. -/
theorem DelayRun.Tracks.walk (tracks : run.Tracks passed ahead serials) {index : Nat}
    (walking : run.walking = some index) (steady : run.Steady allocator callbacks .walk)
    {delay : DelayedIoInfo κ} (found : run.device.ioDelays[index]? = some delay) :
    ∃ serial later more, ahead = serial :: later ∧
      (∃ before after, (run.walk allocator callbacks index).Tracks before (later ++ more) after) ∧
      run.calls <+: (run.walk allocator callbacks index).calls ∧
      (∀ serial ∈ more, run.calls.length ≤ serial) ∧
      (run.walk allocator callbacks index).walking.isSome ∧
      (run.walk allocator callbacks index).completed = run.completed := by
  rw [DelayRun.walk, found]
  dsimp only
  split_ifs with due
  · have ran : delay.delayTicks ≤ 1 := by
      change delay.delayTicks - 1 ≤ 0 at due
      omega
    obtain ⟨short, granted⟩ := steady index walking delay found ran
    have still : (run.count index delay).device.ioDelays[index]? = some delay.counted :=
      List.getElem?_set_self (List.getElem?_eq_some_iff.mp found).1
    obtain ⟨serial, later, more, split, fired, calls, newer, walks, completed⟩ :=
      (tracks.count walking found due).fire walking still due rfl short (by
        rw [Allocator.Grants] at granted ⊢
        change ∀ k < growths (run.device.ioDelays.set index _).length _ _, _
        rw [List.length_set]
        exact granted)
    refine ⟨serial, later, more, split, ⟨_, _, fired⟩, calls, newer, ?_, completed⟩
    rw [walks]
    exact Option.isSome_of_eq_some walking
  · obtain ⟨serial, later, split, passes⟩ := tracks.pass walking found due
    rw [← List.append_nil later] at passes
    exact ⟨serial, later, [], split, ⟨_, _, passes⟩, List.prefix_refl _,
      fun _ member => absurd member List.not_mem_nil, rfl, rfl⟩

theorem DelayRun.Tracks.step (tracks : run.Tracks passed ahead serials) {step : DelayStep κ}
    (steady : run.Steady allocator callbacks step) {next : DelayRun κ σ}
    (taken : run.step allocator callbacks step = some next) :
    ∃ before waiting after, next.Tracks before waiting after := by
  cases step with
  | queue call =>
    rw [DelayRun.step] at taken
    split_ifs at taken
    obtain rfl := Option.some.inj taken
    exact ⟨_, _, _, tracks.queue steady.2 steady.1⟩
  | tick =>
    rw [DelayRun.step] at taken
    split_ifs at taken with idle
    obtain rfl := Option.some.inj taken
    exact ⟨_, _, _, tracks.tick idle⟩
  | walk =>
    obtain ⟨index, walking, rfl⟩ := Option.map_eq_some_iff.mp taken
    rcases found : run.device.ioDelays[index]? with _ | delay
    · rw [DelayRun.walk, found]
      exact ⟨_, _, _, tracks.finish walking found⟩
    · obtain ⟨_, _, _, _, ⟨_, _, walked⟩, _⟩ := tracks.walk walking steady found
      exact ⟨_, _, _, walked⟩

theorem DelayRun.Tracks.steps (tracks : run.Tracks passed ahead serials)
    {steps : List (DelayStep κ)} (steady : run.SteadySteps allocator callbacks steps)
    {last : DelayRun κ σ} (taken : run.steps allocator callbacks steps = some last) :
    ∃ before waiting after, last.Tracks before waiting after := by
  induction steps generalizing run passed ahead serials with
  | nil =>
    obtain rfl := Option.some.inj taken
    exact ⟨_, _, _, tracks⟩
  | cons step rest ih =>
    obtain ⟨next, first, later⟩ := Option.bind_eq_some_iff.mp taken
    obtain ⟨_, _, _, tracked⟩ := tracks.step steady.1 first
    exact ih tracked (steady.2 next first) later

/-- So many rounds deal with every delay that is ahead. -/
theorem DelayRun.Tracks.rounds {front back : List Nat}
    (tracks : run.Tracks passed (front ++ back) serials) (walks : run.walking.isSome)
    (steady : run.SteadySteps allocator callbacks (List.replicate front.length .walk)) :
    ∃ last more before after,
      run.steps allocator callbacks (List.replicate front.length .walk) = some last ∧
      last.Tracks before (back ++ more) after ∧ run.calls <+: last.calls ∧
      (∀ serial ∈ more, run.calls.length ≤ serial) ∧ last.completed = run.completed := by
  induction front generalizing run passed back serials with
  | nil =>
    rw [List.nil_append, ← List.append_nil back] at tracks
    exact ⟨run, [], _, _, rfl, tracks, List.prefix_refl _,
      fun _ member => absurd member List.not_mem_nil, rfl⟩
  | cons first front ih =>
    obtain ⟨index, walking⟩ := Option.isSome_iff_exists.mp walks
    have found : ∃ delay, run.device.ioDelays[index]? = some delay := by
      obtain ⟨passedDelays, delays, shape, walked, _, atBack⟩ := tracks.array
      cases atBack with
      | cons _ _ =>
        rw [walking, Option.getD_some] at walked
        rw [shape, List.getElem?_append_right (Nat.le_of_eq walked), walked, Nat.sub_self]
        exact ⟨_, rfl⟩
    obtain ⟨delay, found⟩ := found
    obtain ⟨_, later, newer, split, ⟨_, _, walked⟩, calls, newest, still, completed⟩ :=
      tracks.walk walking steady.1 found
    rw [List.cons_append] at split
    obtain ⟨rfl, rfl⟩ := List.cons.inj split
    have taken : run.step allocator callbacks .walk =
        some (run.walk allocator callbacks index) := by
      rw [DelayRun.step, walking]
      rfl
    rw [List.append_assoc] at walked
    obtain ⟨last, more, _, _, rest, tracked, grown, latest, whole⟩ :=
      ih walked still (steady.2 _ taken)
    rw [List.append_assoc] at tracked
    refine ⟨last, newer ++ more, _, _, Option.bind_eq_some_iff.mpr ⟨_, taken, rest⟩, tracked,
      calls.trans grown, ?_, whole.trans completed⟩
    · intro serial member
      rcases List.mem_append.mp member with member | member
      · exact newest serial member
      · exact Nat.le_trans calls.length_le (latest serial member)

/-- Delays fire once, in the order in which they are due, and each with its own interrupt. The
rounds of a walk reach every delay that is due in its tick. -/
theorem delays_fire_once (allocator : Allocator) (callbacks : Callbacks κ σ)
    (interruptBits : BitVec 16) (data : σ) (steps : List (DelayStep κ)) (last : DelayRun κ σ)
    (steady : (DelayRun.start interruptBits data).SteadySteps allocator callbacks steps)
    (taken : (DelayRun.start interruptBits data).steps allocator callbacks steps = some last) :
    last.FiredBy last.calls last.completed ∧
      ∀ index, last.walking = some index →
        last.SteadySteps allocator callbacks
          (List.replicate (last.device.ioDelays.length - index) .walk) →
        ∃ later, last.steps allocator callbacks
            (List.replicate (last.device.ioDelays.length - index) .walk) = some later ∧
          later.FiredBy last.calls last.begun := by
  obtain ⟨passed, ahead, serials, tracks⟩ := (start_tracks interruptBits data).steps steady taken
  refine ⟨tracks.firedBy (List.prefix_refl _) (Nat.le_succ _) fun _ _ _ => Nat.le_refl _, ?_⟩
  intro index walking rounds
  have many : last.device.ioDelays.length - index = ahead.length := by
    obtain ⟨front, back, shape, walked, _, atBack⟩ := tracks.array
    rw [walking, Option.getD_some] at walked
    rw [shape, List.length_append, walked, Nat.add_sub_cancel_left, atBack.length_eq]
  rw [many] at rounds ⊢
  rw [← List.append_nil ahead] at tracks
  obtain ⟨later, more, _, _, taken, tracked, calls, newer, completed⟩ :=
    tracks.rounds (Option.isSome_of_eq_some walking) rounds
  refine ⟨later, taken, tracked.firedBy calls ?_ ?_⟩
  · rw [DelayRun.begun, walking, completed]
    exact Nat.le_refl _
  · intro serial member inside
    rw [List.nil_append] at member
    exact absurd inside (Nat.not_lt_of_le (newer serial member))

/-- One callback queues a delay of two ticks, and both ask for an interrupt. -/
def echo : Callbacks Bool Unit := fun again _ bits data =>
  ⟨if again then [⟨2, false, 7, 11⟩] else [], bits, data, true⟩

/-- A larger block never lies where the old one did, and the old one is cleared. -/
def movingAllocator : Allocator := ⟨fun _ => .moved, fun _ => 0⟩

def echoSteps : List (DelayStep Bool) :=
  [.queue ⟨1, true, 5, 12⟩, .queue ⟨0, false, 6, 13⟩, .tick, .walk, .walk, .walk, .walk, .tick,
    .walk]

theorem delays_fire_once_echo :
    ∃ last, (DelayRun.start 0 ()).steps movingAllocator echo echoSteps = some last ∧
      last.fired.map Firing.parameter = [5, 6, 7] ∧ last.FiredBy last.calls last.completed :=
  ⟨_, rfl, by decide, (delays_fire_once movingAllocator echo 0 () echoSteps _ (by decide) rfl).1⟩

/-- The array is full when the first callback queues its delay. -/
def fullSteps : List (DelayStep Bool) :=
  .queue ⟨1, true, 5, 12⟩ ::
    (List.replicate 15 (.queue ⟨2, false, 6, 12⟩) ++ [.tick, .walk])

/-- The level of a delay is lost with the block that it lay in. -/
theorem delays_fire_once_fails :
    ∃ last, (DelayRun.start 0 ()).steps movingAllocator echo fullSteps = some last ∧
      (∀ queued ∈ last.calls, queued.call.Short) ∧
      (∀ answer, movingAllocator.realloc answer ≠ .failed) ∧
      ¬last.FiredBy last.calls last.completed := by
  refine ⟨_, rfl, by decide, fun _ => Realloc.noConfusion, ?_⟩
  rintro ⟨serials, fires, _⟩
  cases fires with
  | cons head _ =>
    obtain ⟨queued, placed, fired, _⟩ := head
    have levels : queued.call.irqlevel = 12 ∨ queued.call.irqlevel = 11 := by
      have all : ∀ queued ∈ ((DelayRun.start 0 ()).steps movingAllocator echo fullSteps).elim []
          DelayRun.calls, queued.call.irqlevel = 12 ∨ queued.call.irqlevel = 11 := by decide
      exact all queued (List.mem_of_getElem? placed)
    have bits := fired.bits
    rcases levels with level | level
    · rw [level] at bits
      exact absurd bits (by decide)
    · rw [level] at bits
      exact absurd bits (by decide)

end Steady

end Nd100x.Devices
