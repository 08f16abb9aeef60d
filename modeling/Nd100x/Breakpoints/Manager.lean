import Nd100x.Machine.State

namespace Nd100x.Breakpoints

inductive BreakpointType where
  | none
  | user
  | temporary
  | function
  | data
  | instruction
  deriving DecidableEq, Repr

inductive StopReason where
  | step
  | breakpoint
  | functionBreakpoint
  | dataBreakpoint
  | instructionBreakpoint
  deriving DecidableEq, Repr

abbrev Text := List Char

/-- The serial number stands for the allocation of the entry. -/
structure BreakpointEntry where
  serial : Nat
  address : Word
  type : BreakpointType
  condition : Option Text
  hitCondition : Option Text
  logMessage : Option Text
  hitCount : Nat
  deriving DecidableEq

def hashSize : Nat := 256

def hashAddress (address : Word) : Nat := address.toNat % hashSize

/-- The manager has a list of entries for each hash, the newest first, and the gates for the check
at every instruction: a bit for each address, the number of entries and the pending step. -/
structure BreakpointManager where
  buckets : Nat → List BreakpointEntry
  stepCount : Nat
  lastHit : Option Word
  stepPending : Bool
  bitmap : Word → Bool
  entryCount : Nat
  /-- This is the serial number of the next entry. -/
  allocated : Nat

/-- The stop reason is set together with the run mode. -/
structure Hit where
  stopReason : Option StopReason
  returned : Nat
  deriving DecidableEq

section Numbers

/-- The digits end at the first other letter. -/
def digitsValue (value : Nat) : Text → Nat
  | [] => value
  | digit :: rest =>
    if '0' ≤ digit ∧ digit ≤ '9' then digitsValue (10 * value + (digit.toNat - 48)) rest
    else value

def isSpace (letter : Char) : Bool :=
  letter = ' ' ∨ 9 ≤ letter.toNat ∧ letter.toNat ≤ 13

/-- White space and a sign may come before the digits. A number that does not fit a long is taken
as the nearest one that does. -/
def strtol (text : Text) : Int :=
  let value : Int :=
    match text.dropWhile isSpace with
    | '-' :: digits => - (digitsValue 0 digits : Int)
    | '+' :: digits => digitsValue 0 digits
    | digits => digitsValue 0 digits
  max (-0x8000000000000000) (min 0x7FFFFFFFFFFFFFFF value)

/-- The long is cut to an int. -/
def hitValue (text : Text) : Int := (strtol text).bmod 0x100000000

end Numbers

namespace BreakpointType

def code : BreakpointType → Nat
  | none => 0
  | user => 1
  | temporary => 2
  | function => 3
  | data => 4
  | instruction => 5

def stopReasonFromBreakpoint : BreakpointType → StopReason
  | function => .functionBreakpoint
  | data => .dataBreakpoint
  | instruction => .instructionBreakpoint
  | _ => .breakpoint

end BreakpointType

namespace BreakpointManager

def init : BreakpointManager where
  buckets := fun _ => []
  stepCount := 0
  lastHit := Option.none
  stepPending := false
  bitmap := fun _ => false
  entryCount := 0
  allocated := 0

def live (m : BreakpointManager) : List BreakpointEntry :=
  (List.range hashSize).flatMap m.buckets

/-- The gates are made again from the entries. -/
def bitmapRebuild (m : BreakpointManager) : BreakpointManager :=
  { m with
    bitmap := fun address => m.live.any fun entry => entry.address = address
    entryCount := m.live.length }

def stepOne (m : BreakpointManager) : BreakpointManager :=
  { m with stepCount := 1, stepPending := true }

/-- A second temporary breakpoint at one address is not added. -/
def add (m : BreakpointManager) (address : Word) (type : BreakpointType)
    (condition hitCondition logMessage : Option Text) : BreakpointManager :=
  let bucket := m.buckets (hashAddress address)
  if type = .temporary ∧
      bucket.any fun entry => entry.address = address ∧ entry.type = .temporary then
    m
  else
    let entry : BreakpointEntry :=
      { serial := m.allocated
        address := address
        type := type
        condition := condition
        hitCondition := hitCondition
        logMessage := logMessage
        hitCount := 0 }
    { m with
      buckets := Function.update m.buckets (hashAddress address) (entry :: bucket)
      bitmap := Function.update m.bitmap address true
      entryCount := m.entryCount + 1
      allocated := m.allocated + 1 }

/-- The type `none` stands for the value -1, which removes all types. -/
def remove (m : BreakpointManager) (address : Word) (type : Option BreakpointType) :
    BreakpointManager :=
  let kept := (m.buckets (hashAddress address)).filter fun entry =>
    ¬ (entry.address = address ∧ (type = Option.none ∨ some entry.type = type))
  { m with buckets := Function.update m.buckets (hashAddress address) kept }.bitmapRebuild

def clear (m : BreakpointManager) : BreakpointManager :=
  { m with buckets := fun _ => [], bitmap := fun _ => false, entryCount := 0 }

def clearType (m : BreakpointManager) (type : BreakpointType) : BreakpointManager :=
  { m with
    buckets := fun hash => (m.buckets hash).filter fun entry => entry.type ≠ type }.bitmapRebuild

/-- Both lists have ten places, and a full list ends the search. -/
def collect (address : Word) : List BreakpointEntry → List BreakpointEntry →
    List BreakpointEntry → List BreakpointEntry × List BreakpointEntry
  | [], temps, users => (temps, users)
  | entry :: rest, temps, users =>
    if entry.address = address then
      if entry.type = .temporary then
        if 10 ≤ (temps ++ [entry]).length then (temps ++ [entry], users)
        else collect address rest (temps ++ [entry]) users
      else if 10 ≤ (users ++ [entry]).length then (temps, users ++ [entry])
      else collect address rest temps (users ++ [entry])
    else collect address rest temps users

/-- A temporary breakpoint hides the others. -/
def check (m : BreakpointManager) (address : Word) : List BreakpointEntry :=
  let (temps, users) := collect address (m.buckets (hashAddress address)) [] []
  if 0 < temps.length then temps else users

/-- A condition with an error is not met. -/
def conditionOk (evaluate : Text → Option Bool) (bp : BreakpointEntry) : Bool :=
  match bp.condition with
  | Option.none => true
  | some condition => (evaluate condition).getD false

def hitOk (bp : BreakpointEntry) : Bool :=
  match bp.hitCondition with
  | Option.none => true
  | some hitCondition => (bp.hitCount : Int) = hitValue hitCondition

def visit (pc : Word) (evaluate : Text → Option Bool) (state : BreakpointManager × Hit)
    (bp : BreakpointEntry) : BreakpointManager × Hit :=
  if conditionOk evaluate bp ∧ hitOk bp then
    let state :=
      if bp.logMessage.isSome then state
      else
        let reason :=
          if bp.type = .temporary then StopReason.step else bp.type.stopReasonFromBreakpoint
        ({ state.1 with lastHit := some pc }, ⟨some reason, bp.type.code⟩)
    if bp.type = .temporary then (state.1.remove bp.address (some .temporary), state.2) else state
  else state

/-- A single step stops before the breakpoints are looked at. -/
def checkHit (m : BreakpointManager) (pc : Word) (evaluate : Text → Option Bool) :
    BreakpointManager × Hit :=
  if m.stepCount = 1 then
    ({ m with stepCount := 0, stepPending := false }, ⟨some .step, 1⟩)
  else
    let m := { m with stepCount := m.stepCount - 1 }
    (m.check pc).foldl (visit pc evaluate) (m, ⟨Option.none, 0⟩)

end BreakpointManager

end Nd100x.Breakpoints
