import Nd100x.Machine.Instr

namespace Nd100x

variable {World : Type}

/-- The watchpoints of the debugger look at the machine, the address, the value and the kind of the
access. The host stack bounds how deep one may trigger inside another. -/
structure Watch (World : Type) where
  debuggerEnabled : Bool
  virtual : CpuState World → Word → Word → Bool → Bool → Bool
  physical : CpuState World → Nat → Bool → Bool
  stackDepth : Nat

/-- The words around the frame pointer that are shown when a watchpoint stops the machine. -/
def frameOffsets : List Word := [0xFFFE, 0xFFFF, 0, 1, 2, 3, 4]

section Watched

variable (config : Config World) (watch : Watch World)

/-- With a debugger the machine only stops. The frame is read like data, and such a read may
trigger again. -/
def cpuWatchpointTriggered : (depth : Nat) → Cpu World Unit
  | 0 => throw .hang
  | depth + 1 => do
      modify fun s => s.putRunMode .breakpoint
      if !watch.debuggerEnabled then
        frameOffsets.forM fun offset => do
          let s ← get
          let address := s.getReg RegNum.b + offset
          match ← mmsMapVirtualToPhysical config.mmsType address .read true with
          | none => return ()
          | some physicalAddress => do
              if watch.physical (← get) physicalAddress false then cpuWatchpointTriggered depth
              let _ ← mmsReadPhysicalMemory config physicalAddress false
              return ()
        modify fun s => s.putRunMode .shutdown

def checkWatch (triggers : CpuState World → Bool) : Cpu World Unit := do
  if triggers (← get) then cpuWatchpointTriggered config watch watch.stackDepth

def readPhysical (physicalAddress : Nat) (privileged : Bool) : Cpu World Word := do
  checkWatch config watch fun s => watch.physical s physicalAddress false
  mmsReadPhysicalMemory config physicalAddress privileged

def cpuMemoryRead (address : Word) (useApt : Bool) : Cpu World Word := do
  checkWatch config watch fun s => watch.virtual s address 0 false useApt
  match ← mmsMapVirtualToPhysical config.mmsType address .read useApt with
  | none => return 0
  | some physicalAddress => readPhysical config watch physicalAddress false

/-- The word that a write reaches, found before anything is stored. -/
def locate (address value : Word) (useApt : Bool) : Cpu World (Option Nat) := do
  checkWatch config watch fun s => watch.virtual s address value true useApt
  match ← mmsMapVirtualToPhysical config.mmsType address .write useApt with
  | none => return none
  | some physicalAddress => do
      checkWatch config watch fun s => watch.physical s physicalAddress true
      return some physicalAddress

def cpuMemoryWrite (address value : Word) (useApt : Bool) (mode : WriteMode) :
    Cpu World Unit := do
  match ← locate config watch address value useApt with
  | none => return ()
  | some physicalAddress => mmsWritePhysicalMemoryWm config physicalAddress value false mode

def writePhysical (physicalAddress : Nat) (value : Word) : Cpu World Unit := do
  checkWatch config watch fun s => watch.physical s physicalAddress true
  mmsWritePhysicalMemoryWm config physicalAddress value true .word

/-- An operation of an instruction in a machine with watchpoints. -/
def watchedStep : (op : DataOp) → Cpu World op.Answer
  | .memRead address useApt => cpuMemoryRead config watch address useApt
  | .memWrite address value useApt mode => cpuMemoryWrite config watch address value useApt mode
  | .physRead address => readPhysical config watch address true
  | .physWrite address value => writePhysical config watch address value
  | op => dataStep config op

end Watched

namespace Instr

/-- The word that an exchange returned replaces the one that was read. -/
def takeOld : Instr Unit := do
  match ← tsetTakeOld with
  | some old => setReg GenReg.a old
  | none => return ()

/-- The read and the write of a test-and-set. -/
def testAndSet (read : Instr Word) (write : Instr Unit) : Instr Unit := do
  tsetLockBegin
  setReg GenReg.a (← read)
  write
  takeOld
  tsetLockEnd

def doTset : Instr Unit :=
  testAndSet (do memRead (← getReg RegNum.t) true)
    (do memWrite (← getReg RegNum.t) 0xFFFF true .word)

/-- The bank is the low byte of T, and X is the word in it. -/
def opcodeTsetp : Instr Unit := do
  if !(← checkPriv) then
    return ()
  let bank := ((← getReg RegNum.t) &&& 0xFF).toNat
  let offset := (← getReg RegNum.x).toNat
  let physAddr := (bank <<< 16) ||| offset
  testAndSet (physRead physAddr) (physWrite physAddr 0xFFFF)

end Instr

/- The shared memory with the other processors. -/

/-- The processor that holds the memory lock or that accessed a word. -/
inductive Owner where
  | nd100
  | other (cpu : Nat)
  deriving DecidableEq, Repr

/-- A test-and-set stores -1 and reports the word that it saw. -/
inductive WordEvent where
  | exchange (owner : Owner) (seen : Word)
  | store (owner : Owner) (value : Word)
  deriving DecidableEq, Repr

/-- How far the running instruction is. A test-and-set has stored to a word, which held what it
shows, or has not stored yet. -/
inductive TsetProgress where
  | ordinary
  | testing
  | stored (word : Nat) (seen : Word)
  deriving DecidableEq, Repr

structure Tester (World : Type) where
  cpu : CpuState World
  progress : TsetProgress

/-- The fabric installs its lock together with its bank. -/
def attached (config : Config World) : Config World := { config with tsetLock := true }

/-- A word of a bank that has an exchange function. -/
def CpuState.sharedWord (s : CpuState World) (mmsType : MmsType) (physicalAddress : Nat)
    (privileged : Bool) : Option Nat :=
  if s.mmsIsAddressShadowMemory mmsType physicalAddress privileged then none
  else if (mmsMemoryBankLookup s.banks physicalAddress).any fun bank =>
      bank.write && bank.exchange then
    some physicalAddress
  else none

section Testing

variable (config : Config World) (watch : Watch World)

/-- The shared word in which an operation stores -1. -/
def setsWord (s : CpuState World) : DataOp → Option Nat
  | .memWrite address value useApt .word =>
    if value = 0xFFFF then
      match locate config watch address value useApt s with
      | .ok (some physicalAddress) t => t.sharedWord config.mmsType physicalAddress false
      | _ => none
    else none
  | .physWrite physicalAddress value =>
    if value = 0xFFFF then
      match checkWatch config watch (fun s => watch.physical s physicalAddress true) s with
      | .ok () t => t.sharedWord config.mmsType physicalAddress true
      | _ => none
    else none
  | _ => none

namespace Tester

/-- The store of a test-and-set in a shared word. -/
def tests (m : Tester World) (op : DataOp) : Option Nat :=
  if m.progress = .testing then setsWord config watch m.cpu op else none

def progressAfter (m : Tester World) (op : DataOp) : TsetProgress :=
  match m.tests config watch op with
  | some word => .stored word (m.cpu.window word)
  | none => m.progress

def perform (op : DataOp) (m : Tester World) : EStateM.Result Stop (Tester World) op.Answer :=
  match watchedStep config watch op m.cpu with
  | .ok answer t => .ok answer ⟨t, m.progressAfter config watch op⟩
  | .error stop t => .error stop ⟨t, m.progress⟩

/-- What an operation does to a word. Another store is seen by what it changes. -/
def accesses (m : Tester World) (op : DataOp) (t : CpuState World) (word : Nat) :
    List WordEvent :=
  if m.tests config watch op = some word then [.exchange .nd100 (m.cpu.window word)]
  else if t.window word = m.cpu.window word then []
  else [.store .nd100 (t.window word)]

end Tester

/-- The operations of the other instructions. They jump only with an interrupt. -/
def DataOp.Untested : DataOp → Prop
  | .tsetLockBegin | .tsetTakeOld | .tsetLockEnd => False
  | .stop reason => reason ≠ .longjmp
  | _ => True

/-- The ND-100 amid its instruction, the memory lock, and the accesses to each word. -/
structure SharedBus (World : Type) where
  tester : Tester World
  instr : Instr Unit
  lock : Option Owner
  log : Nat → List WordEvent

/-- The other processors exchange under the lock and store without it. -/
inductive BusEvent where
  | tset
  | tsetp
  | ordinary (instr : Instr Unit) (untested : instr.All DataOp.Untested)
  | nd100
  | takeLock (cpu : Nat)
  | giveLock (cpu : Nat)
  | exchange (cpu word : Nat)
  | store (cpu word : Nat) (value : Word)

namespace SharedBus

def start (s : CpuState World) : SharedBus World := ⟨⟨s, .ordinary⟩, .pure (), none, fun _ => []⟩

/-- Only one instruction runs at a time. -/
def issue (b : SharedBus World) (progress : TsetProgress) (instr : Instr Unit) : SharedBus World :=
  match b.instr with
  | .pure () => { b with tester := { b.tester with progress := progress }, instr := instr }
  | .step _ _ => b

/-- The lock of a test-and-set waits for the other processors. -/
def blocked (b : SharedBus World) : DataOp → Bool
  | .tsetLockBegin => !b.tester.cpu.tset.held && b.lock.isSome
  | _ => false

/-- The lock functions are called exactly when the flag changes. -/
def lockAfter (b : SharedBus World) (t : CpuState World) : Option Owner :=
  if t.tset.held then some .nd100 else if b.lock = some .nd100 then none else b.lock

def after (b : SharedBus World) (op : DataOp) (t : Tester World) (rest : Instr Unit) :
    SharedBus World :=
  ⟨t, rest, b.lockAfter t.cpu, fun word =>
    b.log word ++ b.tester.accesses config watch op t.cpu word⟩

/-- A jump out of an instruction ends it. Nothing follows the other stops. -/
def advance (b : SharedBus World) : SharedBus World :=
  match b.instr with
  | .pure () => b
  | .step op next =>
    if b.blocked op then b
    else
      match b.tester.perform config watch op with
      | .ok answer t => b.after config watch op t (next answer)
      | .error .longjmp t => b.after config watch op t (.pure ())
      | .error _ _ => b

/-- Another processor stores to a word of the shared memory. -/
def storeOther (b : SharedBus World) (word : Nat) (value : Word) (event : WordEvent) :
    SharedBus World :=
  { b with
    tester := { b.tester with
      cpu := b.tester.cpu.putWindow (Function.update b.tester.cpu.window word value) }
    log := Function.update b.log word (b.log word ++ [event]) }

def step (b : SharedBus World) : BusEvent → SharedBus World
  | .tset => b.issue .testing Instr.doTset
  | .tsetp => b.issue .testing Instr.opcodeTsetp
  | .ordinary instr _ => b.issue .ordinary instr
  | .nd100 => b.advance (attached config) watch
  | .takeLock cpu => if b.lock = none then { b with lock := some (.other cpu) } else b
  | .giveLock cpu => if b.lock = some (.other cpu) then { b with lock := none } else b
  | .exchange cpu word =>
    if b.lock = some (.other cpu) then
      b.storeOther word 0xFFFF (.exchange (.other cpu) (b.tester.cpu.window word))
    else b
  | .store cpu word value => b.storeOther word value (.store (.other cpu) value)

end SharedBus

end Testing

end Nd100x
