import Nd100x.Library.IntervalTable
import Nd100x.Machine.Reset

namespace Nd100x

/-- An entry of the bank table. A missing pointer is `NULL`. -/
structure MemoryBank (Pointer : Type) where
  startWord : BitVec 32
  lengthWord : BitVec 32
  type : NdMemoryType
  read : Option Pointer
  write : Option Pointer
  ctx : Option Pointer
  exchange : Option Pointer
  deriving DecidableEq

/-- The number of slots. -/
def ndMemoryBankMax : Nat := 16

namespace MemoryBank

variable {Pointer : Type}

/-- The end is computed in 32 bits. -/
def endWord (bank : MemoryBank Pointer) : BitVec 32 := bank.startWord + bank.lengthWord

def overlaps (startWord endWord : BitVec 32) (bank : MemoryBank Pointer) : Bool :=
  startWord < bank.endWord ∧ bank.startWord < endWord

/-- Without accessors the words are in `g_volatile_memory`. -/
def plain (bank : MemoryBank Pointer) : Bool :=
  bank.type = .localRam ∧ bank.read.isNone ∧ bank.write.isNone

/-- The processor sees which of the accessors are not null. -/
def forget (bank : MemoryBank Pointer) : NdMemoryBank where
  startWord := bank.startWord.toNat
  lengthWord := bank.lengthWord.toNat
  type := bank.type
  read := bank.read.isSome
  write := bank.write.isSome
  exchange := bank.exchange.isSome

end MemoryBank

/-- The slots behind the count are zero, so the list of the used slots is the whole table. -/
abbrev BankTable (Pointer : Type) := List (MemoryBank Pointer)

/-- The arguments of a registration. -/
structure BankRequest (Pointer : Type) where
  startWord : BitVec 32
  lengthWord : BitVec 32
  type : NdMemoryType
  read : Option Pointer
  write : Option Pointer
  ctx : Option Pointer

namespace BankRequest

variable {Pointer : Type}

def endWord (request : BankRequest Pointer) : BitVec 32 := request.startWord + request.lengthWord

/-- A new entry has no exchange. -/
def entry (request : BankRequest Pointer) : MemoryBank Pointer where
  startWord := request.startWord
  lengthWord := request.lengthWord
  type := request.type
  read := request.read
  write := request.write
  ctx := request.ctx
  exchange := none

/-- Local memory has no accessors. -/
def bare (startWord lengthWord : BitVec 32) (type : NdMemoryType) : BankRequest Pointer :=
  ⟨startWord, lengthWord, type, none, none, none⟩

end BankRequest

namespace BankTable

variable {Pointer : Type}

def registerBacked (request : BankRequest Pointer) (table : BankTable Pointer) :
    Bool × BankTable Pointer :=
  if request.lengthWord = 0 then (false, table)
  else if ndMemoryBankMax ≤ table.length then (false, table)
  else if request.endWord < request.startWord then (false, table)
  else if table.any (MemoryBank.overlaps request.startWord request.endWord) then (false, table)
  else (true, table ++ [request.entry])

def register (startWord lengthWord : BitVec 32) (type : NdMemoryType) (table : BankTable Pointer) :
    Bool × BankTable Pointer :=
  table.registerBacked (.bare startWord lengthWord type)

def init (ndMemsize : BitVec 32) : BankTable Pointer :=
  if 0 < ndMemsize then (register 0 ndMemsize .localRam []).2 else []

/-- The first entry that starts there gets the exchange. -/
def setExchange (startWord : BitVec 32) (exchange : Option Pointer) (table : BankTable Pointer) :
    Bool × BankTable Pointer :=
  match table.findIdx? fun bank => bank.startWord = startWord with
  | some i => (true, table.modify i fun bank => { bank with exchange := exchange })
  | none => (false, table)

/-- The later entries move down. -/
def unregister (startWord : BitVec 32) (table : BankTable Pointer) : Bool × BankTable Pointer :=
  match table.findIdx? fun bank => bank.startWord = startWord with
  | some i => (true, table.eraseIdx i)
  | none => (false, table)

/-- The scan ends with the slot of the one plain bank that holds the range, or with no slot where
the range is free, and it refuses every other overlap. -/
def overLocalHit (startWord endWord : BitVec 32) :
    BankTable Pointer → Nat → Option Nat → Option (Option Nat)
  | [], _, hit => some hit
  | bank :: rest, i, hit =>
    if bank.overlaps startWord endWord then
      if hit.isSome ∨ !bank.plain ∨ startWord < bank.startWord ∨ bank.endWord < endWord then none
      else overLocalHit startWord endWord rest (i + 1) (some i)
    else overLocalHit startWord endWord rest (i + 1) hit

/-- The low part of the local bank keeps its slot, and the high part comes last. -/
def splitLocal (request : BankRequest Pointer) (hit : Nat) (bank : MemoryBank Pointer)
    (table : BankTable Pointer) : Bool × BankTable Pointer :=
  let ls := bank.startWord
  let le := bank.endWord
  let extra : Int := 1 + (if request.endWord < le then 1 else 0) - (if request.startWord = ls then 1 else 0)
  if (ndMemoryBankMax : Int) < table.length + extra then (false, table)
  else
    let lowered :=
      if ls < request.startWord then
        table.modify hit fun bank => { bank with lengthWord := request.startWord - ls }
      else table.eraseIdx hit
    let high : BankRequest Pointer := .bare request.endWord (le - request.endWord) .localRam
    (true, lowered ++ [request.entry] ++ if request.endWord < le then [high.entry] else [])

/-- The registration after the scan. -/
def registerAt (request : BankRequest Pointer) (table : BankTable Pointer) :
    Option (Option Nat) → Bool × BankTable Pointer
  | none => (false, table)
  | some none => table.registerBacked request
  | some (some hit) => table[hit]?.elim (false, table) fun bank => table.splitLocal request hit bank

def registerOverLocal (request : BankRequest Pointer) (table : BankTable Pointer) :
    Bool × BankTable Pointer :=
  if request.lengthWord = 0 ∨ request.endWord < request.startWord then (false, table)
  else table.registerAt request (overLocalHit request.startWord request.endWord table 0 none)

/-- The part of the words below the installed size becomes local memory. -/
def giveBack (ndMemsize startWord lengthWord : BitVec 32) (table : BankTable Pointer) :
    BankTable Pointer :=
  if startWord < ndMemsize then
    let sum := startWord + lengthWord
    let endWord := if ndMemsize < sum then ndMemsize else sum
    (table.register startWord (endWord - startWord) .localRam).2
  else table

def unregisterOverLocal (ndMemsize startWord : BitVec 32) (table : BankTable Pointer) :
    Bool × BankTable Pointer :=
  let lengthWord := ((table.find? fun bank => bank.startWord = startWord).map (·.lengthWord)).getD 0
  let removed := table.unregister startWord
  if removed.1 then (true, giveBack ndMemsize startWord lengthWord removed.2) else removed

def lookup (address : BitVec 32) (table : BankTable Pointer) : Option (MemoryBank Pointer) :=
  table.find? fun bank => bank.startWord ≤ address ∧ address < bank.endWord

end BankTable

/-- The calls that change the table. -/
inductive BankCall (Pointer : Type) where
  | register (startWord lengthWord : BitVec 32) (type : NdMemoryType)
  | registerBacked (request : BankRequest Pointer)
  | registerOverLocal (request : BankRequest Pointer)
  | unregister (startWord : BitVec 32)
  | unregisterOverLocal (startWord : BitVec 32)
  | setExchange (startWord : BitVec 32) (exchange : Option Pointer)

namespace BankCall

variable {Pointer : Type} (ndMemsize : BitVec 32)

def run : BankCall Pointer → BankTable Pointer → Bool × BankTable Pointer
  | .register startWord lengthWord type, table => table.register startWord lengthWord type
  | .registerBacked request, table => table.registerBacked request
  | .registerOverLocal request, table => table.registerOverLocal request
  | .unregister startWord, table => table.unregister startWord
  | .unregisterOverLocal startWord, table => table.unregisterOverLocal ndMemsize startWord
  | .setExchange startWord exchange, table => table.setExchange startWord exchange

end BankCall

section Runs

variable {Pointer : Type} (ndMemsize : BitVec 32)

/-- The table after some calls. -/
def runBankCalls (calls : List (BankCall Pointer)) (table : BankTable Pointer) : BankTable Pointer :=
  calls.foldl (fun table call => (call.run ndMemsize table).2) table

/-- What the calls answer. -/
def bankAnswers : List (BankCall Pointer) → BankTable Pointer → List Bool
  | [], _ => []
  | call :: rest, table => (call.run ndMemsize table).1 :: bankAnswers rest (call.run ndMemsize table).2

end Runs

end Nd100x
