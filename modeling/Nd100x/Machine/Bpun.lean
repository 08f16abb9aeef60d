import Nd100x.Library.ByteImage
import Nd100x.Machine.Reset
import Nd100x.Machine.Physical

namespace Nd100x

open Nd100x.Library (joinHalves)

section Header

structure BpunHeader where
  address : Word
  count : Word
  checksum : Word
  action : Word
  calculatedChecksum : Word
  start : Word
  boot : Word
  isFloMon : Bool
  deriving DecidableEq, Repr

inductive LoadState where
  | preamble
  | address
  | count
  | data
  | checksum
  | action
  | floMonCount
  | floMonLoad
  deriving DecidableEq, Repr

structure BpunLoader where
  header : BpunHeader
  loadState : LoadState
  tmpString : List (BitVec 8)
  loadAddress : Word
  lastValue : Word
  dataCounter : Word
  dataLoadAddress : Word

end Header

section Numbers

/-- The digits are octal, and a number that is too large becomes the largest one. -/
def strtolOctal (text : List (BitVec 8)) : Nat :=
  min ((text.takeWhile (· < 0x38)).foldl (fun value digit => value * 8 + (digit.toNat - 0x30)) 0)
    (2 ^ 63 - 1)

/-- The low 32 bits are an integer, and a negative one is not used. -/
def octalNumber (text : List (BitVec 8)) : Option Word :=
  let low := strtolOctal text % 2 ^ 32
  if low < 2 ^ 31 then some (BitVec.ofNat 16 low) else none

/-- A character has seven bits. -/
def asciiOf (byte : BitVec 8) : BitVec 8 := byte &&& 0x7F

end Numbers

namespace BpunLoader

def initial : BpunLoader where
  header := ⟨0, 0, 0, 0, 0, 0, 0, false⟩
  loadState := .preamble
  tmpString := []
  loadAddress := 0
  lastValue := 0
  dataCounter := 0
  dataLoadAddress := 0

/-- The digits before a control character, when there are any. -/
def number (loader : BpunLoader) : Option Word :=
  if loader.tmpString = [] then none else octalNumber loader.tmpString

/-- An exclamation mark ends the preamble. -/
def mark (loader : BpunLoader) : BpunLoader :=
  let loadAddress := loader.number.getD loader.loadAddress
  { loader with
    loadAddress := loadAddress
    header := { loader.header with
      boot := if loadAddress = loader.header.start then loader.lastValue else loadAddress }
    loadState := .address
    tmpString := [] }

/-- A number before a slash is the start address. -/
def slash (loader : BpunLoader) : BpunLoader :=
  match loader.number with
  | none => { loader with tmpString := [] }
  | some value =>
    { loader with
      lastValue := value
      header := { loader.header with start := value }
      loadAddress := if loader.loadAddress = 0 then value else loader.loadAddress
      tmpString := [] }

def preambleByte (loader : BpunLoader) (byte : BitVec 8) : BpunLoader :=
  let c := asciiOf byte
  if c = 0x21 then loader.mark
  else if c = 0x2F then loader.slash
  else if 0x30 ≤ c ∧ c ≤ 0x39 then
    if loader.tmpString.length < 50 then { loader with tmpString := loader.tmpString ++ [c] }
    else loader
  else if c = 0x0D then
    { loader with
      lastValue := loader.number.getD loader.lastValue
      tmpString := [] }
  else loader

def takeAddress (loader : BpunLoader) (high low : BitVec 8) : BpunLoader :=
  { loader with
    header := { loader.header with address := joinHalves high low }
    loadState := .count
    dataLoadAddress := joinHalves high low }

/-- The count is in words, and bytes are read. -/
def takeCount (loader : BpunLoader) (high low : BitVec 8) : BpunLoader :=
  { loader with
    header := { loader.header with count := joinHalves high low }
    dataCounter := joinHalves high low * 2
    loadState := .data }

/-- A word was stored. -/
def stored (loader : BpunLoader) (word dataCounter : Word) : BpunLoader :=
  { loader with
    header := { loader.header with
      calculatedChecksum := loader.header.calculatedChecksum + word }
    dataLoadAddress := loader.dataLoadAddress + 1
    dataCounter := dataCounter
    loadState := if dataCounter = 0 then .checksum else .data }

/-- An empty program of the floppy monitor follows. -/
def takeChecksum (loader : BpunLoader) (high low : BitVec 8) : BpunLoader :=
  let header := { loader.header with checksum := joinHalves high low }
  { loader with
    header := header
    loadState :=
      if header.address = 0 ∧ header.count = 0 ∧ header.checksum = 0 then .floMonCount
      else .action }

def takeAction (loader : BpunLoader) (high low : BitVec 8) : BpunHeader :=
  { loader.header with action := joinHalves high low }

def takeFloMonCount (loader : BpunLoader) (byte : BitVec 8) : BpunLoader :=
  { loader with
    header := { loader.header with
      isFloMon := true
      count := byte.setWidth 16 }
    loadState := .floMonLoad }

end BpunLoader

section Load

variable {World : Type} (config : Config World)

def writeBpunWord (address : Nat) (word : Word) : Cpu World Unit :=
  mmsWritePhysicalMemoryWm config address word false .word

/-- The bytes of a word have zeros between them. -/
def loadFloMon (header : BpunHeader) :
    (left floWords : Nat) → BitVec 8 → List (BitVec 8) → Cpu World (Option BpunHeader)
  | 0, _, _, _ => pure (some header)
  | left + 1, floWords, b, high :: afterHigh :: low :: afterLow :: rest => do
      if b ≠ 0 ∨ afterHigh ≠ 0 ∨ afterLow ≠ 0 then
        return none
      else
        writeBpunWord config (header.address.toNat + floWords) (joinHalves high low)
        loadFloMon header left (floWords + 1) afterLow rest
  | _ + 1, _, _, _ => pure none

/-- The end of the file inside a number or before the action is a failure. -/
def loadBpunStream : BpunLoader → List (BitVec 8) → Cpu World (Option BpunHeader)
  | _, [] => pure none
  | loader, b :: rest =>
    match loader.loadState with
    | .preamble => loadBpunStream (loader.preambleByte b) rest
    | .address =>
      match rest with
      | [] => pure none
      | low :: rest => loadBpunStream (loader.takeAddress b low) rest
    | .count =>
      match rest with
      | [] => pure none
      | low :: rest => loadBpunStream (loader.takeCount b low) rest
    | .data =>
      let counter := if 0 < loader.dataCounter then loader.dataCounter - 1 else 0
      let high := if 0 < loader.dataCounter then b else 0
      if 0 < counter then
        match rest with
        | [] => pure none
        | low :: rest => do
            writeBpunWord config loader.dataLoadAddress.toNat (joinHalves high low)
            loadBpunStream (loader.stored (joinHalves high low) (counter - 1)) rest
      else do
        writeBpunWord config loader.dataLoadAddress.toNat (joinHalves high 0)
        loadBpunStream (loader.stored (joinHalves high 0) counter) rest
    | .checksum =>
      match rest with
      | [] => pure none
      | low :: rest => loadBpunStream (loader.takeChecksum b low) rest
    | .action =>
      match rest with
      | [] => pure none
      | low :: _ => pure (some (loader.takeAction b low))
    | .floMonCount => loadBpunStream (loader.takeFloMonCount b) rest
    | .floMonLoad => loadFloMon config loader.header loader.header.count.toNat 0 b rest

theorem loadBpunStream_nil (loader : BpunLoader) (s : CpuState World) :
    loadBpunStream config loader [] s = .ok none s := by
  rw [loadBpunStream.eq_def]
  rfl

/-- The result is the boot address, and the last header that was read is kept. A missing stream is
a file that cannot be opened. -/
def bpunLoad (lastHeader : Option BpunHeader) :
    Option (List (BitVec 8)) → Cpu World (Int × Option BpunHeader)
  | none => pure (0, lastHeader)
  | some stream => do
      match ← loadBpunStream config .initial stream with
      | none => return (-1, lastHeader)
      | some header => return ((header.boot.toNat : Int), some header)

end Load

end Nd100x
