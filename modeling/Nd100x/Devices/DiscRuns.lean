import Nd100x.Devices.Discs

namespace Nd100x.Devices

attribute [local instance] discRegisters

open Nd100x.Hdlc (CoreMemory)
open Nd100x.Library

section Purpose

/-- What a transfer asks of an array of words. -/
structure DiscRequest where
  operation : DiscOperation
  core : Nat
  offset : Nat
  count : Nat

/-- The array after a transfer: a write inside it replaces the words addressed. -/
def DiscRequest.written (request : DiscRequest) (size : Nat) (memory : CoreMemory)
    (last : Surface) : Surface := fun place =>
  if request.operation = .write ∧ request.offset + request.count ≤ size ∧
      request.offset ≤ place ∧ place < request.offset + request.count then
    memory.dmaRead (request.core + (place - request.offset))
  else last place

/-- A transfer against an array of words: past its end nothing moves and there is an error, a
read gives the words to the installed memory, and a comparison tells whether a word differs. -/
structure DiscRequest.Served (request : DiscRequest) (size : Nat) (last : Surface)
    (before after : CoreMemory) (surface : Surface) (error : Bool) : Prop where
  past : size < request.offset + request.count →
    after = before ∧ (∀ place < size, surface place = last place) ∧ error = true
  moved : request.operation ≠ .read → after = before
  read : request.operation = .read → request.offset + request.count ≤ size →
    error = false ∧ after.size = before.size ∧ ∀ address, after.words address =
      if request.core ≤ address ∧ address < request.core + request.count ∧
          address < before.size then
        last (request.offset + (address - request.core))
      else before.words address
  stored : ∀ place < size, surface place = request.written size before last place
  compared : request.operation = .compare → request.offset + request.count ≤ size →
    (error = true ↔ ∃ index < request.count,
      before.dmaRead (request.core + index) ≠ last (request.offset + index))
  quiet : request.operation = .write ∨ request.operation = .verify →
    request.offset + request.count ≤ size → error = false

/-- The surface and the words of the file are the values last written. -/
structure HoldsLast (size : Nat) (surface : Surface) (file : Option ByteImage) (last : Surface) :
    Prop where
  surface : ∀ place < size, surface place = last place
  whole : ∀ image ∈ file, image.length % 2 = 0
  file : ∀ image ∈ file, ∀ place < size, image.word place = last place

end Purpose

section Serve

structure DiscOutcome where
  memory : CoreMemory
  surface : Surface
  file : Option ByteImage
  error : Bool

/-- The transfer that both cards make. -/
def DiscRequest.serve (request : DiscRequest) (size : Nat) (memory : CoreMemory)
    (surface : Surface) (file : Option ByteImage) : DiscOutcome :=
  let fetched := fetchWords memory request.count request.core request.offset surface
  if size < request.offset ∨ size - request.offset < request.count then
    ⟨memory, surface, file, true⟩
  else
    match request.operation with
    | .read =>
      ⟨storeWords surface request.count request.core request.offset memory, surface, file, false⟩
    | .write =>
      ⟨memory, fetched, file.map (·.putWords fetched request.count request.offset), false⟩
    | .verify => ⟨memory, surface, file, false⟩
    | .compare =>
      ⟨memory, surface, file,
        wordsDiffer memory surface request.count request.core request.offset⟩

variable {request : DiscRequest} {size : Nat} {memory : CoreMemory} {surface last : Surface}
  {file : Option ByteImage}

theorem past_iff : size < request.offset ∨ size - request.offset < request.count ↔
    size < request.offset + request.count := by omega

theorem written_past (past : size < request.offset + request.count) :
    request.written size memory last = last := by
  funext place
  rw [DiscRequest.written, if_neg (by omega)]

theorem written_other (other : request.operation ≠ .write) :
    request.written size memory last = last := by
  funext place
  rw [DiscRequest.written, if_neg fun all => other all.1]

theorem fetched_eq (write : request.operation = .write)
    (inside : request.offset + request.count ≤ size) (holds : HoldsLast size surface file last)
    {place : Nat} (below : place < size) :
    fetchWords memory request.count request.core request.offset surface place =
      request.written size memory last place := by
  rw [fetchWords_eq, DiscRequest.written]
  by_cases addressed : request.offset ≤ place ∧ place < request.offset + request.count
  · rw [if_pos addressed, if_pos ⟨write, inside, addressed⟩]
  · rw [if_neg addressed, if_neg fun all => addressed all.2.2]
    exact holds.surface place below

/-- A transfer is served against the values last written. -/
theorem serve_served (holds : HoldsLast size surface file last)
    (fits : request.core + request.count ≤ 2 ^ 24) :
    request.Served size last memory (request.serve size memory surface file).memory
      (request.serve size memory surface file).surface
      (request.serve size memory surface file).error := by
  rw [DiscRequest.serve]
  by_cases past : size < request.offset + request.count
  · rw [if_pos (past_iff.mpr past)]
    exact
      { past := fun _ => ⟨rfl, holds.surface, rfl⟩
        moved := fun _ => rfl
        read := fun _ inside => absurd past (Nat.not_lt_of_le inside)
        stored := fun place below => by rw [written_past past]; exact holds.surface place below
        compared := fun _ inside => absurd past (Nat.not_lt_of_le inside)
        quiet := fun _ inside => absurd past (Nat.not_lt_of_le inside) }
  · have inside : request.offset + request.count ≤ size := Nat.le_of_not_lt past
    rw [if_neg fun outside => past (past_iff.mp outside)]
    cases operation : request.operation with
    | read =>
      have other : request.operation ≠ .write := by rw [operation]; decide
      refine
        { past := fun outside => absurd outside past
          moved := fun moved => absurd operation moved
          read := fun _ _ => ⟨rfl, storeWords_size, fun address => ?_⟩
          stored := fun place below => by rw [written_other other]; exact holds.surface place below
          compared := fun compare => absurd (operation.symm.trans compare) (by decide)
          quiet := fun either _ => rfl }
      rw [storeWords_words fits]
      split_ifs with addressed
      · exact holds.surface _ (by omega)
      · rfl
    | write =>
      exact
        { past := fun outside => absurd outside past
          moved := fun _ => rfl
          read := fun read => absurd (operation.symm.trans read) (by decide)
          stored := fun place below => fetched_eq operation inside holds below
          compared := fun compare => absurd (operation.symm.trans compare) (by decide)
          quiet := fun _ _ => rfl }
    | verify =>
      have other : request.operation ≠ .write := by rw [operation]; decide
      exact
        { past := fun outside => absurd outside past
          moved := fun _ => rfl
          read := fun read => absurd (operation.symm.trans read) (by decide)
          stored := fun place below => by rw [written_other other]; exact holds.surface place below
          compared := fun compare => absurd (operation.symm.trans compare) (by decide)
          quiet := fun _ _ => rfl }
    | compare =>
      have other : request.operation ≠ .write := by rw [operation]; decide
      refine
        { past := fun outside => absurd outside past
          moved := fun _ => rfl
          read := fun read => absurd (operation.symm.trans read) (by decide)
          stored := fun place below => by rw [written_other other]; exact holds.surface place below
          compared := fun _ _ => wordsDiffer_iff.trans ?_
          quiet := fun either => ?_ }
      · refine exists_congr fun index => and_congr_right fun below => ?_
        rw [holds.surface _ (by omega)]
      · rcases either with write | verify
        · exact absurd (operation.symm.trans write) (by decide)
        · exact absurd (operation.symm.trans verify) (by decide)

/-- After a transfer the surface and the file are the values last written. -/
theorem serve_holds (holds : HoldsLast size surface file last) :
    HoldsLast size (request.serve size memory surface file).surface
      (request.serve size memory surface file).file (request.written size memory last) := by
  rw [DiscRequest.serve]
  by_cases past : size < request.offset + request.count
  · rw [if_pos (past_iff.mpr past), written_past past]
    exact holds
  · have inside : request.offset + request.count ≤ size := Nat.le_of_not_lt past
    rw [if_neg fun outside => past (past_iff.mp outside)]
    cases operation : request.operation with
    | read => rw [written_other (by rw [operation]; decide)]; exact holds
    | verify => rw [written_other (by rw [operation]; decide)]; exact holds
    | compare => rw [written_other (by rw [operation]; decide)]; exact holds
    | write =>
      refine ⟨fun place below => fetched_eq operation inside holds below, ?_, ?_⟩
      · rintro image member
        obtain ⟨old, oldMember, rfl⟩ := Option.mem_map.mp member
        have even := holds.whole old oldMember
        rw [ByteImage.length_putWords]
        split_ifs <;> omega
      · rintro image member place below
        obtain ⟨old, oldMember, rfl⟩ := Option.mem_map.mp member
        rw [ByteImage.word_putWords]
        split_ifs with addressed
        · exact fetched_eq operation inside holds below
        · rw [DiscRequest.written, if_neg fun all => addressed all.2.2]
          exact holds.file old oldMember place below

end Serve

section Reopen

variable {size : Nat} {surface last : Surface} {file : Option ByteImage} {image : ByteImage}

/-- A file of whole words gives its words to a blank surface. -/
theorem loadWords_blank (whole : image.length % 2 = 0) {place : Nat} (below : place < size) :
    image.loadWords size 0 (fun _ => 0) place = image.word place := by
  rw [ByteImage.loadWords_eq]
  split_ifs with inside
  · rfl
  · exact (ByteImage.word_past whole (by omega)).symm

theorem loaded_holds (whole : image.length % 2 = 0) :
    HoldsLast size (image.loadWords size 0 fun _ => 0) (some image)
      (image.loadWords size 0 fun _ => 0) := by
  refine ⟨fun place _ => rfl, ?_, ?_⟩
  · rintro other member
    cases Option.mem_some_iff.mp member
    exact whole
  · rintro other member place below
    cases Option.mem_some_iff.mp member
    exact (loadWords_blank whole below).symm

/-- A new surface from the file holds the same values. -/
theorem HoldsLast.reopened (holds : HoldsLast size surface (some image) last) :
    HoldsLast size (image.loadWords size 0 fun _ => 0) (some image) last := by
  refine ⟨fun place below => ?_, holds.whole, holds.file⟩
  rw [loadWords_blank (holds.whole image rfl) below]
  exact holds.file image rfl place below

/-- The whole surface written to the file leaves the values. -/
theorem HoldsLast.destroyed (holds : HoldsLast size surface file last) :
    HoldsLast size surface (file.map (·.putWords surface size 0)) last := by
  refine ⟨holds.surface, ?_, ?_⟩
  · rintro image member
    obtain ⟨old, oldMember, rfl⟩ := Option.mem_map.mp member
    have even := holds.whole old oldMember
    rw [ByteImage.length_putWords]
    split_ifs <;> omega
  · rintro image member place below
    obtain ⟨old, oldMember, rfl⟩ := Option.mem_map.mp member
    rw [ByteImage.word_putWords, if_pos (by omega)]
    exact holds.surface place below

/-- A new file of zeros beside a surface of zeros. -/
theorem zeros_hold :
    HoldsLast size (fun _ => 0) (some (ByteImage.empty.putWords (fun _ => 0) size 0))
      fun _ => 0 := by
  refine ⟨fun place _ => rfl, ?_, ?_⟩
  · rintro image member
    cases Option.mem_some_iff.mp member
    have none_ : ByteImage.empty.length = 0 := rfl
    rw [ByteImage.length_putWords, none_]
    split_ifs <;> omega
  · rintro image member place below
    cases Option.mem_some_iff.mp member
    rw [ByteImage.word_putWords, if_pos (by omega)]

end Reopen

section Cards

variable {memory : CoreMemory} {last : Surface}

def Drum.request (drum : Drum) : DiscRequest :=
  ⟨drum.operation, drum.coreAddress.toNat, drum.wordOffset, drum.wordCount.toNat⟩

def Drum.error (drum : Drum) : Bool := drum.status.getLsbD 5

def Cdc.request (cdc : Cdc) : DiscRequest :=
  ⟨cdc.operation, cdc.effectiveCore, cdc.wordOffset, cdc.wordCount.toNat⟩

def Cdc.error (cdc : Cdc) : Bool := cdc.status.getLsbD 4

theorem Drum.fits (drum : Drum) : drum.request.core + drum.request.count ≤ 2 ^ 24 := by
  have core : drum.coreAddress.toNat < 2 ^ 18 := drum.coreAddress.isLt
  have count : drum.wordCount.toNat < 2 ^ 16 := drum.wordCount.isLt
  have small : 2 ^ 18 + 2 ^ 16 ≤ 2 ^ 24 := by decide
  exact (Nat.add_le_add core.le count.le).trans small

theorem Cdc.fits (cdc : Cdc) : cdc.request.core + cdc.request.count ≤ 2 ^ 24 := by
  have core : cdc.effectiveCore < 2 ^ 18 := BitVec.isLt _
  have count : cdc.wordCount.toNat < 2 ^ 16 := cdc.wordCount.isLt
  have small : 2 ^ 18 + 2 ^ 16 ≤ 2 ^ 24 := by decide
  exact (Nat.add_le_add core.le count.le).trans small

theorem drum_active_error (status : BitVec 16) :
    ((status &&& ~~~drumStatusErr) ||| drumStatusDva).getLsbD 5 = false := by
  simp [drumStatusErr, drumStatusDva]

theorem drum_error_error (status : BitVec 16) :
    (status ||| drumStatusErr).getLsbD 5 = true := by
  simp [drumStatusErr]

/-- What a card holds after a transfer, beside the memory. -/
structure SameOutcome (outcome : DiscOutcome) (memory : CoreMemory) (surface : Surface)
    (file : Option ByteImage) (error : Bool) : Prop where
  memory : memory = outcome.memory
  surface : surface = outcome.surface
  file : file = outcome.file
  error : error = outcome.error

theorem Drum.executeGo_serves (drum : Drum) (memory : CoreMemory) :
    SameOutcome (drum.request.serve drum.surfaceWords memory drum.surface drum.backingFile)
        (drum.executeGo memory).1 (drum.executeGo memory).2.surface
        (drum.executeGo memory).2.backingFile (drum.executeGo memory).2.error ∧
      (drum.executeGo memory).2.surfaceWords = drum.surfaceWords := by
  rw [DiscRequest.serve, Drum.executeGo]
  by_cases past : drum.surfaceWords < drum.wordOffset ∨
      drum.surfaceWords - drum.wordOffset < drum.wordCount.toNat
  · have asked : drum.surfaceWords < drum.request.offset ∨
        drum.surfaceWords - drum.request.offset < drum.request.count := past
    rw [if_pos past, if_pos asked]
    exact ⟨⟨rfl, rfl, rfl, drum_error_error _⟩, rfl⟩
  · have asked : ¬(drum.surfaceWords < drum.request.offset ∨
        drum.surfaceWords - drum.request.offset < drum.request.count) := past
    rw [if_neg past, if_neg asked]
    have same : drum.request.operation = drum.operation := rfl
    rw [same]
    cases drum.operation with
    | read => exact ⟨⟨rfl, rfl, rfl, drum_active_error _⟩, rfl⟩
    | write => exact ⟨⟨rfl, rfl, rfl, drum_active_error _⟩, rfl⟩
    | verify => exact ⟨⟨rfl, rfl, rfl, drum_active_error _⟩, rfl⟩
    | compare =>
      dsimp only
      cases differs : wordsDiffer memory drum.surface drum.wordCount.toNat
          drum.coreAddress.toNat drum.wordOffset with
      | true => exact ⟨⟨rfl, rfl, rfl, (drum_error_error _).trans differs.symm⟩, rfl⟩
      | false => exact ⟨⟨rfl, rfl, rfl, (drum_active_error _).trans differs.symm⟩, rfl⟩

theorem cdc_active_error (status : BitVec 16) :
    ((status &&& ~~~(cdcErrors ||| cdcTransferComplete)) |||
      (cdcActive ||| cdcTransferOn)).getLsbD 4 = false := by
  simp [cdcErrors, cdcTransferComplete, cdcActive, cdcTransferOn]

theorem cdc_error_error (status bit : BitVec 16) :
    (status ||| (bit ||| cdcErrorOr)).getLsbD 4 = true := by
  simp [cdcErrorOr]

/-- Outside a test read the cartridge disc makes the same transfer. -/
theorem Cdc.executeGo_serves (cdc : Cdc) (memory : CoreMemory)
    (normal : ¬(cdc.testMode ∧ cdc.operation = .read)) :
    SameOutcome (cdc.request.serve cdc.surfaceWords memory cdc.surface cdc.backingFile)
        (cdc.executeGo memory).1 (cdc.executeGo memory).2.surface
        (cdc.executeGo memory).2.backingFile (cdc.executeGo memory).2.error ∧
      (cdc.executeGo memory).2.surfaceSectors = cdc.surfaceSectors := by
  rw [DiscRequest.serve, Cdc.executeGo, if_neg normal]
  by_cases past : cdc.surfaceWords < cdc.wordOffset ∨
      cdc.surfaceWords - cdc.wordOffset < cdc.wordCount.toNat
  · have asked : cdc.surfaceWords < cdc.request.offset ∨
        cdc.surfaceWords - cdc.request.offset < cdc.request.count := past
    rw [if_pos past, if_pos asked]
    exact ⟨⟨rfl, rfl, rfl, cdc_error_error _ _⟩, rfl⟩
  · have asked : ¬(cdc.surfaceWords < cdc.request.offset ∨
        cdc.surfaceWords - cdc.request.offset < cdc.request.count) := past
    rw [if_neg past, if_neg asked]
    have same : cdc.request.operation = cdc.operation := rfl
    rw [same]
    cases cdc.operation with
    | read => exact ⟨⟨rfl, rfl, rfl, cdc_active_error _⟩, rfl⟩
    | write => exact ⟨⟨rfl, rfl, rfl, cdc_active_error _⟩, rfl⟩
    | verify => exact ⟨⟨rfl, rfl, rfl, cdc_active_error _⟩, rfl⟩
    | compare =>
      dsimp only
      cases differs : wordsDiffer memory cdc.surface cdc.wordCount.toNat
          cdc.effectiveCore cdc.wordOffset with
      | true => exact ⟨⟨rfl, rfl, rfl, (cdc_error_error _ _).trans differs.symm⟩, rfl⟩
      | false => exact ⟨⟨rfl, rfl, rfl, (cdc_active_error _).trans differs.symm⟩, rfl⟩

/-- A test read touches no surface. -/
theorem Cdc.executeGo_test (cdc : Cdc) (memory : CoreMemory)
    (test : cdc.testMode ∧ cdc.operation = .read) :
    (cdc.executeGo memory).2.surface = cdc.surface ∧
      (cdc.executeGo memory).2.backingFile = cdc.backingFile ∧
      (cdc.executeGo memory).2.surfaceSectors = cdc.surfaceSectors := by
  rw [Cdc.executeGo, if_pos test, Cdc.executeTest]
  split_ifs <;> exact ⟨rfl, rfl, rfl⟩

end Cards

section Model

/-- The two cards reach one memory. -/
structure Plant where
  memory : CoreMemory
  drum : Drum
  cdc : Cdc

/-- The processor writes the registers of the cards by either decode, the clock ticks, and the
files are closed and opened again, after a stop of the program or without the last write. -/
inductive DiscEvent where
  | drumWrite (register : Fin 8) (value : BitVec 16)
  | drumTick
  | drumIdent (level : Nat)
  | drumReset
  | drumReopen
  | drumStop
  | cdcWrite (register : Fin 8) (value : BitVec 16)
  | cdcRead (register : Fin 8)
  | cdcIot (port : Cdc.IotPort) (func : BitVec 3) (regA : BitVec 16) (skip : Bool)
  | cdcTick
  | cdcIdent (level : Nat)
  | cdcReset
  | cdcReopen
  | cdcStop
  | elsewhere (memory : CoreMemory)

def Drum.reopened (drum : Drum) (file : Option ByteImage) : Drum :=
  match file with
  | some image => .create (.existing image)
  | none => drum

def Cdc.reopened (cdc : Cdc) (file : Option ByteImage) : Cdc :=
  match file with
  | some image => .create (.existing image)
  | none => cdc

def Plant.step (plant : Plant) : DiscEvent → Plant
  | .drumWrite register value =>
    let done := plant.drum.write plant.memory register value
    { plant with memory := done.1, drum := done.2 }
  | .drumTick => { plant with drum := plant.drum.tick }
  | .drumIdent level => { plant with drum := (plant.drum.ident level).2 }
  | .drumReset => { plant with drum := plant.drum.reset }
  | .drumReopen => { plant with drum := plant.drum.reopened plant.drum.destroy }
  | .drumStop => { plant with drum := plant.drum.reopened plant.drum.backingFile }
  | .cdcWrite register value =>
    let done := plant.cdc.write plant.memory register value
    { plant with memory := done.1, cdc := done.2 }
  | .cdcRead register => { plant with cdc := (plant.cdc.read register).2 }
  | .cdcIot port func regA skip =>
    let done := plant.cdc.iotOp plant.memory port func regA skip
    { plant with memory := done.2.1, cdc := done.2.2 }
  | .cdcTick => { plant with cdc := plant.cdc.tick }
  | .cdcIdent level => { plant with cdc := (plant.cdc.ident level).2 }
  | .cdcReset => { plant with cdc := plant.cdc.reset }
  | .cdcReopen => { plant with cdc := plant.cdc.reopened plant.cdc.destroy }
  | .cdcStop => { plant with cdc := plant.cdc.reopened plant.cdc.backingFile }
  | .elsewhere memory => { plant with memory := memory }

end Model

section Purpose

/-- The drum as it is when a control word starts a transfer. -/
def Drum.going (drum : Drum) (value : BitVec 16) : Drum :=
  { drum.loadControl value with interruptEnabled := true }

/-- The disc as it is when a control word starts a transfer. -/
def Cdc.going (cdc : Cdc) (value : BitVec 16) : Cdc :=
  { cdc with control := value, interruptEnabled := true }

def Cdc.testRead (cdc : Cdc) : Prop := cdc.testMode ∧ cdc.operation = .read

instance (cdc : Cdc) : Decidable cdc.testRead := inferInstanceAs (Decidable (_ ∧ _))

/-- The transfer that an event starts on the drum. -/
def Plant.drumRequest (plant : Plant) : DiscEvent → Option DiscRequest
  | .drumWrite register value =>
    if register = 5 ∧ Drum.starts value then some (plant.drum.going value).request else none
  | _ => none

/-- The transfer that an event starts on the cartridge disc outside a test read. -/
def Plant.cdcRequest (plant : Plant) : DiscEvent → Option DiscRequest
  | .cdcWrite register value =>
    if register = 5 ∧ value.getLsbD 2 ∧ ¬(plant.cdc.going value).testRead then
      some (plant.cdc.going value).request
    else none
  | .cdcIot port func _ _ =>
    if port = .disc ∧ func.getLsbD 0 ∧ ¬plant.cdc.testRead then some plant.cdc.request else none
  | _ => none

/-- The value last written to each word of the two discs. -/
structure Contents where
  drum : Surface
  cdc : Surface

/-- Only a write changes the values, and only those of the words that it addresses. -/
def Contents.after (contents : Contents) (plant : Plant) (event : DiscEvent) : Contents where
  drum := match plant.drumRequest event with
    | some request => request.written plant.drum.surfaceWords plant.memory contents.drum
    | none => contents.drum
  cdc := match plant.cdcRequest event with
    | some request => request.written plant.cdc.surfaceWords plant.memory contents.cdc
    | none => contents.cdc

/-- An image has whole words, and no more of them than a count of 32 bits. -/
def BackingPath.Loadable : BackingPath → Prop
  | .existing image => image.length % 2 = 0 ∧ image.length ≤ cdcSectorBytes * 16777215
  | _ => True

/-- The cards are created, and any events follow. -/
inductive DiscRun : Plant → Contents → Prop
  | start (memory : CoreMemory) (drumPath cdcPath : BackingPath) (drumLoads : drumPath.Loadable)
      (cdcLoads : cdcPath.Loadable) :
      DiscRun ⟨memory, .create drumPath, .create cdcPath⟩
        ⟨(Drum.create drumPath).surface, (Cdc.create cdcPath).surface⟩
  | step {plant : Plant} {contents : Contents} (event : DiscEvent) (run : DiscRun plant contents) :
      DiscRun (plant.step event) (contents.after plant event)

end Purpose

section Steps

variable {memory : CoreMemory} {drum : Drum} {cdc : Cdc} {last : Surface}

/-- Two drums have the same surface and file. -/
structure Drum.SameStore (before after : Drum) : Prop where
  surface : after.surface = before.surface
  words : after.surfaceWords = before.surfaceWords
  file : after.backingFile = before.backingFile

structure Cdc.SameStore (before after : Cdc) : Prop where
  surface : after.surface = before.surface
  sectors : after.surfaceSectors = before.surfaceSectors
  file : after.backingFile = before.backingFile

theorem Drum.SameStore.trans {first second third : Drum} (early : first.SameStore second)
    (late : second.SameStore third) : first.SameStore third :=
  ⟨late.surface.trans early.surface, late.words.trans early.words, late.file.trans early.file⟩

theorem Cdc.SameStore.trans {first second third : Cdc} (early : first.SameStore second)
    (late : second.SameStore third) : first.SameStore third :=
  ⟨late.surface.trans early.surface, late.sectors.trans early.sectors, late.file.trans early.file⟩

theorem Drum.write_go (value : BitVec 16) (starts : Drum.starts value = true) :
    drum.write memory 5 value = (drum.going value).executeGo memory := by
  rw [Drum.write, if_neg (by decide), if_neg (by decide), if_neg (by decide), if_pos rfl,
    if_pos starts]
  rfl

theorem Drum.write_other (register : Fin 8) (value : BitVec 16)
    (other : ¬(register = 5 ∧ Drum.starts value = true)) :
    (drum.write memory register value).1 = memory ∧
      drum.SameStore (drum.write memory register value).2 := by
  rw [Drum.write]
  by_cases control : register = 5
  · subst control
    rw [if_neg (by decide), if_neg (by decide), if_neg (by decide), if_pos rfl,
      if_neg fun starts => other ⟨rfl, starts⟩]
    split_ifs <;> exact ⟨rfl, rfl, rfl, rfl⟩
  · rw [if_neg control]
    split_ifs <;> exact ⟨rfl, rfl, rfl, rfl⟩

theorem Drum.tick_sameStore : drum.SameStore drum.tick := by
  have fired : ∀ (count : Nat) (first : Drum), drum.SameStore first →
      drum.SameStore (Nat.repeat Drum.fire count first) := by
    intro count first same
    induction count with
    | zero => exact same
    | succ count ih => exact ih.trans ⟨rfl, rfl, rfl⟩
  exact fired _ _ ⟨rfl, rfl, rfl⟩

theorem Drum.ident_sameStore (level : Nat) : drum.SameStore (drum.ident level).2 := by
  rw [Drum.ident]
  split_ifs <;> exact ⟨rfl, rfl, rfl⟩

theorem Cdc.write_go (value : BitVec 16) (active : value.getLsbD 2 = true) :
    cdc.write memory 5 value = (cdc.going value).executeGo memory := by
  rw [Cdc.write, if_neg (by decide), if_neg (by decide), if_neg (by decide), if_pos rfl,
    if_pos active]
  rfl

theorem Cdc.write_other (register : Fin 8) (value : BitVec 16)
    (other : ¬(register = 5 ∧ value.getLsbD 2 = true)) :
    (cdc.write memory register value).1 = memory ∧
      cdc.SameStore (cdc.write memory register value).2 := by
  rw [Cdc.write]
  by_cases control : register = 5
  · subst control
    rw [if_neg (by decide), if_neg (by decide), if_neg (by decide), if_pos rfl,
      if_neg fun active => other ⟨rfl, active⟩]
    split_ifs <;> exact ⟨rfl, rfl, rfl, rfl⟩
  · rw [if_neg control]
    split_ifs <;> exact ⟨rfl, rfl, rfl, rfl⟩

theorem Cdc.read_sameStore (register : Fin 8) : cdc.SameStore (cdc.read register).2 := by
  rw [Cdc.read]
  split_ifs <;> exact ⟨rfl, rfl, rfl⟩

theorem Cdc.tick_sameStore : cdc.SameStore cdc.tick := by
  have ended : ∀ (count : Nat) (first : Cdc), cdc.SameStore first →
      cdc.SameStore (Nat.repeat Cdc.cdcEnd count first) := by
    intro count first same
    induction count with
    | zero => exact same
    | succ count ih => exact ih.trans ⟨rfl, rfl, rfl⟩
  exact ended _ _ ⟨rfl, rfl, rfl⟩

theorem Cdc.ident_sameStore (level : Nat) : cdc.SameStore (cdc.ident level).2 := by
  rw [Cdc.ident]
  split_ifs <;> exact ⟨rfl, rfl, rfl⟩

/-- The disc as it is when the older channel activates it. -/
def Cdc.prepared (cdc : Cdc) (func : BitVec 3) : Cdc :=
  if func.getLsbD 2 then { cdc with interruptEnabled := true } else cdc

theorem Cdc.iot_go (func : BitVec 3) (regA : BitVec 16) (skip : Bool)
    (active : func.getLsbD 0 = true) :
    (cdc.iotOp memory .disc func regA skip).2 = (cdc.prepared func).executeGo memory := by
  rw [Cdc.iotOp]
  exact if_pos active

theorem Cdc.iot_other (port : Cdc.IotPort) (func : BitVec 3) (regA : BitVec 16) (skip : Bool)
    (other : ¬(port = .disc ∧ func.getLsbD 0 = true)) :
    (cdc.iotOp memory port func regA skip).2.1 = memory ∧
      cdc.SameStore (cdc.iotOp memory port func regA skip).2.2 := by
  cases port with
  | disc =>
    have idle : (cdc.iotOp memory .disc func regA skip).2 = (memory, cdc.prepared func) :=
      if_neg fun active => other ⟨rfl, active⟩
    rw [idle, Cdc.prepared]
    split_ifs <;> exact ⟨rfl, rfl, rfl, rfl⟩
  | dct =>
    rw [Cdc.iotOp]
    split_ifs
    · exact Cdc.write_other 1 regA fun both => absurd both.1 (by decide)
    · exact Cdc.write_other 3 regA fun both => absurd both.1 (by decide)
    · exact Cdc.write_other 7 regA fun both => absurd both.1 (by decide)
    · exact ⟨rfl, Cdc.read_sameStore 6⟩
    · exact ⟨rfl, Cdc.read_sameStore 4⟩
    · exact ⟨rfl, Cdc.read_sameStore 0⟩
    · exact ⟨rfl, Cdc.read_sameStore 2⟩
    · exact ⟨rfl, rfl, rfl, rfl⟩
  | other => exact ⟨rfl, rfl, rfl, rfl⟩

/-- The interrupt that the channel prepares is no part of a transfer. -/
theorem Cdc.prepared_same (func : BitVec 3) :
    cdc.SameStore (cdc.prepared func) ∧ (cdc.prepared func).request = cdc.request ∧
      ((cdc.prepared func).testRead ↔ cdc.testRead) := by
  rw [Cdc.prepared]
  split_ifs <;> exact ⟨⟨rfl, rfl, rfl⟩, rfl, Iff.rfl⟩

end Steps

section Run

variable {memory : CoreMemory} {drum : Drum} {cdc : Cdc} {last : Surface} {image other : ByteImage}

/-- The drum holds the values last written. -/
structure Drum.Holds (drum : Drum) (last : Surface) : Prop where
  words : drum.surfaceWords = drumMaxWords
  store : HoldsLast drum.surfaceWords drum.surface drum.backingFile last

/-- The cartridge disc holds the values last written, and its file still fits its surface. -/
structure Cdc.Holds (cdc : Cdc) (last : Surface) : Prop where
  sectors : ∀ image ∈ cdc.backingFile, Cdc.sectorsFor image = cdc.surfaceSectors
  store : HoldsLast cdc.surfaceWords cdc.surface cdc.backingFile last

theorem Drum.Holds.same (holds : drum.Holds last) {after : Drum} (same : drum.SameStore after) :
    after.Holds last := by
  refine ⟨same.words.trans holds.words, ?_⟩
  rw [same.words, same.surface, same.file]
  exact holds.store

theorem Cdc.Holds.same (holds : cdc.Holds last) {after : Cdc} (same : cdc.SameStore after) :
    after.Holds last := by
  have words : after.surfaceWords = cdc.surfaceWords :=
    congrArg (· * cdcWordsPerSector) same.sectors
  refine ⟨?_, ?_⟩
  · rw [same.file, same.sectors]
    exact holds.sectors
  · rw [words, same.surface, same.file]
    exact holds.store

/-- A file that grows inside its surface needs no other surface. -/
theorem sectorsFor_grown (longer : image.length ≤ other.length)
    (inside : other.length ≤ max image.length
      (2 * (Cdc.sectorsFor image * cdcWordsPerSector))) :
    Cdc.sectorsFor other = Cdc.sectorsFor image := by
  simp only [Cdc.sectorsFor, cdcDefaultSectors, cdcSectorBytes, cdcWordsPerSector] at inside ⊢
  omega

theorem serve_file {request : DiscRequest} {size : Nat} {surface : Surface}
    {file : Option ByteImage} (member : other ∈ (request.serve size memory surface file).file) :
    ∃ image ∈ file, image.length ≤ other.length ∧ other.length ≤ max image.length (2 * size) := by
  have kept : ∀ image ∈ file, image.length ≤ image.length ∧
      image.length ≤ max image.length (2 * size) :=
    fun image _ => ⟨Nat.le_refl _, Nat.le_max_left _ _⟩
  rw [DiscRequest.serve] at member
  by_cases past : size < request.offset ∨ size - request.offset < request.count
  · rw [if_pos past] at member
    exact ⟨other, member, kept other member⟩
  · rw [if_neg past] at member
    cases operation : request.operation with
    | write =>
      rw [operation] at member
      obtain ⟨image, imageMember, rfl⟩ := Option.mem_map.mp member
      refine ⟨image, imageMember, ?_⟩
      rw [ByteImage.length_putWords]
      split_ifs <;> omega
    | _ =>
      rw [operation] at member
      exact ⟨other, member, kept other member⟩

theorem Drum.Holds.executeGo (holds : drum.Holds last) (memory : CoreMemory) :
    (drum.executeGo memory).2.Holds (drum.request.written drum.surfaceWords memory last) ∧
      drum.request.Served drum.surfaceWords last memory (drum.executeGo memory).1
        (drum.executeGo memory).2.surface (drum.executeGo memory).2.error := by
  obtain ⟨same, words⟩ := drum.executeGo_serves memory
  refine ⟨⟨words.trans holds.words, ?_⟩, ?_⟩
  · rw [words, same.surface, same.file]
    exact serve_holds holds.store
  · rw [same.memory, same.surface, same.error]
    exact serve_served holds.store drum.fits

theorem Cdc.Holds.executeGo (holds : cdc.Holds last) (memory : CoreMemory)
    (normal : ¬cdc.testRead) :
    (cdc.executeGo memory).2.Holds (cdc.request.written cdc.surfaceWords memory last) ∧
      cdc.request.Served cdc.surfaceWords last memory (cdc.executeGo memory).1
        (cdc.executeGo memory).2.surface (cdc.executeGo memory).2.error := by
  obtain ⟨same, sectors⟩ := cdc.executeGo_serves memory normal
  have words : (cdc.executeGo memory).2.surfaceWords = cdc.surfaceWords :=
    congrArg (· * cdcWordsPerSector) sectors
  refine ⟨⟨?_, ?_⟩, ?_⟩
  · intro other member
    rw [same.file] at member
    obtain ⟨image, imageMember, longer, inside⟩ := serve_file member
    have before := holds.sectors image imageMember
    have fits : cdc.surfaceWords = Cdc.sectorsFor image * cdcWordsPerSector :=
      congrArg (· * cdcWordsPerSector) before.symm
    rw [sectors, ← before]
    exact sectorsFor_grown longer (fits ▸ inside)
  · rw [words, same.surface, same.file]
    exact serve_holds holds.store
  · rw [same.memory, same.surface, same.error]
    exact serve_served holds.store cdc.fits

theorem Cdc.Holds.testRead (holds : cdc.Holds last) (memory : CoreMemory) (test : cdc.testRead) :
    (cdc.executeGo memory).2.Holds last := by
  obtain ⟨surface, file, sectors⟩ := cdc.executeGo_test memory test
  exact holds.same ⟨surface, sectors, file⟩

/-- A drum made from the file holds the same values. -/
theorem Drum.Holds.created (store : HoldsLast drumMaxWords drum.surface (some image) last) :
    (Drum.create (.existing image)).Holds last := ⟨rfl, store.reopened⟩

theorem Drum.Holds.reopened (holds : drum.Holds last) : (drum.reopened drum.backingFile).Holds last := by
  have store := holds.store
  rw [holds.words] at store
  cases file : drum.backingFile with
  | none => exact holds
  | some image =>
    rw [file] at store
    exact .created store

theorem Drum.Holds.destroyed (holds : drum.Holds last) : (drum.reopened drum.destroy).Holds last := by
  have store := holds.store.destroyed
  have whole : drum.backingFile.map (·.putWords drum.surface drum.surfaceWords 0) = drum.destroy :=
    rfl
  rw [whole] at store
  rw [holds.words] at store
  cases file : drum.destroy with
  | none => exact holds
  | some image =>
    rw [file] at store
    exact .created store

theorem Cdc.Holds.created {surface : Surface}
    (store : HoldsLast (Cdc.sectorsFor image * cdcWordsPerSector) surface (some image) last) :
    (Cdc.create (.existing image)).Holds last := by
  refine ⟨?_, store.reopened⟩
  intro other member
  cases Option.mem_some_iff.mp member
  rfl

theorem Cdc.Holds.reopened (holds : cdc.Holds last) : (cdc.reopened cdc.backingFile).Holds last := by
  have store := holds.store
  have sectors := holds.sectors
  cases file : cdc.backingFile with
  | none => exact holds
  | some image =>
    rw [file] at store sectors
    rw [Cdc.surfaceWords, ← sectors image rfl] at store
    exact .created store

theorem Cdc.Holds.destroyed (holds : cdc.Holds last) : (cdc.reopened cdc.destroy).Holds last := by
  have store := holds.store.destroyed
  have whole : cdc.backingFile.map (·.putWords cdc.surface cdc.surfaceWords 0) = cdc.destroy := rfl
  rw [whole] at store
  have sectors : ∀ image ∈ cdc.destroy, Cdc.sectorsFor image = cdc.surfaceSectors := by
    intro other member
    obtain ⟨image, imageMember, rfl⟩ := Option.mem_map.mp member
    have before := holds.sectors image imageMember
    rw [← before]
    refine sectorsFor_grown ?_ ?_ <;> rw [ByteImage.length_putWords]
    · split_ifs <;> omega
    · rw [before]
      change (if cdc.surfaceWords = 0 then _ else _) ≤ max image.length (2 * cdc.surfaceWords)
      split_ifs <;> omega
  cases file : cdc.destroy with
  | none => exact holds
  | some image =>
    rw [file] at store sectors
    rw [Cdc.surfaceWords, ← sectors image rfl] at store
    exact .created store

end Run

section Contents

variable {plant : Plant} {contents : Contents}

/-- Both discs hold the values last written. -/
structure Plant.Holds (plant : Plant) (contents : Contents) : Prop where
  drum : plant.drum.Holds contents.drum
  cdc : plant.cdc.Holds contents.cdc

/-- A transfer that the event starts is served against the values last written. -/
structure Plant.Serves (plant : Plant) (contents : Contents) (event : DiscEvent) : Prop where
  drum : ∀ request, plant.drumRequest event = some request →
    request.Served plant.drum.surfaceWords contents.drum plant.memory (plant.step event).memory
      (plant.step event).drum.surface (plant.step event).drum.error
  cdc : ∀ request, plant.cdcRequest event = some request →
    request.Served plant.cdc.surfaceWords contents.cdc plant.memory (plant.step event).memory
      (plant.step event).cdc.surface (plant.step event).cdc.error

theorem drumWrite_step (holds : plant.Holds contents) (register : Fin 8) (value : BitVec 16) :
    (plant.step (.drumWrite register value)).Holds
        (contents.after plant (.drumWrite register value)) ∧
      plant.Serves contents (.drumWrite register value) := by
  by_cases go : register = 5 ∧ Drum.starts value = true
  · obtain ⟨rfl, starts⟩ := go
    have going : (plant.drum.going value).Holds contents.drum := holds.drum.same ⟨rfl, rfl, rfl⟩
    obtain ⟨stored, served⟩ := going.executeGo plant.memory
    have asked : plant.drumRequest (.drumWrite 5 value) = some (plant.drum.going value).request :=
      if_pos ⟨rfl, starts⟩
    have done : plant.drum.write plant.memory 5 value =
        (plant.drum.going value).executeGo plant.memory := Drum.write_go value starts
    refine ⟨⟨?_, holds.cdc⟩, ?_, fun request none_ => absurd none_ (Option.some_ne_none _).symm⟩
    · rw [Contents.after, asked, Plant.step, done]
      exact stored
    · intro request same
      cases Option.some.inj (asked.symm.trans same)
      rw [Plant.step, done]
      exact served
  · have quiet : plant.drumRequest (.drumWrite register value) = none := if_neg go
    obtain ⟨memory, same⟩ := @Drum.write_other plant.memory plant.drum register value go
    refine ⟨⟨?_, holds.cdc⟩, ?_, fun request none_ => absurd none_ (Option.some_ne_none _).symm⟩
    · rw [Contents.after, quiet]
      exact holds.drum.same same
    · intro request some_
      exact absurd (quiet.symm.trans some_) (Option.some_ne_none _).symm

/-- A transfer of the cartridge disc, started by either decode. -/
theorem cdcGo_step (holds : plant.Holds contents) (event : DiscEvent) (going : Cdc)
    (same : plant.cdc.SameStore going)
    (done : plant.step event = { plant with
      memory := (going.executeGo plant.memory).1, cdc := (going.executeGo plant.memory).2 })
    (drumQuiet : plant.drumRequest event = none)
    (asked : plant.cdcRequest event = if going.testRead then none else some going.request) :
    (plant.step event).Holds (contents.after plant event) ∧ plant.Serves contents event := by
  have goingHolds : going.Holds contents.cdc := holds.cdc.same same
  have words : going.surfaceWords = plant.cdc.surfaceWords :=
    congrArg (· * cdcWordsPerSector) same.sectors
  have drumServes : ∀ request, plant.drumRequest event = some request → False :=
    fun request some_ => Option.some_ne_none _ (some_.symm.trans drumQuiet)
  by_cases test : going.testRead
  · rw [if_pos test] at asked
    refine ⟨⟨?_, ?_⟩, fun request some_ => absurd some_ (drumServes request), fun request some_ =>
      absurd (some_.symm.trans asked) (Option.some_ne_none _)⟩
    · rw [Contents.after, drumQuiet, done]
      exact holds.drum
    · rw [Contents.after, asked, done]
      exact goingHolds.testRead plant.memory test
  · rw [if_neg test] at asked
    obtain ⟨stored, served⟩ := goingHolds.executeGo plant.memory test
    rw [words] at stored served
    refine ⟨⟨?_, ?_⟩, fun request some_ => absurd some_ (drumServes request), ?_⟩
    · rw [Contents.after, drumQuiet, done]
      exact holds.drum
    · rw [Contents.after, asked, done]
      exact stored
    · intro request some_
      cases Option.some.inj (asked.symm.trans some_)
      rw [done]
      exact served

/-- An event that starts no transfer leaves the values. -/
theorem quiet_step (event : DiscEvent)
    (drumQuiet : plant.drumRequest event = none) (cdcQuiet : plant.cdcRequest event = none)
    (drum : (plant.step event).drum.Holds contents.drum)
    (cdc : (plant.step event).cdc.Holds contents.cdc) :
    (plant.step event).Holds (contents.after plant event) ∧ plant.Serves contents event := by
  refine ⟨⟨?_, ?_⟩, fun request some_ => absurd (some_.symm.trans drumQuiet) (Option.some_ne_none _),
    fun request some_ => absurd (some_.symm.trans cdcQuiet) (Option.some_ne_none _)⟩
  · rw [Contents.after, drumQuiet]
    exact drum
  · rw [Contents.after, cdcQuiet]
    exact cdc

theorem ite_some_eq {test : Prop} [Decidable test] {active : Prop} [Decidable active]
    (on : active) (request : DiscRequest) :
    (if active ∧ ¬test then some request else none) = if test then none else some request := by
  by_cases held : test
  · rw [if_pos held, if_neg fun both => both.2 held]
  · rw [if_neg held, if_pos ⟨on, held⟩]

/-- Every event keeps the values of both discs, and serves the transfer that it starts. -/
theorem Plant.Holds.step (holds : plant.Holds contents) (event : DiscEvent) :
    (plant.step event).Holds (contents.after plant event) ∧ plant.Serves contents event := by
  cases event with
  | drumWrite register value => exact drumWrite_step holds register value
  | drumTick => exact quiet_step _ rfl rfl (holds.drum.same Drum.tick_sameStore) holds.cdc
  | drumIdent level =>
    exact quiet_step _ rfl rfl (holds.drum.same (Drum.ident_sameStore level)) holds.cdc
  | drumReset => exact quiet_step _ rfl rfl (holds.drum.same ⟨rfl, rfl, rfl⟩) holds.cdc
  | drumReopen => exact quiet_step _ rfl rfl holds.drum.destroyed holds.cdc
  | drumStop => exact quiet_step _ rfl rfl holds.drum.reopened holds.cdc
  | cdcWrite register value =>
    by_cases go : register = 5 ∧ value.getLsbD 2 = true
    · obtain ⟨rfl, active⟩ := go
      refine cdcGo_step holds _ (plant.cdc.going value) ⟨rfl, rfl, rfl⟩ ?_ rfl ?_
      · rw [Plant.step, Cdc.write_go value active]
      · refine Eq.trans (if_congr ?_ rfl rfl) (ite_some_eq active _)
        exact and_iff_right rfl
    · obtain ⟨-, same⟩ := @Cdc.write_other plant.memory plant.cdc register value go
      refine quiet_step _ rfl (if_neg fun all => go ⟨all.1, all.2.1⟩) holds.drum
        (holds.cdc.same same)
  | cdcRead register =>
    exact quiet_step _ rfl rfl holds.drum (holds.cdc.same (Cdc.read_sameStore register))
  | cdcIot port func regA skip =>
    by_cases go : port = .disc ∧ func.getLsbD 0 = true
    · obtain ⟨rfl, active⟩ := go
      obtain ⟨same, request, test⟩ := @Cdc.prepared_same plant.cdc func
      refine cdcGo_step holds _ (plant.cdc.prepared func) same ?_ rfl ?_
      · rw [Plant.step, Cdc.iot_go func regA skip active]
      · rw [request]
        refine Eq.trans (if_congr ?_ rfl rfl) (ite_some_eq active _)
        rw [test]
        exact and_iff_right rfl
    · obtain ⟨-, same⟩ := @Cdc.iot_other plant.memory plant.cdc port func regA skip go
      refine quiet_step _ rfl (if_neg fun all => go ⟨all.1, all.2.1⟩) holds.drum
        (holds.cdc.same same)
  | cdcTick => exact quiet_step _ rfl rfl holds.drum (holds.cdc.same Cdc.tick_sameStore)
  | cdcIdent level =>
    exact quiet_step _ rfl rfl holds.drum (holds.cdc.same (Cdc.ident_sameStore level))
  | cdcReset => exact quiet_step _ rfl rfl holds.drum (holds.cdc.same ⟨rfl, rfl, rfl⟩)
  | cdcReopen => exact quiet_step _ rfl rfl holds.drum holds.cdc.destroyed
  | cdcStop => exact quiet_step _ rfl rfl holds.drum holds.cdc.reopened
  | elsewhere memory => exact quiet_step _ rfl rfl holds.drum holds.cdc

theorem drum_create_holds {path : BackingPath} (loads : path.Loadable) :
    (Drum.create path).Holds (Drum.create path).surface := by
  cases path with
  | unset => exact ⟨rfl, fun _ _ => rfl, fun image none_ => absurd none_ (Option.not_mem_none _),
      fun image none_ => absurd none_ (Option.not_mem_none _)⟩
  | missing => exact ⟨rfl, zeros_hold⟩
  | existing image => exact ⟨rfl, loaded_holds loads.1⟩

theorem cdc_create_holds {path : BackingPath} (loads : path.Loadable) :
    (Cdc.create path).Holds (Cdc.create path).surface := by
  cases path with
  | unset => exact ⟨fun image none_ => absurd none_ (Option.not_mem_none _), fun _ _ => rfl,
      fun image none_ => absurd none_ (Option.not_mem_none _),
      fun image none_ => absurd none_ (Option.not_mem_none _)⟩
  | missing =>
    refine ⟨fun image member => ?_, zeros_hold⟩
    cases Option.mem_some_iff.mp member
    have none_ : ByteImage.empty.length = 0 := rfl
    have blank : (Cdc.create .missing).surfaceSectors = cdcDefaultSectors := rfl
    have some_ : cdcDefaultSectors * cdcWordsPerSector ≠ 0 := by decide
    rw [Cdc.sectorsFor, ByteImage.length_putWords, none_, blank, if_neg some_]
    unfold cdcDefaultSectors cdcSectorBytes cdcWordsPerSector
    omega
  | existing image =>
    refine ⟨fun other member => ?_, loaded_holds loads.1⟩
    cases Option.mem_some_iff.mp member
    rfl

theorem DiscRun.holds (run : DiscRun plant contents) : plant.Holds contents := by
  induction run with
  | start memory drumPath cdcPath drumLoads cdcLoads =>
    exact ⟨drum_create_holds drumLoads, cdc_create_holds cdcLoads⟩
  | step event _ ih => exact (ih.step event).1

/-- Two cards opened on the same file have the same surface. -/
def SameSurface (size otherSize : Nat) (surface other : Surface) : Prop :=
  otherSize = size ∧ ∀ place < size, other place = surface place

/-- In every run the surface and the file of each disc are the values last written, the file gives
the same surface when it is opened again, and every transfer outside a test read acts on those
values. -/
theorem discs_keep_blocks (run : DiscRun plant contents) :
    (HoldsLast plant.drum.surfaceWords plant.drum.surface plant.drum.backingFile contents.drum ∧
        HoldsLast plant.cdc.surfaceWords plant.cdc.surface plant.cdc.backingFile contents.cdc) ∧
      ((∀ image ∈ plant.drum.backingFile, SameSurface plant.drum.surfaceWords
          (Drum.create (.existing image)).surfaceWords plant.drum.surface
          (Drum.create (.existing image)).surface) ∧
        ∀ image ∈ plant.cdc.backingFile, SameSurface plant.cdc.surfaceWords
          (Cdc.create (.existing image)).surfaceWords plant.cdc.surface
          (Cdc.create (.existing image)).surface) ∧
      ∀ event, plant.Serves contents event := by
  have holds := run.holds
  refine ⟨⟨holds.drum.store, holds.cdc.store⟩, ⟨?_, ?_⟩, fun event => (holds.step event).2⟩
  · intro image member
    have again := holds.drum.reopened
    rw [Option.mem_def.mp member] at again
    have words : (Drum.create (.existing image)).surfaceWords = plant.drum.surfaceWords :=
      again.words.trans holds.drum.words.symm
    refine ⟨words, fun place below => ?_⟩
    exact (again.store.surface place (Nat.lt_of_lt_of_eq below words.symm)).trans
      (holds.drum.store.surface place below).symm
  · intro image member
    have again := holds.cdc.reopened
    rw [Option.mem_def.mp member] at again
    have sectors : (Cdc.create (.existing image)).surfaceSectors = plant.cdc.surfaceSectors :=
      holds.cdc.sectors image member
    have words : (Cdc.create (.existing image)).surfaceWords = plant.cdc.surfaceWords :=
      congrArg (· * cdcWordsPerSector) sectors
    refine ⟨words, fun place below => ?_⟩
    exact (again.store.surface place (Nat.lt_of_lt_of_eq below words.symm)).trans
      (holds.cdc.store.surface place below).symm

/-- New cards without files. -/
def newPlant : Plant where
  memory := ⟨4, fun address => BitVec.ofNat 16 (address + 1)⟩
  drum := .create .unset
  cdc := .create .unset

/-- A word of memory is written through the control word, and the older channel reads it back. -/
theorem discs_keep_blocks_mixed :
    let plant := ((newPlant.step (.cdcWrite 7 1)).step (.cdcWrite 5 0x0804)).step (.cdcWrite 5 0)
    let contents := ((⟨newPlant.drum.surface, newPlant.cdc.surface⟩ : Contents).after newPlant
      (.cdcWrite 7 1)).after (newPlant.step (.cdcWrite 7 1)) (.cdcWrite 5 0x0804)
    plant.Serves (contents.after ((newPlant.step (.cdcWrite 7 1)).step (.cdcWrite 5 0x0804))
      (.cdcWrite 5 0)) (.cdcIot .disc 1 0 false) :=
  (discs_keep_blocks (.step _ (.step _ (.step _ (.start _ .unset .unset trivial trivial))))).2.2 _

/-- A test read moves a pattern to memory although its block is past the end of the surface. -/
theorem cdc_test_read_moves :
    let plant := (newPlant.step (.cdcWrite 3 cdcTestmodeBlock)).step (.cdcWrite 7 1)
    let after := plant.step (.cdcWrite 5 0x000C)
    plant.cdc.surfaceWords < (plant.cdc.going 0x000C).request.offset +
        (plant.cdc.going 0x000C).request.count ∧
      (plant.cdc.going 0x000C).request.operation = .read ∧
      plant.memory.words 0 = 1 ∧ after.memory.words 0 = 0o125252 ∧ after.cdc.error = false := by
  decide

end Contents

end Nd100x.Devices
