import Nd100x.Library.Ring
import Nd100x.Scsi.Card

namespace Nd100x.Scsi

open Nd100x.Library
open Nd100x.Hdlc (CoreMemory)

/-- The memory has two bytes for each of its addresses. -/
def memoryBytes : Nat := 33554432

/-- The words of these bytes are installed. -/
def Installed (size place length : Nat) : Prop :=
  ∀ k < length, (place + k) / 2 % 16777216 < size

instance (size place length : Nat) : Decidable (Installed size place length) :=
  inferInstanceAs (Decidable (∀ k < length, _))

theorem Installed.first {size place first second : Nat}
    (installed : Installed size place (first + second)) : Installed size place first :=
  fun k inside => installed k (Nat.lt_add_right _ inside)

theorem Installed.later {size place first second : Nat}
    (installed : Installed size place (first + second)) : Installed size (place + first) second := by
  intro k inside
  rw [Nat.add_assoc]
  exact installed (first + k) (Nat.add_lt_add_left inside _)

namespace Card

variable {card : Card} {place : Nat}

section Mar

theorem getMar_eq (card : Card) :
    card.getMar = card.memoryAddressMSB.toNat * 65536 + card.memoryAddressLSB.toNat := by
  rw [getMar, ← Nat.shiftLeft_add_eq_or_of_lt card.memoryAddressLSB.isLt, Nat.shiftLeft_eq]

theorem getMar_lt (card : Card) : card.getMar < 16777216 := by
  have high := card.memoryAddressMSB.isLt
  have low := card.memoryAddressLSB.isLt
  rw [getMar_eq]
  omega

/-- The low part carries into the high part. -/
theorem incrementMar_getMar (card : Card) :
    card.incrementMar.getMar = (card.getMar + 1) % 16777216 := by
  rw [getMar_eq, incrementMar]
  dsimp only
  rw [BitVec.toNat_ofNat, BitVec.toNat_ofNat, Nat.shiftRight_eq_div_pow]
  omega

end Mar

section ToMemory

/-- The next byte from the chip goes to this place. -/
structure WritesAt (card : Card) (place : Nat) : Prop where
  mar : card.getMar = place / 2 % 16777216
  parity : card.dmaBytesWritten.toNat % 2 = place % 2

/-- The bytes went to memory from this place on. -/
structure Wrote (before after : Card) (place : Nat) (moved : List (BitVec 8)) : Prop where
  size : after.memory.size = before.memory.size
  bytes : byteAt after.memory.words =
    putCircular memoryBytes (byteAt before.memory.words) place moved
  writesAt : after.WritesAt (place + moved.length)
  direction : after.writeNDMemory = before.writeNDMemory

theorem Wrote.refl (writesAt : card.WritesAt place) : card.Wrote card place [] :=
  ⟨rfl, rfl, writesAt, rfl⟩

theorem Wrote.trans {first second third : Card} {early late : List (BitVec 8)}
    (wrote : first.Wrote second place early)
    (later : second.Wrote third (place + early.length) late) :
    first.Wrote third place (early ++ late) where
  size := later.size.trans wrote.size
  bytes := by
    rw [putCircular_append, ← wrote.bytes]
    exact later.bytes
  writesAt := by
    rw [List.length_append, ← Nat.add_assoc]
    exact later.writesAt
  direction := later.direction.trans wrote.direction

/-- A byte write is an update of the bytes of memory. -/
theorem byteAt_putByte (words : Nat → BitVec 16) (index : Nat) (data : BitVec 8) :
    byteAt (putByte words index data) = Function.update (byteAt words) index data := by
  funext other
  by_cases same : other = index
  · rw [same, byteAt_putByte_same, Function.update_self]
  · rw [byteAt_putByte_other _ _ same, Function.update_of_ne same]

theorem even_iff (count : BitVec 32) : count % 2 = 0 ↔ count.toNat % 2 = 0 := by
  rw [← BitVec.toNat_inj, BitVec.toNat_umod]
  rfl

theorem succ_parity (count : BitVec 32) : (count + 1).toNat % 2 = (count.toNat + 1) % 2 := by
  rw [BitVec.toNat_add]
  have one : (1 : BitVec 32).toNat = 1 := rfl
  rw [one]
  omega

/-- One byte is put in its half of its word. -/
theorem writeNextByteDma_wrote (writesAt : card.WritesAt place)
    (installed : Installed card.memory.size place 1) (byte : BitVec 8) :
    card.Wrote (card.writeNextByteDma byte) place [byte] := by
  have mar := writesAt.mar
  have inside : card.getMar % 2 ^ 24 < card.memory.size := by
    have here := installed 0 Nat.one_pos
    rw [Nat.add_zero] at here
    rw [mar]
    omega
  have folded : card.getMar % 2 ^ 24 = place % memoryBytes / 2 := by
    rw [mar, memoryBytes]
    omega
  have half : place % memoryBytes % 2 = place % 2 := by
    rw [memoryBytes]
    omega
  have put : ∀ merged, merged = mergeByte (card.memory.dmaRead card.getMar) (place % memoryBytes)
      byte → (card.memory.dmaWrite card.getMar merged).size = card.memory.size ∧
        byteAt (card.memory.dmaWrite card.getMar merged).words =
          putCircular memoryBytes (byteAt card.memory.words) place [byte] := by
    rintro merged rfl
    rw [CoreMemory.dmaWrite, if_pos inside, CoreMemory.dmaRead, if_pos inside]
    refine ⟨rfl, ?_⟩
    rw [folded]
    exact byteAt_putByte _ _ _
  rw [writeNextByteDma]
  by_cases even : place % 2 = 0
  · rw [if_pos ((even_iff _).mpr (writesAt.parity.trans even))]
    obtain ⟨size, bytes⟩ := put _ (by rw [mergeByte, if_pos (half.trans even)])
    refine ⟨size, bytes, ⟨?_, ?_⟩, rfl⟩
    · change card.getMar = _
      rw [mar, List.length_singleton]
      omega
    · rw [List.length_singleton, succ_parity, Nat.add_mod, writesAt.parity, ← Nat.add_mod]
  · rw [if_neg fun zero => even (writesAt.parity.symm.trans ((even_iff _).mp zero))]
    obtain ⟨size, bytes⟩ := put _ (by
      rw [mergeByte, if_neg fun zero => even (half.symm.trans zero)])
    refine ⟨size, bytes, ⟨?_, ?_⟩, rfl⟩
    · refine (incrementMar_getMar _).trans ?_
      change (card.getMar + 1) % 16777216 = _
      rw [mar, List.length_singleton]
      omega
    · change (card.dmaBytesWritten + 1).toNat % 2 = _
      rw [List.length_singleton, succ_parity, Nat.add_mod, writesAt.parity, ← Nat.add_mod]

/-- What neither moves a byte nor counts one leaves the place of the next byte. -/
structure Rests (before after : Card) : Prop where
  memory : after.memory = before.memory
  mar : after.getMar = before.getMar
  written : after.dmaBytesWritten = before.dmaBytesWritten
  read : after.dmaBytesRead = before.dmaBytesRead
  latch : after.dmaReadData = before.dmaReadData
  direction : after.writeNDMemory = before.writeNDMemory

theorem ncrAnswers_rests (card : Card) (request interrupt : Bool) :
    card.Rests (card.ncrAnswers request interrupt) := ⟨rfl, rfl, rfl, rfl, rfl, rfl⟩

theorem complete_rests (card : Card) : card.Rests card.complete := by
  rw [complete]
  dsimp only
  split_ifs <;> exact ⟨rfl, rfl, rfl, rfl, rfl, rfl⟩

theorem Rests.writesAt {before after : Card} (rests : before.Rests after)
    (writesAt : before.WritesAt place) : after.WritesAt place where
  mar := rests.mar.trans writesAt.mar
  parity := by
    rw [rests.written]
    exact writesAt.parity

theorem Rests.wrote {before after : Card} (rests : before.Rests after)
    (writesAt : before.WritesAt place) : before.Wrote after place [] := by
  have same := Wrote.refl (rests.writesAt writesAt)
  refine ⟨?_, ?_, same.writesAt, rests.direction⟩
  · rw [rests.memory]
  · rw [putCircular, rests.memory]

/-- The transfer loop puts its bytes one after the other. -/
theorem transfers_wrote (cycles : List DmaCycle) (direction : card.writeNDMemory = true)
    (writesAt : card.WritesAt place)
    (installed : Installed card.memory.size place (card.transfers cycles).1.length) :
    card.Wrote (card.transfers cycles).2 place (card.transfers cycles).1 := by
  induction cycles generalizing card place with
  | nil => exact .refl writesAt
  | cons cycle rest ih =>
    rw [transfers] at installed ⊢
    split_ifs at installed ⊢ with goesOn
    · have moved : card.transfer cycle = (cycle.byte,
          (card.ncrAnswers cycle.request cycle.interrupt).writeNextByteDma cycle.byte) := by
        rw [transfer, if_pos direction]
      rw [moved] at installed ⊢
      dsimp only at installed ⊢
      rw [List.length_cons, Nat.add_comm] at installed
      have answered := (ncrAnswers_rests card cycle.request cycle.interrupt).wrote writesAt
      have wrote := answered.trans (writeNextByteDma_wrote answered.writesAt
        installed.first cycle.byte)
      refine wrote.trans (ih (wrote.direction.trans direction) wrote.writesAt ?_)
      rw [wrote.size]
      exact installed.later
    · exact .refl writesAt

theorem take_wrote (step : CardStep) (direction : card.writeNDMemory = true)
    (writesAt : card.WritesAt place)
    (installed : Installed card.memory.size place (card.take step).1.length) :
    card.Wrote (card.take step).2 place (card.take step).1 := by
  cases step with
  | clock request interrupt => exact (ncrAnswers_rests card request interrupt).wrote writesAt
  | acknowledge =>
    have rests : card.Rests { card with interruptFromNCR := false } :=
      ⟨rfl, rfl, rfl, rfl, rfl, rfl⟩
    exact rests.wrote writesAt
  | step cycles =>
    have completed := (complete_rests card).wrote writesAt
    rw [take, stepGoState] at installed ⊢
    dsimp only at installed ⊢
    split_ifs at installed ⊢
    · refine completed.trans (transfers_wrote cycles (completed.direction.trans direction)
        completed.writesAt ?_)
      rw [completed.size]
      exact installed
    · exact completed
    · exact .refl writesAt

theorem takeAll_wrote (steps : List CardStep) (direction : card.writeNDMemory = true)
    (writesAt : card.WritesAt place)
    (installed : Installed card.memory.size place (card.takeAll steps).1.length) :
    card.Wrote (card.takeAll steps).2 place (card.takeAll steps).1 := by
  induction steps generalizing card place with
  | nil => exact .refl writesAt
  | cons step rest ih =>
    rw [takeAll] at installed ⊢
    dsimp only at installed ⊢
    rw [List.length_append] at installed
    have wrote := take_wrote step direction writesAt installed.first
    refine wrote.trans (ih (wrote.direction.trans direction) wrote.writesAt ?_)
    rw [wrote.size]
    exact installed.later

/-- A GO counts its bytes from zero and leaves the address. -/
theorem writeControl_go {go : Go} {toMemory : Bool} (moves : go.Moves toMemory) (card : Card) :
    (card.writeControl go.control).memory = card.memory ∧
      (card.writeControl go.control).getMar = card.getMar ∧
      (card.writeControl go.control).dmaBytesWritten = 0 ∧
      (card.writeControl go.control).dmaBytesRead = 0 ∧
      (card.writeControl go.control).writeNDMemory = toMemory := by
  obtain ⟨active, clear, _, direction⟩ := moves
  rw [writeControl]
  dsimp only
  rw [if_neg (Bool.eq_false_iff.mp clear), if_pos active]
  exact ⟨rfl, rfl, rfl, rfl, direction⟩

/-- GOs of even length put their bytes as one stream. -/
theorem goes_wrote (goes : List Go) (moves : ∀ go ∈ goes, go.Moves true)
    (mar : card.getMar = place / 2 % 16777216) (even : place % 2 = 0)
    (pairs : ∀ moved ∈ (card.goes goes).1.dropLast, moved.length % 2 = 0)
    (installed : Installed card.memory.size place (card.goes goes).1.flatten.length) :
    (card.goes goes).2.memory.size = card.memory.size ∧
      byteAt (card.goes goes).2.memory.words = putCircular memoryBytes (byteAt card.memory.words)
        place (card.goes goes).1.flatten ∧
      (card.goes goes).2.getMar =
        (place + (card.goes goes).1.flatten.length) / 2 % 16777216 := by
  induction goes generalizing card place with
  | nil => exact ⟨rfl, rfl, mar⟩
  | cons go rest ih =>
    rw [Card.goes] at pairs installed ⊢
    dsimp only at pairs installed ⊢
    obtain ⟨memory, same, written, _, direction⟩ :=
      writeControl_go (moves go List.mem_cons_self) card
    set started := card.writeControl go.control
    have writesAt : started.WritesAt place :=
      ⟨same.trans mar, by rw [written]; exact even.symm⟩
    rw [List.flatten_cons, List.length_append] at installed
    have wrote := takeAll_wrote go.steps direction writesAt (by
      rw [memory]
      exact installed.first)
    cases rest with
    | nil =>
      rw [Card.goes, List.flatten_cons, List.flatten_nil, List.append_nil]
      refine ⟨?_, ?_, wrote.writesAt.mar⟩
      · rw [← memory]
        exact wrote.size
      · rw [← memory]
        exact wrote.bytes
    | cons next rest =>
      have whole : (started.takeAll go.steps).1.length % 2 = 0 :=
        pairs _ List.mem_cons_self
      obtain ⟨size, bytes, last⟩ := ih
        (fun other member => moves other (List.mem_cons_of_mem _ member))
        wrote.writesAt.mar (by omega)
        (fun moved member => pairs moved (List.mem_cons_of_mem _ member)) (by
          rw [wrote.size, memory]
          exact installed.later)
      refine ⟨?_, ?_, ?_⟩
      · rw [size, wrote.size, memory]
      · rw [bytes, wrote.bytes, List.flatten_cons, putCircular_append, memory]
      · rw [last, List.flatten_cons, List.length_append, Nat.add_assoc]

end ToMemory

section FromMemory

/-- The next byte to the chip comes from this place. An odd one is in the latch. -/
structure ReadsAt (card : Card) (place : Nat) : Prop where
  mar : card.getMar = (place + 1) / 2 % 16777216
  parity : card.dmaBytesRead.toNat % 2 = place % 2
  latch : place % 2 = 1 → card.dmaReadData = card.memory.words (place / 2 % 16777216)

/-- The bytes came from memory from this place on. -/
structure Sent (before after : Card) (place : Nat) (moved : List (BitVec 8)) : Prop where
  memory : after.memory = before.memory
  bytes : moved = circular memoryBytes (byteAt before.memory.words) place moved.length
  readsAt : after.ReadsAt (place + moved.length)
  direction : after.writeNDMemory = before.writeNDMemory

theorem Sent.refl (readsAt : card.ReadsAt place) : card.Sent card place [] :=
  ⟨rfl, rfl, readsAt, rfl⟩

theorem Sent.trans {first second third : Card} {early late : List (BitVec 8)}
    (sent : first.Sent second place early)
    (later : second.Sent third (place + early.length) late) :
    first.Sent third place (early ++ late) where
  memory := later.memory.trans sent.memory
  bytes := by
    rw [List.length_append, circular_append, ← sent.bytes, ← sent.memory, ← later.bytes]
  readsAt := by
    rw [List.length_append, ← Nat.add_assoc]
    exact later.readsAt
  direction := later.direction.trans sent.direction

theorem Rests.sent {before after : Card} (rests : before.Rests after)
    (readsAt : before.ReadsAt place) : before.Sent after place [] := by
  have same : after.ReadsAt place := by
    refine ⟨rests.mar.trans readsAt.mar, ?_, ?_⟩
    · rw [rests.read]
      exact readsAt.parity
    · rw [rests.latch, rests.memory]
      exact readsAt.latch
  exact ⟨rests.memory, rfl, (Sent.refl same).readsAt, rests.direction⟩

/-- One byte is the half of its word. -/
theorem readNextByteDma_sent (readsAt : card.ReadsAt place)
    (installed : Installed card.memory.size place 1) :
    card.Sent card.readNextByteDma.2 place [card.readNextByteDma.1] := by
  have mar := readsAt.mar
  have inside := installed 0 Nat.one_pos
  rw [Nat.add_zero] at inside
  have word : place % memoryBytes / 2 = place / 2 % 16777216 := by
    rw [memoryBytes]
    omega
  have half : place % memoryBytes % 2 = place % 2 := by
    rw [memoryBytes]
    omega
  have one : ∀ byte, byte = byteAt card.memory.words (place % memoryBytes) →
      [byte] = circular memoryBytes (byteAt card.memory.words) place [byte].length := by
    rintro byte rfl
    rfl
  rw [readNextByteDma]
  by_cases even : place % 2 = 0
  · rw [if_pos ((even_iff _).mpr (readsAt.parity.trans even))]
    have here : card.getMar = place / 2 % 16777216 := by omega
    have fetched : card.memory.dmaRead card.getMar = card.memory.words (place / 2 % 16777216) := by
      rw [CoreMemory.dmaRead, here, if_pos (by omega)]
      congr 1
      omega
    refine ⟨rfl, one _ ?_, ⟨?_, ?_, fun _ => ?_⟩, rfl⟩
    · dsimp only
      rw [fetched, byteAt, if_pos (half.trans even), word]
    · refine (incrementMar_getMar _).trans ?_
      change (card.getMar + 1) % 16777216 = _
      rw [here, List.length_singleton]
      omega
    · change (card.dmaBytesRead + 1).toNat % 2 = _
      rw [List.length_singleton, succ_parity, Nat.add_mod, readsAt.parity, ← Nat.add_mod]
    · change card.memory.dmaRead card.getMar = card.memory.words _
      rw [fetched, List.length_singleton]
      congr 1
      omega
  · rw [if_neg fun zero => even (readsAt.parity.symm.trans ((even_iff _).mp zero))]
    have odd : place % 2 = 1 := by omega
    refine ⟨rfl, one _ ?_, ⟨?_, ?_, fun next => ?_⟩, rfl⟩
    · dsimp only
      rw [readsAt.latch odd, byteAt, if_neg fun zero => even (half.symm.trans zero), word]
    · change card.getMar = _
      rw [mar, List.length_singleton]
      omega
    · change (card.dmaBytesRead + 1).toNat % 2 = _
      rw [List.length_singleton, succ_parity, Nat.add_mod, readsAt.parity, ← Nat.add_mod]
    · rw [List.length_singleton] at next
      omega

theorem transfers_sent (cycles : List DmaCycle) (direction : card.writeNDMemory = false)
    (readsAt : card.ReadsAt place)
    (installed : Installed card.memory.size place (card.transfers cycles).1.length) :
    card.Sent (card.transfers cycles).2 place (card.transfers cycles).1 := by
  induction cycles generalizing card place with
  | nil => exact .refl readsAt
  | cons cycle rest ih =>
    rw [transfers] at installed ⊢
    split_ifs at installed ⊢ with goesOn
    · have moved : card.transfer cycle = (card.readNextByteDma.1,
          card.readNextByteDma.2.ncrAnswers cycle.request cycle.interrupt) := by
        rw [transfer, if_neg (Bool.eq_false_iff.mp direction)]
      rw [moved] at installed ⊢
      dsimp only at installed ⊢
      rw [List.length_cons, Nat.add_comm] at installed
      have read := readNextByteDma_sent readsAt installed.first
      have sent := read.trans ((ncrAnswers_rests card.readNextByteDma.2 cycle.request
        cycle.interrupt).sent read.readsAt)
      rw [List.append_nil] at sent
      refine sent.trans (ih (sent.direction.trans direction) sent.readsAt ?_)
      rw [sent.memory]
      exact installed.later
    · exact .refl readsAt

theorem take_sent (step : CardStep) (direction : card.writeNDMemory = false)
    (readsAt : card.ReadsAt place)
    (installed : Installed card.memory.size place (card.take step).1.length) :
    card.Sent (card.take step).2 place (card.take step).1 := by
  cases step with
  | clock request interrupt => exact (ncrAnswers_rests card request interrupt).sent readsAt
  | acknowledge =>
    have rests : card.Rests { card with interruptFromNCR := false } :=
      ⟨rfl, rfl, rfl, rfl, rfl, rfl⟩
    exact rests.sent readsAt
  | step cycles =>
    have completed := (complete_rests card).sent readsAt
    rw [take, stepGoState] at installed ⊢
    dsimp only at installed ⊢
    split_ifs at installed ⊢
    · refine completed.trans (transfers_sent cycles (completed.direction.trans direction)
        completed.readsAt ?_)
      rw [completed.memory]
      exact installed
    · exact completed
    · exact .refl readsAt

theorem takeAll_sent (steps : List CardStep) (direction : card.writeNDMemory = false)
    (readsAt : card.ReadsAt place)
    (installed : Installed card.memory.size place (card.takeAll steps).1.length) :
    card.Sent (card.takeAll steps).2 place (card.takeAll steps).1 := by
  induction steps generalizing card place with
  | nil => exact .refl readsAt
  | cons step rest ih =>
    rw [takeAll] at installed ⊢
    dsimp only at installed ⊢
    rw [List.length_append] at installed
    have sent := take_sent step direction readsAt installed.first
    refine sent.trans (ih (sent.direction.trans direction) sent.readsAt ?_)
    rw [sent.memory]
    exact installed.later

/-- GOs of even length send the bytes of memory as one stream. -/
theorem goes_sent (goes : List Go) (moves : ∀ go ∈ goes, go.Moves false)
    (mar : card.getMar = (place + 1) / 2 % 16777216) (even : place % 2 = 0)
    (pairs : ∀ moved ∈ (card.goes goes).1.dropLast, moved.length % 2 = 0)
    (installed : Installed card.memory.size place (card.goes goes).1.flatten.length) :
    (card.goes goes).2.memory = card.memory ∧
      (card.goes goes).1.flatten = circular memoryBytes (byteAt card.memory.words) place
        (card.goes goes).1.flatten.length ∧
      (card.goes goes).2.getMar =
        (place + (card.goes goes).1.flatten.length + 1) / 2 % 16777216 := by
  induction goes generalizing card place with
  | nil => exact ⟨rfl, rfl, mar⟩
  | cons go rest ih =>
    rw [Card.goes] at pairs installed ⊢
    dsimp only at pairs installed ⊢
    obtain ⟨memory, same, _, read, direction⟩ :=
      writeControl_go (moves go List.mem_cons_self) card
    set started := card.writeControl go.control
    have readsAt : started.ReadsAt place :=
      ⟨same.trans mar, by rw [read]; exact even.symm, fun odd => by omega⟩
    rw [List.flatten_cons, List.length_append] at installed
    have sent := takeAll_sent go.steps direction readsAt (by
      rw [memory]
      exact installed.first)
    cases rest with
    | nil =>
      rw [Card.goes, List.flatten_cons, List.flatten_nil, List.append_nil]
      refine ⟨sent.memory.trans memory, ?_, sent.readsAt.mar⟩
      rw [← memory]
      exact sent.bytes
    | cons next rest =>
      have whole : (started.takeAll go.steps).1.length % 2 = 0 :=
        pairs _ List.mem_cons_self
      obtain ⟨same, bytes, last⟩ := ih
        (fun other member => moves other (List.mem_cons_of_mem _ member))
        sent.readsAt.mar (by omega)
        (fun moved member => pairs moved (List.mem_cons_of_mem _ member)) (by
          rw [sent.memory, memory]
          exact installed.later)
      refine ⟨same.trans (sent.memory.trans memory), ?_, ?_⟩
      · rw [List.flatten_cons, List.length_append, circular_append, ← memory, ← sent.bytes,
          ← sent.memory, ← bytes]
      · rw [last, List.flatten_cons, List.length_append, Nat.add_assoc place]

end FromMemory

end Card

section Packing

/-- Only the last GO may move an odd number of bytes. -/
def Paired (streams : List (List (BitVec 8))) : Prop :=
  ∀ moved ∈ streams.dropLast, moved.length % 2 = 0

instance (streams : List (List (BitVec 8))) : Decidable (Paired streams) :=
  inferInstanceAs (Decidable (∀ moved ∈ _, _))

/-- The last word below a carry of the memory address register comes first. -/
def carryCard : Card where
  memoryAddressLSB := 0xFFFF
  memoryAddressMSB := 0
  interruptEnabled := true
  active := false
  readyForTransfer := true
  testMode := false
  dmaEnable := false
  writeNDMemory := false
  resetOnSCSIBus := false
  dataRequestFromNCR := false
  interruptFromNCR := false
  dmaBytesRead := 0
  dmaBytesWritten := 0
  dmaReadData := 0
  interruptBits := 0
  memory := ⟨65540, fun _ => 0xABCD⟩

def carryGoes (direction : BitVec 16) : List Go :=
  [⟨0x25 ||| direction, [.clock true false, .step [⟨1, true, false⟩], .step [⟨2, false, true⟩],
      .step []]⟩,
    ⟨0x25 ||| direction, [.acknowledge, .clock true false,
      .step [⟨3, true, false⟩, ⟨4, true, false⟩, ⟨5, false, true⟩]]⟩]

end Packing

end Nd100x.Scsi
