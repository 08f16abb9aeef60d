import Nd100x.Gateway.Disk
import Mathlib.Data.List.GetD

namespace Nd100x.Gateway

open Nd100x.Library

section Images

variable {image data : List Byte} {offset count size : Nat}

theorem gap_length (image : List Byte) (offset : Nat) :
    ((image ++ List.replicate (offset - image.length) 0).take offset).length = offset := by
  rw [List.length_take, List.length_append, List.length_replicate]
  omega

/-- What lies behind the offset after a write. -/
theorem drop_writeAt (image : List Byte) (offset : Nat) (data : List Byte) :
    (writeAt image offset data).drop offset =
      data ++ (image.drop offset).drop data.length := by
  rw [writeAt, List.drop_drop]
  split_ifs with none_
  · rw [none_, List.nil_append, List.length_nil, Nat.add_zero]
  · rw [List.drop_append_of_le_length (gap_length image offset).ge,
      List.drop_of_length_le (gap_length image offset).le, List.nil_append]

/-- Nothing is changed outside the bytes that are written. -/
theorem writeAt_outside {k : Nat} (outside : k < offset ∨ offset + data.length ≤ k) :
    (writeAt image offset data).getD k 0 = image.getD k 0 := by
  rw [writeAt]
  split_ifs with none_
  · rfl
  · rcases outside with before | behind
    · have inside : k < ((image ++ List.replicate (offset - image.length) 0).take offset).length := by
        rwa [gap_length]
      rw [List.getD_append _ _ _ _ inside, List.getD_eq_getElem?_getD, List.getElem?_take,
        if_pos before, List.getD_eq_getElem?_getD]
      rcases Nat.lt_or_ge k image.length with there | gap
      · rw [List.getElem?_append_left there]
      · rw [List.getElem?_append_right gap, List.getElem?_eq_none gap, List.getElem?_replicate]
        split_ifs <;> rfl
    · rw [List.getD_append_right _ _ _ _ (by rw [gap_length]; omega), gap_length,
        List.getD_append_right _ _ _ _ (by omega), List.getD_eq_getElem?_getD,
        List.getElem?_drop, List.getD_eq_getElem?_getD]
      congr 2
      omega

/-- A block that is filled with zeros is the block of the image just where the bytes that were left
out are zeros there. -/
theorem filled_eq_iff (few : count ≤ size) :
    (readAt image offset count ++
          List.replicate (size - (readAt image offset count).length) 0 =
        readAt image offset size ∧ (readAt image offset size).length = size) ↔
      ∀ k, (readAt image offset count).length ≤ k → k < size →
        (image.drop offset)[k]? = some 0 := by
  rw [readAt, readAt]
  generalize image.drop offset = rest
  have short : (rest.take count).length ≤ size := (List.length_take_le _ _).trans few
  constructor
  · rintro ⟨same, -⟩ k behind inside
    have byte := congrArg (fun bytes => bytes[k]?) same
    rw [List.getElem?_append_right behind, List.getElem?_replicate, if_pos (by omega),
      List.getElem?_take, if_pos inside] at byte
    exact byte.symm
  · intro zeros
    have same : rest.take count ++ List.replicate (size - (rest.take count).length) 0 =
        rest.take size := by
      refine List.ext_getElem? fun k => ?_
      rw [List.getElem?_take]
      split_ifs with inside
      · rcases Nat.lt_or_ge k (rest.take count).length with got | left
        · rw [List.getElem?_append_left got, List.getElem?_take, if_pos]
          exact got.trans_le (List.length_take_le _ _)
        · rw [List.getElem?_append_right left, List.getElem?_replicate, if_pos (by omega),
            zeros k left inside]
      · rw [List.getElem?_eq_none]
        rw [List.length_append, List.length_replicate]
        omega
    refine ⟨same, ?_⟩
    rw [← same, List.length_append, List.length_replicate]
    omega

/-- All data are stored just where those that were left out are there already. -/
theorem stored_eq_iff (whole : data.length = size) :
    readAt (writeAt image offset (data.take count)) offset size = data ↔
      ∀ k, (data.take count).length ≤ k → k < size → (image.drop offset)[k]? = data[k]? := by
  rw [readAt, drop_writeAt]
  generalize image.drop offset = rest
  have place (k : Nat) (left : (data.take count).length ≤ k) :
      (data.take count ++ rest.drop (data.take count).length)[k]? = rest[k]? := by
    rw [List.getElem?_append_right left, List.getElem?_drop, Nat.add_sub_cancel' left]
  constructor
  · intro same k left inside
    have byte := congrArg (fun bytes => bytes[k]?) same
    rwa [List.getElem?_take, if_pos inside, place k left] at byte
  · intro there
    refine List.ext_getElem? fun k => ?_
    rw [List.getElem?_take]
    split_ifs with inside
    · rcases Nat.lt_or_ge k (data.take count).length with put | left
      · rw [List.getElem?_append_left put, List.getElem?_take, if_pos]
        exact put.trans_le (List.length_take_le _ _)
      · rw [place k left, there k left inside]
    · rw [List.getElem?_eq_none (by omega)]

end Images

namespace DiskServer

/- What a request is owed. -/

def header (type : Byte) (buf : Message) : Message := [type, driveTypeOf buf, unitOf buf]

/-- One answer of the reading type is sent, with the whole block or with the error status, and all
images are left as they are. -/
def ReadAnswered (s : DiskServer) (buf : Message) (t : DiskServer) : Prop :=
  t.files = s.files ∧
    ∃ content, t.sent = s.sent ++ [header readResponse buf ++ content] ∧
      (content = [errorStatus] ∨
        9 ≤ buf.length ∧ ∃ file, s.diskOf buf = some file ∧
          content = readAt (s.files file) (offsetOf buf) (sizeOf_ buf) ∧
          (readAt (s.files file) (offsetOf buf) (sizeOf_ buf)).length = sizeOf_ buf)

/-- All of the data are on the image, and nothing else has changed. -/
structure DataStored (s : DiskServer) (buf : Message) (t : DiskServer) (file : Nat) : Prop where
  whole : (writeDataOf buf).length = sizeOf_ buf
  stored : readAt (t.files file) (offsetOf buf) (sizeOf_ buf) = writeDataOf buf
  outside : ∀ k, k < offsetOf buf ∨ offsetOf buf + sizeOf_ buf ≤ k →
    (t.files file).getD k 0 = (s.files file).getD k 0
  others : ∀ other, other ≠ file → t.files other = s.files other

/-- One acknowledge is sent. It is good only for data that are stored. -/
def WriteAnswered (s : DiskServer) (buf : Message) (t : DiskServer) : Prop :=
  ∃ status, t.sent = s.sent ++ [header writeResponse buf ++ [status]] ∧
    (status = errorStatus ∧ t.files = s.files ∨
      status = goodStatus ∧ 9 ≤ buf.length ∧
        ∃ file, s.diskOf buf = some file ∧ DataStored s buf t file)

/-- Every request is answered once and truly, and other messages are not answered. -/
def Answered (s : DiskServer) (request : DiskRequest) : Prop :=
  3 ≤ request.message.length →
    if typeOf request.message = readRequest then
      ReadAnswered s request.message (s.onMessage request)
    else if typeOf request.message = writeRequest then
      WriteAnswered s request.message (s.onMessage request)
    else s.onMessage request = s

/-- The bytes that readSync left out are zeros on the image. -/
def LeavesZeros (s : DiskServer) (buf : Message) (file count : Nat) : Prop :=
  ∀ k, (readAt (s.files file) (offsetOf buf) (min count (sizeOf_ buf))).length ≤ k →
    k < sizeOf_ buf → ((s.files file).drop (offsetOf buf))[k]? = some 0

/-- The message has all its data, and those that writeSync left out are on the image already. -/
def LeavesStored (s : DiskServer) (buf : Message) (file count : Nat) : Prop :=
  9 + sizeOf_ buf ≤ buf.length ∧
    ∀ k, ((writeDataOf buf).take count).length ≤ k → k < sizeOf_ buf →
      ((s.files file).drop (offsetOf buf))[k]? = (writeDataOf buf)[k]?

/-- A request for a drive with an image has a whole header, and its transfer throws or leaves out
nothing that matters. -/
def Complete (s : DiskServer) (request : DiskRequest) : Prop :=
  let buf := request.message
  3 ≤ buf.length → ∀ file, s.diskOf buf = some file →
    (typeOf buf = readRequest →
      9 ≤ buf.length ∧ ∀ count, request.moves = some count → s.LeavesZeros buf file count) ∧
      (typeOf buf = writeRequest →
        9 ≤ buf.length ∧ ∀ count, request.moves = some count → s.LeavesStored buf file count)

variable {s : DiskServer} {buf : Message} {file count : Nat}

/- Reading. -/

/-- A block that looks like the error status has nothing left out. -/
theorem nothing_left {got : List Byte} {size : Nat}
    (error : got ++ List.replicate (size - got.length) 0 = [errorStatus]) :
    size ≤ got.length := by
  have length := congrArg List.length error
  rw [List.length_append, List.length_replicate, List.length_singleton] at length
  rcases Nat.eq_zero_or_pos got.length with none_ | some_
  · rw [List.length_eq_zero_iff.mp none_, List.nil_append, List.length_nil,
      show size - 0 = 1 by omega] at error
    have zero : (0 : Byte) = errorStatus := (List.cons.inj error).1
    exact absurd zero (by decide)
  · omega

theorem readBlock_answered (long : 9 ≤ buf.length) (found : s.diskOf buf = some file)
    (moves : Option Nat) :
    ReadAnswered s buf (s.readBlock file buf moves) ↔
      ∀ count, moves = some count → s.LeavesZeros buf file count := by
  cases moves with
  | none =>
    refine iff_of_true ⟨rfl, [errorStatus], rfl, .inl rfl⟩ ?_
    exact fun count here => absurd here.symm (Option.some_ne_none count)
  | some count =>
    have filled := @filled_eq_iff (s.files file) (offsetOf buf) _ _
      (Nat.min_le_right count (sizeOf_ buf))
    constructor
    · rintro ⟨-, content, sent, truth⟩ other here
      obtain rfl := Option.some.inj here
      have same := List.append_cancel_left sent
      obtain rfl := List.append_cancel_left (List.cons.inj same).1
      rcases truth with error | ⟨-, other, place, whole⟩
      · intro k left inside
        exact absurd (inside.trans_le ((nothing_left error).trans left)) (Nat.lt_irrefl k)
      · obtain rfl := Option.some.inj (found.symm.trans place)
        exact filled.mp whole
    · intro zeros
      obtain ⟨same, whole⟩ := filled.mpr (zeros count rfl)
      exact ⟨rfl, _, rfl, .inr ⟨long, file, found, same, whole⟩⟩

/- Writing. -/

theorem writeDataOf_length (buf : Message) :
    (writeDataOf buf).length = min (sizeOf_ buf) (buf.length - 9) := by
  rw [writeDataOf, List.length_take, List.length_drop]

theorem writeBlock_answered (long : 9 ≤ buf.length) (found : s.diskOf buf = some file)
    (moves : Option Nat) :
    WriteAnswered s buf (s.writeBlock file buf moves) ↔
      ∀ count, moves = some count → s.LeavesStored buf file count := by
  have length := writeDataOf_length buf
  cases moves with
  | none =>
    refine iff_of_true ⟨errorStatus, rfl, .inl ⟨rfl, rfl⟩⟩ ?_
    exact fun count here => absurd here.symm (Option.some_ne_none count)
  | some count =>
    have image : ((s.writeBlock file buf (some count)).files file) =
        writeAt (s.files file) (offsetOf buf) ((writeDataOf buf).take count) :=
      Function.update_self _ _ _
    constructor
    · rintro ⟨status, sent, truth⟩ other here
      obtain rfl := Option.some.inj here
      have same := @List.append_cancel_left _ (header writeResponse buf) [goodStatus] [status]
        (List.cons.inj (List.append_cancel_left sent)).1
      have good : goodStatus = status := (List.cons.inj same).1
      rcases truth with ⟨error, -⟩ | ⟨-, -, other, place, data⟩
      · exact absurd (good.trans error) (by decide)
      · obtain rfl := Option.some.inj (found.symm.trans place)
        have stored := data.stored
        rw [image] at stored
        refine ⟨?_, (stored_eq_iff data.whole).mp stored⟩
        have whole := data.whole
        omega
    · intro leaves
      obtain ⟨all, there⟩ := leaves count rfl
      have whole : (writeDataOf buf).length = sizeOf_ buf := by omega
      refine ⟨goodStatus, rfl, .inr ⟨rfl, long, file, found, ?_⟩⟩
      exact
        { whole := whole
          stored := by
            rw [image]
            exact (stored_eq_iff whole).mpr there
          outside := by
            intro k outside
            rw [image]
            refine writeAt_outside (outside.imp_right fun behind => ?_)
            have part := List.length_take_le' count (writeDataOf buf)
            omega
          others := fun other apart => Function.update_of_ne apart _ _ }

/- Every message. -/

theorem readRequest_ne_writeRequest : readRequest ≠ writeRequest := by decide

theorem more_sent (answer : Message) : s.sent ≠ s.sent ++ [answer] :=
  fun same => List.cons_ne_nil answer [] (List.append_right_eq_self.mp same.symm)

theorem noImage_answered (none_ : s.diskOf buf = none) (long : 3 ≤ buf.length)
    (moves : Option Nat) : s.Answered ⟨buf, moves⟩ := by
  intro _
  have step : s.onMessage ⟨buf, moves⟩ =
      if typeOf buf = readRequest ∨ typeOf buf = writeRequest then s.noImage buf else s := by
    simp only [onMessage]
    rw [if_neg (Nat.not_lt.mpr long), none_]
  dsimp only
  rw [step, noImage]
  by_cases reads : typeOf buf = readRequest
  · rw [if_pos reads, if_pos (.inl reads), if_pos reads]
    exact ⟨rfl, [errorStatus], rfl, .inl rfl⟩
  · rw [if_neg reads, if_neg reads]
    by_cases writes : typeOf buf = writeRequest
    · rw [if_pos writes, if_pos (.inr writes)]
      exact ⟨errorStatus, rfl, .inl ⟨rfl, rfl⟩⟩
    · rw [if_neg writes, if_neg (not_or.mpr ⟨reads, writes⟩)]

/- A message for a drive with an image. -/

theorem onMessage_image (long : 3 ≤ buf.length) (found : s.diskOf buf = some file)
    (moves : Option Nat) :
    s.onMessage ⟨buf, moves⟩ =
      if typeOf buf = readRequest ∧ 9 ≤ buf.length then s.readBlock file buf moves
      else if typeOf buf = writeRequest ∧ 9 ≤ buf.length then s.writeBlock file buf moves
      else s := by
  simp only [onMessage]
  rw [if_neg (Nat.not_lt.mpr long), found]

theorem onMessage_read (whole : 9 ≤ buf.length) (found : s.diskOf buf = some file)
    (reads : typeOf buf = readRequest) (moves : Option Nat) :
    s.onMessage ⟨buf, moves⟩ = s.readBlock file buf moves := by
  rw [onMessage_image (by omega) found, if_pos ⟨reads, whole⟩]

theorem onMessage_write (whole : 9 ≤ buf.length) (found : s.diskOf buf = some file)
    (writes : typeOf buf = writeRequest) (moves : Option Nat) :
    s.onMessage ⟨buf, moves⟩ = s.writeBlock file buf moves := by
  rw [onMessage_image (by omega) found, if_neg, if_pos ⟨writes, whole⟩]
  exact fun both => readRequest_ne_writeRequest (both.1.symm.trans writes)

/-- A header that is cut short gets no answer. -/
theorem onMessage_cut (cut : ¬ 9 ≤ buf.length) (found : s.diskOf buf = some file)
    (moves : Option Nat) : s.onMessage ⟨buf, moves⟩ = s := by
  by_cases long : 3 ≤ buf.length
  · rw [onMessage_image long found, if_neg fun both => cut both.2, if_neg fun both => cut both.2]
  · simp only [onMessage]
    exact if_pos (Nat.not_le.mp long)

theorem onMessage_other (found : s.diskOf buf = some file) (reads : typeOf buf ≠ readRequest)
    (writes : typeOf buf ≠ writeRequest) (moves : Option Nat) : s.onMessage ⟨buf, moves⟩ = s := by
  by_cases long : 3 ≤ buf.length
  · rw [onMessage_image long found, if_neg fun both => reads both.1,
      if_neg fun both => writes both.1]
  · simp only [onMessage]
    exact if_pos (Nat.not_le.mp long)

/-- One message is answered once and truly exactly where it is complete. -/
theorem answered_iff (s : DiskServer) (request : DiskRequest) :
    s.Answered request ↔ s.Complete request := by
  obtain ⟨buf, moves⟩ := request
  by_cases long : 3 ≤ buf.length
  · cases found : s.diskOf buf with
    | none =>
      refine iff_of_true (noImage_answered found long moves) fun _ file here => ?_
      exact absurd (here.symm.trans found) (Option.some_ne_none file)
    | some file =>
      have owed : s.Answered ⟨buf, moves⟩ ↔
          if typeOf buf = readRequest then ReadAnswered s buf (s.onMessage ⟨buf, moves⟩)
          else if typeOf buf = writeRequest then WriteAnswered s buf (s.onMessage ⟨buf, moves⟩)
          else s.onMessage ⟨buf, moves⟩ = s :=
        ⟨fun answered => answered long, fun answered _ => answered⟩
      have here : s.Complete ⟨buf, moves⟩ ↔
          (typeOf buf = readRequest →
            9 ≤ buf.length ∧ ∀ count, moves = some count → s.LeavesZeros buf file count) ∧
          (typeOf buf = writeRequest →
            9 ≤ buf.length ∧ ∀ count, moves = some count → s.LeavesStored buf file count) :=
        ⟨fun complete => complete long file found, fun both _ other place => by
          obtain rfl := Option.some.inj (found.symm.trans place)
          exact both⟩
      rw [owed, here]
      by_cases reads : typeOf buf = readRequest
      · have other : typeOf buf ≠ writeRequest := fun writes =>
          readRequest_ne_writeRequest (reads.symm.trans writes)
        rw [if_pos reads]
        by_cases whole : 9 ≤ buf.length
        · rw [onMessage_read whole found reads, readBlock_answered whole found]
          exact ⟨fun leaves => ⟨fun _ => ⟨whole, leaves⟩, fun writes => absurd writes other⟩,
            fun both => (both.1 reads).2⟩
        · rw [onMessage_cut whole found]
          refine iff_of_false ?_ fun both => whole (both.1 reads).1
          rintro ⟨-, content, sent, -⟩
          exact more_sent _ sent
      · rw [if_neg reads]
        by_cases writes : typeOf buf = writeRequest
        · rw [if_pos writes]
          by_cases whole : 9 ≤ buf.length
          · rw [onMessage_write whole found writes, writeBlock_answered whole found]
            exact ⟨fun leaves => ⟨fun here => absurd here reads, fun _ => ⟨whole, leaves⟩⟩,
              fun both => (both.2 writes).2⟩
          · rw [onMessage_cut whole found]
            refine iff_of_false ?_ fun both => whole (both.2 writes).1
            rintro ⟨status, sent, -⟩
            exact more_sent _ sent
        · rw [if_neg writes, onMessage_other found reads writes]
          exact iff_of_true rfl ⟨fun here => absurd here reads, fun here => absurd here writes⟩
  · exact iff_of_true (fun here => absurd here long) (fun here => absurd here long)

/-- In every run the messages are answered once and truly exactly where all are complete. -/
theorem disk_requests_answered_iff (s : DiskServer) (requests : List DiskRequest) :
    EachStep onMessage Answered s requests ↔ EachStep onMessage Complete s requests := by
  induction requests generalizing s with
  | nil => exact Iff.rfl
  | cons request rest ih =>
    exact and_congr (answered_iff s request) (ih (s.onMessage request))

/-- One image of four bytes is the first floppy. -/
def oneFloppy : DiskServer where
  files := fun _ => [1, 2, 3, 4]
  diskFds := fun name unit => if name = .floppy ∧ unit = 0 then some 0 else none
  sent := []

/-- A write of two bytes that writeSync cuts after the first is acknowledged as good. -/
theorem short_write_acknowledged :
    ¬ EachStep onMessage Answered oneFloppy [⟨[0x22, 1, 0, 0, 0, 0, 0, 0, 2, 7, 8], some 1⟩] := by
  rintro ⟨answered, -⟩
  obtain ⟨status, sent, truth⟩ := answered (by decide)
  rcases truth with ⟨error, -⟩ | ⟨-, -, file, place, data⟩
  · rw [error] at sent
    exact absurd sent (by decide)
  · obtain rfl : 0 = file := Option.some.inj place
    exact absurd data.stored (by decide)

end DiskServer

end Nd100x.Gateway
