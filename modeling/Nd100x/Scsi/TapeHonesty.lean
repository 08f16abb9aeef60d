import Nd100x.Scsi.TapeAcceptance

namespace Nd100x.Scsi

open Nd100x.Library

/-- The session takes the blocks of a write. -/
structure Writing (s : TapeSession) (phase : DataPhase) : Prop where
  opcode : s.opcode = tdcWrite
  output : phase.input = false
  size : phase.size = s.device.impl.xferBlocks * tdcBlockBytes
  pos : phase.pos = s.blocks.length * tdcBlockBytes + s.part.length
  part : s.part.length < tdcBlockBytes
  done : s.device.impl.xferDone = s.blocks.length
  more : s.blocks.length < s.device.impl.xferBlocks
  buffer : range s.device.impl.block 0 s.part.length = s.part
  writable : s.image.readOnly = false
  tapeSize : s.image.size = s.opening.size
  position : s.image.pos = s.opening.pos + (records s.blocks).length
  content : s.image.content = putRange s.opening.content s.opening.pos
    (marked s.opening.size s.opening.pos (records s.blocks))

/-- The session is between two steps of writing commands. -/
structure Valid (s : TapeSession) : Prop where
  steady : s.image.Steady
  writing : ∀ phase, s.phase = some phase → Writing s phase

/-- The host sends commands that write, and the bytes of their blocks. -/
def HostStep.Writes : HostStep → Prop
  | .command cdb _ _ => cdb 0 = tdcWrite ∨ cdb 0 = tdcWriteFilemark ∨ cdb 0 = tdcErase
  | .byteOut _ => True
  | _ => False

/-- The command block of the host is in the target. -/
def TapeSession.asked (s : TapeSession) (cdb : Nat → Byte) (size : Nat) (identify : Byte) :
    TapeDevice :=
  s.ready.onPort fun port => { port with cmdbuf := cdb, cmdsize := size, identify := identify }

/-- The command comes to its drive with a clear sense. -/
def TapeSession.given (s : TapeSession) (cdb : Nat → Byte) (size : Nat) (identify : Byte) :
    TapeDevice :=
  (Tdc.refreshed (s.asked cdb size identify)).onImpl TapeDrive.clearSense

/-- A write near the end of the tape is reported once. -/
def TapeSession.Early (s : TapeSession) (ti : TapeImage) : Prop :=
  s.device.impl.pewReported = false ∧ ti.size - ti.pos ≤ tdcPewBytes

/-- The last block of a write is stored with its status. -/
def BlockStored (ti : TapeImage) (block : List Byte) : Prop :=
  (ti.writeBlock block).2 = .ok ∨ (ti.writeBlock block).2 = .ew →
    (ti.writeBlock block).1.flush.2 = true

/-- The image takes the block that the last write of a command leaves in the cache. -/
def TapeSession.Stores (s : TapeSession) : HostStep → Prop
  | .command cdb size identify =>
    cdb 0 = tdcWriteFilemark → Tdc.Admitted (s.asked cdb size identify) →
      TakesMarks (s.given cdb size identify) →
        MarksStored (startsAt (s.given cdb size identify).impl.tape) (getU24be cdb 2)
  | .byteOut data =>
    let block := s.part ++ [data]
    ∀ phase, s.phase = some phase → phase.pos + 1 = phase.size →
      ¬ s.Early (s.image.writeBlock block).1 → BlockStored s.image block
  | _ => True

section Records

theorem records_append (blocks : List (List Byte)) (block : List Byte) :
    records (blocks ++ [block]) = records blocks ++ (TapeImage.recordPieces block).flatten := by
  rw [records, List.flatMap_append, List.flatMap_singleton]
  rfl

theorem record_ne (block : List Byte) : (TapeImage.recordPieces block).flatten ≠ [] := by
  intro empty
  have length := TapeImage.recordPieces_length block
  rw [empty] at length
  change 0 = _ at length
  omega

theorem endMark_short (size place : Nat) : (endMark size place).length ≤ 4 := by
  rw [endMark]
  split_ifs
  · exact Nat.zero_le 4
  · exact Nat.le_refl 4

/-- What is written next replaces the end marker. -/
theorem putRange_marked {f : Nat → Byte} {size start : Nat} {first second : List Byte}
    (covers : 4 ≤ second.length) :
    putRange (putRange f start (marked size start first)) (start + first.length) second =
      putRange f start (first ++ second) := by
  by_cases none_ : first = []
  · rw [none_, marked, if_pos rfl, putRange_nil]
    rfl
  · have short := endMark_short size (start + first.length)
    have covered := @putRange_over _ (putRange f start first) (start + first.length)
        (endMark size (start + first.length)) second (by omega)
    rw [marked_cons none_, putRange_append first second, putRange_append, covered]

theorem records_next {f : Nat → Byte} {size start : Nat} {blocks : List (List Byte)}
    {block : List Byte} :
    putRange (putRange f start (marked size start (records blocks)))
        (start + (records blocks).length)
        ((TapeImage.recordPieces block).flatten ++
          endMark size (start + (records blocks).length +
            (TapeImage.recordPieces block).flatten.length)) =
      putRange f start (marked size start (records (blocks ++ [block]))) := by
  have more : records (blocks ++ [block]) ≠ [] := by
    rw [records_append]
    exact List.append_ne_nil_of_right_ne_nil _ (record_ne block)
  have whole : start + (records (blocks ++ [block])).length =
      start + (records blocks).length + (TapeImage.recordPieces block).flatten.length := by
    rw [records_append, List.length_append, Nat.add_assoc]
  have length := TapeImage.recordPieces_length block
  rw [marked_cons more, whole, records_append, List.append_assoc, putRange_marked]
  rw [List.length_append]
  omega

end Records

section Blocks

/-- The image has the next block, or the tape stands still at its end. -/
theorem writeBlock_next {ti : TapeImage} (steady : ti.Steady) (writable : ti.readOnly = false)
    (block : List Byte) :
    (ti.writeBlock block).1.Steady ∧ ((ti.writeBlock block).2 = .ok ∨ (ti.writeBlock block).2 = .ew →
      Recorded ti (ti.writeBlock block).1 (TapeImage.recordPieces block).flatten) := by
  by_cases room : ti.pos + (4 + block.length + block.length % 2 + 4) < ti.size
  · have attempt := TapeImage.writeBlock_spec steady.coherent writable room
    refine ⟨attempt.steady steady ?_, fun good => ?_⟩
    · rw [TapeImage.recordPieces_length]
      omega
    · have sound : (ti.writeBlock block).2 ≠ .error := by
        rcases good with good | good <;> rw [good] <;> exact TapeStatus.noConfusion
      exact (attempt.recorded sound).1
  · have full : ti.writeBlock block = (ti, .eom) := by
      rw [TapeImage.writeBlock, if_neg (by rw [writable]; exact Bool.false_ne_true),
        if_pos (by omega)]
    rw [full]
    exact ⟨steady, fun good => by rcases good with good | good <;> cases good⟩

/-- The drive has written its block and counted it. -/
def counted (tape : TapeDevice) (written : TapeImage) (index : Nat) (data : Byte) : TapeDevice :=
  ⟨tape.port, ((tape.impl.putByte index data).withTape written).countBlock⟩

/-- A block ends the command badly or well, or more blocks follow. -/
theorem putWrite_elim {P : TapeDevice → Prop} {tape : TapeDevice} {pos index : Nat} {data : Byte}
    {block : List Byte} (at_ : pos % tdcBlockBytes = index) (last : index = tdcBlockBytes - 1)
    (buffer : range (Function.update tape.impl.block index data) 0 tdcBlockBytes = block)
    (refused : ∀ drive : TapeDrive, drive.tape = (tape.impl.tape.writeBlock block).1 →
      ∀ key flags code exercd vadd info,
        P (Tdc.check ⟨tape.port.endDataPhase, drive⟩ key flags code exercd vadd info))
    (ended : (tape.impl.tape.writeBlock block).2 = .ok ∨ (tape.impl.tape.writeBlock block).2 = .ew →
      ¬ (tape.impl.pewReported = false ∧ (tape.impl.tape.writeBlock block).1.size -
        (tape.impl.tape.writeBlock block).1.pos ≤ tdcPewBytes) →
      tape.impl.xferBlocks - (tape.impl.xferDone + 1) = 0 →
      P (Tdc.good (counted tape (tape.impl.tape.writeBlock block).1 index data)))
    (going : (tape.impl.tape.writeBlock block).2 = .ok ∨ (tape.impl.tape.writeBlock block).2 = .ew →
      tape.impl.xferBlocks - (tape.impl.xferDone + 1) ≠ 0 →
      P (counted tape (tape.impl.tape.writeBlock block).1 index data)) :
    P (Tdc.putWrite tape pos data) := by
  have image : (tape.onImpl (TapeDrive.putByte · index data)).impl.tape.writeBlock
      (range (tape.onImpl (TapeDrive.putByte · index data)).impl.block 0 tdcBlockBytes) =
      tape.impl.tape.writeBlock block := congrArg tape.impl.tape.writeBlock buffer
  rw [Tdc.putWrite]
  dsimp only
  rw [at_, if_neg (not_not.mpr last), image]
  split_ifs with good early none_ full
  · exact refused _ rfl _ _ _ _ _ _
  · exact ended good early none_
  · exact going good none_
  · exact refused _ rfl _ _ _ _ _ _
  · exact refused _ rfl _ _ _ _ _ _

end Blocks

section Bytes

variable {s : TapeSession} {phase : DataPhase}

/-- The buffer of the drive has one more byte of the host. -/
theorem Writing.buffered (writing : Writing s phase) (data : Byte) :
    range (Function.update s.device.impl.block s.part.length data) 0 (s.part.length + 1) =
      s.part ++ [data] := by
  rw [range_append]
  congr 1
  · refine (range_congr fun position _ below => ?_).trans writing.buffer
    exact Function.update_of_ne (by omega) _ _
  · simp [range]

theorem Writing.index (writing : Writing s phase) : phase.pos % tdcBlockBytes = s.part.length := by
  rw [writing.pos, Nat.add_mod, Nat.mul_mod_left, Nat.zero_add, Nat.mod_mod,
    Nat.mod_eq_of_lt writing.part]

theorem Writing.putData (writing : Writing s phase) (data : Byte) :
    Tdc.putData s.ready .data phase.pos data = Tdc.putWrite s.ready phase.pos data := by
  have opcode : s.ready.port.cmdbuf 0 = tdcWrite := writing.opcode
  rw [Tdc.putData, if_neg (not_not.mpr rfl)]
  dsimp only
  rw [if_pos opcode]

/-- The block is complete with this byte. -/
def TapeSession.took (s : TapeSession) (phase : DataPhase) (data : Byte) (device : TapeDevice) :
    TapeSession :=
  { device := device
    phase := TapeSession.advance phase device
    opening := s.opening
    blocks := s.blocks ++ [s.part ++ [data]]
    part := [] }

theorem took_phase (data : Byte) (device : TapeDevice) :
    (s.took phase data device).phase = TapeSession.advance phase device := rfl

/-- A session that answers its host goes on honestly. -/
structure Goes (s : TapeSession) : Prop where
  valid : Valid s
  honest : s.Honest
  answered : s.phase = none → ∃ value, statusOf s.device.port.calls = some value

theorem Goes.refused {s : TapeSession} (steady : s.image.Steady) (closed : s.phase = none)
    {calls : List PhaseCall} (fresh : statusOf calls = none)
    (ended : s.device.port.calls = calls ++ ending ssCheckCondition) : Goes s := by
  have sent : statusOf s.device.port.calls = some ssCheckCondition := by
    rw [ended, statusOf_ending fresh]
  refine ⟨⟨steady, fun phase open_ => ?_⟩, fun value found => .inr ?_, fun _ => ⟨_, sent⟩⟩
  · rw [closed] at open_
    cases open_
  · exact Option.some.inj (found.symm.trans sent)

theorem Goes.ended {s : TapeSession} (steady : s.image.Steady) (closed : s.phase = none)
    (ended : s.device.port.calls = ending ssGood)
    (accepted : s.image.OnImage s.wroteAt s.wrote) : Goes s := by
  have sent : statusOf s.device.port.calls = some ssGood := by
    rw [ended]
    rfl
  refine ⟨⟨steady, fun phase open_ => ?_⟩, fun value found => .inl ⟨?_, accepted⟩,
    fun _ => ⟨_, sent⟩⟩
  · rw [closed] at open_
    cases open_
  · exact Option.some.inj (found.symm.trans sent)

theorem Goes.open_ {s : TapeSession} (valid : Valid s) {phase : DataPhase}
    (running : s.phase = some phase) (quiet : statusOf s.device.port.calls = none) : Goes s where
  valid := valid
  honest := fun _ sent => absurd (quiet.symm.trans sent) (Option.some_ne_none _).symm
  answered := fun closed => absurd (running.symm.trans closed) (Option.some_ne_none _)

/-- The buffer is filled, and the tape is left alone. -/
theorem byteOut_part (valid : Valid s) (writing : Writing s phase) {data : Byte}
    (short : s.part.length + 1 ≠ tdcBlockBytes) :
    Goes (s.byteOut phase data) := by
  have index := writing.index
  have bound := writing.part
  have away : ¬ phase.pos % tdcBlockBytes = tdcBlockBytes - 1 := by
    rw [index]
    omega
  have device : Tdc.putData s.ready .data phase.pos data =
      s.ready.onImpl (TapeDrive.putByte · s.part.length data) := by
    rw [writing.putData, Tdc.putWrite]
    dsimp only
    rw [if_pos away, index]
  have longer : (s.part ++ [data]).length = s.part.length + 1 := List.length_append
  have open_ : ¬ (s.part ++ [data]).length = tdcBlockBytes := longer ▸ short
  have inside : phase.pos + 1 ≠ phase.size := by
    have size := writing.size
    have pos := writing.pos
    have product := Nat.mul_le_mul_right tdcBlockBytes (Nat.succ_le_of_lt writing.more)
    rw [Nat.succ_mul] at product
    omega
  have result : s.byteOut phase data =
      { device := s.ready.onImpl (TapeDrive.putByte · s.part.length data)
        phase := some { phase with pos := phase.pos + 1 }
        opening := s.opening
        blocks := s.blocks
        part := s.part ++ [data] } := by
    rw [TapeSession.byteOut, device, if_neg open_, if_neg open_, advance_open rfl inside]
  rw [result]
  refine Goes.open_ ⟨valid.steady, fun next same => ?_⟩ rfl rfl
  cases Option.some.inj same
  exact {
    opcode := writing.opcode
    output := writing.output
    size := writing.size
    pos := by
      change phase.pos + 1 = _
      rw [writing.pos, longer, Nat.add_assoc]
    part := by
      rw [longer]
      omega
    done := writing.done
    more := writing.more
    buffer := by
      rw [longer]
      exact writing.buffered data
    writable := writing.writable
    tapeSize := writing.tapeSize
    position := writing.position
    content := writing.content }

/-- A block that was recorded follows the blocks before it. -/
theorem Writing.recorded (writing : Writing s phase) {block : List Byte} {next : TapeImage}
    (recorded : Recorded s.image next (TapeImage.recordPieces block).flatten) :
    next.pos = s.opening.pos + (records (s.blocks ++ [block])).length ∧
      next.content = putRange s.opening.content s.opening.pos
        (marked s.opening.size s.opening.pos (records (s.blocks ++ [block]))) := by
  constructor
  · rw [recorded.position, writing.position, records_append, List.length_append, Nat.add_assoc]
  · rw [recorded.content, writing.content, writing.position, writing.tapeSize, records_next]

/-- The tape takes the block with its last byte. -/
theorem byteOut_block (valid : Valid s) (writing : Writing s phase) {data : Byte}
    (full : s.part.length + 1 = tdcBlockBytes) (stores : s.Stores (.byteOut data))
    (here : s.phase = some phase) : Goes (s.byteOut phase data) := by
  have index := writing.index
  have longer : (s.part ++ [data]).length = tdcBlockBytes := List.length_append.trans full
  have result : s.byteOut phase data =
      s.took phase data (Tdc.putWrite s.ready phase.pos data) := by
    rw [TapeSession.byteOut, writing.putData, if_pos longer, if_pos longer]
    rfl
  have buffer : range (Function.update s.ready.impl.block s.part.length data) 0 tdcBlockBytes =
      s.part ++ [data] := full ▸ writing.buffered data
  obtain ⟨steady, records⟩ := writeBlock_next valid.steady writing.writable (s.part ++ [data])
  rw [result]
  refine putWrite_elim (P := fun device => Goes (s.took phase data device)) index (by omega)
    buffer ?_ ?_ ?_
  · intro drive tape key flags code exercd vadd info
    refine @Goes.refused _ ?_ ?_ [.endDataPhase] rfl ?_
    · change drive.tape.flush.1.Steady
      rw [tape]
      exact steady.flush
    · rw [took_phase]
      refine advance_ended ?_
      rw [Tdc.check_calls]
      exact List.mem_append_left _ (List.mem_singleton.mpr rfl)
    · exact Tdc.check_calls _ _ _ _ _ _ _
  · intro good early none_
    have recorded := records good
    obtain ⟨-, content⟩ := writing.recorded recorded
    have last : phase.pos + 1 = phase.size := by
      have more := writing.more
      have blocks : s.device.impl.xferBlocks = s.blocks.length + 1 := by
        change s.device.impl.xferBlocks - (s.device.impl.xferDone + 1) = 0 at none_
        rw [writing.done] at none_
        omega
      rw [writing.pos, writing.size, blocks, Nat.succ_mul]
      omega
    refine Goes.ended ?_ ?_ ?_ ?_
    · exact steady.flush
    · exact advance_last last
    · exact Tdc.good_calls _
    · have opcode : (s.took phase data (Tdc.good (counted s.ready
          (s.ready.impl.tape.writeBlock (s.part ++ [data])).1 s.part.length data))).opcode =
          tdcWrite := writing.opcode
      rw [TapeSession.wroteAt, TapeSession.wrote, if_pos opcode, opcode, if_neg (by decide)]
      exact TapeImage.OnImage.of_flush recorded.coherent (stores phase here last early good)
        content
  · intro good more
    have recorded := records good
    obtain ⟨position, content⟩ := writing.recorded recorded
    change s.device.impl.xferBlocks - (s.device.impl.xferDone + 1) ≠ 0 at more
    rw [writing.done] at more
    have length : (s.blocks ++ [s.part ++ [data]]).length = s.blocks.length + 1 :=
      List.length_append
    have pos : phase.pos + 1 = (s.blocks.length + 1) * tdcBlockBytes := by
      rw [writing.pos, Nat.succ_mul]
      omega
    have inside : phase.pos + 1 ≠ phase.size := by
      rw [pos, writing.size]
      intro same
      have blocks := Nat.eq_of_mul_eq_mul_right (by decide) same
      omega
    have going := @advance_open phase (counted s.ready
      (s.ready.impl.tape.writeBlock (s.part ++ [data])).1 s.part.length data) rfl inside
    refine Goes.open_ ⟨steady, fun next same => ?_⟩ going rfl
    cases Option.some.inj (going.symm.trans same)
    exact {
      opcode := writing.opcode
      output := writing.output
      size := writing.size
      pos := by
        change phase.pos + 1 = (s.blocks ++ [s.part ++ [data]]).length * tdcBlockBytes + 0
        rw [length]
        exact pos.trans (Nat.add_zero _).symm
      part := Nat.zero_lt_of_lt writing.part
      done := by
        change s.device.impl.xferDone + 1 = (s.blocks ++ [s.part ++ [data]]).length
        rw [writing.done, length]
      more := by
        change (s.blocks ++ [s.part ++ [data]]).length < s.device.impl.xferBlocks
        omega
      buffer := rfl
      writable := recorded.readOnly.trans writing.writable
      tapeSize := recorded.size.trans writing.tapeSize
      position := position
      content := content }

end Bytes

section Commands

variable {tape : TapeDevice}

theorem commandWrite_cmdbuf : (Tdc.commandWrite tape).port.cmdbuf = tape.port.cmdbuf := by
  rw [Tdc.commandWrite]
  split_ifs
  · rfl
  · refine Tdc.ready_elim (P := (·.port.cmdbuf = tape.port.cmdbuf)) (fun _ _ _ _ _ _ => rfl) ?_
    refine fun _ _ => Tdc.writable_elim (P := (·.port.cmdbuf = tape.port.cmdbuf))
      (fun _ _ _ _ _ _ => rfl) fun _ => ?_
    dsimp only
    split_ifs
    · rfl
    · rfl
    · rfl
    · exact Tdc.mayAppend_elim (P := (·.port.cmdbuf = tape.port.cmdbuf))
        (fun _ _ _ _ _ _ => rfl) (fun _ => rfl) fun _ _ => rfl

theorem putFilemarks_cmdbuf (count : Nat) :
    (Tdc.putFilemarks tape count).port.cmdbuf = tape.port.cmdbuf := by
  rw [Tdc.putFilemarks]
  split <;> rfl

theorem commandWriteFilemark_cmdbuf :
    (Tdc.commandWriteFilemark tape).port.cmdbuf = tape.port.cmdbuf := by
  rw [Tdc.commandWriteFilemark]
  refine Tdc.ready_elim (P := (·.port.cmdbuf = tape.port.cmdbuf)) (fun _ _ _ _ _ _ => rfl) ?_
  refine fun _ _ => Tdc.writable_elim (P := (·.port.cmdbuf = tape.port.cmdbuf))
    (fun _ _ _ _ _ _ => rfl) fun _ => ?_
  split_ifs
  · rfl
  · exact Tdc.mayAppend_elim (P := (·.port.cmdbuf = tape.port.cmdbuf)) (fun _ _ _ _ _ _ => rfl)
      (fun _ => putFilemarks_cmdbuf _) fun _ _ => putFilemarks_cmdbuf _

theorem commandErase_cmdbuf : (Tdc.commandErase tape).port.cmdbuf = tape.port.cmdbuf := by
  rw [Tdc.commandErase]
  split_ifs
  · rfl
  · refine Tdc.ready_elim (P := (·.port.cmdbuf = tape.port.cmdbuf)) (fun _ _ _ _ _ _ => rfl) ?_
    refine fun _ _ => Tdc.writable_elim (P := (·.port.cmdbuf = tape.port.cmdbuf))
      (fun _ _ _ _ _ _ => rfl) fun _ => ?_
    dsimp only
    split_ifs <;> rfl

end Commands

section Steps

variable {s : TapeSession}

theorem Settled.goes (settled : Settled s.wroteAt s.wrote s.device)
    (closed : s.phase = phaseOf s.device.port.calls) : Goes s := by
  rcases settled.calls with calls | ⟨calls, accepted⟩
  · refine Goes.refused settled.steady ?_ (rfl : statusOf [] = none) calls
    rw [closed, calls]
    rfl
  · refine Goes.ended settled.steady ?_ calls accepted
    rw [closed, calls]
    rfl

/-- The session after a command that left this device. -/
def TapeSession.answered (s : TapeSession) (device : TapeDevice) : TapeSession :=
  { device := device
    phase := phaseOf device.port.calls
    opening := s.device.impl.refreshMedia.tape
    blocks := []
    part := [] }

theorem AsksBlocks.goes {before after : TapeDevice} (asks : AsksBlocks before after)
    (image : before.impl.tape = s.device.impl.refreshMedia.tape)
    (steady : before.impl.tape.Steady) (opcode : after.port.cmdbuf 0 = tdcWrite) :
    Goes (s.answered after) := by
  have kept : Kept s.device.impl.refreshMedia.tape after.impl.tape := image ▸ asks.kept
  have positive : 0 < after.impl.xferBlocks * tdcBlockBytes :=
    Nat.mul_pos asks.blocks (by decide)
  have phase : (s.answered after).phase =
      some ⟨false, after.impl.xferBlocks * tdcBlockBytes, 0⟩ := by
    change phaseOf after.port.calls = _
    rw [asks.calls, phaseOf, if_pos positive]
  refine Goes.open_ ⟨steady.kept asks.kept, fun next same => ?_⟩ phase ?_
  · cases Option.some.inj (phase.symm.trans same)
    exact {
      opcode := opcode
      output := rfl
      size := rfl
      pos := ((Nat.add_zero _).trans (Nat.zero_mul tdcBlockBytes)).symm
      part := (by decide : 0 < tdcBlockBytes)
      done := asks.done
      more := asks.blocks
      buffer := rfl
      writable := asks.writable
      tapeSize := kept.size
      position := kept.pos
      content := kept.content.trans putRange_nil.symm }
  · change statusOf after.port.calls = none
    rw [asks.calls]
    rfl

theorem refused_goes {device : TapeDevice} (fresh : device.port.calls = [])
    (steady : device.impl.tape.Steady) (key flags code exercd : Byte) (vadd : Bool) (info : Nat) :
    Goes (s.answered (Tdc.check device key flags code exercd vadd info)) := by
  have calls : (Tdc.check device key flags code exercd vadd info).port.calls =
      [] ++ ending ssCheckCondition := by
    rw [Tdc.check_calls, fresh]
  refine Goes.refused steady.flush ?_ (rfl : statusOf [] = none) calls
  change phaseOf (Tdc.check device key flags code exercd vadd info).port.calls = none
  rw [calls]
  rfl

theorem perform_goes (steady : s.image.Steady) {cdb : Nat → Byte} {size : Nat} {identify : Byte}
    (writes : (HostStep.command cdb size identify).Writes)
    (admitted : Tdc.Admitted (s.asked cdb size identify))
    (stores : s.Stores (.command cdb size identify)) :
    Goes (s.answered (Tdc.perform (s.given cdb size identify) (cdb 0))) := by
  have standing : (s.given cdb size identify).impl.tape.Steady :=
    TapeDrive.refreshMedia_steady steady
  rcases writes with opcode | opcode | opcode
  · have performed : Tdc.perform (s.given cdb size identify) (cdb 0) =
        Tdc.commandWrite (s.given cdb size identify) := by
      rw [opcode]
      rfl
    have sent : (Tdc.commandWrite (s.given cdb size identify)).port.cmdbuf 0 = tdcWrite :=
      (congrFun commandWrite_cmdbuf 0).trans opcode
    rw [performed]
    rcases @commandWrite_answers (s.given cdb size identify) rfl standing with settled | asks
    · have same : (s.answered (Tdc.commandWrite (s.given cdb size identify))).opcode = tdcWrite :=
        sent
      refine Settled.goes ?_ rfl
      rw [TapeSession.wroteAt, TapeSession.wrote, if_pos same, same, if_neg (by decide)]
      exact settled
    · exact asks.goes rfl standing sent
  · have performed : Tdc.perform (s.given cdb size identify) (cdb 0) =
        Tdc.commandWriteFilemark (s.given cdb size identify) := by
      rw [opcode]
      rfl
    have cmdbuf : (Tdc.commandWriteFilemark (s.given cdb size identify)).port.cmdbuf = cdb :=
      commandWriteFilemark_cmdbuf
    have same : (s.answered (Tdc.commandWriteFilemark (s.given cdb size identify))).opcode =
        tdcWriteFilemark := (congrFun cmdbuf 0).trans opcode
    have settled := @commandWriteFilemark_settled (s.given cdb size identify) rfl standing
        (stores opcode admitted)
    have count : getU24be (s.answered
        (Tdc.commandWriteFilemark (s.given cdb size identify))).device.port.cmdbuf 2 =
        getU24be cdb 2 := congrArg (getU24be · 2) cmdbuf
    rw [performed]
    refine Settled.goes ?_ rfl
    rw [TapeSession.wroteAt, TapeSession.wrote, same, if_neg (by decide), if_neg (by decide),
      if_pos rfl, count]
    exact settled
  · have performed : Tdc.perform (s.given cdb size identify) (cdb 0) =
        Tdc.commandErase (s.given cdb size identify) := by
      rw [opcode]
      rfl
    have same : (s.answered (Tdc.commandErase (s.given cdb size identify))).opcode = tdcErase :=
      (congrFun commandErase_cmdbuf 0).trans opcode
    rw [performed]
    refine Settled.goes ?_ rfl
    rw [TapeSession.wroteAt, TapeSession.wrote, same, if_pos rfl, if_neg (by decide),
      if_neg (by decide), if_pos rfl]
    exact commandErase_settled rfl standing

theorem command_goes (steady : s.image.Steady) {cdb : Nat → Byte} {size : Nat} {identify : Byte}
    (writes : (HostStep.command cdb size identify).Writes)
    (stores : s.Stores (.command cdb size identify)) : Goes (s.command cdb size identify) := by
  have standing : s.device.impl.refreshMedia.tape.Steady := TapeDrive.refreshMedia_steady steady
  have other (opcode : Byte) (away : tdcWrite ≠ opcode ∧ tdcWriteFilemark ≠ opcode ∧
      tdcErase ≠ opcode) : (s.asked cdb size identify).port.cmdbuf 0 ≠ opcode := by
    rcases writes with same | same | same <;> intro found
    · exact away.1 (same.symm.trans found)
    · exact away.2.1 (same.symm.trans found)
    · exact away.2.2 (same.symm.trans found)
  refine @Tdc.command_elim (fun device => Goes (s.answered device)) (s.asked cdb size identify) ?_
      ?_ ?_ ?_ ?_ ?_
  · exact fun inquiry => absurd inquiry (other _ (by decide))
  · intro key flags code exercd vadd info
    refine refused_goes ?_ ?_ _ _ _ _ _ _
    · rfl
    · exact standing.bot
  · exact fun sense => absurd sense (other _ (by decide))
  · exact fun sense => absurd sense (other _ (by decide))
  · intro exercd
    refine refused_goes ?_ ?_ _ _ _ _ _ _
    · rfl
    · exact standing
  · exact fun admitted => perform_goes steady writes admitted stores

/-- A step that does not fit the phase of the session does nothing. -/
theorem step_goes (valid : Valid s) {step : HostStep} (writes : step.Writes)
    (stores : s.Stores step) : s.step step = s ∨ Goes (s.step step) := by
  cases step with
  | command cdb size identify =>
    rw [TapeSession.step]
    rcases running : s.phase with _ | phase
    · exact .inr (command_goes valid.steady writes stores)
    · exact .inl rfl
  | byteOut data =>
    rw [TapeSession.step]
    rcases running : s.phase with _ | phase
    · exact .inl rfl
    · have writing := valid.writing phase running
      dsimp only
      rw [writing.output, if_neg Bool.false_ne_true]
      by_cases full : s.part.length + 1 = tdcBlockBytes
      · exact .inr (byteOut_block valid writing full stores running)
      · exact .inr (byteOut_part valid writing full)
  | byteIn => exact writes.elim
  | busReset => exact writes.elim

theorem run_goes (steady : s.image.Steady) (idle : s.phase = none) (steps : List HostStep)
    (writes : ∀ step ∈ steps, step.Writes)
    (stores : ∀ done step rest, steps = done ++ step :: rest → (s.run done).Stores step) :
    s.run steps = s ∨ Goes (s.run steps) := by
  have start : Valid s := ⟨steady, fun _ open_ => by rw [idle] at open_; cases open_⟩
  induction steps using List.reverseRecOn with
  | nil => exact .inl rfl
  | append_singleton done step ih =>
    have before := ih
      (fun earlier member => writes earlier (List.mem_append_left _ member))
      (fun before earlier rest split => stores before earlier (rest ++ [step]) (by
        rw [split, List.append_assoc, List.cons_append]))
    have valid : Valid (s.run done) := by
      rcases before with same | goes
      · rw [same]
        exact start
      · exact goes.valid
    have next := step_goes valid
      (writes step (List.mem_append_right _ (List.mem_singleton.mpr rfl)))
      (stores done step [] rfl)
    rw [TapeSession.run, List.foldl_append]
    change (s.run done).step step = s ∨ Goes ((s.run done).step step)
    rcases next with same | goes
    · rw [same]
      exact before
    · exact .inr goes

end Steps

/-- Every write that ends well is on the image when the last block of its command is stored. -/
theorem good_writes_on_image {s : TapeSession} (steady : s.image.Steady) (idle : s.phase = none)
    (steps : List HostStep) (writes : ∀ step ∈ steps, step.Writes)
    (stores : ∀ done step rest, steps = done ++ step :: rest → (s.run done).Stores step) :
    s.run steps = s ∨ ((s.run steps).Honest ∧ ((s.run steps).phase = none →
      ∃ value, statusOf (s.run steps).device.port.calls = some value)) := by
  rcases run_goes steady idle steps writes stores with same | goes
  · exact .inl same
  · exact .inr ⟨goes.honest, goes.answered⟩

section Worn

/-- This target has had no command. -/
def idlePort : TargetPort where
  cmdbuf := fun _ => 0
  cmdsize := 0
  identify := 0
  senseBuffer := fun _ => 0
  calls := []

/-- The drive was just attached to its image. -/
def attachedSession (owner : BlockCallbacks) : TapeSession where
  device := Tdc.init idlePort owner
  phase := none
  opening := (Tdc.init idlePort owner).impl.tape
  blocks := []
  part := []

/-- An image of one block takes this answer to every write. -/
def blankOwner (refuses : Bool) : BlockCallbacks where
  image := fun _ => 0x55
  readFails := fun _ => false
  writeFails := fun _ => refuses
  reads := 0
  writes := 0
  diskInfo := some (1024, false)

def writeOneMark : HostStep :=
  .command (fun index => [tdcWriteFilemark, 0, 0, 0, 1].getD index 0) 6 0

theorem attached_steady (refuses : Bool) :
    (attachedSession (blankOwner refuses)).image.Steady := by
  refine TapeDrive.refreshMedia_steady ⟨⟨fun _ => rfl, Nat.zero_le _, fun _ cached => ?_, fun _ => rfl⟩,
    Nat.le_refl 0, fun bytes writeProtected info => ?_⟩
  · exact absurd cached (Option.some_ne_none _).symm
  · have same : some (1024, false) = some (bytes, writeProtected) := info
    rw [← (Prod.mk.inj (Option.some.inj same)).1]
    decide

/-- The unit attention takes the first command. -/
example : statusOf ((attachedSession (blankOwner true)).run [writeOneMark]).device.port.calls =
    some ssCheckCondition := rfl

theorem mark_ends_good (refuses : Bool) :
    statusOf ((attachedSession (blankOwner refuses)).run
      [writeOneMark, writeOneMark]).device.port.calls = some ssGood := by
  cases refuses <;> decide +kernel

theorem writeOneMark_writes : ∀ step ∈ [writeOneMark, writeOneMark], step.Writes := by
  intro step member
  have same : step = writeOneMark := by simpa using member
  rw [same]
  exact .inr (.inl rfl)

theorem good_writes_on_image_marked :
    ((attachedSession (blankOwner false)).run [writeOneMark, writeOneMark]).Honest := by
  have stores : ∀ done step rest, [writeOneMark, writeOneMark] = done ++ step :: rest →
      ((attachedSession (blankOwner false)).run done).Stores step := by
    intro done step rest split
    have same : step = writeOneMark := by
      have member : step ∈ [writeOneMark, writeOneMark] := split ▸ List.mem_append_right _
        List.mem_cons_self
      simpa using member
    rw [same]
    rcases done with _ | ⟨first, _ | ⟨second, more⟩⟩
    · intro _ _ _ _
      decide +kernel
    · rw [← (List.cons.inj split).1]
      intro _ _ _ _
      decide +kernel
    · have length := congrArg List.length split
      simp at length
  rcases good_writes_on_image (attached_steady false) rfl [writeOneMark, writeOneMark]
    writeOneMark_writes stores with same | ⟨honest, -⟩
  · have good := mark_ends_good false
    rw [same] at good
    cases good
  · exact honest

/-- The status of a mark is good, and no write of its block was accepted. -/
theorem refused_mark_ends_good :
    (attachedSession (blankOwner true)).image.Steady ∧
      (attachedSession (blankOwner true)).phase = none ∧
      (∀ step ∈ [writeOneMark, writeOneMark], step.Writes) ∧
      statusOf ((attachedSession (blankOwner true)).run
        [writeOneMark, writeOneMark]).device.port.calls = some ssGood ∧
      ¬ ((attachedSession (blankOwner true)).run [writeOneMark, writeOneMark]).Honest := by
  refine ⟨attached_steady true, rfl, writeOneMark_writes, mark_ends_good true, fun honest => ?_⟩
  have wrote : ((attachedSession (blankOwner true)).run [writeOneMark, writeOneMark]).wrote.head? =
      some 0 := by decide +kernel
  have place : ((attachedSession (blankOwner true)).run [writeOneMark, writeOneMark]).wroteAt = 0 := by
    decide +kernel
  have image : ((attachedSession (blankOwner true)).run
      [writeOneMark, writeOneMark]).image.owner.image 0 = 0x55 := by decide +kernel
  rcases honest _ (mark_ends_good true) with ⟨-, accepted⟩ | check
  · rw [place] at accepted
    rcases bytes : ((attachedSession (blankOwner true)).run
        [writeOneMark, writeOneMark]).wrote with _ | ⟨first, rest⟩
    · rw [bytes] at wrote
      cases wrote
    · rw [bytes] at wrote accepted
      have first_ : first = 0 := Option.some.inj wrote
      have stored := (accepted 0 (Nat.zero_lt_succ _)).1
      rw [Nat.zero_add, image, List.getElem_cons_zero, first_] at stored
      exact absurd stored (by decide)
  · exact absurd check (by decide)

end Worn

end Nd100x.Scsi
