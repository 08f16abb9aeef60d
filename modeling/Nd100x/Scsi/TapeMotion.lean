import Nd100x.Scsi.TapeImage

namespace Nd100x.Scsi

/-- The loops of the motions differ in what they count and where they stop. A stop tells its status
from the early warning. -/
structure Motion where
  mark : Nat → Nat × Option (Bool → TapeStatus)
  record : Bool → Nat → Nat × Option (Bool → TapeStatus)
  ended : Bool → TapeStatus

namespace TapeImage

/-- The headers are read one after the other. -/
def forward (motion : Motion) (ti : TapeImage) (done : Nat) : TapeImage × TapeStatus × Nat :=
  if ti.size ≤ ti.pos then (ti, .eom, done)
  else
    match found : (ti.markerAt ti.pos).2 with
    | .failed => ((ti.markerAt ti.pos).1, .error, done)
    | .endOfData =>
      ((ti.markerAt ti.pos).1, motion.ended (ti.markerAt ti.pos).1.isEw, done)
    | .skipped => ((ti.markerAt ti.pos).1.moveTo (ti.pos + 4)).forward motion done
    | .tapeMark =>
      let next := (ti.markerAt ti.pos).1.moveTo (ti.pos + 4)
      match (motion.mark done).2 with
      | some status => (next, status next.isEw, (motion.mark done).1)
      | none => next.forward motion (motion.mark done).1
    | .record good bytes _ =>
      let next := (ti.markerAt ti.pos).1.moveTo (ti.pos + bytes)
      match (motion.record good done).2 with
      | some status => (next, status next.isEw, (motion.record good done).1)
      | none => next.forward motion (motion.record good done).1
termination_by ti.size - ti.pos
decreasing_by
  all_goals
    have same := (SameTape.markerAt ti ti.pos).size
    simp only [moveTo]
  · have inside := markerAt_inside found (by decide)
    omega
  · have inside := markerAt_inside found (by decide)
    omega
  · have inside := markerAt_record found
    omega

/-- The trailers are read one before the other. -/
def backward (motion : Motion) (ti : TapeImage) (done : Nat) : TapeImage × TapeStatus × Nat :=
  if ti.pos = 0 then (ti, .bom, done)
  else
    match found : ti.markerBefore.2 with
    | .failed => (ti.markerBefore.1, .error, done)
    | .endOfData => (ti.markerBefore.1, motion.ended ti.markerBefore.1.isEw, done)
    | .skipped => (ti.markerBefore.1.moveTo (ti.pos - 4)).backward motion done
    | .tapeMark =>
      let next := ti.markerBefore.1.moveTo (ti.pos - 4)
      match (motion.mark done).2 with
      | some status => (next, status next.isEw, (motion.mark done).1)
      | none => next.backward motion (motion.mark done).1
    | .record good bytes _ =>
      let next := ti.markerBefore.1.moveTo (ti.pos - bytes)
      match (motion.record good done).2 with
      | some status => (next, status next.isEw, (motion.record good done).1)
      | none => next.backward motion (motion.record good done).1
termination_by ti.pos
decreasing_by
  all_goals simp only [moveTo]
  · have inside := markerBefore_inside found (by decide)
    omega
  · have inside := markerBefore_inside found (by decide)
    omega
  · have inside := markerBefore_record found
    omega

def fileMarkStatus (earlyWarning : Bool) : TapeStatus :=
  if earlyWarning then .filemarkEw else .filemark

def eodStatus (earlyWarning : Bool) : TapeStatus := if earlyWarning then .eodEw else .eod

/-- Only good data counts. A mark stops the motion. -/
def blocksMotion (count : Nat) : Motion where
  mark := fun done => (done, some fileMarkStatus)
  record := fun good done =>
    if good then (done + 1, if done + 1 = count then some fun _ => .ok else none) else (done, none)
  ended := eodStatus

/-- Data between sequential marks starts the count again. -/
def filemarksMotion (count : Nat) (sequential : Bool) : Motion where
  mark := fun done => (done + 1, if done + 1 = count then some fun _ => .ok else none)
  record := fun _ done => (if sequential then 0 else done, none)
  ended := eodStatus

def eodMotion : Motion where
  mark := fun done => (done, none)
  record := fun _ done => (done, none)
  ended := fun _ => .ok

def spaceBlocks (ti : TapeImage) (count : Nat) : TapeImage × TapeStatus × Nat :=
  ti.forward (blocksMotion count) 0

def spaceFilemarks (ti : TapeImage) (count : Nat) (sequential : Bool) :
    TapeImage × TapeStatus × Nat :=
  ti.forward (filemarksMotion count sequential) 0

def spaceEod (ti : TapeImage) : TapeImage × TapeStatus :=
  let moved := ti.forward eodMotion 0
  (moved.1, moved.2.1)

def spaceBlocksReverse (ti : TapeImage) (count : Nat) : TapeImage × TapeStatus × Nat :=
  ti.backward (blocksMotion count) 0

def spaceFilemarksReverse (ti : TapeImage) (count : Nat) : TapeImage × TapeStatus × Nat :=
  ti.backward (filemarksMotion count false) 0

/-- A mark counts as a record here. The scan moves a position of its own. -/
def countRecords (ti : TapeImage) (at_ records : Nat) : TapeImage × TapeStatus × Nat :=
  if at_ < ti.pos then
    match found : (ti.markerAt at_).2 with
    | .failed => ((ti.markerAt at_).1, .error, records)
    | .endOfData => ((ti.markerAt at_).1, .error, records)
    | .skipped => (ti.markerAt at_).1.countRecords (at_ + 4) records
    | .tapeMark => (ti.markerAt at_).1.countRecords (at_ + 4) (records + 1)
    | .record good bytes _ =>
      (ti.markerAt at_).1.countRecords (at_ + bytes) (if good then records + 1 else records)
  else if at_ = ti.pos then (ti, .ok, records)
  else (ti, .error, records)
termination_by ti.pos - at_
decreasing_by
  all_goals have same := (SameTape.markerAt ti at_).pos
  · omega
  · omega
  · have positive := (markerAt_record found).1
    omega

/-- The count has thirty-two bits. -/
def blockAddress (ti : TapeImage) : TapeImage × TapeStatus × Nat :=
  let counted := ti.countRecords 0 0
  (counted.1, counted.2.1, counted.2.2 % 2 ^ 32)

def locateFrom (ti : TapeImage) (index records : Nat) : TapeImage × TapeStatus :=
  if ti.size ≤ ti.pos then (ti, .eom)
  else if records = index then (ti, .ok)
  else
    match found : (ti.markerAt ti.pos).2 with
    | .failed => ((ti.markerAt ti.pos).1, .error)
    | .endOfData => ((ti.markerAt ti.pos).1, eodStatus (ti.markerAt ti.pos).1.isEw)
    | .skipped => ((ti.markerAt ti.pos).1.moveTo (ti.pos + 4)).locateFrom index records
    | .tapeMark => ((ti.markerAt ti.pos).1.moveTo (ti.pos + 4)).locateFrom index (records + 1)
    | .record good bytes _ =>
      ((ti.markerAt ti.pos).1.moveTo (ti.pos + bytes)).locateFrom index
        (if good then records + 1 else records)
termination_by ti.size - ti.pos
decreasing_by
  all_goals
    have same := (SameTape.markerAt ti ti.pos).size
    simp only [moveTo]
  · have inside := markerAt_inside found (by decide)
    omega
  · have inside := markerAt_inside found (by decide)
    omega
  · have inside := markerAt_record found
    omega

def locate (ti : TapeImage) (index : Nat) : TapeImage × TapeStatus :=
  (ti.moveTo 0).locateFrom index 0

/-- The bytes of the block are read before the tape moves. -/
def readBlock (ti : TapeImage) (bufSize : Nat) : TapeImage × TapeStatus × List Byte :=
  if ti.size ≤ ti.pos then (ti, .eom, [])
  else
    match found : (ti.markerAt ti.pos).2 with
    | .failed => ((ti.markerAt ti.pos).1, .error, [])
    | .endOfData => ((ti.markerAt ti.pos).1, eodStatus (ti.markerAt ti.pos).1.isEw, [])
    | .skipped => ((ti.markerAt ti.pos).1.moveTo (ti.pos + 4)).readBlock bufSize
    | .tapeMark =>
      let next := (ti.markerAt ti.pos).1.moveTo (ti.pos + 4)
      (next, fileMarkStatus next.isEw, [])
    | .record true bytes length =>
      if bufSize < length then ((ti.markerAt ti.pos).1, .error, [])
      else
        let read := (ti.markerAt ti.pos).1.readBytes (ti.pos + 4) length
        if read.2.2 then (read.1.moveTo (ti.pos + bytes), .ok, read.2.1)
        else (read.1, .error, read.2.1)
    | .record false bytes _ => ((ti.markerAt ti.pos).1.moveTo (ti.pos + bytes)).readBlock bufSize
termination_by ti.size - ti.pos
decreasing_by
  all_goals
    have same := (SameTape.markerAt ti ti.pos).size
    simp only [moveTo]
  · have inside := markerAt_inside found (by decide)
    omega
  · have inside := markerAt_record found
    omega

def erase (ti : TapeImage) : TapeImage × TapeStatus :=
  if ti.readOnly then (ti, .error)
  else
    let written := ti.writeRepeat ti.pos 0xFF (ti.size - ti.pos)
    if written.2 then
      if written.1.flush.2 then (written.1.flush.1, .ok) else (written.1.flush.1, .error)
    else (written.1, .error)

/-- The marker of the end is written when it fits. -/
def markEnd (ti : TapeImage) : TapeImage × Bool :=
  if ti.size < ti.pos + 4 then (ti, true) else ti.writeWord ti.pos simhEom

def writtenStatus (ti : TapeImage) : TapeStatus := if ti.isEw then .ew else .ok

/-- The pieces of a record are written one after the other. -/
def writePieces (ti : TapeImage) (pos : Nat) : List (List Byte) → TapeImage × Bool
  | [] => (ti, true)
  | piece :: rest =>
    if (ti.writeBytes pos piece).2 then
      (ti.writeBytes pos piece).1.writePieces (pos + piece.length) rest
    else ((ti.writeBytes pos piece).1, false)

def recordPieces (bytes : List Byte) : List (List Byte) :=
  [wordBytes (BitVec.ofNat 32 bytes.length), bytes, List.replicate (bytes.length % 2) 0,
    wordBytes (BitVec.ofNat 32 bytes.length)]

def writeBlock (ti : TapeImage) (bytes : List Byte) : TapeImage × TapeStatus :=
  let rec_ := 4 + bytes.length + bytes.length % 2 + 4
  if ti.readOnly then (ti, .error)
  else if ti.size ≤ ti.pos + rec_ then (ti, .eom)
  else
    let written := ti.writePieces ti.pos (recordPieces bytes)
    if written.2 then
      let marked := (written.1.moveTo (ti.pos + rec_)).markEnd
      if marked.2 then (marked.1, marked.1.writtenStatus) else (marked.1, .error)
    else (written.1, .error)

def writeMarks (ti : TapeImage) : Nat → TapeImage × Bool
  | 0 => (ti, true)
  | count + 1 =>
    if (ti.writeWord ti.pos simhTapeMark).2 then
      ((ti.writeWord ti.pos simhTapeMark).1.moveTo (ti.pos + 4)).writeMarks count
    else ((ti.writeWord ti.pos simhTapeMark).1, false)

def writeFilemarks (ti : TapeImage) (count : Nat) : TapeImage × TapeStatus :=
  if ti.readOnly then (ti, .error)
  else if ti.size ≤ ti.pos + count * 4 then (ti, .eom)
  else
    let written := ti.writeMarks count
    if written.2 then
      let marked := written.1.markEnd
      if marked.2 then (marked.1, marked.1.writtenStatus) else (marked.1, .error)
    else (written.1, .error)

end TapeImage

end Nd100x.Scsi
