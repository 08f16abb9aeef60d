import Nd100x.Library.FrameStream
import Mathlib.Logic.Function.Basic

namespace Nd100x.Ethernet

open Nd100x.Library

abbrev Frame := List (BitVec 8)

def ethNetRxRingSize : Nat := 512
def ethNetTcpMaxFrame : Nat := 2048

/-- The four letters and the version of the protocol. -/
def tcpHello : List (BitVec 8) := [0x52, 0x45, 0x54, 0x48, 1]

/-- Where the link thread is. A connection is named by the order in which it came about. -/
inductive LinkPhase where
  | idle
  | greeting (fd : Nat)
  | awaitingHello (fd : Nat) (got : List (BitVec 8))
  | publishing (fd : Nat)
  | raising (fd : Nat)
  | readingLength (fd : Nat) (got : List (BitVec 8))
  | readingFrame (fd length : Nat) (got : List (BitVec 8))
  | lowering (fd : Nat)
  | retracting (fd : Nat)
  | closing (fd : Nat)
  deriving DecidableEq, Repr

/-- Where the thread is that sends. After a failure it clears the active flag outside the lock. -/
inductive SendPhase where
  | idle
  | checked (frame : Frame)
  | clearing (failedOn : Option Nat)
  deriving DecidableEq, Repr

/-- What went over one connection. A part of a frame that was written is kept apart. -/
structure TcpStream where
  written : List (BitVec 8)
  broken : List (BitVec 8)
  shutDown : Bool
  received : List (BitVec 8)

/-- The link with the frames that were sent, written whole, handed to the ring and taken from it. -/
structure TcpLink where
  active : Bool
  conn : Option Nat
  phase : LinkPhase
  sender : SendPhase
  opened : Nat
  streams : Nat → TcpStream
  ring : List Frame
  sent : List Frame
  delivered : List (Nat × Frame)
  arrived : List (Nat × Frame)
  taken : List Frame

inductive TcpEvent where
  | connect (served : Bool)
  | greet (results : Nat → Int)
  | receive (chunk : List (BitVec 8))
  | linkStep
  | send (frame : Frame)
  | sendLocked (results : Nat → Int)
  | clearActive
  | take

/-- Bytes are written until all are gone or a send fails. The results are those of the calls of
send. -/
def writeFully : (fuel : Nat) → (results : Nat → Int) → (data : List (BitVec 8)) →
    List (BitVec 8) × Bool × (Nat → Int)
  | _, results, [] => ([], true, results)
  | 0, results, _ :: _ => ([], false, results)
  | fuel + 1, results, first :: rest =>
    let data := first :: rest
    if results 0 ≤ 0 then ([], false, fun call => results (call + 1))
    else
      let sent := min (results 0).toNat data.length
      let later := writeFully fuel (fun call => results (call + 1)) (data.drop sent)
      (data.take sent ++ later.1, later.2)

namespace TcpLink

def emptyStream : TcpStream := ⟨[], [], false, []⟩

def start : TcpLink where
  active := false
  conn := none
  phase := .idle
  sender := .idle
  opened := 0
  streams := fun _ => emptyStream
  ring := []
  sent := []
  delivered := []
  arrived := []
  taken := []

def putPhase (n : TcpLink) (phase : LinkPhase) : TcpLink := { n with phase := phase }

def putSender (n : TcpLink) (sender : SendPhase) : TcpLink := { n with sender := sender }

def onStream (n : TcpLink) (fd : Nat) (change : TcpStream → TcpStream) : TcpLink :=
  { n with streams := Function.update n.streams fd (change (n.streams fd)) }

/-- Accepted or dialled. Without memory for a frame the connection is closed at once. -/
def connect (n : TcpLink) (served : Bool) : TcpLink :=
  match n.phase with
  | .idle =>
    { n with
      opened := n.opened + 1
      phase := if served then .greeting n.opened else .closing n.opened }
  | _ => n

def greet (n : TcpLink) (results : Nat → Int) : TcpLink :=
  match n.phase with
  | .greeting fd =>
    let written := writeFully tcpHello.length results tcpHello
    (n.onStream fd fun stream => { stream with written := stream.written ++ written.1 }).putPhase
      (if written.2.1 then .awaitingHello fd [] else .closing fd)
  | _ => n

/-- The letters of the peer are ours, and it has a version. -/
def helloAccepted (peer : List (BitVec 8)) : Bool :=
  peer.take 4 = tcpHello.take 4 && peer.getD 4 0 ≠ 0

/-- A full ring drops the frame. -/
def ringPut (n : TcpLink) (fd : Nat) (frame : Frame) : TcpLink :=
  { n with
    arrived := n.arrived ++ [(fd, frame)]
    ring := if ethNetRxRingSize ≤ n.ring.length then n.ring
      else n.ring ++ [frame.take ethNetTcpMaxFrame] }

def note (n : TcpLink) (fd : Nat) (bytes : List (BitVec 8)) : TcpLink :=
  n.onStream fd fun stream => { stream with received := stream.received ++ bytes }

/-- A call of recv takes no more than is missing. Nothing means the end or an error. -/
def receive (n : TcpLink) (chunk : List (BitVec 8)) : TcpLink :=
  match n.phase with
  | .awaitingHello fd got =>
    if chunk = [] then n.putPhase (.closing fd)
    else
      let bytes := chunk.take (5 - got.length)
      let got := got ++ bytes
      (n.note fd bytes).putPhase
        (if got.length < 5 then .awaitingHello fd got
        else if helloAccepted got then .publishing fd else .closing fd)
  | .readingLength fd got =>
    if chunk = [] then n.putPhase (.lowering fd)
    else
      let bytes := chunk.take (2 - got.length)
      let got := got ++ bytes
      let length := joinLength (got.getD 0 0) (got.getD 1 0)
      (n.note fd bytes).putPhase
        (if got.length < 2 then .readingLength fd got
        else if 0 < length ∧ length ≤ ethNetTcpMaxFrame then .readingFrame fd length []
        else .lowering fd)
  | .readingFrame fd length got =>
    if chunk = [] then n.putPhase (.lowering fd)
    else
      let bytes := chunk.take (length - got.length)
      let got := got ++ bytes
      if got.length < length then (n.note fd bytes).putPhase (.readingFrame fd length got)
      else ((n.note fd bytes).ringPut fd got).putPhase (.readingLength fd [])
  | _ => n

/-- A step of the link thread that waits for nothing. -/
def linkStep (n : TcpLink) : TcpLink :=
  match n.phase with
  | .publishing fd => { n with conn := some fd, phase := .raising fd }
  | .raising fd => { n with active := true, phase := .readingLength fd [] }
  | .lowering fd => { n with active := false, phase := .retracting fd }
  | .retracting fd =>
    { n with conn := if n.conn = some fd then none else n.conn, phase := .closing fd }
  | .closing _ => n.putPhase .idle
  | _ => n

/-- The active flag is looked at before the lock is taken. One frame is sent at a time. -/
def send (n : TcpLink) (frame : Frame) : TcpLink :=
  if n.sender = .idle then
    let n := { n with sent := n.sent ++ [frame] }
    if frame.length = 0 ∨ n.active = false then n
    else if ethNetTcpMaxFrame < frame.length then n
    else n.putSender (.checked frame)
  else n

/-- Nothing more is sent after a shutdown. -/
def resultsOn (stream : TcpStream) (results : Nat → Int) : Nat → Int :=
  if stream.shutDown then fun _ => -1 else results

/-- The length goes before the frame. -/
def writeFrame (results : Nat → Int) (frame : Frame) : List (BitVec 8) × Bool :=
  let header := writeFully 2 results (lengthBytes frame.length)
  if header.2.1 then
    let body := writeFully frame.length header.2.2 frame
    (header.1 ++ body.1, body.2.1)
  else (header.1, false)

def wrote (n : TcpLink) (fd : Nat) (bytes : List (BitVec 8)) : TcpLink :=
  n.onStream fd fun stream => { stream with written := stream.written ++ bytes }

def breakOff (n : TcpLink) (fd : Nat) (bytes : List (BitVec 8)) : TcpLink :=
  n.onStream fd fun stream =>
    { stream with shutDown := true, broken := stream.broken ++ bytes }

/-- A frame is written under the lock, and a failure shuts the connection down. -/
def sendLocked (n : TcpLink) (results : Nat → Int) : TcpLink :=
  match n.sender with
  | .checked frame =>
    match n.conn with
    | none => n.putSender (.clearing none)
    | some fd =>
      let written := writeFrame (resultsOn (n.streams fd) results) frame
      if written.2 then
        { (n.wrote fd written.1).putSender .idle with
          delivered := n.delivered ++ [(fd, frame)] }
      else ((n.wrote fd written.1).breakOff fd written.1).putSender (.clearing (some fd))
  | _ => n

def clearActive (n : TcpLink) : TcpLink :=
  match n.sender with
  | .clearing _ => { n.putSender .idle with active := false }
  | _ => n

/-- The emulation takes a frame from the ring. -/
def take (n : TcpLink) : TcpLink :=
  match n.ring with
  | [] => n
  | frame :: rest => { n with ring := rest, taken := n.taken ++ [frame] }

def step (n : TcpLink) : TcpEvent → TcpLink
  | .connect served => n.connect served
  | .greet results => n.greet results
  | .receive chunk => n.receive chunk
  | .linkStep => n.linkStep
  | .send frame => n.send frame
  | .sendLocked results => n.sendLocked results
  | .clearActive => n.clearActive
  | .take => n.take

end TcpLink

end Nd100x.Ethernet
