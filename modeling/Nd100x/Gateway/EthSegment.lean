import Nd100x.Gateway.Disk
import Nd100x.Library.FrameStream

namespace Nd100x.Gateway

open Nd100x.Library

abbrev Frame := List Byte

def rethMagic : Message := [0x52, 0x45, 0x54, 0x48]
def rethVersionMember : Byte := 1
def rethHandshakeLen : Nat := 5
def rethMaxFrame : Nat := 2048

/-- The state of the WebSocket of the emulator. -/
inductive EmulatorWs where
  | absent
  | connected
  | closing
  deriving DecidableEq, Repr

/-- A TCP connection of a segment. The last three fields record its stream, the frames that were
repeated from it and what was written to it. -/
structure EthSocket where
  segment : Byte
  rx : Message
  greeted : Bool
  destroyed : Bool
  closed : Bool
  received : Message
  repeated : List Frame
  written : Message

/-- The Ethernet side of the gateway. A connection is named by the order in which it came. The last
two fields record what the connected emulator was last told of a segment and the frames that were
sent to emulators. -/
structure EthGateway where
  emulator : EmulatorWs
  opened : Nat
  sockets : Nat → EthSocket
  ethBindings : Byte → Option (List Nat)
  linkTold : Byte → Option Bool
  sentUp : List (Byte × Frame)

inductive EthEvent where
  | connect (segment : Byte)
  | data (member : Nat) (chunk : Message)
  | ended (member : Nat)
  | close (member : Nat)
  | emulatorConnect
  | emulatorClosing
  | emulatorClose
  | emulatorMessage (buf : Message)

namespace EthGateway

def noSocket : EthSocket := ⟨0, [], false, true, true, [], [], []⟩

def start : EthGateway where
  emulator := .absent
  opened := 0
  sockets := fun _ => noSocket
  ethBindings := fun _ => none
  linkTold := fun _ => none
  sentUp := []

def onSocket (n : EthGateway) (member : Nat) (change : EthSocket → EthSocket) : EthGateway :=
  { n with sockets := Function.update n.sockets member (change (n.sockets member)) }

/-- The members of a segment. The set of a segment exists from its first member on. -/
def members (n : EthGateway) (segment : Byte) : List Nat := (n.ethBindings segment).getD []

def putMembers (n : EthGateway) (segment : Byte) (members : List Nat) : EthGateway :=
  { n with ethBindings := Function.update n.ethBindings segment (some members) }

def destroy (n : EthGateway) (member : Nat) : EthGateway :=
  n.onSocket member fun socket => { socket with destroyed := true }

def sendEthRxFrame (n : EthGateway) (segment : Byte) (data : Frame) : EthGateway :=
  if n.emulator = .connected then { n with sentUp := n.sentUp ++ [(segment, data)] } else n

def sendEthLink (n : EthGateway) (segment : Byte) (present : Bool) : EthGateway :=
  if n.emulator = .connected then
    { n with linkTold := Function.update n.linkTold segment (some present) }
  else n

/-- Nothing is written to a destroyed socket. -/
def write (n : EthGateway) (member : Nat) (bytes : Message) : EthGateway :=
  if (n.sockets member).destroyed then n
  else n.onSocket member fun socket => { socket with written := socket.written ++ bytes }

/-- A frame goes to every member but its sender, and up to the emulator unless that sent it. -/
def ethRepeat (n : EthGateway) (segment : Byte) (frameData : Frame) (source : Option Nat) :
    EthGateway :=
  let out := framed frameData
  let n := (n.members segment).foldl
    (fun n member => if source = some member then n else n.write member out) n
  if source.isSome then n.sendEthRxFrame segment frameData else n

def connect (n : EthGateway) (segment : Byte) : EthGateway :=
  { n with
    opened := n.opened + 1
    sockets := Function.update n.sockets n.opened
      ⟨segment, [], false, false, false, [], [], rethMagic ++ [rethVersionMember]⟩ }

def putRx (n : EthGateway) (member : Nat) (rx : Message) : EthGateway :=
  n.onSocket member fun socket => { socket with rx := rx }

/-- Whole frames are taken from the buffer and repeated. A length that is out of range ends the
connection. -/
def repeatFrames (member : Nat) : (fuel : Nat) → EthGateway → EthGateway
  | 0, n => n
  | fuel + 1, n =>
    let rx := (n.sockets member).rx
    if rx.length < 2 then n
    else
      let len := joinLength (rx.getD 0 0) (rx.getD 1 0)
      if len = 0 ∨ rethMaxFrame < len then n.destroy member
      else if rx.length < 2 + len then n
      else
        let frameData := (rx.drop 2).take len
        let n := (n.putRx member (rx.drop (2 + len))).onSocket member fun socket =>
          { socket with repeated := socket.repeated ++ [frameData] }
        repeatFrames member fuel
          (n.ethRepeat (n.sockets member).segment frameData (some member))

def addMember (members : List Nat) (member : Nat) : List Nat :=
  if member ∈ members then members else members ++ [member]

/-- The hello comes first and once. Only its letters are looked at. -/
def onData (n : EthGateway) (member : Nat) (chunk : Message) : EthGateway :=
  let n := n.onSocket member fun socket =>
    { socket with rx := socket.rx ++ chunk, received := socket.received ++ chunk }
  let socket := n.sockets member
  if socket.greeted then repeatFrames member socket.rx.length n
  else if socket.rx.length < rethHandshakeLen then n
  else if socket.rx.take 4 ≠ rethMagic then n.destroy member
  else
    let n := n.onSocket member fun socket =>
      { socket with rx := socket.rx.drop rethHandshakeLen, greeted := true }
    let n := n.putMembers socket.segment (addMember (n.members socket.segment) member)
    repeatFrames member socket.rx.length (n.sendEthLink socket.segment true)

/-- The members of a segment without a connection that is closed. -/
def leave (n : EthGateway) (segment : Byte) (member : Nat) : Option (List Nat) → EthGateway
  | none => n
  | some members =>
    let n := n.putMembers segment (members.erase member)
    if members.erase member = [] then n.sendEthLink segment false else n

def closes (n : EthGateway) (member : Nat) : EthGateway :=
  n.onSocket member fun socket => { socket with destroyed := true, closed := true }

def onClose (n : EthGateway) (member : Nat) : EthGateway :=
  let segment := (n.sockets member).segment
  (n.closes member).leave segment member (n.ethBindings segment)

/-- A frame from the emulator must be as long as its message says. -/
def onEmulatorMessage (n : EthGateway) (buf : Message) : EthGateway :=
  if 4 ≤ buf.length ∧ buf.getD 0 0 = 0x31 then
    let ethLen := joinLength (buf.getD 2 0) (buf.getD 3 0)
    if 0 < ethLen ∧ ethLen ≤ rethMaxFrame ∧ 4 + ethLen ≤ buf.length then
      n.ethRepeat (buf.getD 1 0) ((buf.drop 4).take ethLen) none
    else n
  else n

/-- A destroyed socket gives no more data, and each socket closes once. Only without an emulator a
new WebSocket becomes the emulator. -/
def step (n : EthGateway) : EthEvent → EthGateway
  | .connect segment => n.connect segment
  | .data member chunk => if (n.sockets member).destroyed then n else n.onData member chunk
  | .ended member => n.destroy member
  | .close member => if (n.sockets member).closed then n else n.onClose member
  | .emulatorConnect =>
    if n.emulator = .absent then
      { n with emulator := .connected, linkTold := fun _ => none }
    else n
  | .emulatorClosing => if n.emulator = .connected then { n with emulator := .closing } else n
  | .emulatorClose => { n with emulator := .absent }
  | .emulatorMessage buf => if n.emulator = .absent then n else n.onEmulatorMessage buf

end EthGateway

end Nd100x.Gateway
