import Nd100x.Gateway.EthSegment
import Mathlib.Data.List.AList

namespace Nd100x.Gateway

open Nd100x.Library

/-- The server that accepted a connection. -/
inductive LineServer where
  | hdlc (channel : Byte)
  | terminal
  deriving DecidableEq, Repr

/-- A connection is in the menu while it is bound to no terminal. The last field records what the
emulator's frames wrote to it. -/
structure LineSocket where
  server : LineServer
  destroyed : Bool
  closed : Bool
  inputBuf : Message
  boundIdentCode : Option Nat
  written : Message

/-- A message to the emulator. -/
inductive LineMessage where
  | termInput (identCode : Nat) (bytes : Message)
  | hdlcRx (channel : Byte) (data : Message)
  | hdlcCarrier (channel : Byte) (present : Bool)
  | clientConnected (identCode : Nat)
  | clientDisconnected (identCode : Nat)
  deriving DecidableEq

/-- A map from channels or terminals to connections. -/
abbrev Bindings := AList fun _ : Nat => Nat

/-- The lines of the gateway. A connection is named by the order in which it came. The last field
records the messages to the emulator since it connected. -/
structure LineGateway where
  emulator : EmulatorWs
  registeredTerminals : List Nat
  tcpBindings : Bindings
  hdlcBindings : Bindings
  opened : Nat
  sockets : Nat → LineSocket
  sent : List LineMessage

inductive LineEvent where
  | connect (server : LineServer)
  | data (socket : Nat) (chunk : Message)
  | ended (socket : Nat)
  | close (socket : Nat)
  | emulatorConnect
  | emulatorClosing
  | emulatorClose
  | register (terminals : List Nat)
  | emulatorMessage (buf : Message)

/- The lines that a client types into the menu. -/

/-- Only seven bits of each byte are characters. -/
def toAscii (data : Message) : Message := data.map (· &&& 0x7F)

def isLineEnd (char : Byte) : Bool := char = 0x0D || char = 0x0A

def isBlank (char : Byte) : Bool := char = 0x20 || (0x09 ≤ char && char ≤ 0x0D)

def trim (line : Message) : Message :=
  ((line.dropWhile isBlank).reverse.dropWhile isBlank).reverse

def isDigit (char : Byte) : Bool := 0x30 ≤ char && char ≤ 0x39

/-- The digits in front count, after a sign. Without digits there is no number. -/
def parseInt (line : Message) : Option Int :=
  let negative := line.headD 0 = 0x2D
  let signed := negative ∨ line.headD 0 = 0x2B
  let digits := (if signed then line.drop 1 else line).takeWhile isDigit
  if digits = [] then none
  else
    let value : Int := digits.foldl (fun value digit => value * 10 + (digit.toNat - 0x30 : Nat)) 0
    some (if negative then -value else value)

/-- A telnet command of three bytes is left out. -/
def stripTelnet : Message → Message
  | [] => []
  | 0xFF :: _ :: _ :: rest => stripTelnet rest
  | byte :: rest => byte :: stripTelnet rest

namespace LineGateway

def noSocket : LineSocket := ⟨.terminal, true, true, [], none, []⟩

def start : LineGateway where
  emulator := .absent
  registeredTerminals := []
  tcpBindings := ∅
  hdlcBindings := ∅
  opened := 0
  sockets := fun _ => noSocket
  sent := []

def onSocket (n : LineGateway) (socket : Nat) (change : LineSocket → LineSocket) : LineGateway :=
  { n with sockets := Function.update n.sockets socket (change (n.sockets socket)) }

def destroy (n : LineGateway) (socket : Nat) : LineGateway :=
  n.onSocket socket fun s => { s with destroyed := true }

def send (n : LineGateway) (message : LineMessage) : LineGateway :=
  if n.emulator = .connected then { n with sent := n.sent ++ [message] } else n

def putHdlc (n : LineGateway) (bindings : Bindings) : LineGateway :=
  { n with hdlcBindings := bindings }

def putTcp (n : LineGateway) (bindings : Bindings) : LineGateway :=
  { n with tcpBindings := bindings }

def accept (n : LineGateway) (server : LineServer) : LineGateway :=
  { n with
    opened := n.opened + 1
    sockets := Function.update n.sockets n.opened ⟨server, false, false, [], none, []⟩ }

/-- A new connection replaces the one that the channel had. -/
def replaceHdlc (n : LineGateway) (channel : Byte) : LineGateway :=
  match n.hdlcBindings.lookup channel.toNat with
  | none => n
  | some existing => if (n.sockets existing).destroyed then n else n.destroy existing

def connectHdlc (n : LineGateway) (channel : Byte) : LineGateway :=
  let socket := n.opened
  let n := (n.accept (.hdlc channel)).replaceHdlc channel
  (n.putHdlc (n.hdlcBindings.insert channel.toNat socket)).send (.hdlcCarrier channel true)

def connect (n : LineGateway) : LineServer → LineGateway
  | .hdlc channel => n.connectHdlc channel
  | .terminal => n.accept .terminal

/-- A free terminal is bound to the connection that chose it while there is an emulator. -/
def bindTerminal (n : LineGateway) (socket identCode : Nat) : LineGateway :=
  if (n.tcpBindings.lookup identCode).isSome then n
  else if n.emulator = .absent then n
  else
    ((n.onSocket socket fun s => { s with boundIdentCode := some identCode }).putTcp
      (n.tcpBindings.insert identCode socket)).send (.clientConnected identCode)

/-- The answers of the menu are texts only. -/
def choose (n : LineGateway) (socket : Nat) (line : Message) : LineGateway :=
  match parseInt line with
  | none => n
  | some choice =>
    if choice < 1 ∨ n.registeredTerminals.length < choice then n
    else
      match n.registeredTerminals[(choice - 1).toNat]? with
      | none => n
      | some identCode => n.bindTerminal socket identCode

/-- A line is taken as soon as it ends, and what follows it is dropped. -/
def onMenuData (n : LineGateway) (socket : Nat) (chunk : Message) : LineGateway :=
  let input := (n.sockets socket).inputBuf ++ toAscii chunk
  if input.any isLineEnd then
    (n.onSocket socket fun s => { s with inputBuf := [] }).choose socket
      (trim (input.takeWhile fun char => !isLineEnd char))
  else n.onSocket socket fun s => { s with inputBuf := input }

def onTerminalData (n : LineGateway) (socket : Nat) (chunk : Message) : LineGateway :=
  match (n.sockets socket).boundIdentCode with
  | none => n.onMenuData socket chunk
  | some identCode =>
    if stripTelnet chunk = [] then n else n.send (.termInput identCode (stripTelnet chunk))

def onData (n : LineGateway) (socket : Nat) (chunk : Message) : LineGateway :=
  match (n.sockets socket).server with
  | .hdlc channel => n.send (.hdlcRx channel chunk)
  | .terminal => n.onTerminalData socket chunk

def closes (n : LineGateway) (socket : Nat) : LineGateway :=
  n.onSocket socket fun s => { s with destroyed := true, closed := true }

/-- The entry of the channel or the terminal is removed, whichever connection it names. -/
def release (n : LineGateway) (s : LineSocket) : LineGateway :=
  match s.server with
  | .hdlc channel =>
    (n.putHdlc (n.hdlcBindings.erase channel.toNat)).send (.hdlcCarrier channel false)
  | .terminal =>
    match s.boundIdentCode with
    | none => n
    | some identCode =>
      (n.putTcp (n.tcpBindings.erase identCode)).send (.clientDisconnected identCode)

def onClose (n : LineGateway) (socket : Nat) : LineGateway :=
  (n.closes socket).release (n.sockets socket)

def destroyAll (n : LineGateway) (bindings : Bindings) : LineGateway :=
  bindings.entries.foldl (fun n binding => n.destroy binding.2) n

/-- All bound connections are dropped with the emulator. -/
def onEmulatorClose (n : LineGateway) : LineGateway :=
  let n := { n with emulator := .absent, registeredTerminals := [] }
  let n := (n.destroyAll n.tcpBindings).putTcp ∅
  (n.destroyAll n.hdlcBindings).putHdlc ∅

/-- Nothing is written to a destroyed connection. -/
def write (n : LineGateway) (binding : Option Nat) (bytes : Message) : LineGateway :=
  match binding with
  | none => n
  | some socket =>
    if (n.sockets socket).destroyed then n
    else n.onSocket socket fun s => { s with written := s.written ++ bytes }

/-- Output of a terminal, or a frame for a channel with its length in front. -/
def onEmulatorMessage (n : LineGateway) (buf : Message) : LineGateway :=
  if buf.length < 2 then n
  else if buf.getD 0 0 = 0x02 then
    n.write (n.tcpBindings.lookup (buf.getD 1 0).toNat) (buf.drop 2)
  else if buf.getD 0 0 = 0x11 ∧ 4 ≤ buf.length then
    n.write (n.hdlcBindings.lookup (buf.getD 1 0).toNat)
      ((buf.drop 4).take (joinLength (buf.getD 2 0) (buf.getD 3 0)))
  else n

/-- A destroyed socket gives no more data, and each socket closes once. Only without an emulator a
new WebSocket becomes the emulator. -/
def step (n : LineGateway) : LineEvent → LineGateway
  | .connect server => n.connect server
  | .data socket chunk => if (n.sockets socket).destroyed then n else n.onData socket chunk
  | .ended socket => n.destroy socket
  | .close socket => if (n.sockets socket).closed then n else n.onClose socket
  | .emulatorConnect =>
    if n.emulator = .absent then { n with emulator := .connected, sent := [] } else n
  | .emulatorClosing => if n.emulator = .connected then { n with emulator := .closing } else n
  | .emulatorClose => if n.emulator = .absent then n else n.onEmulatorClose
  | .register terminals =>
    if n.emulator = .absent then n else { n with registeredTerminals := terminals }
  | .emulatorMessage buf => if n.emulator = .absent then n else n.onEmulatorMessage buf

end LineGateway

end Nd100x.Gateway
