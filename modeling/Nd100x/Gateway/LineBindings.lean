import Nd100x.Gateway.Lines
import Nd100x.Library.Runs

namespace Nd100x.Gateway

open Nd100x.Library

namespace LineGateway

def carrierOf (channel : Byte) (last : Option Bool) : LineMessage → Option Bool
  | .hdlcCarrier other present => if other = channel then some present else last
  | _ => last

/-- What the emulator was last told of the carrier of a channel since it connected. -/
def lastCarrier (n : LineGateway) (channel : Byte) : Option Bool :=
  n.sent.foldl (carrierOf channel) none

/-- The newest accepted connection of a channel, until it closes or the emulator disconnects. -/
def newestAfter (n : LineGateway) (newest : Byte → Option Nat) : LineEvent → Byte → Option Nat
  | .connect (.hdlc channel) => Function.update newest channel (some n.opened)
  | .close socket => fun channel =>
    if newest channel = some socket then none else newest channel
  | .emulatorClose => if n.emulator = .absent then newest else fun _ => none
  | _ => newest

/-- The bindings are those of the newest connections, a connected emulator was told of them, and a
terminal has no connection beside its own. -/
structure Follows (n : LineGateway) (newest : Byte → Option Nat) : Prop where
  bound : ∀ channel, n.hdlcBindings.lookup channel.toNat = newest channel
  carrier : n.emulator = .connected → ∀ channel,
    n.lastCarrier channel = some true ↔ newest channel ≠ none
  single : ∀ socket identCode, (n.sockets socket).destroyed = false →
    (n.sockets socket).boundIdentCode = some identCode →
    n.tcpBindings.lookup identCode = some socket

/-- A frame for a channel is written to its newest connection alone. -/
def WritesFrame (n : LineGateway) (newest : Byte → Option Nat) (buf : Message) : Prop :=
  4 ≤ buf.length → buf.getD 0 0 = 0x11 → n.emulator ≠ .absent → ∀ socket,
    ((n.onEmulatorMessage buf).sockets socket).written = (n.sockets socket).written ++
      if newest (buf.getD 1 0) = some socket ∧ (n.sockets socket).destroyed = false then
        (buf.drop 4).take (joinLength (buf.getD 2 0) (buf.getD 3 0))
      else []

/-- A terminal keeps its connection until that closes or the emulator disconnects. -/
def HoldsTerminals (n : LineGateway) (event : LineEvent) : Prop :=
  ∀ identCode socket, n.tcpBindings.lookup identCode = some socket → event ≠ .close socket →
    event ≠ .emulatorClose → (n.step event).tcpBindings.lookup identCode = some socket

/-- The close of another connection does not report a terminal disconnected. -/
def KeepsQuiet (n : LineGateway) (event : LineEvent) : Prop :=
  ∀ identCode socket other, n.tcpBindings.lookup identCode = some socket →
    event = .close other → other ≠ socket →
    (n.step event).sent.count (.clientDisconnected identCode) =
      n.sent.count (.clientDisconnected identCode)

/-- The lines follow their newest connections through a step. -/
structure StepFollows (n : LineGateway) (newest : Byte → Option Nat) (event : LineEvent) :
    Prop where
  after : Follows (n.step event) (n.newestAfter newest event)
  frames : ∀ buf, event = .emulatorMessage buf → n.WritesFrame newest buf
  terminals : n.HoldsTerminals event
  reports : n.KeepsQuiet event

/-- A connection reports its close before its channel or its terminal has another connection, and
no emulator connects while a channel has a connection. -/
def InTime (n : LineGateway) (newest : Byte → Option Nat) : LineEvent → Prop
  | .close socket => (n.sockets socket).closed = false →
      (∀ channel, (n.sockets socket).server = .hdlc channel →
        newest channel = none ∨ newest channel = some socket) ∧
      ∀ identCode, (n.sockets socket).server = .terminal →
        (n.sockets socket).boundIdentCode = some identCode →
        n.tcpBindings.lookup identCode = none ∨ n.tcpBindings.lookup identCode = some socket
  | .emulatorConnect => n.emulator = .absent → ∀ channel, newest channel = none
  | _ => True

/-- What holds of the connections in every run. -/
structure Opened (n : LineGateway) (newest : Byte → Option Nat) : Prop where
  newest : ∀ channel socket, newest channel = some socket →
    (n.sockets socket).server = .hdlc channel ∧ (n.sockets socket).closed = false
  holder : ∀ identCode socket, n.tcpBindings.lookup identCode = some socket →
    (n.sockets socket).server = .terminal ∧
      (n.sockets socket).boundIdentCode = some identCode ∧ (n.sockets socket).closed = false
  gone : ∀ socket, (n.sockets socket).closed = true → (n.sockets socket).destroyed = true
  fresh : ∀ socket, n.opened ≤ socket →
    (n.sockets socket).closed = true ∧ (n.sockets socket).boundIdentCode = none

/-- A change that leaves the bindings and what the emulator was told of them as they are. -/
structure Quiet (n t : LineGateway) : Prop where
  tcpBindings : t.tcpBindings = n.tcpBindings
  hdlcBindings : t.hdlcBindings = n.hdlcBindings
  opened : t.opened = n.opened
  emulator : t.emulator = .connected → n.emulator = .connected
  carrier : ∀ channel, t.lastCarrier channel = n.lastCarrier channel
  server : ∀ socket, (t.sockets socket).server = (n.sockets socket).server
  closed : ∀ socket, (t.sockets socket).closed = (n.sockets socket).closed
  terminal : ∀ socket, (t.sockets socket).boundIdentCode = (n.sockets socket).boundIdentCode
  destroyed : ∀ socket, (n.sockets socket).destroyed = true → (t.sockets socket).destroyed = true

variable {n m t : LineGateway} {newest : Byte → Option Nat}

theorem Quiet.refl (n : LineGateway) : Quiet n n where
  tcpBindings := rfl
  hdlcBindings := rfl
  opened := rfl
  emulator := id
  carrier := fun _ => rfl
  server := fun _ => rfl
  closed := fun _ => rfl
  terminal := fun _ => rfl
  destroyed := fun _ => id

theorem Quiet.trans (first : Quiet n m) (second : Quiet m t) : Quiet n t where
  tcpBindings := second.tcpBindings.trans first.tcpBindings
  hdlcBindings := second.hdlcBindings.trans first.hdlcBindings
  opened := second.opened.trans first.opened
  emulator := fun connected => first.emulator (second.emulator connected)
  carrier := fun channel => (second.carrier channel).trans (first.carrier channel)
  server := fun socket => (second.server socket).trans (first.server socket)
  closed := fun socket => (second.closed socket).trans (first.closed socket)
  terminal := fun socket => (second.terminal socket).trans (first.terminal socket)
  destroyed := fun socket here => second.destroyed socket (first.destroyed socket here)

theorem Quiet.opened_ (quiet : Quiet n t) (opened : Opened n newest) : Opened t newest where
  newest := by
    intro channel socket here
    rw [quiet.server, quiet.closed]
    exact opened.newest channel socket here
  holder := by
    intro identCode socket here
    rw [quiet.server, quiet.closed, quiet.terminal]
    exact opened.holder identCode socket (quiet.tcpBindings ▸ here)
  gone := by
    intro socket closed
    exact quiet.destroyed socket (opened.gone socket (quiet.closed socket ▸ closed))
  fresh := by
    intro socket later
    rw [quiet.closed, quiet.terminal]
    exact opened.fresh socket (quiet.opened ▸ later)

theorem Quiet.follows (quiet : Quiet n t) (follows : Follows n newest) : Follows t newest where
  bound := by
    intro channel
    rw [quiet.hdlcBindings]
    exact follows.bound channel
  carrier := by
    intro connected channel
    rw [quiet.carrier]
    exact follows.carrier (quiet.emulator connected) channel
  single := by
    intro socket identCode alive here
    rw [quiet.tcpBindings]
    refine follows.single socket identCode ?_ (quiet.terminal socket ▸ here)
    rw [Bool.eq_false_iff] at alive ⊢
    exact fun gone => alive (quiet.destroyed socket gone)

@[simp] theorem onSocket_same (n : LineGateway) (socket : Nat) (change : LineSocket → LineSocket) :
    (n.onSocket socket change).sockets socket = change (n.sockets socket) :=
  Function.update_self ..

theorem onSocket_other {socket other : Nat} (different : other ≠ socket)
    (n : LineGateway) (change : LineSocket → LineSocket) :
    (n.onSocket socket change).sockets other = n.sockets other :=
  Function.update_of_ne different ..

/-- A field of a connection that a change keeps. -/
theorem onSocket_kept {Value : Type} (field : LineSocket → Value) {socket : Nat}
    {change : LineSocket → LineSocket} (same : field (change (n.sockets socket)) =
      field (n.sockets socket)) (other : Nat) :
    field ((n.onSocket socket change).sockets other) = field (n.sockets other) := by
  by_cases this_ : other = socket
  · rw [this_, onSocket_same, same]
  · rw [onSocket_other this_]

theorem onSocket_quiet {socket : Nat} {change : LineSocket → LineSocket}
    (server : (change (n.sockets socket)).server = (n.sockets socket).server)
    (closed : (change (n.sockets socket)).closed = (n.sockets socket).closed)
    (terminal : (change (n.sockets socket)).boundIdentCode = (n.sockets socket).boundIdentCode)
    (destroyed : (n.sockets socket).destroyed = true →
      (change (n.sockets socket)).destroyed = true) :
    Quiet n (n.onSocket socket change) where
  tcpBindings := rfl
  hdlcBindings := rfl
  opened := rfl
  emulator := id
  carrier := fun _ => rfl
  server := onSocket_kept LineSocket.server server
  closed := onSocket_kept LineSocket.closed closed
  terminal := onSocket_kept LineSocket.boundIdentCode terminal
  destroyed := by
    intro other gone
    by_cases this_ : other = socket
    · rw [this_, onSocket_same]
      exact destroyed (this_ ▸ gone)
    · rw [onSocket_other this_]
      exact gone

theorem destroy_quiet (n : LineGateway) (socket : Nat) : Quiet n (n.destroy socket) :=
  onSocket_quiet rfl rfl rfl fun _ => rfl

/-- A message changes nothing but the record of messages. -/
theorem send_eq (n : LineGateway) (message : LineMessage) :
    n.send message =
      { n with sent := if n.emulator = .connected then n.sent ++ [message] else n.sent } := by
  rw [send]
  split_ifs <;> rfl

theorem lastCarrier_send (n : LineGateway) (message : LineMessage) (channel : Byte) :
    (n.send message).lastCarrier channel =
      if n.emulator = .connected then carrierOf channel (n.lastCarrier channel) message
      else n.lastCarrier channel := by
  rw [send]
  split_ifs
  · exact List.foldl_append ..
  · rfl

theorem send_quiet {message : LineMessage}
    (other : ∀ channel last, carrierOf channel last message = last) :
    Quiet n (n.send message) := by
  have carrier : ∀ channel, (n.send message).lastCarrier channel = n.lastCarrier channel := by
    intro channel
    rw [lastCarrier_send, other, ite_self]
  rw [send_eq] at carrier ⊢
  exact { Quiet.refl n with carrier }

theorem write_quiet (n : LineGateway) (binding : Option Nat) (bytes : Message) :
    Quiet n (n.write binding bytes) := by
  rcases binding with - | socket
  · exact .refl n
  · rw [write]
    split_ifs
    · exact .refl n
    · exact onSocket_quiet rfl rfl rfl id

theorem onEmulatorMessage_quiet (n : LineGateway) (buf : Message) :
    Quiet n (n.onEmulatorMessage buf) := by
  rw [onEmulatorMessage]
  split_ifs
  · exact .refl n
  · exact write_quiet ..
  · exact write_quiet ..
  · exact .refl n

/-- The emulator's frame reaches the newest connection. -/
theorem onEmulatorMessage_writes (follows : Follows n newest) (buf : Message) :
    n.WritesFrame newest buf := by
  intro long frame _ socket
  have short : ¬ buf.length < 2 := by omega
  have output : buf.getD 0 0 ≠ 0x02 := by
    rw [frame]
    decide
  rw [onEmulatorMessage, if_neg short, if_neg output, if_pos ⟨frame, long⟩, follows.bound]
  rcases newest (buf.getD 1 0) with - | current
  · rw [if_neg fun here => absurd here.1.symm (Option.some_ne_none socket), List.append_nil]
    rfl
  · rw [write]
    by_cases this_ : socket = current
    · rw [← this_]
      split_ifs with gone here here
      · exact absurd here.2 (ne_of_eq_of_ne gone (by decide))
      · exact (List.append_nil _).symm
      · rw [onSocket_same]
      · exact absurd ⟨rfl, Bool.eq_false_iff.mpr gone⟩ here
    · have others : ¬ (some current = some socket ∧ (n.sockets socket).destroyed = false) :=
        fun here => this_ (Option.some.inj here.1).symm
      rw [if_neg others, List.append_nil]
      split_ifs
      · rfl
      · rw [onSocket_other this_]

/- A terminal is bound. -/

/-- The terminal is the connection's. -/
def holds (n : LineGateway) (socket identCode : Nat) : LineGateway :=
  (n.onSocket socket fun s => { s with boundIdentCode := some identCode }).putTcp
    (n.tcpBindings.insert identCode socket)

theorem bindTerminal_cases (n : LineGateway) (socket identCode : Nat) :
    n.bindTerminal socket identCode = n ∨
      n.tcpBindings.lookup identCode = none ∧
        Quiet (n.holds socket identCode) (n.bindTerminal socket identCode) := by
  rw [bindTerminal]
  split_ifs with used absent
  · exact .inl rfl
  · exact .inl rfl
  · exact .inr ⟨Option.not_isSome_iff_eq_none.mp used, send_quiet fun _ _ => rfl⟩

/-- Input binds at most one free terminal, to the connection it came from. -/
def Binds (n t : LineGateway) (socket : Nat) : Prop :=
  ∃ m identCode, Quiet n m ∧ (m.sockets socket).destroyed = (n.sockets socket).destroyed ∧
    n.tcpBindings.lookup identCode = none ∧ (n.sockets socket).server = .terminal ∧
    (n.sockets socket).boundIdentCode = none ∧ Quiet (m.holds socket identCode) t

theorem choose_cases (n : LineGateway) (socket : Nat) (line : Message) :
    n.choose socket line = n ∨ ∃ identCode, n.tcpBindings.lookup identCode = none ∧
      Quiet (n.holds socket identCode) (n.choose socket line) := by
  rw [choose]
  split
  · exact .inl rfl
  · split_ifs
    · exact .inl rfl
    · split
      · exact .inl rfl
      · next identCode _ =>
          rcases n.bindTerminal_cases socket identCode with same | holds_
          · exact .inl same
          · exact .inr ⟨identCode, holds_⟩

theorem onData_cases (n : LineGateway) (socket : Nat) (chunk : Message) :
    Quiet n (n.onData socket chunk) ∨ n.Binds (n.onData socket chunk) socket := by
  rw [onData]
  split
  · exact .inl (send_quiet fun _ _ => rfl)
  · next terminal =>
      rw [onTerminalData]
      split
      · next menu =>
          rw [onMenuData]
          split_ifs
          · have cleared : Quiet n (n.onSocket socket fun s => { s with inputBuf := [] }) :=
              onSocket_quiet rfl rfl rfl id
            rcases choose_cases (n.onSocket socket fun s => { s with inputBuf := [] }) socket
              (trim (((n.sockets socket).inputBuf ++ toAscii chunk).takeWhile
                fun char => !isLineEnd char)) with same | ⟨identCode, free, holds_⟩
            · rw [same]
              exact .inl cleared
            · have kept := congrArg LineSocket.destroyed (onSocket_same n socket fun s =>
                { s with inputBuf := [] })
              exact .inr ⟨_, identCode, cleared, kept, free, terminal, menu, holds_⟩
          · exact .inl (onSocket_quiet rfl rfl rfl id)
      · split_ifs
        · exact .inl (.refl n)
        · exact .inl (send_quiet fun _ _ => rfl)

section Holds

variable {socket identCode : Nat}

theorem holds_server (n : LineGateway) (socket identCode other : Nat) :
    ((n.holds socket identCode).sockets other).server = (n.sockets other).server := by
  dsimp only [holds, putTcp]
  refine onSocket_kept LineSocket.server ?_ other
  rfl

theorem holds_closed (n : LineGateway) (socket identCode other : Nat) :
    ((n.holds socket identCode).sockets other).closed = (n.sockets other).closed := by
  dsimp only [holds, putTcp]
  refine onSocket_kept LineSocket.closed ?_ other
  rfl

theorem holds_destroyed (n : LineGateway) (socket identCode other : Nat) :
    ((n.holds socket identCode).sockets other).destroyed = (n.sockets other).destroyed := by
  dsimp only [holds, putTcp]
  refine onSocket_kept LineSocket.destroyed ?_ other
  rfl

theorem holds_terminal (n : LineGateway) (socket identCode other : Nat) :
    ((n.holds socket identCode).sockets other).boundIdentCode =
      if other = socket then some identCode else (n.sockets other).boundIdentCode := by
  rw [holds, putTcp]
  split_ifs with this_
  · rw [this_, onSocket_same]
  · rw [onSocket_other this_]

theorem holds_lookup (n : LineGateway) (socket identCode other : Nat) :
    (n.holds socket identCode).tcpBindings.lookup other =
      if other = identCode then some socket else n.tcpBindings.lookup other := by
  split_ifs with this_
  · rw [this_]
    exact AList.lookup_insert n.tcpBindings
  · exact AList.lookup_insert_ne this_

theorem holds_opened (opened : Opened n newest) (alive : (n.sockets socket).destroyed = false)
    (terminal : (n.sockets socket).server = .terminal)
    (menu : (n.sockets socket).boundIdentCode = none) :
    Opened (n.holds socket identCode) newest where
  newest := by
    intro channel other here
    rw [holds_server, holds_closed]
    exact opened.newest channel other here
  holder := by
    intro other holder here
    rw [holds_server, holds_closed, holds_terminal]
    rw [holds_lookup] at here
    split_ifs at here with this_
    · rw [if_pos (Option.some.inj here).symm, ← Option.some.inj here, this_]
      refine ⟨terminal, rfl, Bool.eq_false_iff.mpr fun closed => ?_⟩
      rw [opened.gone socket closed] at alive
      exact Bool.noConfusion alive
    · have before := opened.holder other holder here
      have different : holder ≠ socket := by
        intro same
        rw [same, menu] at before
        exact absurd before.2.1.symm (Option.some_ne_none other)
      rw [if_neg different]
      exact before
  gone := by
    intro other closed
    rw [holds_destroyed]
    rw [holds_closed] at closed
    exact opened.gone other closed
  fresh := by
    intro other later
    have before := opened.fresh other later
    have different : other ≠ socket := by
      intro same
      rw [← same, opened.gone other before.1] at alive
      exact Bool.noConfusion alive
    rw [holds_closed, holds_terminal, if_neg different]
    exact before

theorem holds_follows (follows : Follows n newest) (free : n.tcpBindings.lookup identCode = none) :
    Follows (n.holds socket identCode) newest where
  bound := follows.bound
  carrier := follows.carrier
  single := by
    intro other terminal alive here
    rw [holds_destroyed] at alive
    rw [holds_terminal] at here
    rw [holds_lookup]
    split_ifs at here with this_
    · rw [if_pos (Option.some.inj here).symm, this_]
    · have before := follows.single other terminal alive here
      have different : terminal ≠ identCode := by
        intro same
        rw [same, free] at before
        exact absurd before.symm (Option.some_ne_none other)
      rw [if_neg different]
      exact before

end Holds

section Events

variable {socket : Nat}

theorem Binds.opened_ (binds : n.Binds t socket) (opened : Opened n newest)
    (alive : (n.sockets socket).destroyed = false) : Opened t newest := by
  obtain ⟨m, identCode, quiet, kept, -, terminal, menu, later⟩ := binds
  rw [← quiet.server] at terminal
  rw [← quiet.terminal] at menu
  exact later.opened_ (holds_opened (quiet.opened_ opened) (kept.trans alive) terminal menu)

theorem Binds.follows (binds : n.Binds t socket) (follows : Follows n newest) :
    Follows t newest := by
  obtain ⟨m, identCode, quiet, -, free, -, -, later⟩ := binds
  rw [← quiet.tcpBindings] at free
  exact later.follows (holds_follows (quiet.follows follows) free)

/-- A terminal that has a connection keeps it. -/
theorem Binds.keeps (binds : n.Binds t socket) {identCode holder : Nat}
    (here : n.tcpBindings.lookup identCode = some holder) :
    t.tcpBindings.lookup identCode = some holder := by
  obtain ⟨m, chosen, quiet, -, free, -, -, later⟩ := binds
  have different : identCode ≠ chosen := by
    intro same
    rw [same, free] at here
    exact absurd here.symm (Option.some_ne_none holder)
  rw [later.tcpBindings, holds_lookup, if_neg different, quiet.tcpBindings]
  exact here

/- A connection is accepted. -/

theorem accept_new (n : LineGateway) (server : LineServer) :
    (n.accept server).sockets n.opened = ⟨server, false, false, [], none, []⟩ :=
  Function.update_self ..

theorem accept_old {other : Nat} (older : other ≠ n.opened) (server : LineServer) :
    (n.accept server).sockets other = n.sockets other :=
  Function.update_of_ne older ..

theorem accept_opened (opened : Opened n newest) (server : LineServer) :
    Opened (n.accept server) newest := by
  have older : ∀ other, (n.sockets other).closed = false → other ≠ n.opened := by
    intro other alive same
    rw [(opened.fresh other same.ge).1] at alive
    exact Bool.noConfusion alive
  refine ⟨?_, ?_, ?_, ?_⟩
  · intro channel other here
    have before := opened.newest channel other here
    rw [accept_old (older other before.2)]
    exact before
  · intro identCode other here
    have before := opened.holder identCode other here
    rw [accept_old (older other before.2.2)]
    exact before
  · intro other
    by_cases this_ : other = n.opened
    · rw [this_, accept_new]
      exact fun closed => Bool.noConfusion closed
    · rw [accept_old this_]
      exact opened.gone other
  · intro other later
    have this_ : n.opened < other := later
    rw [accept_old this_.ne']
    exact opened.fresh other this_.le

theorem accept_follows (follows : Follows n newest) (server : LineServer) :
    Follows (n.accept server) newest where
  bound := follows.bound
  carrier := follows.carrier
  single := by
    intro other identCode
    by_cases this_ : other = n.opened
    · rw [this_, accept_new]
      exact fun _ here => absurd here.symm (Option.some_ne_none identCode)
    · rw [accept_old this_]
      exact follows.single other identCode

theorem replaceHdlc_quiet (n : LineGateway) (channel : Byte) : Quiet n (n.replaceHdlc channel) := by
  rw [replaceHdlc]
  split
  · exact .refl n
  · split_ifs
    · exact .refl n
    · exact destroy_quiet ..

theorem toNat_ne {channel other : Byte} (different : other ≠ channel) :
    other.toNat ≠ channel.toNat :=
  fun same => different (BitVec.eq_of_toNat_eq same)

/-- A connection becomes that of its channel, and the emulator is told. -/
def holdsHdlc (n : LineGateway) (channel : Byte) (socket : Nat) : LineGateway :=
  (n.putHdlc (n.hdlcBindings.insert channel.toNat socket)).send (.hdlcCarrier channel true)

theorem holdsHdlc_opened (opened : Opened n newest) {channel : Byte}
    (server : (n.sockets socket).server = .hdlc channel)
    (alive : (n.sockets socket).closed = false) :
    Opened (n.holdsHdlc channel socket) (Function.update newest channel (some socket)) := by
  rw [holdsHdlc, send_eq]
  refine ⟨?_, opened.holder, opened.gone, opened.fresh⟩
  intro other current here
  by_cases this_ : other = channel
  · rw [this_, Function.update_self] at here
    rw [← Option.some.inj here, this_]
    exact ⟨server, alive⟩
  · rw [Function.update_of_ne this_] at here
    exact opened.newest other current here

theorem holdsHdlc_follows (follows : Follows n newest) (channel : Byte) (socket : Nat) :
    Follows (n.holdsHdlc channel socket) (Function.update newest channel (some socket)) where
  bound := by
    intro other
    rw [holdsHdlc, send_eq]
    change (n.hdlcBindings.insert channel.toNat socket).lookup other.toNat = _
    by_cases this_ : other = channel
    · rw [this_, Function.update_self, AList.lookup_insert]
    · rw [Function.update_of_ne this_, AList.lookup_insert_ne (toNat_ne this_)]
      exact follows.bound other
  carrier := by
    intro connected other
    rw [holdsHdlc, send_eq] at connected
    rw [holdsHdlc, lastCarrier_send, if_pos connected, carrierOf]
    split_ifs with this_
    · rw [← this_, Function.update_self]
      exact iff_of_true rfl (Option.some_ne_none socket)
    · rw [Function.update_of_ne (Ne.symm this_)]
      exact follows.carrier connected other
  single := by
    rw [holdsHdlc, send_eq]
    exact follows.single

theorem connectHdlc_eq (n : LineGateway) (channel : Byte) :
    n.connectHdlc channel = ((n.accept (.hdlc channel)).replaceHdlc channel).holdsHdlc channel
      n.opened := rfl

theorem connectHdlc_opened (opened : Opened n newest) (channel : Byte) :
    Opened (n.connectHdlc channel) (Function.update newest channel (some n.opened)) := by
  have quiet := (n.accept (.hdlc channel)).replaceHdlc_quiet channel
  rw [connectHdlc_eq]
  refine holdsHdlc_opened (quiet.opened_ (accept_opened opened _)) ?_ ?_
  · rw [quiet.server, accept_new]
  · rw [quiet.closed, accept_new]

theorem connectHdlc_follows (follows : Follows n newest) (channel : Byte) :
    Follows (n.connectHdlc channel) (Function.update newest channel (some n.opened)) := by
  have quiet := (n.accept (.hdlc channel)).replaceHdlc_quiet channel
  rw [connectHdlc_eq]
  exact holdsHdlc_follows (quiet.follows (accept_follows follows _)) channel n.opened

theorem connectHdlc_tcpBindings (n : LineGateway) (channel : Byte) :
    (n.connectHdlc channel).tcpBindings = n.tcpBindings := by
  have quiet := (n.accept (.hdlc channel)).replaceHdlc_quiet channel
  rw [connectHdlc_eq, holdsHdlc, send_eq]
  exact quiet.tcpBindings

/- The emulator disconnects. -/

theorem destroyAll_quiet (n : LineGateway) (bindings : Bindings) :
    Quiet n (n.destroyAll bindings) := by
  rw [destroyAll]
  induction bindings.entries generalizing n with
  | nil => exact .refl n
  | cons binding rest ih =>
    exact (destroy_quiet n binding.2).trans (ih (n.destroy binding.2))

theorem destroyAll_destroys (n : LineGateway) {bindings : Bindings} {key : Nat}
    (here : bindings.lookup key = some socket) :
    ((n.destroyAll bindings).sockets socket).destroyed = true := by
  have member : (⟨key, socket⟩ : Sigma fun _ : Nat => Nat) ∈ bindings.entries :=
    AList.mem_lookup_iff.mp here
  obtain ⟨first, rest, split_⟩ := List.append_of_mem member
  have apart : n.destroyAll bindings = rest.foldl (fun n binding => n.destroy binding.2)
      ((first.foldl (fun n binding => n.destroy binding.2) n).destroy socket) := by
    rw [destroyAll, split_, List.foldl_append, List.foldl_cons]
  have gone : ∀ (rest : List (Sigma fun _ : Nat => Nat)) (m : LineGateway),
      (m.sockets socket).destroyed = true →
      ((rest.foldl (fun n binding => n.destroy binding.2) m).sockets socket).destroyed = true := by
    intro rest
    induction rest with
    | nil => exact fun _ here => here
    | cons binding rest ih =>
      exact fun m here => ih _ ((destroy_quiet m binding.2).destroyed _ here)
  rw [apart]
  refine gone rest _ ?_
  rw [destroy, onSocket_same]

def leaves (n : LineGateway) : LineGateway :=
  { n with emulator := .absent, registeredTerminals := [] }

def dropTerminals (n : LineGateway) : LineGateway := (n.destroyAll n.tcpBindings).putTcp ∅

def dropChannels (n : LineGateway) : LineGateway := (n.destroyAll n.hdlcBindings).putHdlc ∅

theorem leaves_quiet (n : LineGateway) : Quiet n n.leaves :=
  { Quiet.refl n with emulator := fun connected => EmulatorWs.noConfusion connected }

theorem dropTerminals_opened (opened : Opened n newest) : Opened n.dropTerminals newest := by
  have before := (destroyAll_quiet n n.tcpBindings).opened_ opened
  exact ⟨before.newest, fun identCode socket here =>
    absurd (here.symm.trans (AList.lookup_empty identCode)) (Option.some_ne_none socket),
    before.gone, before.fresh⟩

/-- Every connection of a terminal is dropped with the bindings. -/
theorem dropTerminals_follows (follows : Follows n newest) : Follows n.dropTerminals newest := by
  have quiet := destroyAll_quiet n n.tcpBindings
  have before := quiet.follows follows
  refine ⟨before.bound, before.carrier, ?_⟩
  intro socket identCode alive here
  have held := before.single socket identCode alive here
  rw [quiet.tcpBindings] at held
  have gone : ((n.destroyAll n.tcpBindings).sockets socket).destroyed = true :=
    n.destroyAll_destroys held
  exact absurd (alive.symm.trans gone) Bool.false_ne_true

theorem dropChannels_opened (opened : Opened n newest) :
    Opened n.dropChannels fun _ => none := by
  have before := (destroyAll_quiet n n.hdlcBindings).opened_ opened
  exact ⟨fun _ socket here => absurd here.symm (Option.some_ne_none socket), before.holder,
    before.gone, before.fresh⟩

theorem dropChannels_follows (follows : Follows n newest) (absent : n.emulator ≠ .connected) :
    Follows n.dropChannels fun _ => none := by
  have quiet := destroyAll_quiet n n.hdlcBindings
  have before := quiet.follows follows
  exact ⟨fun channel => AList.lookup_empty channel.toNat,
    fun connected => absurd (quiet.emulator connected) absent, before.single⟩

theorem onEmulatorClose_opened (opened : Opened n newest) :
    Opened n.onEmulatorClose fun _ => none :=
  dropChannels_opened (dropTerminals_opened (n.leaves_quiet.opened_ opened))

theorem onEmulatorClose_follows (follows : Follows n newest) :
    Follows n.onEmulatorClose fun _ => none := by
  refine dropChannels_follows (dropTerminals_follows (n.leaves_quiet.follows follows)) ?_
  intro connected
  exact EmulatorWs.noConfusion ((n.leaves.destroyAll_quiet n.tcpBindings).emulator connected)

/- A connection closes. -/

theorem closes_other {other : Nat} (different : other ≠ socket) (n : LineGateway) :
    (n.closes socket).sockets other = n.sockets other :=
  onSocket_other different ..

theorem closes_same (n : LineGateway) (socket : Nat) :
    (n.closes socket).sockets socket =
      { n.sockets socket with destroyed := true, closed := true } :=
  onSocket_same ..

theorem onClose_kept (n : LineGateway) (socket : Nat) :
    (n.onClose socket).sockets = (n.closes socket).sockets ∧
      (n.onClose socket).opened = n.opened ∧ (n.onClose socket).emulator = n.emulator := by
  rw [onClose, release]
  split
  · rw [send_eq]
    exact ⟨rfl, rfl, rfl⟩
  · split
    · exact ⟨rfl, rfl, rfl⟩
    · rw [send_eq]
      exact ⟨rfl, rfl, rfl⟩

theorem onClose_tcp (n : LineGateway) (socket identCode : Nat) :
    (n.onClose socket).tcpBindings.lookup identCode =
      if (n.sockets socket).server = .terminal ∧
          (n.sockets socket).boundIdentCode = some identCode then none
      else n.tcpBindings.lookup identCode := by
  rw [onClose, release]
  split
  · next channel server =>
      rw [if_neg fun here => LineServer.noConfusion (server.symm.trans here.1), send_eq]
      rfl
  · next server =>
      split
      · next menu =>
          rw [if_neg fun here => absurd (menu.symm.trans here.2) (Option.some_ne_none _).symm]
          rfl
      · next bound bound_ =>
          rw [send_eq]
          change (n.tcpBindings.erase bound).lookup identCode = _
          split_ifs with here
          · rw [Option.some.inj (here.2.symm.trans bound_)]
            exact AList.lookup_erase ..
          · refine AList.lookup_erase_ne fun same => here ⟨server, ?_⟩
            rw [bound_, same]

theorem onClose_hdlc (n : LineGateway) (socket : Nat) (channel : Byte) :
    (n.onClose socket).hdlcBindings.lookup channel.toNat =
      if (n.sockets socket).server = .hdlc channel then none
      else n.hdlcBindings.lookup channel.toNat := by
  rw [onClose, release]
  split
  · next own server =>
      rw [send_eq]
      change (n.hdlcBindings.erase own.toNat).lookup channel.toNat = _
      split_ifs with here
      · rw [LineServer.hdlc.inj (here.symm.trans server)]
        exact AList.lookup_erase ..
      · refine AList.lookup_erase_ne (toNat_ne fun same => here ?_)
        rw [server, same]
  · next server =>
      rw [if_neg fun here => LineServer.noConfusion (server.symm.trans here)]
      split
      · rfl
      · rw [send_eq]
        rfl

theorem onClose_carrier (connected : n.emulator = .connected) (socket : Nat) (channel : Byte) :
    (n.onClose socket).lastCarrier channel =
      if (n.sockets socket).server = .hdlc channel then some false else n.lastCarrier channel := by
  rw [onClose, release]
  split
  · next own server =>
      have here : ((n.closes socket).putHdlc
        ((n.closes socket).hdlcBindings.erase own.toNat)).emulator = .connected := connected
      rw [lastCarrier_send, if_pos here, server, carrierOf]
      simp only [LineServer.hdlc.injEq]
      rfl
  · next server =>
      rw [if_neg fun here => LineServer.noConfusion (server.symm.trans here)]
      split
      · rfl
      · rw [lastCarrier_send]
        split_ifs <;> rfl

/-- Only the terminal of the connection is reported disconnected. -/
theorem onClose_count (n : LineGateway) (socket identCode : Nat)
    (other : (n.sockets socket).server = .terminal →
      (n.sockets socket).boundIdentCode ≠ some identCode) :
    (n.onClose socket).sent.count (.clientDisconnected identCode) =
      n.sent.count (.clientDisconnected identCode) := by
  have appended : ∀ message, message ≠ LineMessage.clientDisconnected identCode →
      (n.sent ++ [message]).count (.clientDisconnected identCode) =
        n.sent.count (.clientDisconnected identCode) := by
    intro message different
    rw [List.count_append, List.count_singleton, if_neg (by simpa using different), Nat.add_zero]
  rw [onClose, release]
  split
  · rw [send]
    split_ifs
    · exact appended _ fun same => LineMessage.noConfusion same
    · rfl
  · next server =>
      split
      · rfl
      · next bound bound_ =>
          rw [send]
          split_ifs
          · refine appended _ fun same => other server ?_
            rw [bound_, LineMessage.clientDisconnected.inj same]
          · rfl

theorem newestAfter_close (n : LineGateway) (newest : Byte → Option Nat) (socket : Nat)
    (channel : Byte) : n.newestAfter newest (.close socket) channel =
      if newest channel = some socket then none else newest channel := rfl

theorem onClose_opened (opened : Opened n newest) (socket : Nat) :
    Opened (n.onClose socket) (n.newestAfter newest (.close socket)) := by
  obtain ⟨sockets, count, -⟩ := n.onClose_kept socket
  refine ⟨?_, ?_, ?_, ?_⟩
  · intro channel other here
    rw [newestAfter_close] at here
    split_ifs at here with this_
    have different : other ≠ socket := fun same => this_ (same ▸ here)
    rw [sockets, closes_other different]
    exact opened.newest channel other here
  · intro identCode other here
    rw [onClose_tcp] at here
    split_ifs at here with this_
    have before := opened.holder identCode other here
    have different : other ≠ socket := fun same => this_ (same ▸ ⟨before.1, before.2.1⟩)
    rw [sockets, closes_other different]
    exact before
  · intro other
    rw [sockets]
    by_cases this_ : other = socket
    · rw [this_, closes_same]
      exact fun _ => rfl
    · rw [closes_other this_]
      exact opened.gone other
  · intro other later
    rw [count] at later
    rw [sockets]
    by_cases this_ : other = socket
    · rw [this_, closes_same]
      exact ⟨rfl, (opened.fresh socket (this_ ▸ later)).2⟩
    · rw [closes_other this_]
      exact opened.fresh other later

/-- A connection that closes is the newest of no channel but its own. -/
theorem Opened.newest_other (opened : Opened n newest) {channel : Byte}
    (other : (n.sockets socket).server ≠ .hdlc channel) :
    n.newestAfter newest (.close socket) channel = newest channel :=
  if_neg fun here => other (opened.newest channel socket here).1

theorem onClose_newest (opened : Opened n newest)
    (inTime : ∀ channel, (n.sockets socket).server = .hdlc channel →
      newest channel = none ∨ newest channel = some socket) (channel : Byte) :
    n.newestAfter newest (.close socket) channel =
        (if (n.sockets socket).server = .hdlc channel then none else newest channel) := by
  split_ifs with own
  · rw [newestAfter_close]
    rcases inTime channel own with none_ | newest_
    · rw [none_]
      exact ite_self none
    · exact if_pos newest_
  · exact opened.newest_other own

theorem onClose_follows (opened : Opened n newest) (follows : Follows n newest)
    (open_ : (n.sockets socket).closed = false) (inTime : n.InTime newest (.close socket)) :
    Follows (n.onClose socket) (n.newestAfter newest (.close socket)) := by
  have newest_ := onClose_newest opened (inTime open_).1
  obtain ⟨sockets, -, emulator⟩ := n.onClose_kept socket
  refine ⟨?_, ?_, ?_⟩
  · intro channel
    rw [onClose_hdlc, newest_, follows.bound]
  · intro connected channel
    rw [emulator] at connected
    rw [onClose_carrier connected, newest_]
    split_ifs
    · exact iff_of_false (by decide) fun here => here rfl
    · exact follows.carrier connected channel
  · intro other identCode alive here
    rw [sockets] at alive here
    have different : other ≠ socket := by
      intro same
      rw [same, closes_same] at alive
      exact Bool.noConfusion alive
    rw [closes_other different] at alive here
    have held := follows.single other identCode alive here
    rw [onClose_tcp, if_neg, held]
    intro own
    rcases (inTime open_).2 identCode own.1 own.2 with none_ | this_
    · exact absurd (held.symm.trans none_) (Option.some_ne_none other)
    · exact different (Option.some.inj (held.symm.trans this_))

theorem close_exact (opened : Opened n newest) (follows : Follows n newest) (socket : Nat) :
    n.StepFollows newest (.close socket) ↔ n.InTime newest (.close socket) := by
  by_cases open_ : (n.sockets socket).closed = false
  · have step_ : n.step (.close socket) = n.onClose socket := by
      rw [step, open_]
      rfl
    constructor
    · intro holds _
      constructor
      · intro channel own
        have bound := holds.after.bound channel
        rw [step_, onClose_hdlc, if_pos own, newestAfter_close] at bound
        split_ifs at bound with this_
        · exact .inr this_
        · exact .inl bound.symm
      · intro identCode terminal own
        rcases held : n.tcpBindings.lookup identCode with - | holder
        · exact .inl rfl
        · refine .inr ?_
          by_contra other
          have kept := holds.terminals identCode holder held
            (fun same => other (congrArg some (LineEvent.close.inj same).symm))
            fun same => LineEvent.noConfusion same
          rw [step_, onClose_tcp, if_pos ⟨terminal, own⟩] at kept
          exact absurd kept.symm (Option.some_ne_none holder)
    · intro inTime
      -- a terminal of another connection is not that of the closing one
      have other_ : ∀ {identCode holder}, n.tcpBindings.lookup identCode = some holder →
          socket ≠ holder → (n.sockets socket).server = .terminal →
          (n.sockets socket).boundIdentCode ≠ some identCode := by
        intro identCode holder held different terminal own
        rcases (inTime open_).2 identCode terminal own with none_ | this_
        · exact absurd (held.symm.trans none_) (Option.some_ne_none holder)
        · exact different (Option.some.inj (held.symm.trans this_)).symm
      refine ⟨?_, fun _ here => LineEvent.noConfusion here, ?_, ?_⟩
      · rw [step_]
        exact onClose_follows opened follows open_ inTime
      · intro identCode holder held different _
        have apart : socket ≠ holder := fun same => different (congrArg LineEvent.close same)
        rw [step_, onClose_tcp, if_neg fun here => other_ held apart here.1 here.2]
        exact held
      · intro identCode holder other held event different
        have this_ := LineEvent.close.inj event
        rw [step_]
        exact n.onClose_count socket identCode (other_ held (this_ ▸ different))
  · have same : n.step (.close socket) = n := by
      rw [step, if_pos (eq_true_of_ne_false open_)]
    have newest_ : n.newestAfter newest (.close socket) = newest := by
      funext channel
      exact if_neg fun here => open_ (opened.newest channel socket here).2
    refine iff_of_true ⟨?_, fun _ here => LineEvent.noConfusion here, ?_, ?_⟩
      fun here => absurd here open_
    · rw [same, newest_]
      exact follows
    · intro identCode holder held _ _
      rw [same]
      exact held
    · intro identCode holder other _ _ _
      rw [same]

theorem StepFollows.of_keeps {event : LineEvent}
    (after : Follows (n.step event) (n.newestAfter newest event))
    (frames : ∀ buf, event = .emulatorMessage buf → n.WritesFrame newest buf)
    (close : ∀ socket, event ≠ .close socket)
    (keeps : ∀ identCode socket, n.tcpBindings.lookup identCode = some socket →
      event ≠ .emulatorClose → (n.step event).tcpBindings.lookup identCode = some socket) :
    n.StepFollows newest event where
  after := after
  frames := frames
  terminals := fun identCode socket held _ => keeps identCode socket held
  reports := fun _ _ other _ here => absurd here (close other)

theorem StepFollows.of_quiet {event : LineEvent} (quiet : Quiet n (n.step event))
    (follows : Follows n newest) (newest_ : n.newestAfter newest event = newest)
    (close : ∀ socket, event ≠ .close socket)
    (frames : ∀ buf, event = .emulatorMessage buf → n.WritesFrame newest buf) :
    n.StepFollows newest event := by
  refine .of_keeps ?_ frames close ?_
  · rw [newest_]
    exact quiet.follows follows
  · intro identCode socket held _
    rw [quiet.tcpBindings]
    exact held

/-- What every step keeps. -/
theorem step_opened (opened : Opened n newest) (event : LineEvent) :
    Opened (n.step event) (n.newestAfter newest event) := by
  cases event with
  | connect server =>
    rcases server with channel | -
    · exact connectHdlc_opened opened channel
    · exact accept_opened opened .terminal
  | data socket chunk =>
    rw [step]
    split_ifs with gone
    · exact opened
    · rcases n.onData_cases socket chunk with quiet | binds
      · exact quiet.opened_ opened
      · exact binds.opened_ opened (Bool.eq_false_iff.mpr gone)
  | ended socket => exact (n.destroy_quiet socket).opened_ opened
  | close socket =>
    rw [step]
    split_ifs with closed
    · have newest_ : n.newestAfter newest (.close socket) = newest := by
        funext channel
        rw [newestAfter_close, if_neg]
        intro here
        exact Bool.false_ne_true ((opened.newest channel socket here).2.symm.trans closed)
      rw [newest_]
      exact opened
    · exact onClose_opened opened socket
  | emulatorConnect =>
    rw [step]
    split_ifs
    · exact ⟨opened.newest, opened.holder, opened.gone, opened.fresh⟩
    · exact opened
  | emulatorClosing =>
    rw [step]
    split_ifs
    · exact ⟨opened.newest, opened.holder, opened.gone, opened.fresh⟩
    · exact opened
  | emulatorClose =>
    rw [step, newestAfter]
    split_ifs
    · exact opened
    · exact onEmulatorClose_opened opened
  | register terminals =>
    rw [step]
    split_ifs
    · exact opened
    · exact ⟨opened.newest, opened.holder, opened.gone, opened.fresh⟩
  | emulatorMessage buf =>
    rw [step]
    split_ifs
    · exact opened
    · exact (n.onEmulatorMessage_quiet buf).opened_ opened

theorem data_follows (follows : Follows n newest) (socket : Nat) (chunk : Message) :
    n.StepFollows newest (.data socket chunk) := by
  have close : ∀ other, LineEvent.data socket chunk ≠ .close other :=
    fun _ here => LineEvent.noConfusion here
  have frames : ∀ buf, LineEvent.data socket chunk = .emulatorMessage buf →
      n.WritesFrame newest buf := fun _ here => LineEvent.noConfusion here
  by_cases gone : (n.sockets socket).destroyed = true
  · have same : n.step (.data socket chunk) = n := if_pos gone
    have quiet : Quiet n (n.step (.data socket chunk)) := same.symm ▸ Quiet.refl n
    exact .of_quiet quiet follows rfl close frames
  · have step_ : n.step (.data socket chunk) = n.onData socket chunk := if_neg gone
    rcases n.onData_cases socket chunk with quiet | binds
    · exact .of_quiet (step_ ▸ quiet) follows rfl close frames
    · rw [← step_] at binds
      exact .of_keeps (binds.follows follows) frames close fun _ _ held _ => binds.keeps held

/-- An emulator that connects knows of no carrier. -/
theorem emulatorConnect_exact (follows : Follows n newest) :
    n.StepFollows newest .emulatorConnect ↔ n.InTime newest .emulatorConnect := by
  have close : ∀ other, LineEvent.emulatorConnect ≠ .close other :=
    fun _ here => LineEvent.noConfusion here
  have frames : ∀ buf, LineEvent.emulatorConnect = .emulatorMessage buf →
      n.WritesFrame newest buf := fun _ here => LineEvent.noConfusion here
  by_cases absent : n.emulator = .absent
  · have step_ : n.step .emulatorConnect = { n with emulator := .connected, sent := [] } :=
      if_pos absent
    constructor
    · intro holds _ channel
      have carrier := holds.after.carrier (congrArg LineGateway.emulator step_) channel
      rw [step_] at carrier
      by_contra some_
      exact absurd (carrier.mpr some_) (Option.some_ne_none true).symm
    · intro inTime
      refine .of_keeps ⟨?_, ?_, ?_⟩ frames close ?_
      all_goals rw [step_]
      · exact follows.bound
      · intro _ channel
        exact iff_of_false (Option.some_ne_none true).symm fun some_ =>
          some_ (inTime absent channel)
      · exact follows.single
      · exact fun _ _ held _ => held
  · have same : n.step .emulatorConnect = n := if_neg absent
    have quiet : Quiet n (n.step .emulatorConnect) := same.symm ▸ Quiet.refl n
    exact iff_of_true (.of_quiet quiet follows rfl close frames)
      fun here => absurd here absent

theorem emulatorClose_follows (follows : Follows n newest) :
    n.StepFollows newest .emulatorClose := by
  refine .of_keeps ?_ (fun _ here => LineEvent.noConfusion here)
    (fun _ here => LineEvent.noConfusion here) fun _ _ _ other => absurd rfl other
  rw [step, newestAfter]
  split_ifs
  · exact follows
  · exact onEmulatorClose_follows follows

theorem step_exact (opened : Opened n newest) (follows : Follows n newest) (event : LineEvent) :
    n.StepFollows newest event ↔ n.InTime newest event := by
  cases event with
  | connect server =>
    refine iff_of_true (.of_keeps ?_ (fun _ here => LineEvent.noConfusion here)
      (fun _ here => LineEvent.noConfusion here) fun _ _ held _ => ?_) trivial
    · rcases server with channel | -
      · exact connectHdlc_follows follows channel
      · exact accept_follows follows .terminal
    · rcases server with channel | -
      · exact (congrArg _ (n.connectHdlc_tcpBindings channel)).trans held
      · exact held
  | data socket chunk => exact iff_of_true (data_follows follows socket chunk) trivial
  | ended socket =>
    exact iff_of_true (.of_quiet (n.destroy_quiet socket) follows rfl
      (fun _ here => LineEvent.noConfusion here) fun _ here => LineEvent.noConfusion here) trivial
  | close socket => exact close_exact opened follows socket
  | emulatorConnect => exact emulatorConnect_exact follows
  | emulatorClosing =>
    have quiet : Quiet n (n.step .emulatorClosing) := by
      rw [step]
      split_ifs
      · exact { Quiet.refl n with emulator := fun here => EmulatorWs.noConfusion here }
      · exact .refl n
    exact iff_of_true (.of_quiet quiet follows rfl
      (fun _ here => LineEvent.noConfusion here) fun _ here => LineEvent.noConfusion here) trivial
  | emulatorClose => exact iff_of_true (emulatorClose_follows follows) trivial
  | register terminals =>
    have quiet : Quiet n (n.step (.register terminals)) := by
      rw [step]
      split_ifs
      · exact .refl n
      · exact { Quiet.refl n with }
    exact iff_of_true (.of_quiet quiet follows rfl
      (fun _ here => LineEvent.noConfusion here) fun _ here => LineEvent.noConfusion here) trivial
  | emulatorMessage buf =>
    have quiet : Quiet n (n.step (.emulatorMessage buf)) := by
      rw [step]
      split_ifs
      · exact .refl n
      · exact n.onEmulatorMessage_quiet buf
    refine iff_of_true (.of_quiet quiet follows rfl
      (fun _ here => LineEvent.noConfusion here) fun other here => ?_) trivial
    rw [← LineEvent.emulatorMessage.inj here]
    exact onEmulatorMessage_writes follows buf

end Events

/-- The gateway beside the newest connections of the channels. -/
abbrev Watched := LineGateway × (Byte → Option Nat)

def watch (w : Watched) (event : LineEvent) : Watched :=
  (w.1.step event, w.1.newestAfter w.2 event)

def noneWatched : Watched := (start, fun _ => none)

theorem start_opened : Opened start fun _ => none where
  newest := fun _ socket here => absurd here.symm (Option.some_ne_none socket)
  holder := fun identCode socket here =>
    absurd (here.symm.trans (AList.lookup_empty identCode)) (Option.some_ne_none socket)
  gone := fun _ _ => rfl
  fresh := fun _ _ => ⟨rfl, rfl⟩

theorem start_follows : Follows start fun _ => none where
  bound := fun channel => AList.lookup_empty channel.toNat
  carrier := fun connected => EmulatorWs.noConfusion connected
  single := fun _ identCode _ here => absurd here.symm (Option.some_ne_none identCode)

/-- The lines follow their newest connections in exactly the runs whose closes come in time and
whose emulators find no connection. -/
theorem lines_follow_newest (events : List LineEvent) :
    EachStep watch (fun w event => w.1.StepFollows w.2 event) noneWatched events ↔
      EachStep watch (fun w event => w.1.InTime w.2 event) noneWatched events := by
  have keeps : ∀ (w : Watched) event, Opened w.1 w.2 → Opened (watch w event).1 (watch w event).2 :=
    fun _ event opened => step_opened opened event
  have exact_ : ∀ (w : Watched) event, Opened w.1 w.2 → Follows w.1 w.2 →
      (w.1.StepFollows w.2 event ↔ w.1.InTime w.2 event) :=
    fun _ event opened follows => step_exact opened follows event
  exact eachStep_iff_eachStep keeps exact_ (fun _ _ holds => holds.after) start_opened
    start_follows events

/-- The late close of a connection that was replaced takes the binding of the new one. -/
theorem late_close_unbinds :
    ¬ EachStep watch (fun w event => w.1.StepFollows w.2 event) noneWatched
      [.connect (.hdlc 0), .connect (.hdlc 0), .close 0] := by
  rintro ⟨-, -, holds, -⟩
  exact absurd (holds.after.bound 0) (by decide)

end LineGateway

end Nd100x.Gateway
