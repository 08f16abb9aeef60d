import Nd100x.Gateway.Lines
import Nd100x.Telnet.Output

namespace Nd100x.Telnet

open Nd100x.Library
open Nd100x.Gateway (LineGateway LineMessage LineEvent Message stripTelnet)

section Purpose

/-- A part of a subnegotiation. A code `IAC` in it is followed by another code than `SE`. -/
inductive SubPart where
  | plain (byte : Byte) (other : byte ≠ iac)
  | code (byte : Byte) (inside : byte ≠ se)

/-- One unit of a telnet stream. -/
inductive TelnetToken where
  | data (byte : Byte) (other : byte ≠ iac)
  | escaped
  | command (code : Byte) (short : code ∉ [will, wont, doCode, dont, sb, iac])
  | negotiation (code : Byte) (listed : code ∈ [will, wont, doCode, dont]) (option : Byte)
  | subnegotiation (option : Byte) (body : List SubPart)

def SubPart.bytes : SubPart → List Byte
  | .plain byte _ => [byte]
  | .code byte _ => [iac, byte]

namespace TelnetToken

def bytes : TelnetToken → List Byte
  | .data byte _ => [byte]
  | .escaped => [iac, iac]
  | .command code _ => [iac, code]
  | .negotiation code _ option => [iac, code, option]
  | .subnegotiation option body => iac :: sb :: option :: (body.flatMap SubPart.bytes ++ [iac, se])

/-- The data of a unit. -/
def content : TelnetToken → List Byte
  | .data byte _ => [byte]
  | .escaped => [iac]
  | _ => []

/-- A command of two bytes or a subnegotiation is not a negotiation. -/
def isData : TelnetToken → Bool
  | .data _ _ => true
  | _ => false

def isNegotiation : TelnetToken → Bool
  | .negotiation _ _ _ => true
  | _ => false

end TelnetToken

def streamBytes (tokens : List TelnetToken) : List Byte := tokens.flatMap TelnetToken.bytes

def streamContent (tokens : List TelnetToken) : List Byte := tokens.flatMap TelnetToken.content

end Purpose

section Model

/-- The machine does not like line feeds. -/
def mapLineFeed (byte : Byte) : Byte := if byte = 0x0A then 0x0D else byte

/-- The thread of a client takes a byte. Only a byte outside of the codes is mapped. -/
def clientStep (state : TelnetIacState) (byte : Byte) : TelnetIacState × Option Byte :=
  let moved := iacStep state byte
  (moved.1, if state = .data then moved.2.map mapLineFeed else moved.2)

/-- The state is kept from one read to the next. -/
def clientReads (state : TelnetIacState) : List (List Byte) → TelnetIacState × List Byte
  | [] => (state, [])
  | buf :: rest =>
    let first := transduce clientStep state buf
    let later := clientReads first.1 rest
    (later.1, first.2 ++ later.2)

/-- The input of a terminal in a message to the emulator. -/
def termInputOf (identCode : Nat) : LineMessage → List Byte
  | .termInput code bytes => if code = identCode then bytes else []
  | _ => []

def termBytes (identCode : Nat) (messages : List LineMessage) : List Byte :=
  messages.flatMap (termInputOf identCode)

/-- The reads of one connection follow one another. -/
def gatewayReads (n : LineGateway) (socket : Nat) (chunks : List (List Byte)) : LineGateway :=
  chunks.foldl (fun n chunk => n.step (.data socket chunk)) n

/-- A connection is open and bound to a terminal of the emulator. -/
structure BoundSocket (n : LineGateway) (socket identCode : Nat) : Prop where
  open_ : (n.sockets socket).destroyed = false
  server : (n.sockets socket).server = .terminal
  bound : (n.sockets socket).boundIdentCode = some identCode
  emulator : n.emulator = .connected

/-- The gateway sends these bytes for these reads. -/
def GatewaySends (n : LineGateway) (socket identCode : Nat) (chunks : List (List Byte))
    (bytes : List Byte) : Prop :=
  termBytes identCode (gatewayReads n socket chunks).sent = termBytes identCode n.sent ++ bytes

end Model

section Thread

theorem clientReads_eq (state : TelnetIacState) (chunks : List (List Byte)) :
    clientReads state chunks = transduce clientStep state chunks.flatten := by
  induction chunks generalizing state with
  | nil => rfl
  | cons buf rest ih =>
    rw [clientReads, List.flatten_cons, transduce_append, ih]

/-- Outside of the codes the thread reads as every reader does. -/
theorem clientStep_silent {state next : TelnetIacState} {byte : Byte}
    (moved : iacStep state byte = (next, none)) : clientStep state byte = (next, none) := by
  rw [clientStep, moved]
  split_ifs <;> rfl

/-- The parts of a subnegotiation are silent. -/
theorem subPart_silent (part : SubPart) :
    transduce clientStep .sbData part.bytes = (.sbData, []) := by
  cases part with
  | plain byte other =>
    refine transduce_singleton_silent (clientStep_silent ?_)
    rw [iacStep, if_neg other]
  | code byte inside =>
    have first : clientStep .sbData iac = (.sbIac, none) := clientStep_silent rfl
    refine (transduce_cons_silent [byte] first).trans
      (transduce_singleton_silent (clientStep_silent ?_))
    rw [iacStep, if_neg inside]

theorem subParts_silent (body : List SubPart) :
    transduce clientStep .sbData (body.flatMap SubPart.bytes) = (.sbData, []) := by
  induction body with
  | nil => rfl
  | cons part body ih =>
    rw [List.flatMap_cons, transduce_append_silent _ (subPart_silent part), ih]

/-- A unit leaves the thread in the data. -/
theorem token_reads (token : TelnetToken) :
    transduce clientStep .data token.bytes = (.data, token.content.map mapLineFeed) := by
  have escape : clientStep .data iac = (.iac, none) := clientStep_silent rfl
  cases token with
  | data byte other =>
    have moved : clientStep .data byte = (.data, some (mapLineFeed byte)) := by
      rw [clientStep, iacStep, if_neg other]
      rfl
    exact transduce_cons_output [] moved
  | escaped => rfl
  | command code short =>
    simp only [List.mem_cons, List.not_mem_nil, or_false, not_or] at short
    obtain ⟨notWill, notWont, notDo, notDont, notSb, notIac⟩ := short
    refine (transduce_cons_silent [code] escape).trans
      (transduce_singleton_silent (clientStep_silent ?_))
    rw [iacStep, if_neg notWill, if_neg notWont, if_neg notDo, if_neg notDont, if_neg notSb,
      if_neg notIac]
  | negotiation code listed option =>
    refine (transduce_cons_silent [code, option] escape).trans ?_
    simp only [List.mem_cons, List.not_mem_nil, or_false] at listed
    rcases listed with rfl | rfl | rfl | rfl <;> rfl
  | subnegotiation option body =>
    have starts : transduce clientStep .data [iac, sb, option] = (.sbData, []) := rfl
    have ends : transduce clientStep .sbData [iac, se] = (.data, []) := rfl
    have bytes : (TelnetToken.subnegotiation option body).bytes =
        [iac, sb, option] ++ (body.flatMap SubPart.bytes ++ [iac, se]) := rfl
    rw [bytes, transduce_append_silent _ starts, transduce_append_silent _ (subParts_silent body),
      ends]
    rfl

/-- The thread gives the data of a stream. -/
theorem stream_reads (tokens : List TelnetToken) :
    transduce clientStep .data (streamBytes tokens) =
      (.data, (streamContent tokens).map mapLineFeed) := by
  induction tokens with
  | nil => rfl
  | cons token tokens ih =>
    have bytes : streamBytes (token :: tokens) = token.bytes ++ streamBytes tokens := rfl
    have content : streamContent (token :: tokens) = token.content ++ streamContent tokens := rfl
    rw [bytes, content, transduce_append, token_reads, List.map_append]
    dsimp only
    rw [ih]

end Thread

section Gateway

variable {n : LineGateway} {socket identCode : Nat}

/-- One read of a bound connection. -/
theorem read_sends (bound : BoundSocket n socket identCode) (chunk : List Byte) :
    BoundSocket (n.step (.data socket chunk)) socket identCode ∧
      termBytes identCode (n.step (.data socket chunk)).sent =
        termBytes identCode n.sent ++ stripTelnet chunk := by
  have step : n.step (.data socket chunk) =
      if stripTelnet chunk = [] then n else n.send (.termInput identCode (stripTelnet chunk)) := by
    rw [LineGateway.step, bound.open_, if_neg Bool.false_ne_true, LineGateway.onData, bound.server]
    dsimp only
    rw [LineGateway.onTerminalData, bound.bound]
  rw [step]
  split_ifs with none
  · exact ⟨bound, by rw [none, List.append_nil]⟩
  · rw [LineGateway.send, if_pos bound.emulator]
    refine ⟨⟨bound.open_, bound.server, bound.bound, bound.emulator⟩, ?_⟩
    have own : termBytes identCode [.termInput identCode (stripTelnet chunk)] =
        stripTelnet chunk := by
      rw [termBytes, List.flatMap_cons, List.flatMap_nil, List.append_nil, termInputOf, if_pos rfl]
    exact (List.flatMap_append).trans (congrArg (termBytes identCode n.sent ++ ·) own)

theorem reads_send (bound : BoundSocket n socket identCode) (chunks : List (List Byte)) :
    termBytes identCode (gatewayReads n socket chunks).sent =
      termBytes identCode n.sent ++ chunks.flatMap stripTelnet := by
  induction chunks generalizing n with
  | nil => exact (List.append_nil _).symm
  | cons chunk chunks ih =>
    obtain ⟨kept, sent⟩ := read_sends bound chunk
    have later := ih kept
    rw [gatewayReads, List.foldl_cons, List.flatMap_cons, ← List.append_assoc, ← sent]
    exact later

theorem gatewaySends_iff (bound : BoundSocket n socket identCode) (chunks : List (List Byte))
    (bytes : List Byte) :
    GatewaySends n socket identCode chunks bytes ↔ chunks.flatMap stripTelnet = bytes := by
  rw [GatewaySends, reads_send bound, List.append_cancel_left_eq]

/-- Bytes without codes pass. -/
theorem stripTelnet_plain {chunk : List Byte} (plain : iac ∉ chunk) :
    stripTelnet chunk = chunk := by
  induction chunk with
  | nil => rfl
  | cons byte rest ih =>
    obtain ⟨other, later⟩ := not_or.mp fun some_ => plain (List.mem_cons.mpr some_)
    have passes : stripTelnet (byte :: rest) = byte :: stripTelnet rest := by
      rw [stripTelnet]
      rintro first second tail rfl
      exact fun _ => other rfl
    rw [passes, ih later]

/-- A single byte passes. -/
theorem singles_pass (bytes : List Byte) :
    (bytes.map fun byte => [byte]).flatMap stripTelnet = bytes := by
  induction bytes with
  | nil => rfl
  | cons byte bytes ih =>
    have one : stripTelnet [byte] = [byte] := by
      rw [stripTelnet]
      · rfl
      · intro first second tail _ same
        cases same
    rw [List.map_cons, List.flatMap_cons, ih, one]
    rfl

theorem content_length_le (token : TelnetToken) :
    token.content.length ≤ token.bytes.length ∧
      (token.bytes.length ≤ token.content.length → token.isData = true) := by
  cases token with
  | data byte other => exact ⟨Nat.le_refl 1, fun _ => rfl⟩
  | escaped => exact ⟨by decide, fun long => absurd long (by decide)⟩
  | command code short =>
    exact ⟨Nat.zero_le _, fun long => absurd long (Nat.not_succ_le_zero 1)⟩
  | negotiation code listed option =>
    exact ⟨Nat.zero_le _, fun long => absurd long (Nat.not_succ_le_zero 2)⟩
  | subnegotiation option body =>
    exact ⟨Nat.zero_le _, fun long => absurd long (Nat.not_succ_le_zero _)⟩

/-- A stream without codes is as long as its data, and every other stream is longer. -/
theorem streamContent_length_le (tokens : List TelnetToken) :
    (streamContent tokens).length ≤ (streamBytes tokens).length ∧
      ((streamBytes tokens).length ≤ (streamContent tokens).length →
        ∀ token ∈ tokens, token.isData = true) := by
  induction tokens with
  | nil => exact ⟨Nat.le_refl 0, fun _ _ inside => absurd inside List.not_mem_nil⟩
  | cons token tokens ih =>
    obtain ⟨less, all⟩ := ih
    obtain ⟨short, data⟩ := content_length_le token
    have bytes : (streamBytes (token :: tokens)).length =
        token.bytes.length + (streamBytes tokens).length := List.length_append
    have content : (streamContent (token :: tokens)).length =
        token.content.length + (streamContent tokens).length := List.length_append
    rw [bytes, content]
    refine ⟨Nat.add_le_add short less, fun long other inside => ?_⟩
    rcases List.mem_cons.mp inside with rfl | later
    · exact data (by omega)
    · exact all (by omega) other later

theorem streamBytes_data {tokens : List TelnetToken}
    (data : ∀ token ∈ tokens, token.isData = true) :
    streamBytes tokens = streamContent tokens ∧ iac ∉ streamBytes tokens := by
  induction tokens with
  | nil => exact ⟨rfl, List.not_mem_nil⟩
  | cons token tokens ih =>
    obtain ⟨same, plain⟩ := ih fun other inside =>
      data other (List.mem_cons_of_mem _ inside)
    have first := data token List.mem_cons_self
    cases token with
    | data byte other =>
      refine ⟨congrArg (byte :: ·) same, fun inside => ?_⟩
      rcases List.mem_cons.mp inside with equal | later
      · exact other equal.symm
      · exact plain later
    | _ => exact absurd first Bool.false_ne_true

/-- The data of a part are sent when all its codes are negotiations. -/
theorem stripTelnet_part {part : List TelnetToken}
    (short : ∀ token ∈ part, token.isData = true ∨ token.isNegotiation = true) :
    stripTelnet (streamBytes part) = streamContent part := by
  induction part with
  | nil => rfl
  | cons token part ih =>
    have later := ih fun other inside =>
      short other (List.mem_cons_of_mem _ inside)
    have first := short token List.mem_cons_self
    cases token with
    | data byte other =>
      have bytes : streamBytes (.data byte other :: part) = byte :: streamBytes part := rfl
      have content : streamContent (.data byte other :: part) =
          byte :: streamContent part := rfl
      have passes : stripTelnet (byte :: streamBytes part) =
          byte :: stripTelnet (streamBytes part) := by
        rw [stripTelnet]
        rintro first second tail rfl
        exact fun _ => other rfl
      rw [bytes, content, passes, later]
    | negotiation code listed option => exact later
    | _ => exact first.elim (absurd · Bool.false_ne_true) (absurd · Bool.false_ne_true)

end Gateway

section Claims

variable {n : LineGateway} {socket identCode : Nat}

/-- The thread of a client gives the data for every split. The gateway sends them for every split
exactly when the stream has no codes, and else when every code is a negotiation inside one read. -/
theorem telnet_input (bound : BoundSocket n socket identCode) (tokens : List TelnetToken) :
    (∀ chunks : List (List Byte), chunks.flatten = streamBytes tokens →
      (clientReads .data chunks).2 = (streamContent tokens).map mapLineFeed) ∧
    ((∀ chunks : List (List Byte), chunks.flatten = streamBytes tokens →
      GatewaySends n socket identCode chunks (streamContent tokens)) ↔
        ∀ token ∈ tokens, token.isData = true) ∧
    ∀ parts : List (List TelnetToken), parts.flatten = tokens →
      (∀ token ∈ tokens, token.isData = true ∨ token.isNegotiation = true) →
      GatewaySends n socket identCode (parts.map streamBytes) (streamContent tokens) := by
  refine ⟨fun chunks split => ?_, ⟨fun sends => ?_, fun data chunks split => ?_⟩,
    fun parts split short => ?_⟩
  · rw [clientReads_eq, split, stream_reads]
  · have singles := sends ((streamBytes tokens).map fun byte => [byte]) (by
      rw [← List.flatMap_def, List.flatMap_singleton'])
    rw [gatewaySends_iff bound, singles_pass] at singles
    exact (streamContent_length_le tokens).2 (Nat.le_of_eq (congrArg List.length singles))
  · obtain ⟨same, plain⟩ := streamBytes_data data
    have each : ∀ chunk ∈ chunks, stripTelnet chunk = chunk := fun chunk inside =>
      stripTelnet_plain fun code => plain (split ▸ List.mem_flatten.mpr ⟨chunk, inside, code⟩)
    rw [gatewaySends_iff bound, List.flatMap_def, List.map_congr_left each, List.map_id', split, same]
  · subst split
    rw [gatewaySends_iff bound, List.flatMap_map]
    have each : ∀ part ∈ parts, stripTelnet (streamBytes part) = streamContent part :=
      fun part inside => stripTelnet_part fun token member =>
        short token (List.mem_flatten.mpr ⟨part, inside, member⟩)
    rw [List.flatMap_def, List.map_congr_left each, streamContent, List.flatMap_def,
      List.map_flatten, List.flatten_flatten, List.map_map]
    rfl

/-- The first terminal client of a gateway, bound to terminal 1. -/
def boundGateway : LineGateway :=
  { LineGateway.start with
    emulator := .connected
    opened := 1
    sockets := fun _ => ⟨.terminal, false, false, [], some 1, []⟩ }

theorem boundGateway_bound : BoundSocket boundGateway 0 1 := ⟨rfl, rfl, rfl, rfl⟩

theorem telnet_input_plain :
    GatewaySends boundGateway 0 1 [[65]] (streamContent [.data 65 (by decide)]) :=
  (telnet_input boundGateway_bound [.data 65 (by decide)]).2.1.mpr
    (fun _ inside => by rw [List.mem_singleton.mp inside]; rfl) [[65]] rfl

/-- The gateway drops the byte 255 and the byte that follows it. -/
theorem telnet_input_fails :
    [[65, 255, 255, 66]].flatten =
        streamBytes [.data 65 (by decide), .escaped, .data 66 (by decide)] ∧
      ¬GatewaySends boundGateway 0 1 [[65, 255, 255, 66]]
        (streamContent [.data 65 (by decide), .escaped, .data 66 (by decide)]) := by
  refine ⟨rfl, fun sends => ?_⟩
  rw [gatewaySends_iff boundGateway_bound] at sends
  exact absurd sends (by decide)

end Claims

end Nd100x.Telnet
