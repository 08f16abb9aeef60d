import Nd100x.Telnet.OutputRing
import Nd100x.Library.Runs
import Nd100x.Library.Transducer

namespace Nd100x.Telnet

open Nd100x.Library

/-- The codes of the protocol. -/
def iac : Byte := 255
def will : Byte := 251
def wont : Byte := 252
def doCode : Byte := 253
def dont : Byte := 254
def sb : Byte := 250
def se : Byte := 240

inductive TelnetIacState where
  | data
  | iac
  | will
  | wont
  | doOption
  | dont
  | sb
  | sbData
  | sbIac
  deriving DecidableEq, Repr

/-- A reader of a telnet stream takes a byte. Two codes `IAC` are one byte of data. -/
def iacStep : TelnetIacState → Byte → TelnetIacState × Option Byte
  | .data, byte => if byte = iac then (.iac, none) else (.data, some byte)
  | .iac, byte =>
    if byte = will then (.will, none)
    else if byte = wont then (.wont, none)
    else if byte = doCode then (.doOption, none)
    else if byte = dont then (.dont, none)
    else if byte = sb then (.sb, none)
    else if byte = iac then (.data, some byte)
    else (.data, none)
  | .will, _ => (.data, none)
  | .wont, _ => (.data, none)
  | .doOption, _ => (.data, none)
  | .dont, _ => (.data, none)
  | .sb, _ => (.sbData, none)
  | .sbData, byte => if byte = iac then (.sbIac, none) else (.sbData, none)
  | .sbIac, byte => if byte = se then (.data, none) else (.sbData, none)

/-- The data of a telnet stream. -/
def telnetData (stream : List Byte) : List Byte := (transduce iacStep .data stream).2

/-- The places of the thread of a client. -/
inductive ClientThread where
  | loopTop
  | polled
  | holding (outbuf : List Byte)
  | ended (unsent : List Byte)
  deriving DecidableEq, Repr

/-- One connection of a client to a terminal. The last three fields record what the socket took,
and what it should take. -/
structure OutputSession where
  clientFd : Option Nat
  ring : OutputRing
  bytesTx : BitVec 64
  thread : ClientThread
  sent : List Byte
  due : List Byte

inductive SendResult where
  | failed
  | took (count : Nat)
  deriving DecidableEq, Repr

inductive OutputEvent where
  | print (c : Byte)
  | poll (stop : Bool)
  | drain
  | send (result : SendResult)
  | cleanUp
  | disconnect
  deriving DecidableEq, Repr

def outbufSize : Nat := 512

namespace OutputSession

/-- A terminal has been given a connection and its ring has been cleared. -/
def start (clientFd : Nat) (ring : OutputRing) (bytesTx : BitVec 64) : OutputSession where
  clientFd := some clientFd
  ring := ring.clear
  bytesTx := bytesTx
  thread := .loopTop
  sent := []
  due := []

/-- A character is due unless the ring holds as many unsent ones as it can. -/
def telnetOutputHandler (s : OutputSession) (c : Byte) : OutputSession :=
  match s.clientFd with
  | none => s
  | some _ =>
    { s with
      ring := s.ring.ringbufWrite c
      due := s.due ++
        if s.ring.contents.length = telnetOutputBufSize - 1 then [] else [c] }

/-- The loop ends without a connection, on a shutdown and when the client leaves. -/
def poll (s : OutputSession) (stop : Bool) : OutputSession :=
  match s.thread with
  | .loopTop => { s with thread := if stop || s.clientFd.isNone then .ended [] else .polled }
  | _ => s

def drain (s : OutputSession) : OutputSession :=
  match s.thread with
  | .polled =>
    { s with
      ring := (s.ring.ringbufRead outbufSize).2
      thread := .holding (s.ring.ringbufRead outbufSize).1 }
  | _ => s

/-- The socket may take a part of the bytes, and the others are forgotten. -/
def sendBytes (s : OutputSession) (outbuf : List Byte) : SendResult → OutputSession
  | .failed => { s with thread := .ended outbuf }
  | .took count =>
    { s with
      bytesTx := s.bytesTx + BitVec.ofNat 64 (outbuf.take count).length
      thread := .loopTop
      sent := s.sent ++ outbuf.take count }

def send (s : OutputSession) (result : SendResult) : OutputSession :=
  match s.thread with
  | .holding outbuf =>
    if outbuf = [] then { s with thread := .loopTop }
    else if s.clientFd.isNone then { s with thread := .ended outbuf }
    else s.sendBytes outbuf result
  | _ => s

def cleanUp (s : OutputSession) : OutputSession :=
  match s.thread with
  | .ended _ => { s with clientFd := none }
  | _ => s

def step (s : OutputSession) : OutputEvent → OutputSession
  | .print c => s.telnetOutputHandler c
  | .poll stop => s.poll stop
  | .drain => s.drain
  | .send result => s.send result
  | .cleanUp => s.cleanUp
  | .disconnect => { s with clientFd := none }

def copied (s : OutputSession) : List Byte :=
  match s.thread with
  | .holding outbuf => outbuf
  | .ended unsent => unsent
  | _ => []

/-- Read as a telnet stream, the sent bytes are the due characters before the unsent ones. -/
def Faithful (s : OutputSession) : Prop :=
  telnetData s.sent ++ (s.copied ++ s.ring.contents) = s.due

/-- The socket takes all bytes of a call that does not fail, and none of them is a code. -/
def SendsPlain (s : OutputSession) : OutputEvent → Prop
  | .send (.took count) => ∀ outbuf, s.thread = .holding outbuf → s.clientFd ≠ none →
      outbuf.length ≤ count ∧ iac ∉ outbuf
  | _ => True

/-- No byte is counted twice. -/
structure Counted (s : OutputSession) : Prop where
  inside : s.ring.Inside
  most : s.sent.length + (s.copied.length + s.ring.contents.length) ≤ s.due.length

end OutputSession

/- Streams and their data. -/

theorem transduce_iacStep_plain {stream : List Byte} (plain : iac ∉ stream) :
    transduce iacStep .data stream = (.data, stream) := by
  induction stream with
  | nil => rfl
  | cons byte rest ih =>
    obtain ⟨other, later⟩ := not_or.mp fun some_ => plain (List.mem_cons.mpr some_)
    have moved : iacStep .data byte = (.data, some byte) := by
      rw [iacStep, if_neg fun same => other same.symm]
    rw [transduce_cons_output rest moved, ih later]

theorem iacStep_output_le (state : TelnetIacState) (byte : Byte) :
    (iacStep state byte).2.toList.length ≤ 1 := by
  rcases (iacStep state byte).2 with _ | output
  · exact Nat.zero_le _
  · exact le_rfl

theorem transduce_iacStep_length_le (state : TelnetIacState) (stream : List Byte) :
    (transduce iacStep state stream).2.length ≤ stream.length := by
  induction stream generalizing state with
  | nil => exact le_rfl
  | cons byte rest ih =>
    have first := iacStep_output_le state byte
    have later := ih (iacStep state byte).1
    simp only [transduce, List.length_append, List.length_cons]
    omega

/-- A stream with a code has fewer bytes of data. -/
theorem plain_of_length_le {stream : List Byte}
    (long : stream.length ≤ (telnetData stream).length) : iac ∉ stream := by
  rw [telnetData] at long
  induction stream with
  | nil => exact List.not_mem_nil
  | cons byte rest ih =>
    by_cases code : byte = iac
    · have silent : iacStep .data byte = (.iac, none) := by
        rw [iacStep, if_pos code]
      rw [transduce_cons_silent rest silent, List.length_cons] at long
      have most := transduce_iacStep_length_le .iac rest
      omega
    · have moved : iacStep .data byte = (.data, some byte) := by
        rw [iacStep, if_neg code]
      rw [transduce_cons_output rest moved, List.length_cons, List.length_cons] at long
      have later := ih (Nat.le_of_succ_le_succ long)
      exact fun member => (List.mem_cons.mp member).elim (fun same => code same.symm) later

theorem telnetData_plain {stream : List Byte} (plain : iac ∉ stream) :
    telnetData stream = stream := by
  rw [telnetData, transduce_iacStep_plain plain]

theorem telnetData_length_le (stream : List Byte) :
    (telnetData stream).length ≤ stream.length := transduce_iacStep_length_le .data stream

namespace OutputSession

variable {s : OutputSession}

/-- Bytes that are all accounted for contain no code. -/
theorem Faithful.plain (faithful : s.Faithful) (counted : s.Counted) : iac ∉ s.sent := by
  apply plain_of_length_le
  have same := congrArg List.length faithful
  rw [List.length_append, List.length_append] at same
  have most := counted.most
  omega

/- One step. -/

theorem print_counted (counted : s.Counted) (c : Byte) : (s.telnetOutputHandler c).Counted := by
  rw [telnetOutputHandler]
  split
  · exact counted
  · refine ⟨OutputRing.ringbufWrite_inside counted.inside c, ?_⟩
    have most := counted.most
    change s.sent.length + (s.copied.length + (s.ring.ringbufWrite c).contents.length) ≤ _
    rw [OutputRing.ringbufWrite_contents counted.inside, List.length_append, List.length_append]
    omega

theorem print_faithful (counted : s.Counted) (faithful : s.Faithful) (c : Byte) :
    (s.telnetOutputHandler c).Faithful := by
  rw [telnetOutputHandler]
  split
  · exact faithful
  · change telnetData s.sent ++ (s.copied ++ (s.ring.ringbufWrite c).contents) = _
    rw [OutputRing.ringbufWrite_contents counted.inside, ← List.append_assoc s.copied,
      ← List.append_assoc, faithful]

/-- Nothing is sent by a thread that holds nothing. -/
theorem sendsPlain_of_thread {result : SendResult} (idle : ∀ outbuf, s.thread ≠ .holding outbuf) :
    s.SendsPlain (.send result) := by
  cases result with
  | failed => exact trivial
  | took count => exact fun outbuf holding => absurd holding (idle outbuf)

theorem poll_unsent (s : OutputSession) (stop : Bool) :
    (s.poll stop).copied = s.copied ∧ (s.poll stop).ring = s.ring ∧
      (s.poll stop).sent = s.sent ∧ (s.poll stop).due = s.due := by
  rw [poll]
  split
  · next top =>
      refine ⟨?_, rfl, rfl, rfl⟩
      rw [copied, copied, top]
      split_ifs <;> rfl
  · exact ⟨rfl, rfl, rfl, rfl⟩

theorem drain_unsent (counted : s.Counted) : s.drain.ring.Inside ∧
    s.drain.copied ++ s.drain.ring.contents = s.copied ++ s.ring.contents ∧
      s.drain.sent = s.sent ∧ s.drain.due = s.due := by
  rw [drain]
  split
  · next polled =>
      refine ⟨OutputRing.ringbufRead_inside counted.inside _, ?_, rfl, rfl⟩
      refine (OutputRing.ringbufRead_contents counted.inside outbufSize).trans ?_
      rw [copied, polled]
      rfl
  · exact ⟨counted.inside, rfl, rfl, rfl⟩

/-- A call of the socket keeps what is unsent or sends a part of it. -/
theorem send_unsent (s : OutputSession) (result : SendResult) :
    (s.send result).ring = s.ring ∧ (s.send result).due = s.due ∧
      ((s.send result).copied = s.copied ∧ (s.send result).sent = s.sent ∧
          s.SendsPlain (.send result) ∨
        ∃ outbuf count, s.thread = .holding outbuf ∧ s.clientFd ≠ none ∧
          result = .took count ∧ (s.send result).copied = [] ∧
          (s.send result).sent = s.sent ++ outbuf.take count) := by
  rw [send]
  rcases thread : s.thread with _ | _ | outbuf | unsent
  · exact ⟨rfl, rfl, .inl ⟨rfl, rfl, sendsPlain_of_thread fun _ => by rw [thread]; exact nofun⟩⟩
  · exact ⟨rfl, rfl, .inl ⟨rfl, rfl, sendsPlain_of_thread fun _ => by rw [thread]; exact nofun⟩⟩
  · dsimp only
    by_cases empty : outbuf = []
    · rw [if_pos empty]
      refine ⟨rfl, rfl, .inl ⟨?_, rfl, ?_⟩⟩
      · rw [copied, copied, thread, empty]
      · cases result with
        | failed => exact trivial
        | took count =>
          intro other same _
          rw [thread, ClientThread.holding.injEq, empty] at same
          rw [← same]
          exact ⟨Nat.zero_le _, List.not_mem_nil⟩
    · rw [if_neg empty]
      by_cases closed : s.clientFd.isNone = true
      · rw [if_pos closed]
        refine ⟨rfl, rfl, .inl ⟨?_, rfl, ?_⟩⟩
        · rw [copied, copied, thread]
        · cases result with
          | failed => exact trivial
          | took count => exact fun _ _ connected => absurd (Option.isNone_iff_eq_none.mp closed) connected
      · rw [if_neg closed]
        cases result with
        | failed =>
          refine ⟨rfl, rfl, .inl ⟨?_, rfl, trivial⟩⟩
          rw [sendBytes, copied, copied, thread]
        | took count =>
          have connected : s.clientFd ≠ none := fun none_ => closed (by rw [none_]; rfl)
          exact ⟨rfl, rfl, .inr ⟨outbuf, count, rfl, connected, rfl, rfl, rfl⟩⟩
  · exact ⟨rfl, rfl, .inl ⟨rfl, rfl, sendsPlain_of_thread fun _ => by rw [thread]; exact nofun⟩⟩

theorem cleanUp_unsent (s : OutputSession) : s.cleanUp.copied = s.copied ∧
    s.cleanUp.ring = s.ring ∧ s.cleanUp.sent = s.sent ∧ s.cleanUp.due = s.due := by
  rw [cleanUp]
  split
  · exact ⟨rfl, rfl, rfl, rfl⟩
  · exact ⟨rfl, rfl, rfl, rfl⟩

theorem Counted.of_same {t : OutputSession} (counted : s.Counted) (inside : t.ring.Inside)
    (unsent : t.copied ++ t.ring.contents = s.copied ++ s.ring.contents)
    (sent : t.sent = s.sent) (due : t.due = s.due) : t.Counted := by
  refine ⟨inside, ?_⟩
  have most := counted.most
  rwa [← List.length_append, ← unsent, List.length_append, ← sent, ← due] at most

theorem faithful_of_same {t : OutputSession}
    (unsent : t.copied ++ t.ring.contents = s.copied ++ s.ring.contents)
    (sent : t.sent = s.sent) (due : t.due = s.due) : t.Faithful ↔ s.Faithful := by
  rw [Faithful, Faithful, unsent, sent, due]

theorem step_counted (event : OutputEvent) (counted : s.Counted) : (s.step event).Counted := by
  cases event with
  | print c => exact print_counted counted c
  | poll stop =>
    obtain ⟨copied, ring, sent, due⟩ := poll_unsent s stop
    exact counted.of_same (ring.symm ▸ counted.inside) (by rw [step, copied, ring]) sent due
  | drain =>
    obtain ⟨inside, unsent, sent, due⟩ := drain_unsent counted
    exact counted.of_same inside unsent sent due
  | send result =>
    obtain ⟨ring, due, ⟨copied, sent, -⟩ | ⟨outbuf, count, holding, connected, same, copied,
      sent⟩⟩ := send_unsent s result
    · exact counted.of_same (ring.symm ▸ counted.inside) (by rw [step, copied, ring]) sent due
    · refine ⟨ring.symm ▸ counted.inside, ?_⟩
      have most := counted.most
      have held : s.copied = outbuf := by rw [OutputSession.copied, holding]
      rw [held] at most
      rw [step, copied, sent, ring, due, List.length_append, List.length_take, List.length_nil]
      omega
  | cleanUp =>
    obtain ⟨copied, ring, sent, due⟩ := cleanUp_unsent s
    exact counted.of_same (ring.symm ▸ counted.inside) (by rw [step, copied, ring]) sent due
  | disconnect => exact counted.of_same counted.inside rfl rfl rfl

/-- A call that takes a part of the bytes keeps the stream exactly when the part is all of them and
none is a code. -/
theorem send_faithful (counted : s.Counted) (faithful : s.Faithful) {outbuf : List Byte}
    {count : Nat} {t : OutputSession} (held : s.copied = outbuf) (copied : t.copied = [])
    (ring : t.ring = s.ring) (due : t.due = s.due) (sent : t.sent = s.sent ++ outbuf.take count) :
    t.Faithful ↔ outbuf.length ≤ count ∧ iac ∉ outbuf := by
  have plain := faithful.plain counted
  have before : s.sent ++ (outbuf ++ s.ring.contents) = s.due := by
    rw [← held]
    conv_lhs => rw [← telnetData_plain plain]
    exact faithful
  rw [Faithful, copied, ring, due, sent, List.nil_append, ← before]
  constructor
  · intro same
    have lengths := congrArg List.length same
    have most := telnetData_length_le (s.sent ++ outbuf.take count)
    rw [List.length_append, List.length_append, List.length_append] at lengths
    rw [List.length_append, List.length_take] at most
    have whole : outbuf.length ≤ count := by omega
    refine ⟨whole, fun member => ?_⟩
    rw [List.take_of_length_le whole] at lengths
    have long : (s.sent ++ outbuf).length ≤ (telnetData (s.sent ++ outbuf)).length := by
      rw [List.length_append]
      omega
    exact plain_of_length_le long (List.mem_append_right _ member)
  · rintro ⟨whole, none_⟩
    have all : iac ∉ s.sent ++ outbuf := fun member =>
      (List.mem_append.mp member).elim plain none_
    rw [List.take_of_length_le whole, telnetData_plain all, List.append_assoc]

theorem step_faithful (event : OutputEvent) (counted : s.Counted) (faithful : s.Faithful) :
    (s.step event).Faithful ↔ s.SendsPlain event := by
  cases event with
  | print c => exact iff_of_true (print_faithful counted faithful c) trivial
  | poll stop =>
    obtain ⟨copied, ring, sent, due⟩ := poll_unsent s stop
    exact iff_of_true ((faithful_of_same (by rw [copied, ring]) sent due).mpr faithful) trivial
  | drain =>
    obtain ⟨-, unsent, sent, due⟩ := drain_unsent counted
    exact iff_of_true ((faithful_of_same unsent sent due).mpr faithful) trivial
  | send result =>
    obtain ⟨ring, due, ⟨copied, sent, plain⟩ | ⟨outbuf, count, holding, connected, rfl, copied,
      sent⟩⟩ := send_unsent s result
    · exact iff_of_true ((faithful_of_same (by rw [copied, ring]) sent due).mpr faithful) plain
    · rw [step, send_faithful counted faithful (by rw [OutputSession.copied, holding]) copied ring
        due sent]
      constructor
      · intro whole other same _
        rw [holding, ClientThread.holding.injEq] at same
        exact same ▸ whole
      · intro plain
        exact plain outbuf holding connected
  | cleanUp =>
    obtain ⟨copied, ring, sent, due⟩ := cleanUp_unsent s
    exact iff_of_true ((faithful_of_same (by rw [copied, ring]) sent due).mpr faithful) trivial
  | disconnect => exact iff_of_true ((faithful_of_same rfl rfl rfl).mpr faithful) trivial

theorem start_counted (clientFd : Nat) (ring : OutputRing) (bytesTx : BitVec 64) :
    (start clientFd ring bytesTx).Counted := by
  refine ⟨.clear ring, ?_⟩
  change 0 + (0 + ring.clear.contents.length) ≤ 0
  rw [OutputRing.clear_contents]
  exact le_rfl

theorem start_faithful (clientFd : Nat) (ring : OutputRing) (bytesTx : BitVec 64) :
    (start clientFd ring bytesTx).Faithful := by
  change telnetData [] ++ ([] ++ ring.clear.contents) = []
  rw [OutputRing.clear_contents]
  rfl

/-- The stream is the output of the terminal throughout a connection exactly when the socket takes
whole buffers without the code 255. -/
theorem output_faithful_iff (clientFd : Nat) (ring : OutputRing) (bytesTx : BitVec 64)
    (events : List OutputEvent) :
    EachState step Faithful (start clientFd ring bytesTx) events ↔
      EachStep step SendsPlain (start clientFd ring bytesTx) events :=
  eachState_iff_eachStep (fun _ event counted => step_counted event counted)
    (fun _ event counted faithful => step_faithful event counted faithful)
    (start_counted clientFd ring bytesTx) (start_faithful clientFd ring bytesTx) events

/-- A ring whose buffer was never written. -/
def blankRing : OutputRing := ⟨fun _ => 0, 0, 0⟩

/-- A character 255 reaches the client as the start of a command, and what the socket does not take
at once is forgotten. -/
theorem output_loses_characters :
    ¬ EachState step Faithful (start 5 blankRing 0)
        [.print 255, .poll false, .drain, .send (.took 1)] ∧
      ¬ EachState step Faithful (start 5 blankRing 0)
        [.print 65, .print 66, .poll false, .drain, .send (.took 1)] := by
  constructor
  · intro each
    have last := each.final
    revert last
    rw [Faithful]
    decide
  · intro each
    have last := each.final
    revert last
    rw [Faithful]
    decide

end OutputSession

end Nd100x.Telnet
