import Nd100x.Gateway.EthSegment
import Nd100x.Library.Runs

namespace Nd100x.Gateway

open Nd100x.Library

namespace EthGateway

/-- A greeted connection of a segment that is open. -/
def Hears (n : EthGateway) (segment : Byte) (member : Nat) : Prop :=
  (n.sockets member).greeted = true ∧ (n.sockets member).destroyed = false ∧
    (n.sockets member).segment = segment

instance (n : EthGateway) (segment : Byte) (member : Nat) : Decidable (n.Hears segment member) :=
  inferInstanceAs (Decidable (_ ∧ _))

/-- The frames are repeated to every other connection that hears the segment, and up to the
emulator, each once and in their order. -/
structure Delivered (n t : EthGateway) (segment : Byte) (source : Option Nat)
    (frames : List Frame) : Prop where
  written : ∀ member, (t.sockets member).written = (n.sockets member).written ++
    if source ≠ some member ∧ n.Hears segment member then frameStream frames else []
  repeated : ∀ member, (t.sockets member).repeated = (n.sockets member).repeated ++
    if source = some member then frames else []
  sentUp : t.sentUp = n.sentUp ++
    if source.isSome ∧ n.emulator = .connected then frames.map (Prod.mk segment) else []

/-- The length in front of the bytes is no length of a frame. -/
def BadLength (rest : Message) : Prop :=
  2 ≤ rest.length ∧
    (joinLength (rest.getD 0 0) (rest.getD 1 0) = 0 ∨
      rethMaxFrame < joinLength (rest.getD 0 0) (rest.getD 1 0))

/-- The stream of a connection is a hello and whole frames. All of them were repeated, and a wrong
hello or a length out of range has ended the connection. -/
structure Framed (socket : EthSocket) : Prop where
  fits : ∀ frame ∈ socket.repeated, FrameFits rethMaxFrame frame
  waiting : socket.greeted = false → socket.repeated = [] ∧ socket.rx = socket.received
  wrong : socket.greeted = false → rethHandshakeLen ≤ socket.received.length →
    socket.received.take 4 ≠ rethMagic ∧ socket.destroyed = true
  stream : socket.greeted = true → ∃ version, socket.received =
    rethMagic ++ [version] ++ (frameStream socket.repeated ++ socket.rx)
  cut : socket.greeted = true → Cut rethMaxFrame socket.rx
  bad : socket.greeted = true → BadLength socket.rx → socket.destroyed = true

/-- Some greeted connection of the segment is not closed. -/
def Present (n : EthGateway) (segment : Byte) : Prop :=
  ∃ member, (n.sockets member).greeted = true ∧ (n.sockets member).closed = false ∧
    (n.sockets member).segment = segment

/-- A connected emulator was last told that a segment is present exactly when it is. -/
def LinkTold (n : EthGateway) : Prop :=
  n.emulator = .connected → ∀ segment, n.linkTold segment = some true ↔ n.Present segment

/-- The frame of a message from the emulator, when its length is right. -/
def frameOf (buf : Message) : List Frame :=
  let ethLen := joinLength (buf.getD 2 0) (buf.getD 3 0)
  if buf.getD 0 0 = 0x31 ∧ 0 < ethLen ∧ ethLen ≤ rethMaxFrame ∧ 4 + ethLen ≤ buf.length then
    [(buf.drop 4).take ethLen]
  else []

/-- What a step writes. -/
def Repeats (n : EthGateway) : EthEvent → Prop
  | .data member chunk => ∃ frames,
      Delivered n (n.step (.data member chunk)) (n.sockets member).segment (some member) frames
  | .emulatorMessage buf =>
    Delivered n (n.step (.emulatorMessage buf)) (buf.getD 1 0) none
      (if n.emulator = .absent then [] else frameOf buf)
  | .connect segment =>
    ((n.step (.connect segment)).sockets n.opened).written = rethMagic ++ [rethVersionMember] ∧
      (∀ other, other ≠ n.opened →
        (n.step (.connect segment)).sockets other = n.sockets other) ∧
      (n.step (.connect segment)).sentUp = n.sentUp
  | event => Delivered n (n.step event) 0 none []

/-- No segment has a member when an emulator connects. -/
def FirstComes (n : EthGateway) : EthEvent → Prop
  | .emulatorConnect => n.emulator = .absent → ∀ segment, ¬ n.Present segment
  | _ => True

end EthGateway

/-- More bytes are written. -/
def EthSocket.hear (socket : EthSocket) (bytes : Message) : EthSocket :=
  { socket with written := socket.written ++ bytes }

@[simp] theorem EthSocket.hear_nil (socket : EthSocket) : socket.hear [] = socket := by
  rw [hear, List.append_nil]

theorem EthSocket.hear_hear (socket : EthSocket) (first second : Message) :
    (socket.hear first).hear second = socket.hear (first ++ second) := by
  rw [hear, hear, hear, List.append_assoc]

/- Frames. -/

theorem cut_of_badLength {rest : Message} (bad : EthGateway.BadLength rest) :
    Cut rethMaxFrame rest := by
  rintro frame later ⟨some_, most⟩ rfl
  have length : joinLength ((framed frame ++ later).getD 0 0) ((framed frame ++ later).getD 1 0) =
      frame.length := joinLength_lengthBytes (lt_of_le_of_lt most (by decide))
  have range := bad.2
  rw [length] at range
  omega

namespace EthGateway

variable {n t u : EthGateway} {member other : Nat} {segment : Byte}

@[simp] theorem onSocket_self (n : EthGateway) (member : Nat) (change : EthSocket → EthSocket) :
    (n.onSocket member change).sockets member = change (n.sockets member) :=
  Function.update_self _ _ _

theorem onSocket_other (n : EthGateway) (change : EthSocket → EthSocket) (apart : other ≠ member) :
    (n.onSocket member change).sockets other = n.sockets other :=
  Function.update_of_ne apart _ _

/- One frame. -/

theorem write_sockets (n : EthGateway) (member : Nat) (bytes : Message) (other : Nat) :
    (n.write member bytes).sockets other =
      (n.sockets other).hear
        (if other = member ∧ (n.sockets other).destroyed = false then bytes else []) := by
  rw [write]
  by_cases same : other = member
  · subst same
    by_cases gone : (n.sockets other).destroyed = true
    · rw [if_pos gone, if_neg fun both => Bool.false_ne_true (both.2.symm.trans gone),
        EthSocket.hear_nil]
    · rw [if_neg gone, if_pos ⟨rfl, Bool.eq_false_iff.mpr gone⟩]
      exact Function.update_self _ _ _
  · rw [if_neg (fun both => same both.1 : ¬ (other = member ∧ _)), EthSocket.hear_nil]
    split_ifs
    · rfl
    · exact Function.update_of_ne same _ _

/-- The rest of the gateway is the same. -/
structure SameGateway (n t : EthGateway) : Prop where
  emulator : t.emulator = n.emulator
  opened : t.opened = n.opened
  ethBindings : t.ethBindings = n.ethBindings
  linkTold : t.linkTold = n.linkTold

theorem SameGateway.refl (n : EthGateway) : SameGateway n n := ⟨rfl, rfl, rfl, rfl⟩

theorem SameGateway.trans (first : SameGateway n t) (second : SameGateway t u) :
    SameGateway n u :=
  ⟨second.emulator.trans first.emulator, second.opened.trans first.opened,
    second.ethBindings.trans first.ethBindings, second.linkTold.trans first.linkTold⟩

theorem write_same (n : EthGateway) (member : Nat) (bytes : Message) :
    SameGateway n (n.write member bytes) ∧ (n.write member bytes).sentUp = n.sentUp := by
  rw [write]
  split_ifs
  · exact ⟨.refl n, rfl⟩
  · exact ⟨⟨rfl, rfl, rfl, rfl⟩, rfl⟩

/-- The loop over the members. -/
def writeAll (n : EthGateway) (members : List Nat) (source : Option Nat) (bytes : Message) :
    EthGateway :=
  members.foldl (fun n member => if source = some member then n else n.write member bytes) n

/-- Each member but the source is written to once. -/
theorem writeAll_spec (members : List Nat) (source : Option Nat) (bytes : Message)
    (n : EthGateway) (once : members.Nodup) :
    SameGateway n (n.writeAll members source bytes) ∧
      (n.writeAll members source bytes).sentUp = n.sentUp ∧
      ∀ other, (n.writeAll members source bytes).sockets other =
        (n.sockets other).hear
          (if other ∈ members ∧ source ≠ some other ∧ (n.sockets other).destroyed = false then bytes
          else []) := by
  induction members generalizing n with
  | nil =>
    refine ⟨.refl n, rfl, fun other => ?_⟩
    rw [if_neg fun all => List.not_mem_nil all.1, EthSocket.hear_nil]
    rfl
  | cons member rest ih =>
    obtain ⟨apart, restOnce⟩ := List.nodup_cons.mp once
    rw [writeAll, List.foldl_cons]
    by_cases own : source = some member
    · rw [if_pos own]
      obtain ⟨same, up, later⟩ := ih n restOnce
      refine ⟨same, up, fun other => (later other).trans ?_⟩
      have alike : (other ∈ rest ∧ source ≠ some other ∧ (n.sockets other).destroyed = false) ↔
          other ∈ member :: rest ∧ source ≠ some other ∧ (n.sockets other).destroyed = false := by
        refine and_congr_left fun here => ?_
        rw [List.mem_cons]
        exact ⟨.inr, fun either => either.resolve_left fun same => here.1 (same ▸ own)⟩
      rw [if_congr alike rfl rfl]
    · rw [if_neg own]
      obtain ⟨same, up, later⟩ := ih (n.write member bytes) restOnce
      obtain ⟨first, firstUp⟩ := write_same n member bytes
      refine ⟨first.trans same, up.trans firstUp, fun other => (later other).trans ?_⟩
      by_cases here : other = member
      · subst here
        have alike : (other = other ∧ (n.sockets other).destroyed = false) ↔
            other ∈ other :: rest ∧ source ≠ some other ∧
              (n.sockets other).destroyed = false :=
          ⟨fun both => ⟨List.mem_cons_self, own, both.2⟩, fun all => ⟨rfl, all.2.2⟩⟩
        rw [if_neg fun all => apart all.1, EthSocket.hear_nil, write_sockets,
          if_congr alike rfl rfl]
      · have alike : (other ∈ rest ∧ source ≠ some other ∧ (n.sockets other).destroyed = false) ↔
            other ∈ member :: rest ∧ source ≠ some other ∧
              (n.sockets other).destroyed = false := by
          refine and_congr_left fun _ => ?_
          rw [List.mem_cons]
          exact ⟨.inr, fun either => either.resolve_left here⟩
        have untouched : (n.write member bytes).sockets other = n.sockets other := by
          rw [write_sockets, if_neg fun both => here both.1, EthSocket.hear_nil]
        rw [untouched, if_congr alike rfl rfl]

theorem SameGateway.members (same : SameGateway n t) (segment : Byte) :
    t.members segment = n.members segment := by
  rw [EthGateway.members, EthGateway.members, same.ethBindings]

theorem ethRepeat_spec (n : EthGateway) (segment : Byte) (frame : Frame) (source : Option Nat)
    (once : (n.members segment).Nodup) :
    SameGateway n (n.ethRepeat segment frame source) ∧
      (n.ethRepeat segment frame source).sentUp = n.sentUp ++
        (if source.isSome ∧ n.emulator = .connected then [(segment, frame)] else []) ∧
      ∀ other, (n.ethRepeat segment frame source).sockets other =
        (n.sockets other).hear
          (if other ∈ n.members segment ∧ source ≠ some other ∧ (n.sockets other).destroyed = false
          then framed frame else []) := by
  obtain ⟨same, up, each⟩ := writeAll_spec (n.members segment) source (framed frame) n once
  have result : n.ethRepeat segment frame source =
      if source.isSome = true then
        (n.writeAll (n.members segment) source (framed frame)).sendEthRxFrame segment frame
      else n.writeAll (n.members segment) source (framed frame) := rfl
  rw [result, sendEthRxFrame, same.emulator]
  by_cases sent : source.isSome = true
  · rw [if_pos sent]
    by_cases connected : n.emulator = .connected
    · rw [if_pos connected, if_pos ⟨sent, connected⟩, ← up]
      exact ⟨⟨rfl, same.opened, same.ethBindings, same.linkTold⟩, rfl, each⟩
    · rw [if_neg connected, if_neg fun both => connected both.2, List.append_nil]
      exact ⟨same, up, each⟩
  · rw [if_neg sent, if_neg fun both => sent both.1, List.append_nil]
    exact ⟨same, up, each⟩

/-- The frames of one connection went to the others. -/
structure Spread (n t : EthGateway) (member : Nat) (frames : List Frame) : Prop
    extends SameGateway n t where
  others : ∀ other, other ≠ member → t.sockets other =
    (n.sockets other).hear
      (if other ∈ n.members (n.sockets member).segment ∧ (n.sockets other).destroyed = false then
        frameStream frames
      else [])
  written : (t.sockets member).written = (n.sockets member).written
  repeated : (t.sockets member).repeated = (n.sockets member).repeated ++ frames
  segment : (t.sockets member).segment = (n.sockets member).segment
  greeted : (t.sockets member).greeted = (n.sockets member).greeted
  closed : (t.sockets member).closed = (n.sockets member).closed
  received : (t.sockets member).received = (n.sockets member).received
  sentUp : t.sentUp = n.sentUp ++
    if n.emulator = .connected then frames.map (Prod.mk (n.sockets member).segment) else []

theorem Spread.trans {frames later : List Frame} (first : Spread n t member frames)
    (second : Spread t u member later) : Spread n u member (frames ++ later) where
  toSameGateway := first.toSameGateway.trans second.toSameGateway
  others := by
    intro other apart
    have alive : (t.sockets other).destroyed = (n.sockets other).destroyed := by
      rw [first.others other apart]
      rfl
    rw [second.others other apart, first.segment, first.members, alive, first.others other apart,
      EthSocket.hear_hear]
    split_ifs
    · rw [frameStream_append]
    · rfl
  written := second.written.trans first.written
  repeated := by rw [second.repeated, first.repeated, List.append_assoc]
  segment := second.segment.trans first.segment
  greeted := second.greeted.trans first.greeted
  closed := second.closed.trans first.closed
  received := second.received.trans first.received
  sentUp := by
    rw [second.sentUp, first.sentUp, first.segment, first.emulator, List.append_assoc]
    split_ifs
    · rw [List.map_append]
    · rfl

/-- A frame is taken from the buffer of its sender and repeated. -/
theorem takeFrame_spread (n : EthGateway) (member : Nat) (rx : Message) (frame : Frame)
    (once : (n.members (n.sockets member).segment).Nodup) :
    let taken := (n.putRx member rx).onSocket member fun socket =>
      { socket with repeated := socket.repeated ++ [frame] }
    let t := taken.ethRepeat (taken.sockets member).segment frame (some member)
    Spread n t member [frame] ∧ (t.sockets member).rx = rx ∧
      (t.sockets member).destroyed = (n.sockets member).destroyed := by
  intro taken t
  have own : taken.sockets member =
      { n.sockets member with rx := rx, repeated := (n.sockets member).repeated ++ [frame] } := by
    rw [onSocket_self, putRx, onSocket_self]
  have away (other : Nat) (apart : other ≠ member) : taken.sockets other = n.sockets other := by
    rw [onSocket_other _ _ apart, putRx, onSocket_other _ _ apart]
  have home : (taken.sockets member).segment = (n.sockets member).segment := by rw [own]
  obtain ⟨same, up, each⟩ := ethRepeat_spec taken (taken.sockets member).segment frame (some member)
    (by rw [home]; exact once)
  have sender : t.sockets member = taken.sockets member := by
    rw [each member, if_neg fun all => all.2.1 rfl, EthSocket.hear_nil]
  refine ⟨?_, by rw [sender, own], by rw [sender, own]⟩
  exact
    { emulator := same.emulator
      opened := same.opened
      ethBindings := same.ethBindings
      linkTold := same.linkTold
      others := by
        intro other apart
        have alike : (other ∈ taken.members (taken.sockets member).segment ∧
            some member ≠ some other ∧ (taken.sockets other).destroyed = false) ↔
            other ∈ n.members (n.sockets member).segment ∧
              (n.sockets other).destroyed = false := by
          rw [home, away other apart]
          exact ⟨fun all => ⟨all.1, all.2.2⟩, fun both =>
            ⟨both.1, fun here => apart (Option.some.inj here).symm, both.2⟩⟩
        rw [each other, if_congr alike rfl rfl, away other apart]
        split_ifs
        · rw [frameStream, List.flatMap_cons, List.flatMap_nil, List.append_nil]
        · rfl
      written := by rw [sender, own]
      repeated := by rw [sender, own]
      segment := by rw [sender, own]
      greeted := by rw [sender, own]
      closed := by rw [sender, own]
      received := by rw [sender, own]
      sentUp := by
        rw [up, home]
        refine congrArg (n.sentUp ++ ·) (if_congr ⟨And.right, fun here => ⟨rfl, here⟩⟩ rfl rfl) }

theorem Spread.none (n : EthGateway) (member : Nat) : Spread n n member [] where
  toSameGateway := .refl n
  others := by
    intro other _
    rw [frameStream, List.flatMap_nil, ite_self, EthSocket.hear_nil]
  written := rfl
  repeated := (List.append_nil _).symm
  segment := rfl
  greeted := rfl
  closed := rfl
  received := rfl
  sentUp := by rw [List.map_nil, ite_self, List.append_nil]

theorem Spread.destroy (n : EthGateway) (member : Nat) : Spread n (n.destroy member) member [] where
  emulator := rfl
  opened := rfl
  ethBindings := rfl
  linkTold := rfl
  others := by
    intro other apart
    rw [EthGateway.destroy, onSocket_other _ _ apart, frameStream, List.flatMap_nil, ite_self,
      EthSocket.hear_nil]
  written := by rw [EthGateway.destroy, onSocket_self]
  repeated := by rw [EthGateway.destroy, onSocket_self, List.append_nil]
  segment := by rw [EthGateway.destroy, onSocket_self]
  greeted := by rw [EthGateway.destroy, onSocket_self]
  closed := by rw [EthGateway.destroy, onSocket_self]
  received := by rw [EthGateway.destroy, onSocket_self]
  sentUp := by
    rw [List.map_nil, ite_self, List.append_nil]
    rfl

theorem two_bytes {rx : Message} (two : ¬ rx.length < 2) :
    ∃ high low rest, rx = high :: low :: rest := by
  rcases rx with _ | ⟨high, _ | ⟨low, rest⟩⟩
  · exact absurd (Nat.zero_lt_succ 1) two
  · exact absurd (Nat.lt_succ_self 1) two
  · exact ⟨high, low, rest, rfl⟩

/-- The bytes behind a length are a frame when all are there. -/
theorem framed_of_length {rx : Message} (two : ¬ rx.length < 2)
    (there : ¬ rx.length < 2 + joinLength (rx.getD 0 0) (rx.getD 1 0)) :
    rx = framed ((rx.drop 2).take (joinLength (rx.getD 0 0) (rx.getD 1 0))) ++
      rx.drop (2 + joinLength (rx.getD 0 0) (rx.getD 1 0)) := by
  obtain ⟨high, low, rest, rfl⟩ := two_bytes two
  change ¬ rest.length + 1 + 1 < 2 + joinLength high low at there
  change high :: low :: rest = framed (rest.take (joinLength high low)) ++
    (high :: low :: rest).drop (2 + joinLength high low)
  have length : (rest.take (joinLength high low)).length = joinLength high low := by
    rw [List.length_take]
    omega
  rw [framed, length, lengthBytes_joinLength, Nat.add_comm 2, List.drop_succ_cons,
    List.drop_succ_cons]
  change _ = high :: low :: (rest.take (joinLength high low) ++ rest.drop (joinLength high low))
  rw [List.take_append_drop]

theorem cut_of_waiting {rx : Message} (two : ¬ rx.length < 2)
    (most : ¬ rethMaxFrame < joinLength (rx.getD 0 0) (rx.getD 1 0))
    (missing : rx.length < 2 + joinLength (rx.getD 0 0) (rx.getD 1 0)) : Cut rethMaxFrame rx := by
  obtain ⟨high, low, rest, rfl⟩ := two_bytes two
  change rest.length + 1 + 1 < 2 + joinLength high low at missing
  have cut := @cut_of_missing rethMaxFrame rest (joinLength high low) (by decide)
    (Nat.le_of_not_lt most) (by omega)
  rwa [lengthBytes_joinLength] at cut

theorem repeatFrames_spec (fuel : Nat) (n : EthGateway) (member : Nat)
    (enough : (n.sockets member).rx.length ≤ fuel)
    (once : (n.members (n.sockets member).segment).Nodup)
    (alive : (n.sockets member).destroyed = false) :
    ∃ frames, Spread n (repeatFrames member fuel n) member frames ∧
      (n.sockets member).rx =
        frameStream frames ++ ((repeatFrames member fuel n).sockets member).rx ∧
      (∀ frame ∈ frames, FrameFits rethMaxFrame frame) ∧
      Cut rethMaxFrame ((repeatFrames member fuel n).sockets member).rx ∧
      (BadLength ((repeatFrames member fuel n).sockets member).rx →
        ((repeatFrames member fuel n).sockets member).destroyed = true) := by
  induction fuel generalizing n with
  | zero =>
    have empty : (n.sockets member).rx.length < 2 := by omega
    refine ⟨[], .none n member, rfl, fun _ member => absurd member List.not_mem_nil,
      cut_of_short (by omega : (n.sockets member).rx.length ≤ 2), fun bad => ?_⟩
    exact absurd bad.1 (Nat.not_le.mpr empty)
  | succ fuel ih =>
    simp only [repeatFrames]
    by_cases two : (n.sockets member).rx.length < 2
    · rw [if_pos two]
      exact ⟨[], .none n member, rfl, fun _ member => absurd member List.not_mem_nil,
        cut_of_short (by omega), fun bad => absurd bad.1 (Nat.not_le.mpr two)⟩
    · rw [if_neg two]
      by_cases bad : joinLength ((n.sockets member).rx.getD 0 0) ((n.sockets member).rx.getD 1 0) = 0 ∨
          rethMaxFrame < joinLength ((n.sockets member).rx.getD 0 0) ((n.sockets member).rx.getD 1 0)
      · rw [if_pos bad]
        have same : ((n.destroy member).sockets member).rx = (n.sockets member).rx := by
          rw [destroy, onSocket_self]
        refine ⟨[], .destroy n member, same.symm, fun _ member => absurd member List.not_mem_nil, ?_,
          fun _ => ?_⟩
        · rw [same]
          exact cut_of_badLength ⟨Nat.le_of_not_lt two, bad⟩
        · rw [destroy, onSocket_self]
      · rw [if_neg bad]
        obtain ⟨low, most⟩ := not_or.mp bad
        by_cases missing : (n.sockets member).rx.length <
            2 + joinLength ((n.sockets member).rx.getD 0 0) ((n.sockets member).rx.getD 1 0)
        · rw [if_pos missing]
          exact ⟨[], .none n member, rfl, fun _ member => absurd member List.not_mem_nil,
            cut_of_waiting two most missing, fun here => absurd here.2 bad⟩
        · rw [if_neg missing]
          have whole := framed_of_length two missing
          generalize len : joinLength ((n.sockets member).rx.getD 0 0)
            ((n.sockets member).rx.getD 1 0) = length at whole missing most low ⊢
          obtain ⟨spread, rest, still⟩ := takeFrame_spread n member
            ((n.sockets member).rx.drop (2 + length))
            (((n.sockets member).rx.drop 2).take length) once
          obtain ⟨frames, later, stream, fits, cut, ended⟩ := ih _
            (by rw [rest, List.length_drop]; omega)
            (by rw [spread.segment, spread.members]; exact once) (still.trans alive)
          refine ⟨_, spread.trans later, ?_, ?_, cut, ended⟩
          · rw [rest] at stream
            rw [List.singleton_append, frameStream, List.flatMap_cons, List.append_assoc]
            exact whole.trans (congrArg _ stream)
          · intro frame here
            rcases List.mem_append.mp here with one | more
            · obtain rfl := List.mem_singleton.mp one
              have size : (((n.sockets member).rx.drop 2).take length).length = length := by
                rw [List.length_take, List.length_drop]
                omega
              exact ⟨by omega, by omega⟩
            · exact fits frame more

/- The state between the events. -/

/-- What holds of all connections, the stream of one of them apart. -/
structure SoundBut (n : EthGateway) (member : Nat) : Prop where
  framed : ∀ other, other ≠ member → Framed (n.sockets other)
  once : ∀ segment, (n.members segment).Nodup
  joined : ∀ segment other, other ∈ n.members segment ↔
    (n.sockets other).greeted = true ∧ (n.sockets other).closed = false ∧
      (n.sockets other).segment = segment
  gone : ∀ other, (n.sockets other).closed = true → (n.sockets other).destroyed = true
  fresh : ∀ other, n.opened ≤ other → n.sockets other = noSocket

structure Sound (n : EthGateway) (member : Nat) : Prop extends SoundBut n member where
  own : Framed (n.sockets member)

theorem Framed.hear {socket : EthSocket} (framed : Framed socket) (bytes : Message) :
    Framed (socket.hear bytes) :=
  ⟨framed.fits, framed.waiting, framed.wrong, framed.stream, framed.cut, framed.bad⟩

theorem Sound.framed' (sound : Sound n member) (other : Nat) : Framed (n.sockets other) := by
  by_cases same : other = member
  · rw [same]
    exact sound.own
  · exact sound.framed other same

/-- It does not matter which connection is set apart. -/
theorem Sound.move (sound : Sound n member) (other : Nat) : Sound n other where
  framed := fun third _ => sound.framed' third
  once := sound.once
  joined := sound.joined
  gone := sound.gone
  fresh := sound.fresh
  own := sound.framed' other

theorem hears_iff (sound : SoundBut n member) (segment : Byte) (other : Nat) :
    n.Hears segment other ↔
      other ∈ n.members segment ∧ (n.sockets other).destroyed = false := by
  rw [sound.joined, Hears]
  constructor
  · rintro ⟨greeted, alive, same⟩
    refine ⟨⟨greeted, ?_, same⟩, alive⟩
    exact Bool.eq_false_iff.mpr fun closed =>
      Bool.false_ne_true (alive.symm.trans (sound.gone other closed))
  · rintro ⟨⟨greeted, -, same⟩, alive⟩
    exact ⟨greeted, alive, same⟩

theorem present_iff (sound : SoundBut n member) (segment : Byte) :
    n.Present segment ↔ n.members segment ≠ [] := by
  constructor
  · rintro ⟨other, all⟩ none_
    have here := (sound.joined segment other).mpr all
    rw [none_] at here
    exact List.not_mem_nil here
  · intro some_
    obtain ⟨other, here⟩ := List.exists_mem_of_ne_nil _ some_
    exact ⟨other, (sound.joined segment other).mp here⟩

theorem Spread.soundBut {frames : List Frame} (spread : Spread n t member frames)
    (sound : SoundBut n member) (inside : member < n.opened)
    (open_ : (n.sockets member).closed = false) : SoundBut t member := by
  have fields (other : Nat) : (t.sockets other).greeted = (n.sockets other).greeted ∧
      (t.sockets other).closed = (n.sockets other).closed ∧
        (t.sockets other).segment = (n.sockets other).segment := by
    by_cases same : other = member
    · rw [same]
      exact ⟨spread.greeted, spread.closed, spread.segment⟩
    · rw [spread.others other same]
      exact ⟨rfl, rfl, rfl⟩
  exact
    { framed := by
        intro other apart
        rw [spread.others other apart]
        exact (sound.framed other apart).hear _
      once := by
        intro segment
        rw [spread.members]
        exact sound.once segment
      joined := by
        intro segment other
        obtain ⟨greeted, closed, same⟩ := fields other
        rw [spread.members, greeted, closed, same]
        exact sound.joined segment other
      gone := by
        intro other closed
        by_cases same : other = member
        · rw [same, spread.closed] at closed
          exact absurd (open_.symm.trans closed) Bool.false_ne_true
        · rw [spread.others other same] at closed ⊢
          exact sound.gone other closed
      fresh := by
        intro other behind
        rw [spread.opened] at behind
        have none_ := sound.fresh other behind
        rw [spread.others other (by omega), none_, if_neg fun both => ?_, EthSocket.hear_nil]
        exact Bool.false_ne_true both.2.symm }

/-- The bytes of a read are put into the buffer of the connection, or a hello is taken from it. -/
structure Prepares (n p : EthGateway) (member : Nat) : Prop where
  emulator : p.emulator = n.emulator
  opened : p.opened = n.opened
  sentUp : p.sentUp = n.sentUp
  others : ∀ other, other ≠ member → p.sockets other = n.sockets other
  written : (p.sockets member).written = (n.sockets member).written
  repeated : (p.sockets member).repeated = (n.sockets member).repeated
  segment : (p.sockets member).segment = (n.sockets member).segment

theorem Spread.delivered {p : EthGateway} {frames : List Frame} (prepares : Prepares n p member)
    (sound : SoundBut p member) (spread : Spread p t member frames) :
    Delivered n t (n.sockets member).segment (some member) frames where
  written := by
    intro other
    by_cases same : other = member
    · rw [same, if_neg fun both => both.1 rfl, List.append_nil, spread.written, prepares.written]
    · have hears := hears_iff sound (p.sockets member).segment other
      have alike : (some member ≠ some other ∧ n.Hears (n.sockets member).segment other) ↔
          other ∈ p.members (p.sockets member).segment ∧ (p.sockets other).destroyed = false := by
        rw [← hears, Hears, Hears, prepares.others other same, prepares.segment]
        exact ⟨And.right, fun here => ⟨fun own => same (Option.some.inj own).symm, here⟩⟩
      rw [if_congr alike rfl rfl, spread.others other same]
      change (p.sockets other).written ++ _ = _
      rw [prepares.others other same]
  repeated := by
    intro other
    by_cases same : other = member
    · rw [same, if_pos rfl, spread.repeated, prepares.repeated]
    · rw [if_neg fun own => same (Option.some.inj own).symm, List.append_nil,
        spread.others other same, prepares.others other same]
      rfl
  sentUp := by
    rw [spread.sentUp, prepares.sentUp, prepares.emulator, prepares.segment]
    exact congrArg (n.sentUp ++ ·) (if_congr ⟨fun here => ⟨rfl, here⟩, And.right⟩ rfl rfl)

/- Data. -/

/-- The bytes of a read. -/
def took (n : EthGateway) (member : Nat) (chunk : Message) : EthGateway :=
  n.onSocket member fun socket =>
    { socket with rx := socket.rx ++ chunk, received := socket.received ++ chunk }

/-- A connection that has sent its hello becomes a member. -/
def greets (n : EthGateway) (member : Nat) : EthGateway :=
  let segment := (n.sockets member).segment
  let n := n.onSocket member fun socket =>
    { socket with rx := socket.rx.drop rethHandshakeLen, greeted := true }
  (n.putMembers segment (addMember (n.members segment) member)).sendEthLink segment true

theorem onData_eq (n : EthGateway) (member : Nat) (chunk : Message) :
    n.onData member chunk =
      let p := n.took member chunk
      if (p.sockets member).greeted then repeatFrames member (p.sockets member).rx.length p
      else if (p.sockets member).rx.length < rethHandshakeLen then p
      else if (p.sockets member).rx.take 4 ≠ rethMagic then p.destroy member
      else repeatFrames member (p.sockets member).rx.length (p.greets member) := rfl

theorem took_prepares (n : EthGateway) (member : Nat) (chunk : Message) :
    Prepares n (n.took member chunk) member where
  emulator := rfl
  opened := rfl
  sentUp := rfl
  others := fun _ apart => onSocket_other _ _ apart
  written := by rw [took, onSocket_self]
  repeated := by rw [took, onSocket_self]
  segment := by rw [took, onSocket_self]

/-- A change of one connection that keeps its membership. -/
theorem SoundBut.onSocket (sound : SoundBut n member) (inside : member < n.opened)
    (change : EthSocket → EthSocket)
    (greeted : (change (n.sockets member)).greeted = (n.sockets member).greeted)
    (closed : (change (n.sockets member)).closed = (n.sockets member).closed)
    (segment : (change (n.sockets member)).segment = (n.sockets member).segment)
    (gone : (change (n.sockets member)).closed = true →
      (change (n.sockets member)).destroyed = true) :
    SoundBut (n.onSocket member change) member where
  framed := by
    intro other apart
    rw [onSocket_other _ _ apart]
    exact sound.framed other apart
  once := sound.once
  joined := by
    intro here other
    by_cases same : other = member
    · rw [same, onSocket_self, greeted, closed, segment]
      exact sound.joined here member
    · rw [onSocket_other _ _ same]
      exact sound.joined here other
  gone := by
    intro other ended
    by_cases same : other = member
    · rw [same, onSocket_self] at ended ⊢
      exact gone ended
    · rw [onSocket_other _ _ same] at ended ⊢
      exact sound.gone other ended
  fresh := by
    intro other behind
    have apart : other ≠ member := fun same => absurd (same ▸ behind) (Nat.not_le.mpr inside)
    rw [onSocket_other _ _ apart]
    exact sound.fresh other behind

theorem Framed.of_spread {frames : List Frame} {version : Byte} (spread : Spread n t member frames)
    (greeted : (n.sockets member).greeted = true)
    (stream : (n.sockets member).received = rethMagic ++ [version] ++
      (frameStream (n.sockets member).repeated ++ (n.sockets member).rx))
    (before : ∀ frame ∈ (n.sockets member).repeated, FrameFits rethMaxFrame frame)
    (taken : (n.sockets member).rx = frameStream frames ++ (t.sockets member).rx)
    (fits : ∀ frame ∈ frames, FrameFits rethMaxFrame frame)
    (cut : Cut rethMaxFrame (t.sockets member).rx)
    (bad : BadLength (t.sockets member).rx → (t.sockets member).destroyed = true) :
    Framed (t.sockets member) where
  fits := by
    intro frame here
    rw [spread.repeated] at here
    exact (List.mem_append.mp here).elim (before frame) (fits frame)
  waiting := fun waits => absurd (waits.symm.trans (spread.greeted.trans greeted)) Bool.false_ne_true
  wrong := fun waits => absurd (waits.symm.trans (spread.greeted.trans greeted)) Bool.false_ne_true
  stream := by
    intro _
    refine ⟨version, ?_⟩
    rw [spread.received, stream, spread.repeated, taken, frameStream_append,
      List.append_assoc (frameStream _)]
  cut := fun _ => cut
  bad := fun _ => bad

theorem Framed.of_waiting {socket : EthSocket} (waits : socket.greeted = false)
    (none_ : socket.repeated = []) (whole : socket.rx = socket.received)
    (wrong : rethHandshakeLen ≤ socket.received.length →
      socket.received.take 4 ≠ rethMagic ∧ socket.destroyed = true) : Framed socket where
  fits := by
    intro frame here
    rw [none_] at here
    exact absurd here List.not_mem_nil
  waiting := fun _ => ⟨none_, whole⟩
  wrong := fun _ => wrong
  stream := fun greeted => absurd (waits.symm.trans greeted) Bool.false_ne_true
  cut := fun greeted => absurd (waits.symm.trans greeted) Bool.false_ne_true
  bad := fun greeted => absurd (waits.symm.trans greeted) Bool.false_ne_true

/-- A stream that starts with the letters and is long enough has a version behind them. -/
theorem hello_split {rx : Message} (long : ¬ rx.length < rethHandshakeLen)
    (letters : rx.take 4 = rethMagic) :
    ∃ version, rx = rethMagic ++ [version] ++ rx.drop rethHandshakeLen := by
  have five : 4 < rx.length := Nat.le_of_not_lt long
  refine ⟨rx[4], ?_⟩
  rw [← letters, List.take_append_getElem five]
  exact (List.take_append_drop 5 rx).symm

/-- The link messages fit the members. -/
def ToldMembers (n : EthGateway) : Prop :=
  n.emulator = .connected → ∀ segment, n.linkTold segment = some true ↔ n.members segment ≠ []

theorem linkTold_iff (sound : SoundBut n member) : n.LinkTold ↔ n.ToldMembers :=
  forall_congr' fun _ => forall_congr' fun segment =>
    iff_congr Iff.rfl (present_iff sound segment)

theorem ToldMembers.same (told : n.ToldMembers) (same : SameGateway n t) : t.ToldMembers := by
  intro connected segment
  rw [same.linkTold, same.members]
  exact told (same.emulator.symm.trans connected) segment

theorem addMember_ne_nil (members : List Nat) (member : Nat) : addMember members member ≠ [] := by
  rw [addMember]
  split_ifs with here
  · exact List.ne_nil_of_mem here
  · exact List.append_ne_nil_of_right_ne_nil _ (List.cons_ne_nil _ _)

theorem mem_addMember {members : List Nat} :
    other ∈ addMember members member ↔ other ∈ members ∨ other = member := by
  rw [addMember]
  split_ifs with here
  · exact ⟨.inl, fun either => either.elim id fun same => same ▸ here⟩
  · rw [List.mem_append, List.mem_singleton]

theorem addMember_nodup {members : List Nat} (once : members.Nodup) :
    (addMember members member).Nodup := by
  rw [addMember]
  split_ifs with here
  · exact once
  · exact List.nodup_append.mpr ⟨once, List.nodup_singleton member, fun a before b own => by
      rw [List.mem_singleton.mp own]
      exact fun same => here (same ▸ before)⟩

theorem sendEthLink_same (n : EthGateway) (segment : Byte) (present : Bool) :
    (n.sendEthLink segment present).emulator = n.emulator ∧
      (n.sendEthLink segment present).opened = n.opened ∧
      (n.sendEthLink segment present).sentUp = n.sentUp ∧
      (n.sendEthLink segment present).sockets = n.sockets ∧
      (n.sendEthLink segment present).ethBindings = n.ethBindings := by
  rw [sendEthLink]
  split_ifs
  · exact ⟨rfl, rfl, rfl, rfl, rfl⟩
  · exact ⟨rfl, rfl, rfl, rfl, rfl⟩

theorem sendEthLink_members (n : EthGateway) (segment here : Byte) (present : Bool) :
    (n.sendEthLink segment present).members here = n.members here := by
  rw [members, members, (sendEthLink_same n segment present).2.2.2.2]

theorem putMembers_members (n : EthGateway) (segment here : Byte) (list : List Nat) :
    (n.putMembers segment list).members here =
      if here = segment then list else n.members here := by
  rw [members, putMembers]
  change (Function.update n.ethBindings segment (some list) here).getD [] = _
  rw [Function.update_apply]
  split_ifs
  · rfl
  · rfl

theorem greets_members (n : EthGateway) (member : Nat) (segment : Byte) :
    (n.greets member).members segment =
      if segment = (n.sockets member).segment then
        addMember (n.members (n.sockets member).segment) member
      else n.members segment := by
  rw [greets, sendEthLink_members, putMembers_members]
  rfl

theorem greets_sockets (n : EthGateway) (member : Nat) :
    (n.greets member).sockets = (n.onSocket member fun socket =>
      { socket with rx := socket.rx.drop rethHandshakeLen, greeted := true }).sockets := by
  rw [greets, (sendEthLink_same _ _ _).2.2.2.1]
  rfl

theorem greets_prepares (n : EthGateway) (member : Nat) : Prepares n (n.greets member) member where
  emulator := by
    rw [greets, (sendEthLink_same _ _ _).1]
    rfl
  opened := by
    rw [greets, (sendEthLink_same _ _ _).2.1]
    rfl
  sentUp := by
    rw [greets, (sendEthLink_same _ _ _).2.2.1]
    rfl
  others := by
    intro other apart
    rw [greets_sockets, onSocket_other _ _ apart]
  written := by rw [greets_sockets, onSocket_self]
  repeated := by rw [greets_sockets, onSocket_self]
  segment := by rw [greets_sockets, onSocket_self]

theorem greets_soundBut (sound : SoundBut n member) (inside : member < n.opened)
    (open_ : (n.sockets member).closed = false) : SoundBut (n.greets member) member where
  framed := by
    intro other apart
    rw [greets_sockets, onSocket_other _ _ apart]
    exact sound.framed other apart
  once := by
    intro segment
    rw [greets_members]
    split_ifs
    · exact addMember_nodup (sound.once _)
    · exact sound.once segment
  joined := by
    intro segment other
    rw [greets_members, greets_sockets]
    by_cases same : other = member
    · rw [same, onSocket_self]
      split_ifs with here
      · exact iff_of_true (mem_addMember.mpr (.inr rfl)) ⟨rfl, open_, here.symm⟩
      · refine iff_of_false (fun member_ => ?_) fun all => here all.2.2.symm
        exact here ((sound.joined segment member).mp member_).2.2.symm
    · rw [onSocket_other _ _ same]
      split_ifs with here
      · rw [mem_addMember, or_iff_left same, here]
        exact sound.joined _ other
      · exact sound.joined segment other
  gone := by
    intro other ended
    rw [greets_sockets] at ended ⊢
    by_cases same : other = member
    · rw [same, onSocket_self] at ended
      exact absurd (open_.symm.trans ended) Bool.false_ne_true
    · rw [onSocket_other _ _ same] at ended ⊢
      exact sound.gone other ended
  fresh := by
    intro other behind
    rw [(greets_prepares n member).opened] at behind
    rw [greets_sockets, onSocket_other _ _ (by omega)]
    exact sound.fresh other behind

theorem greets_told (told : n.ToldMembers) (member : Nat) : (n.greets member).ToldMembers := by
  intro connected segment
  rw [greets_members]
  have link : (n.greets member).linkTold =
      Function.update n.linkTold (n.sockets member).segment (some true) := by
    have same := (greets_prepares n member).emulator
    have here : n.emulator = .connected := same.symm.trans connected
    rw [greets, sendEthLink]
    exact congrArg EthGateway.linkTold (if_pos here)
  rw [link, Function.update_apply]
  split_ifs
  · exact iff_of_true rfl (addMember_ne_nil _ _)
  · exact told ((greets_prepares n member).emulator.symm.trans connected) segment

theorem Prepares.trans {p : EthGateway} (first : Prepares n p member)
    (second : Prepares p t member) : Prepares n t member where
  emulator := second.emulator.trans first.emulator
  opened := second.opened.trans first.opened
  sentUp := second.sentUp.trans first.sentUp
  others := fun other apart => (second.others other apart).trans (first.others other apart)
  written := second.written.trans first.written
  repeated := second.repeated.trans first.repeated
  segment := second.segment.trans first.segment

/-- What a read does. -/
theorem onData_spec (sound : Sound n member) (alive : (n.sockets member).destroyed = false)
    (chunk : Message) :
    (∃ frames, Delivered n (n.onData member chunk) (n.sockets member).segment (some member)
        frames) ∧
      Sound (n.onData member chunk) member ∧
      (n.ToldMembers → (n.onData member chunk).ToldMembers) := by
  have inside : member < n.opened := Nat.lt_of_not_le fun behind => by
    rw [sound.fresh member behind] at alive
    exact Bool.false_ne_true alive.symm
  have open_ : (n.sockets member).closed = false := Bool.eq_false_iff.mpr fun closed =>
    Bool.false_ne_true (alive.symm.trans (sound.gone member closed))
  have prepares := took_prepares n member chunk
  have own : (n.took member chunk).sockets member =
      { n.sockets member with
        rx := (n.sockets member).rx ++ chunk
        received := (n.sockets member).received ++ chunk } := by
    rw [took, onSocket_self]
  have tookSound : SoundBut (n.took member chunk) member :=
    sound.toSoundBut.onSocket inside _ rfl rfl rfl (sound.gone member)
  have tookOpen : ((n.took member chunk).sockets member).closed = false := by rw [own]; exact open_
  rw [onData_eq]
  dsimp only
  by_cases greeted : (n.sockets member).greeted = true
  · obtain ⟨frames, spread, taken, fits, cut, bad⟩ := repeatFrames_spec _ (n.took member chunk) member
      le_rfl (tookSound.once _) (by rw [own]; exact alive)
    rw [if_pos (by rw [own]; exact greeted)]
    obtain ⟨version, stream⟩ := sound.own.stream greeted
    refine ⟨⟨frames, Spread.delivered prepares tookSound spread⟩,
      ⟨spread.soundBut tookSound inside tookOpen, ?_⟩, fun told => ?_⟩
    · refine @Framed.of_spread _ _ _ _ version spread (by rw [own]; exact greeted) ?_ ?_ taken fits
        cut bad
      · rw [own]
        dsimp only
        rw [stream, List.append_assoc, List.append_assoc (frameStream _)]
      · rw [own]
        exact sound.own.fits
    · exact told.same ⟨spread.emulator, spread.opened, spread.ethBindings, spread.linkTold⟩
  · have waits : (n.sockets member).greeted = false := Bool.eq_false_iff.mpr greeted
    obtain ⟨none_, buffer⟩ := sound.own.waiting waits
    have whole : ((n.took member chunk).sockets member).rx =
        ((n.took member chunk).sockets member).received := by
      rw [own]
      exact congrArg (· ++ chunk) buffer
    have tookWaits : ((n.took member chunk).sockets member).greeted = false := by
      rw [own]
      exact waits
    have tookNone : ((n.took member chunk).sockets member).repeated = [] := by
      rw [own]
      exact none_
    have tookAlive : ((n.took member chunk).sockets member).destroyed = false := by
      rw [own]
      exact alive
    rw [if_neg fun here => Bool.false_ne_true (tookWaits.symm.trans here)]
    have tookSame : SameGateway n (n.took member chunk) := ⟨rfl, rfl, rfl, rfl⟩
    generalize n.took member chunk = p at *
    have inside_ : member < p.opened := by rw [tookSame.opened]; exact inside
    by_cases short : (p.sockets member).rx.length < rethHandshakeLen
    · rw [if_pos short]
      refine ⟨⟨[], Spread.delivered prepares tookSound (.none p member)⟩, ⟨tookSound, ?_⟩, fun told => ?_⟩
      · refine .of_waiting tookWaits tookNone whole fun long => ?_
        rw [← whole] at long
        exact absurd long (Nat.not_le.mpr short)
      · exact told.same tookSame
    · rw [if_neg short]
      by_cases wrong : (p.sockets member).rx.take 4 ≠ rethMagic
      · rw [if_pos wrong]
        have destroyed : (p.destroy member).sockets member =
            { p.sockets member with destroyed := true } := by
          rw [destroy, onSocket_self]
        refine ⟨⟨[], Spread.delivered prepares tookSound (.destroy p member)⟩,
          ⟨tookSound.onSocket inside_ _ rfl rfl rfl fun _ => rfl, ?_⟩,
          fun told => told.same (tookSame.trans ⟨rfl, rfl, rfl, rfl⟩)⟩
        rw [destroyed]
        refine .of_waiting tookWaits tookNone whole fun _ => ⟨?_, rfl⟩
        exact fun letters => wrong (whole ▸ letters)
      · rw [if_neg wrong]
        obtain ⟨version, split⟩ := hello_split short (not_not.mp wrong)
        have greets_ : (p.greets member).sockets member =
            { p.sockets member with
              rx := (p.sockets member).rx.drop rethHandshakeLen
              greeted := true } := by
          rw [greets_sockets, onSocket_self]
        have joins := greets_soundBut tookSound inside_ tookOpen
        obtain ⟨frames, spread, taken, fits, cut, bad⟩ := repeatFrames_spec
          (p.sockets member).rx.length (p.greets member) member
          (by rw [greets_, List.length_drop]; exact Nat.sub_le _ _) (joins.once _)
          (by rw [greets_]; exact tookAlive)
        refine ⟨⟨frames, Spread.delivered (prepares.trans (greets_prepares p member)) joins spread⟩,
          ⟨spread.soundBut joins ?_ (by rw [greets_]; exact tookOpen), ?_⟩, fun told => ?_⟩
        · rw [(greets_prepares p member).opened]
          exact inside_
        · refine @Framed.of_spread _ _ _ _ version spread (by rw [greets_]) ?_ ?_ taken fits cut bad
          · rw [greets_]
            dsimp only
            rw [tookNone, ← whole]
            exact split
          · rw [greets_]
            dsimp only
            rw [tookNone]
            exact fun _ here => absurd here List.not_mem_nil
        · exact (greets_told (told.same tookSame) member).same spread.toSameGateway

/- The other events. -/

theorem Delivered.nothing (segment : Byte)
    (written : ∀ member, (t.sockets member).written = (n.sockets member).written)
    (repeated : ∀ member, (t.sockets member).repeated = (n.sockets member).repeated)
    (sentUp : t.sentUp = n.sentUp) : Delivered n t segment none [] where
  written := by
    intro member
    rw [frameStream, List.flatMap_nil, ite_self, List.append_nil, written]
  repeated := by
    intro member
    rw [ite_self, List.append_nil, repeated]
  sentUp := by rw [List.map_nil, ite_self, List.append_nil, sentUp]

/-- A change that leaves all connections and members as they are. -/
theorem Sound.same (sound : Sound n member) (sockets : t.sockets = n.sockets)
    (ethBindings : t.ethBindings = n.ethBindings) (opened : t.opened = n.opened) :
    Sound t member where
  framed := by
    rw [sockets]
    exact sound.framed
  once := by
    intro segment
    rw [members, ethBindings]
    exact sound.once segment
  joined := by
    intro segment other
    rw [members, ethBindings, sockets]
    exact sound.joined segment other
  gone := by
    rw [sockets]
    exact sound.gone
  fresh := by
    rw [sockets, opened]
    exact sound.fresh
  own := by
    rw [sockets]
    exact sound.own

theorem connect_sound (sound : Sound n member) (segment : Byte) :
    Sound (n.connect segment) n.opened where
  framed := by
    intro other apart
    rw [show (n.connect segment).sockets other = n.sockets other from
      Function.update_of_ne apart _ _]
    exact sound.framed' other
  once := sound.once
  joined := by
    intro here other
    by_cases new : other = n.opened
    · subst new
      have before := sound.joined here n.opened
      rw [sound.fresh n.opened le_rfl] at before
      rw [show (n.connect segment).sockets n.opened = _ from Function.update_self _ _ _]
      refine iff_of_false (fun member_ => ?_) fun all => Bool.false_ne_true all.1
      exact Bool.false_ne_true (before.mp member_).1
    · rw [show (n.connect segment).sockets other = n.sockets other from
        Function.update_of_ne new _ _]
      exact sound.joined here other
  gone := by
    intro other
    by_cases new : other = n.opened
    · rw [new, show (n.connect segment).sockets n.opened = _ from Function.update_self _ _ _]
      exact fun closed => absurd closed Bool.false_ne_true
    · rw [show (n.connect segment).sockets other = n.sockets other from
        Function.update_of_ne new _ _]
      exact sound.gone other
  fresh := by
    intro other behind
    have later : n.opened + 1 ≤ other := behind
    rw [show (n.connect segment).sockets other = n.sockets other from
      Function.update_of_ne (by omega) _ _]
    exact sound.fresh other (by omega)
  own := by
    rw [show (n.connect segment).sockets n.opened = _ from Function.update_self _ _ _]
    exact .of_waiting rfl rfl rfl fun long => absurd (show 5 ≤ 0 from long) (by decide)

/-- A name that was never used has no connection to destroy. -/
theorem destroy_fresh (fresh : n.sockets member = noSocket) : n.destroy member = n := by
  have same : Function.update n.sockets member
      { n.sockets member with destroyed := true } = n.sockets := by
    rw [fresh]
    exact (congrArg (Function.update n.sockets member) fresh.symm).trans
      (Function.update_eq_self member n.sockets)
  rw [destroy, onSocket, same]

theorem destroy_sound (sound : Sound n member) : Sound (n.destroy member) member := by
  by_cases inside : member < n.opened
  · have own : (n.destroy member).sockets member =
        { n.sockets member with destroyed := true } := by
      rw [destroy, onSocket_self]
    refine ⟨sound.toSoundBut.onSocket inside _ rfl rfl rfl fun _ => rfl, ?_⟩
    rw [own]
    exact ⟨sound.own.fits, sound.own.waiting, fun waits long => ⟨(sound.own.wrong waits long).1, rfl⟩,
      sound.own.stream, sound.own.cut, fun _ _ => rfl⟩
  · rw [destroy_fresh (sound.fresh member (Nat.le_of_not_lt inside))]
    exact sound

theorem leave_sockets (n : EthGateway) (segment : Byte) (member : Nat)
    (list : Option (List Nat)) :
    (n.leave segment member list).sockets = n.sockets ∧
      (n.leave segment member list).opened = n.opened ∧
      (n.leave segment member list).emulator = n.emulator ∧
      (n.leave segment member list).sentUp = n.sentUp := by
  cases list with
  | none => exact ⟨rfl, rfl, rfl, rfl⟩
  | some members =>
    obtain ⟨emulator, opened, sentUp, sockets, -⟩ :=
      sendEthLink_same (n.putMembers segment (members.erase member)) segment false
    rw [leave]
    split_ifs
    · exact ⟨sockets, opened, emulator, sentUp⟩
    · exact ⟨rfl, rfl, rfl, rfl⟩

theorem leave_members (n : EthGateway) (segment here : Byte) (member : Nat) :
    (n.leave segment member (n.ethBindings segment)).members here =
      if here = segment then (n.members segment).erase member else n.members here := by
  cases bound : n.ethBindings segment with
  | none =>
    rw [leave]
    split_ifs with same
    · have empty : n.members segment = [] := by
        rw [members, bound]
        rfl
      rw [same, empty]
      rfl
    · rfl
  | some list =>
    have held : n.members segment = list := by
      rw [members, bound]
      rfl
    have put : (n.putMembers segment (list.erase member)).members here =
        if here = segment then (n.members segment).erase member else n.members here := by
      rw [putMembers_members, held]
    rw [← put, leave]
    split_ifs
    · exact sendEthLink_members _ _ _ _
    · rfl

theorem closes_own (n : EthGateway) (member : Nat) :
    (n.closes member).sockets member =
      { n.sockets member with destroyed := true, closed := true } := by
  rw [closes, onSocket_self]

theorem onClose_members (n : EthGateway) (member : Nat) (segment : Byte) :
    (n.onClose member).members segment =
      if segment = (n.sockets member).segment then
        (n.members (n.sockets member).segment).erase member
      else n.members segment :=
  leave_members (n.closes member) (n.sockets member).segment segment member

theorem onClose_sound (sound : Sound n member) (open_ : (n.sockets member).closed = false) :
    Sound (n.onClose member) member where
  framed := by
    intro other apart
    rw [onClose, (leave_sockets _ _ _ _).1, closes, onSocket_other _ _ apart]
    exact sound.framed other apart
  once := by
    intro segment
    rw [onClose_members]
    split_ifs
    · exact (sound.once _).erase member
    · exact sound.once segment
  joined := by
    intro segment other
    rw [onClose_members, onClose, (leave_sockets _ _ _ _).1]
    by_cases same : other = member
    · rw [same, closes_own]
      refine iff_of_false ?_ fun all => Bool.false_ne_true all.2.1.symm
      split_ifs with here
      · exact (sound.once _).not_mem_erase
      · exact fun inside => here ((sound.joined segment member).mp inside).2.2.symm
    · rw [closes, onSocket_other _ _ same]
      split_ifs with here
      · rw [(sound.once _).mem_erase_iff, and_iff_right same, here]
        exact sound.joined _ other
      · exact sound.joined segment other
  gone := by
    intro other ended
    rw [onClose, (leave_sockets _ _ _ _).1] at ended ⊢
    by_cases same : other = member
    · rw [same, closes_own]
    · rw [closes, onSocket_other _ _ same] at ended ⊢
      exact sound.gone other ended
  fresh := by
    intro other behind
    rw [onClose, (leave_sockets _ _ _ _).2.1] at behind
    have apart : other ≠ member := by
      rintro rfl
      rw [sound.fresh other behind] at open_
      exact Bool.false_ne_true open_.symm
    rw [onClose, (leave_sockets _ _ _ _).1, closes, onSocket_other _ _ apart]
    exact sound.fresh other behind
  own := by
    rw [onClose, (leave_sockets _ _ _ _).1, closes_own]
    exact ⟨sound.own.fits, sound.own.waiting, fun waits long => ⟨(sound.own.wrong waits long).1, rfl⟩,
      sound.own.stream, sound.own.cut, fun _ _ => rfl⟩

/-- A segment without members is reported, and one with members still counts as present. -/
theorem onClose_told (told : n.ToldMembers) (member : Nat) : (n.onClose member).ToldMembers := by
  intro connected segment
  have here : n.emulator = .connected := by
    rw [onClose, (leave_sockets _ _ _ _).2.2.1] at connected
    exact connected
  rw [onClose_members]
  have before := told here
  cases bound : n.ethBindings (n.sockets member).segment with
  | none =>
    have empty : n.members (n.sockets member).segment = [] := by
      rw [members, bound]
      rfl
    have same : (n.onClose member).linkTold = n.linkTold := by
      rw [onClose, bound]
      rfl
    rw [same]
    split_ifs with own
    · have told_ := before (n.sockets member).segment
      rw [empty] at told_
      rw [own, empty, List.erase_nil]
      exact told_
    · exact before segment
  | some list =>
    have held : n.members (n.sockets member).segment = list := by
      rw [members, bound]
      rfl
    rw [held]
    by_cases empty : list.erase member = []
    · have link : (n.onClose member).linkTold =
          Function.update n.linkTold (n.sockets member).segment (some false) := by
        rw [onClose, bound, leave]
        exact (congrArg EthGateway.linkTold (if_pos empty)).trans
          (congrArg EthGateway.linkTold (if_pos here))
      rw [link, Function.update_apply]
      split_ifs
      · exact iff_of_false (fun wrong => Bool.false_ne_true (Option.some.inj wrong))
          fun some_ => some_ empty
      · exact before segment
    · have same : (n.onClose member).linkTold = n.linkTold := by
        rw [onClose, bound, leave]
        exact (congrArg EthGateway.linkTold (if_neg empty)).trans rfl
      rw [same]
      split_ifs with own
      · refine iff_of_true ?_ empty
        rw [own]
        refine (before _).mpr fun none_ => empty ?_
        rw [← held, none_, List.erase_nil]
      · exact before segment

/-- More bytes are written to connections that were opened. -/
theorem Sound.heard (sound : Sound n member) (same : SameGateway n t)
    (each : ∀ other, ∃ bytes, t.sockets other = (n.sockets other).hear bytes ∧
      (n.sockets other = noSocket → bytes = [])) : Sound t member where
  framed := by
    intro other _
    obtain ⟨bytes, here, -⟩ := each other
    rw [here]
    exact (sound.framed' other).hear bytes
  once := by
    intro segment
    rw [same.members]
    exact sound.once segment
  joined := by
    intro segment other
    obtain ⟨bytes, here, -⟩ := each other
    rw [same.members, here]
    exact sound.joined segment other
  gone := by
    intro other
    obtain ⟨bytes, here, -⟩ := each other
    rw [here]
    exact sound.gone other
  fresh := by
    intro other behind
    rw [same.opened] at behind
    obtain ⟨bytes, here, nothing⟩ := each other
    rw [here, nothing (sound.fresh other behind), EthSocket.hear_nil]
    exact sound.fresh other behind
  own := by
    obtain ⟨bytes, here, -⟩ := each member
    rw [here]
    exact sound.own.hear bytes

theorem emulatorMessage_spec (sound : Sound n member) (buf : Message) :
    Delivered n (n.onEmulatorMessage buf) (buf.getD 1 0) none (frameOf buf) ∧
      Sound (n.onEmulatorMessage buf) member ∧ SameGateway n (n.onEmulatorMessage buf) := by
  have nothing (left : frameOf buf = []) : Delivered n n (buf.getD 1 0) none (frameOf buf) ∧
      Sound n member ∧ SameGateway n n := by
    rw [left]
    exact ⟨.nothing _ (fun _ => rfl) (fun _ => rfl) rfl, sound, .refl n⟩
  rw [onEmulatorMessage]
  split_ifs with kind
  · dsimp only
    split_ifs with right
    · have one : frameOf buf = [(buf.drop 4).take (joinLength (buf.getD 2 0) (buf.getD 3 0))] := by
        rw [frameOf]
        exact if_pos ⟨kind.2, right⟩
      obtain ⟨same, up, each⟩ := ethRepeat_spec n (buf.getD 1 0)
        ((buf.drop 4).take (joinLength (buf.getD 2 0) (buf.getD 3 0))) none (sound.once _)
      have hears (other : Nat) : (none ≠ some other ∧ n.Hears (buf.getD 1 0) other) ↔
          other ∈ n.members (buf.getD 1 0) ∧ none ≠ some other ∧
            (n.sockets other).destroyed = false := by
        rw [hears_iff sound.toSoundBut]
        exact ⟨fun all => ⟨all.2.1, all.1, all.2.2⟩, fun all => ⟨all.2.1, all.1, all.2.2⟩⟩
      rw [one]
      refine ⟨⟨fun other => ?_, fun other => ?_, ?_⟩, ?_, same⟩
      · rw [each other, if_congr (hears other) rfl rfl, frameStream, List.flatMap_cons,
          List.flatMap_nil, List.append_nil]
        rfl
      · rw [each other, if_neg (Option.some_ne_none other).symm, List.append_nil]
        rfl
      · rw [up]
        rfl
      · refine sound.heard same fun other => ⟨_, each other, fun none_ => if_neg fun all => ?_⟩
        rw [none_] at all
        exact Bool.false_ne_true all.2.2.symm
    · refine nothing ?_
      rw [frameOf]
      exact if_neg fun all => right all.2
  · refine nothing ?_
    rw [frameOf]
    refine if_neg fun all => kind ⟨?_, all.1⟩
    omega

/- Runs. -/

theorem Delivered.refl (n : EthGateway) (segment : Byte) : Delivered n n segment none [] :=
  .nothing segment (fun _ => rfl) (fun _ => rfl) rfl

/-- Nothing comes from a connection that is gone. -/
theorem Delivered.silent (n : EthGateway) (segment : Byte) (member : Nat) :
    Delivered n n segment (some member) [] where
  written := by
    intro other
    rw [frameStream, List.flatMap_nil, ite_self, List.append_nil]
  repeated := by
    intro other
    rw [ite_self, List.append_nil]
  sentUp := by rw [List.map_nil, ite_self, List.append_nil]

theorem destroy_delivered (n : EthGateway) (member : Nat) :
    Delivered n (n.destroy member) 0 none [] := by
  refine .nothing 0 (fun other => ?_) (fun other => ?_) rfl
  · by_cases same : other = member
    · rw [same, destroy, onSocket_self]
    · rw [destroy, onSocket_other _ _ same]
  · by_cases same : other = member
    · rw [same, destroy, onSocket_self]
    · rw [destroy, onSocket_other _ _ same]

theorem onClose_delivered (n : EthGateway) (member : Nat) :
    Delivered n (n.onClose member) 0 none [] := by
  obtain ⟨sockets, -, -, sentUp⟩ := leave_sockets (n.closes member) (n.sockets member).segment member
    (n.ethBindings (n.sockets member).segment)
  refine .nothing 0 (fun other => ?_) (fun other => ?_) sentUp
  · rw [onClose, sockets]
    by_cases same : other = member
    · rw [same, closes_own]
    · rw [closes, onSocket_other _ _ same]
  · rw [onClose, sockets]
    by_cases same : other = member
    · rw [same, closes_own]
    · rw [closes, onSocket_other _ _ same]

/-- What one event does. -/
theorem step_spec (sound : Sound n 0) (event : EthEvent) :
    Sound (n.step event) 0 ∧ n.Repeats event := by
  cases event with
  | connect segment =>
    refine ⟨(connect_sound sound segment).move 0, ?_, fun other apart => ?_, rfl⟩
    · rw [show (n.step (.connect segment)).sockets n.opened = _ from Function.update_self _ _ _]
    · exact Function.update_of_ne apart _ _
  | data member chunk =>
    rw [Repeats, step]
    split_ifs with gone
    · exact ⟨sound, [], .silent n _ member⟩
    · have spec := onData_spec (sound.move member) (Bool.eq_false_iff.mpr gone) chunk
      exact ⟨spec.2.1.move 0, spec.1⟩
  | ended member => exact ⟨(destroy_sound (sound.move member)).move 0, destroy_delivered n member⟩
  | close member =>
    change Sound (n.step (.close member)) 0 ∧ Delivered n (n.step (.close member)) 0 none []
    rw [step]
    split_ifs with closed
    · exact ⟨sound, .refl n 0⟩
    · exact ⟨(onClose_sound (sound.move member) (Bool.eq_false_iff.mpr closed)).move 0,
        onClose_delivered n member⟩
  | emulatorConnect =>
    change Sound (n.step .emulatorConnect) 0 ∧ Delivered n (n.step .emulatorConnect) 0 none []
    rw [step]
    split_ifs
    · exact ⟨sound.same rfl rfl rfl, .nothing 0 (fun _ => rfl) (fun _ => rfl) rfl⟩
    · exact ⟨sound, .refl n 0⟩
  | emulatorClosing =>
    change Sound (n.step .emulatorClosing) 0 ∧ Delivered n (n.step .emulatorClosing) 0 none []
    rw [step]
    split_ifs
    · exact ⟨sound.same rfl rfl rfl, .nothing 0 (fun _ => rfl) (fun _ => rfl) rfl⟩
    · exact ⟨sound, .refl n 0⟩
  | emulatorClose =>
    change Sound (n.step .emulatorClose) 0 ∧ Delivered n (n.step .emulatorClose) 0 none []
    exact ⟨sound.same rfl rfl rfl, .nothing 0 (fun _ => rfl) (fun _ => rfl) rfl⟩
  | emulatorMessage buf =>
    rw [Repeats, step]
    split_ifs
    · exact ⟨sound, .refl n _⟩
    · have spec := emulatorMessage_spec sound buf
      exact ⟨spec.2.1, spec.1⟩

/-- One event keeps the link messages right exactly where no emulator comes too late. -/
theorem step_told (sound : Sound n 0) (told : n.LinkTold) (event : EthEvent) :
    (n.step event).LinkTold ↔ n.FirstComes event := by
  have before := (linkTold_iff sound.toSoundBut).mp told
  have after := linkTold_iff (step_spec sound event).1.toSoundBut
  cases event with
  | connect segment =>
    exact iff_of_true (after.mpr before) trivial
  | data member chunk =>
    refine iff_of_true (after.mpr ?_) trivial
    rw [step]
    split_ifs with gone
    · exact before
    · exact (onData_spec (sound.move member) (Bool.eq_false_iff.mpr gone) chunk).2.2 before
  | ended member => exact iff_of_true (after.mpr before) trivial
  | close member =>
    refine iff_of_true (after.mpr ?_) trivial
    rw [step]
    split_ifs
    · exact before
    · exact onClose_told before member
  | emulatorConnect =>
    rw [after]
    by_cases absent : n.emulator = .absent
    · rw [step, if_pos absent, FirstComes]
      have none_ (segment : Byte) := present_iff sound.toSoundBut segment
      constructor
      · intro right _ segment present
        exact absurd ((right rfl segment).mpr ((none_ segment).mp present))
          (Option.some_ne_none true).symm
      · intro first _ segment
        refine iff_of_false (Option.some_ne_none true).symm fun some_ => ?_
        exact first absent segment ((none_ segment).mpr some_)
    · rw [step, if_neg absent]
      exact iff_of_true before fun here => absurd here absent
  | emulatorClosing =>
    refine iff_of_true (after.mpr ?_) trivial
    rw [step]
    split_ifs
    · exact fun connected => EmulatorWs.noConfusion connected
    · exact before
  | emulatorClose =>
    exact iff_of_true (after.mpr fun connected => EmulatorWs.noConfusion connected) trivial
  | emulatorMessage buf =>
    refine iff_of_true (after.mpr ?_) trivial
    rw [step]
    split_ifs
    · exact before
    · exact before.same (emulatorMessage_spec sound buf).2.2

theorem start_sound : Sound start 0 where
  framed := fun _ _ => .of_waiting rfl rfl rfl fun long => absurd (show 5 ≤ 0 from long) (by decide)
  once := fun _ => List.nodup_nil
  joined := fun _ _ => iff_of_false List.not_mem_nil fun all => Bool.false_ne_true all.1
  gone := fun _ _ => rfl
  fresh := fun _ _ => rfl
  own := .of_waiting rfl rfl rfl fun long => absurd (show 5 ≤ 0 from long) (by decide)

/-- Every stream is taken apart and repeated as its frames in every run, and the link messages are
right in a run exactly when no emulator connects while a segment has a member. -/
theorem segment_repeats_frames (events : List EthEvent) :
    EachState step (fun n => ∀ member, Framed (n.sockets member)) start events ∧
      EachStep step Repeats start events ∧
      (EachState step LinkTold start events ↔ EachStep step FirstComes start events) := by
  have keeps : ∀ n event, Sound n 0 → Sound (n.step event) 0 :=
    fun _ event sound => (step_spec sound event).1
  have repeats : ∀ n event, Sound n 0 → n.Repeats event :=
    fun _ event sound => (step_spec sound event).2
  have told : ∀ n event, Sound n 0 → n.LinkTold → ((n.step event).LinkTold ↔ n.FirstComes event) :=
    fun _ event sound told => step_told sound told event
  refine ⟨?_, eachStep_of_keeps keeps repeats start_sound events,
    eachState_iff_eachStep keeps told start_sound ?_ events⟩
  · exact (eachState_of_keeps keeps start_sound events).weaken fun _ sound => sound.framed'
  · exact fun connected => EmulatorWs.noConfusion connected

/-- An emulator that comes after a member is not told of it. -/
theorem late_emulator_not_told :
    ¬ EachState step LinkTold start
      [.connect 0, .data 0 (rethMagic ++ [rethVersionMember]), .emulatorConnect] := by
  intro each
  have told := (each.final rfl 0).mpr ⟨0, rfl, rfl, rfl⟩
  exact absurd told (by decide)

end EthGateway

end Nd100x.Gateway
