import Nd100x.Ethernet.TcpFrames
import Nd100x.Gateway.EthRepeater

namespace Nd100x.Gateway

open Nd100x.Ethernet (TcpLink TcpStream TcpEvent framesOn tcpHello ethNetTcpMaxFrame writeFully)
open Nd100x.Library

/-- A frame of a segment and the connection that it came over. The emulator of the gateway has
none. -/
structure SegmentFrame where
  segment : Byte
  source : Option Nat
  frame : Frame

/-- What a connection hears of some frames. -/
def heardBy (member : Nat) (segment : Byte) (window : List SegmentFrame) : List Frame :=
  (window.filter fun entry => entry.segment = segment ∧ entry.source ≠ some member).map
    SegmentFrame.frame

/-- What came over a connection. -/
def sentBy (member : Nat) (log : List SegmentFrame) : List Frame :=
  (log.filter fun entry => entry.source = some member).map SegmentFrame.frame

/-- The frames that an event puts on the segments. -/
def EthGateway.puts (n : EthGateway) : EthEvent → List SegmentFrame
  | .data member chunk =>
    let repeated := ((n.step (.data member chunk)).sockets member).repeated
    (repeated.drop (n.sockets member).repeated.length).map
      (⟨(n.sockets member).segment, some member, ·⟩)
  | .emulatorMessage buf =>
    if n.emulator = .absent then [] else (EthGateway.frameOf buf).map (⟨buf.getD 1 0, none, ·⟩)
  | _ => []

/-- The cards of some emulators, linked to one gateway. A connection of the gateway may belong to a
connection of a card. The log records the frames of all segments. -/
structure EthNetwork (ι : Type) where
  links : ι → TcpLink
  gateway : EthGateway
  peer : Nat → Option (ι × Nat)
  log : List SegmentFrame

inductive NetworkEvent (ι : Type) where
  | dial (card : ι) (served : Bool) (segment : Byte)
  | link (card : ι) (event : TcpEvent)
  | toLink (member count : Nat)
  | toGateway (member count : Nat)
  | gateway (event : EthEvent)

/-- A step of a card that reads from a connection. -/
def isRead : TcpEvent → Bool
  | .receive _ => true
  | _ => false

namespace EthNetwork

variable {ι : Type} [DecidableEq ι]

def start : EthNetwork ι where
  links := fun _ => TcpLink.start
  gateway := EthGateway.start
  peer := fun _ => none
  log := []

def putLink (n : EthNetwork ι) (card : ι) (event : TcpEvent) : EthNetwork ι :=
  { n with links := Function.update n.links card ((n.links card).step event) }

def onGateway (n : EthNetwork ι) (event : EthEvent) : EthNetwork ι :=
  { n with gateway := n.gateway.step event, log := n.log ++ n.gateway.puts event }

/-- The bytes of a connection that belongs to no card come from anywhere. -/
def isForeign (n : EthNetwork ι) : EthEvent → Bool
  | .data member _ => n.peer member = none
  | _ => true

/-- What is written at one end of a connection is read at the other end, in any pieces. -/
def step (n : EthNetwork ι) : NetworkEvent ι → EthNetwork ι
  | .dial card served segment =>
    if (n.links card).phase = .idle then
      { (n.onGateway (.connect segment)).putLink card (.connect served) with
        peer := Function.update n.peer n.gateway.opened (some (card, (n.links card).opened)) }
    else n
  | .link card event => if isRead event then n else n.putLink card event
  | .toLink member count =>
    match n.peer member with
    | some (card, fd) =>
      if (n.links card).phase.serves = some fd then
        let sent := (n.gateway.sockets member).written
        let read := ((n.links card).streams fd).received.length
        n.putLink card (.receive ((sent.drop read).take count))
      else n
    | none => n
  | .toGateway member count =>
    match n.peer member with
    | some (card, fd) =>
      let sent := ((n.links card).streams fd).written
      let read := (n.gateway.sockets member).received.length
      n.onGateway (.data member ((sent.drop read).take count))
    | none => n
  | .gateway event => if n.isForeign event then n.onGateway event else n

/-- The frames that came from a card are the first ones that it wrote whole, and a card gets the
frames of the others of its segment from the log without a gap, in the order of the log. -/
def Broadcasts (n : EthNetwork ι) : Prop :=
  ∀ member card fd, n.peer member = some (card, fd) →
    sentBy member n.log <+: framesOn (n.links card).delivered fd ∧
      ((n.links card).delivered.map Prod.snd).Sublist (n.links card).sent ∧
      ∃ before window after, n.log = before ++ window ++ after ∧
        (n.gateway.Hears (n.gateway.sockets member).segment member → after = []) ∧
        framesOn (n.links card).arrived fd <+:
          heardBy member (n.gateway.sockets member).segment window

end EthNetwork

/- The cards. -/

/-- More is written over a connection, and some of the bytes at hand are read. -/
structure Further (s t : TcpStream) (chunk : Message) : Prop where
  written : s.written <+: t.written
  received : ∃ bytes, bytes <+: chunk ∧ t.received = s.received ++ bytes

/-- The bytes that an event gives to a connection. -/
def offered (n : TcpLink) : TcpEvent → Nat → Message
  | .receive chunk, fd => if n.phase.serves = some fd then chunk else []
  | _, _ => []

section Cards

variable {n : TcpLink} {chunk : Message} {fd other : Nat}

theorem Further.refl (s : TcpStream) : Further s s chunk :=
  ⟨List.prefix_rfl, [], List.nil_prefix, (List.append_nil _).symm⟩

theorem onStream_further {change : TcpStream → TcpStream} {given : Nat → Message}
    (own : Further (n.streams fd) (change (n.streams fd)) (given fd)) (other : Nat) :
    Further (n.streams other) ((n.onStream fd change).streams other) (given other) := by
  by_cases same : other = fd
  · rw [same, TcpLink.onStream_here]
    exact own
  · rw [TcpLink.onStream_other n same]
    exact .refl _

theorem wrote_further (bytes : Message) :
    Further (n.streams other) ((n.wrote fd bytes).streams other) [] :=
  @onStream_further n fd _ (fun _ => [])
    ⟨List.prefix_append _ _, [], List.nil_prefix, (List.append_nil _).symm⟩ other

theorem breakOff_further (bytes : Message) :
    Further (n.streams other) ((n.breakOff fd bytes).streams other) [] :=
  @onStream_further n fd _ (fun _ => [])
    ⟨List.prefix_rfl, [], List.nil_prefix, (List.append_nil _).symm⟩ other

theorem note_further (serves : n.phase.serves = some fd) {bytes : Message} (taken : bytes <+: chunk)
    (other : Nat) : Further (n.streams other) ((n.note fd bytes).streams other)
      (offered n (.receive chunk) other) := by
  refine onStream_further ⟨List.prefix_rfl, bytes, ?_, rfl⟩ other
  rw [offered, if_pos serves]
  exact taken

theorem Further.trans {s t u : TcpStream} (first : Further s t []) (second : Further t u chunk) :
    Further s u chunk where
  written := first.written.trans second.written
  received := by
    obtain ⟨none_, nothing, read⟩ := first.received
    obtain ⟨bytes, some_, more⟩ := second.received
    rw [List.prefix_nil.mp nothing, List.append_nil] at read
    exact ⟨bytes, some_, more.trans (congrArg (· ++ bytes) read)⟩

/-- What one step of a card does. -/
structure Goes (n t : TcpLink) (given : Nat → Message) : Prop where
  opened : n.opened ≤ t.opened
  streams : ∀ fd, Further (n.streams fd) (t.streams fd) (given fd)
  delivered : t.delivered = n.delivered ∨
    ∃ fd frame, n.sender = .checked frame ∧ t.delivered = n.delivered ++ [(fd, frame)]

theorem goes_of_streams {t : TcpLink} {given : Nat → Message} (streams : t.streams = n.streams)
    (opened : n.opened ≤ t.opened) (delivered : t.delivered = n.delivered) : Goes n t given :=
  ⟨opened, fun _ => streams ▸ .refl _, .inl delivered⟩

theorem receive_goes (chunk : Message) :
    Goes n (n.receive chunk) (offered n (.receive chunk)) := by
  rw [TcpLink.receive]
  cases phase : n.phase with
  | awaitingHello fd got =>
    have serves : n.phase.serves = some fd := by rw [phase]; rfl
    dsimp only
    split_ifs
    · exact goes_of_streams rfl le_rfl rfl
    all_goals exact ⟨le_rfl, note_further serves (List.take_prefix _ _), .inl rfl⟩
  | readingLength fd got =>
    have serves : n.phase.serves = some fd := by rw [phase]; rfl
    dsimp only
    split_ifs
    · exact goes_of_streams rfl le_rfl rfl
    all_goals exact ⟨le_rfl, note_further serves (List.take_prefix _ _), .inl rfl⟩
  | readingFrame fd length got =>
    have serves : n.phase.serves = some fd := by rw [phase]; rfl
    dsimp only
    split_ifs
    · exact goes_of_streams rfl le_rfl rfl
    all_goals exact ⟨le_rfl, note_further serves (List.take_prefix _ _), .inl rfl⟩
  | _ => exact goes_of_streams rfl le_rfl rfl

theorem step_goes (n : TcpLink) (event : TcpEvent) : Goes n (n.step event) (offered n event) := by
  cases event with
  | connect served =>
    change Goes n (n.connect served) _
    rw [TcpLink.connect]
    cases n.phase with
    | idle => exact goes_of_streams rfl (Nat.le_succ _) rfl
    | _ => exact goes_of_streams rfl le_rfl rfl
  | greet results =>
    change Goes n (n.greet results) _
    rw [TcpLink.greet]
    cases n.phase with
    | greeting fd => exact ⟨le_rfl, fun other => wrote_further _, .inl rfl⟩
    | _ => exact goes_of_streams rfl le_rfl rfl
  | receive chunk => exact receive_goes chunk
  | linkStep =>
    change Goes n n.linkStep _
    rw [TcpLink.linkStep]
    cases n.phase <;> exact goes_of_streams rfl le_rfl rfl
  | send frame =>
    obtain ⟨streams, -, -, opened, delivered, -⟩ := TcpLink.send_same n frame
    exact goes_of_streams streams opened.ge delivered
  | sendLocked results =>
    change Goes n (n.sendLocked results) _
    rw [TcpLink.sendLocked]
    cases sender : n.sender with
    | checked frame =>
      cases n.conn with
      | none => exact goes_of_streams rfl le_rfl rfl
      | some fd =>
        dsimp only
        split_ifs
        · exact ⟨le_rfl, fun other => wrote_further _, .inr ⟨fd, frame, sender, rfl⟩⟩
        · exact ⟨le_rfl, fun other => (wrote_further _).trans (breakOff_further _), .inl rfl⟩
    | _ => exact goes_of_streams rfl le_rfl rfl
  | clearActive =>
    change Goes n n.clearActive _
    rw [TcpLink.clearActive]
    cases n.sender <;> exact goes_of_streams rfl le_rfl rfl
  | take =>
    change Goes n n.take _
    rw [TcpLink.take]
    cases n.ring <;> exact goes_of_streams rfl le_rfl rfl

/-- What holds of a card between its steps. -/
structure Carrying (n : TcpLink) : Prop where
  between : n.Between
  fits : ∀ entry ∈ n.delivered, FrameFits ethNetTcpMaxFrame entry.2

theorem step_carrying (inv : Carrying n) (event : TcpEvent) : Carrying (n.step event) := by
  refine ⟨TcpLink.step_between event inv.between, ?_⟩
  rcases (step_goes n event).delivered with same | ⟨fd, frame, checked, more⟩
  · rw [same]
    exact inv.fits
  · rw [more]
    intro entry here
    rcases List.mem_append.mp here with old | new
    · exact inv.fits entry old
    · rw [List.mem_singleton.mp new]
      exact inv.between.order.fits frame checked

end Cards

/- The gateway. -/

/-- A connection of the gateway later on, with more bytes read. -/
structure Later (s t : EthSocket) (bytes : Message) : Prop where
  segment : t.segment = s.segment
  greeted : s.greeted = true → t.greeted = true
  destroyed : s.destroyed = true → t.destroyed = true
  received : t.received = s.received ++ bytes

theorem Later.refl (s : EthSocket) : Later s s [] := ⟨rfl, id, id, (List.append_nil _).symm⟩

theorem Later.trans {s t u : EthSocket} {bytes : Message} (first : Later s t bytes)
    (second : Later t u []) : Later s u bytes where
  segment := second.segment.trans first.segment
  greeted := second.greeted ∘ first.greeted
  destroyed := second.destroyed ∘ first.destroyed
  received := by rw [second.received, first.received, List.append_nil]

/-- The bytes that an event gives to a connection of the gateway. -/
def EthGateway.takes (n : EthGateway) : EthEvent → Nat → Message
  | .data member chunk, other =>
    if other = member ∧ (n.sockets member).destroyed = false then chunk else []
  | _, _ => []

namespace EthGateway

variable {n t : EthGateway} {member other : Nat}

theorem onSocket_later {change : EthSocket → EthSocket} {bytes : Message}
    (own : Later (n.sockets member) (change (n.sockets member)) bytes) (other : Nat) :
    Later (n.sockets other) ((n.onSocket member change).sockets other)
      (if other = member then bytes else []) := by
  by_cases same : other = member
  · rw [if_pos same, same, onSocket_self]
    exact own
  · rw [if_neg same, onSocket_other _ _ same]
    exact .refl _

theorem onSocket_unread {change : EthSocket → EthSocket}
    (own : Later (n.sockets member) (change (n.sockets member)) []) (other : Nat) :
    Later (n.sockets other) ((n.onSocket member change).sockets other) [] := by
  have later := onSocket_later own other
  rwa [ite_self] at later

theorem hear_later (s : EthSocket) (bytes : Message) : Later s (s.hear bytes) [] :=
  ⟨rfl, id, id, (List.append_nil _).symm⟩

theorem destroy_later (other : Nat) :
    Later (n.sockets other) ((n.destroy member).sockets other) [] :=
  onSocket_unread ⟨rfl, id, fun _ => rfl, (List.append_nil _).symm⟩ other

theorem writeAll_later (members : List Nat) (source : Option Nat) (bytes : Message)
    (n : EthGateway) :
    Later (n.sockets other) ((n.writeAll members source bytes).sockets other) [] := by
  induction members generalizing n with
  | nil => exact .refl _
  | cons member rest ih =>
    rw [writeAll, List.foldl_cons]
    refine Later.trans ?_ (ih _)
    split_ifs
    · exact .refl _
    · rw [write_sockets]
      exact hear_later _ _

theorem ethRepeat_later (segment : Byte) (frame : Frame) (source : Option Nat) (n : EthGateway) :
    Later (n.sockets other) ((n.ethRepeat segment frame source).sockets other) [] := by
  have all := @writeAll_later other (n.members segment) source (framed frame) n
  simp only [ethRepeat]
  split_ifs
  · rw [sendEthRxFrame]
    split_ifs <;> exact all
  · exact all

theorem repeatFrames_later (fuel : Nat) (n : EthGateway) :
    Later (n.sockets other) ((repeatFrames member fuel n).sockets other) [] := by
  induction fuel generalizing n with
  | zero => exact .refl _
  | succ fuel ih =>
    simp only [repeatFrames]
    split_ifs
    · exact .refl _
    · exact destroy_later other
    · exact .refl _
    · refine Later.trans ?_ (ih _)
      refine Later.trans ?_ (ethRepeat_later _ _ _ _)
      refine Later.trans (onSocket_unread ?_ other) (onSocket_unread ?_ other)
      · exact ⟨rfl, id, id, (List.append_nil _).symm⟩
      · exact ⟨rfl, id, id, (List.append_nil _).symm⟩

theorem onData_later (chunk : Message) (other : Nat) :
    Later (n.sockets other) ((n.onData member chunk).sockets other)
      (if other = member then chunk else []) := by
  have took : Later (n.sockets other) ((n.took member chunk).sockets other)
      (if other = member then chunk else []) := onSocket_later ⟨rfl, id, id, rfl⟩ other
  generalize (if other = member then chunk else []) = bytes at took ⊢
  rw [onData_eq]
  dsimp only
  split_ifs
  · exact took.trans (repeatFrames_later _ _)
  · exact took
  · exact took.trans (destroy_later other)
  · refine took.trans (Later.trans ?_ (repeatFrames_later _ _))
    rw [greets_sockets]
    exact onSocket_unread ⟨rfl, fun _ => rfl, id, (List.append_nil _).symm⟩ other

theorem onClose_later (other : Nat) :
    Later (n.sockets other) ((n.onClose member).sockets other) [] := by
  rw [onClose, (leave_sockets _ _ _ _).1]
  exact onSocket_unread ⟨rfl, id, fun _ => rfl, (List.append_nil _).symm⟩ other

/-- What an event does to a connection. -/
theorem step_later (event : EthEvent) (other : Nat) (opens : ∀ segment, event ≠ .connect segment) :
    Later (n.sockets other) ((n.step event).sockets other) (n.takes event other) := by
  cases event with
  | connect segment => exact absurd rfl (opens segment)
  | data member chunk =>
    rw [step, takes]
    split_ifs with gone both both
    · exact absurd (gone.symm.trans both.2).symm Bool.false_ne_true
    · exact .refl _
    · have later := @onData_later n member chunk other
      rwa [if_pos both.1] at later
    · have later := @onData_later n member chunk other
      rwa [if_neg fun same => both ⟨same, Bool.eq_false_iff.mpr gone⟩] at later
  | ended member => exact destroy_later other
  | close member =>
    rw [step]
    split_ifs
    · exact .refl _
    · exact onClose_later other
  | emulatorConnect =>
    rw [step]
    split_ifs <;> exact .refl _
  | emulatorClosing =>
    rw [step]
    split_ifs <;> exact .refl _
  | emulatorClose => exact .refl _
  | emulatorMessage buf =>
    rw [step]
    split_ifs
    · exact .refl _
    · simp only [onEmulatorMessage]
      split_ifs
      · exact ethRepeat_later _ _ _ _
      · exact .refl _
      · exact .refl _

/- The log. -/

/-- What was written to a connection are the frames of the others in one piece of the log, which
reaches to its end while the connection hears its segment. -/
def Heard (n : EthGateway) (log : List SegmentFrame) (member : Nat) : Prop :=
  ∃ before window after, log = before ++ window ++ after ∧
    (n.sockets member).written = rethMagic ++ [rethVersionMember] ++
      frameStream (heardBy member (n.sockets member).segment window) ∧
    ((n.sockets member).greeted = false → window = []) ∧
    (n.Hears (n.sockets member).segment member → after = [])

structure Logged (n : EthGateway) (log : List SegmentFrame) : Prop where
  fits : ∀ entry ∈ log, FrameFits rethMaxFrame entry.frame
  sent : ∀ member, sentBy member log = (n.sockets member).repeated
  heard : ∀ member, (n.sockets member).written = [] ∧ (n.sockets member).destroyed = true ∨
    n.Heard log member

variable {log first second : List SegmentFrame} {segment here : Byte} {source : Option Nat}
  {frames : List Frame}

theorem heardBy_append : heardBy member here (first ++ second) =
    heardBy member here first ++ heardBy member here second := by
  rw [heardBy, heardBy, heardBy, List.filter_append, List.map_append]

theorem sentBy_append : sentBy member (first ++ second) =
    sentBy member first ++ sentBy member second := by
  rw [sentBy, sentBy, sentBy, List.filter_append, List.map_append]

/-- All of the frames of one event are kept by a filter, or none. -/
theorem map_filter_frames (keep : Prop) [Decidable keep] (among : SegmentFrame → Bool)
    (same : ∀ frame, among ⟨segment, source, frame⟩ = decide keep) (frames : List Frame) :
    ((frames.map (⟨segment, source, ·⟩)).filter among).map SegmentFrame.frame =
      if keep then frames else [] := by
  induction frames with
  | nil => rw [ite_self]; rfl
  | cons frame rest ih =>
    rw [List.map_cons, List.filter_cons, same]
    by_cases kept : keep
    · rw [if_pos kept] at ih ⊢
      rw [if_pos (decide_eq_true kept), List.map_cons, ih]
    · rw [if_neg kept] at ih ⊢
      rwa [if_neg (by rw [decide_eq_false kept]; exact Bool.false_ne_true)]

theorem heardBy_frames (frames : List Frame) :
    heardBy member here (frames.map (⟨segment, source, ·⟩)) =
      if segment = here ∧ source ≠ some member then frames else [] :=
  map_filter_frames _ _ (fun _ => rfl) frames

theorem sentBy_frames (frames : List Frame) :
    sentBy member (frames.map (⟨segment, source, ·⟩)) =
      if source = some member then frames else [] :=
  map_filter_frames _ _ (fun _ => rfl) frames

theorem Heard.goOn {bytes : Message} (heard : n.Heard log member)
    (delivered : Delivered n t segment source frames)
    (later : Later (n.sockets member) (t.sockets member) bytes) :
    t.Heard (log ++ frames.map (⟨segment, source, ·⟩)) member := by
  obtain ⟨before, window, after, split, written, waits, now⟩ := heard
  have more := delivered.written member
  rw [Heard, later.segment, more, written]
  by_cases hears : n.Hears (n.sockets member).segment member
  · refine ⟨before, window ++ frames.map (⟨segment, source, ·⟩), [], ?_, ?_, fun silent => ?_,
      fun _ => rfl⟩
    · rw [split, now hears, List.append_nil, List.append_nil, List.append_assoc]
    · have same : (source ≠ some member ∧ n.Hears segment member) ↔
          segment = (n.sockets member).segment ∧ source ≠ some member :=
        ⟨fun both => ⟨both.2.2.2.symm, both.1⟩, fun both => ⟨both.2, both.1 ▸ hears⟩⟩
      rw [heardBy_append, frameStream_append, heardBy_frames, if_congr same rfl rfl,
        List.append_assoc]
      split_ifs <;> rfl
    · exact absurd (silent.symm.trans (later.greeted hears.1)) Bool.false_ne_true
  · have deaf (segment : Byte) : ¬n.Hears segment member := fun some_ =>
      hears ⟨some_.1, some_.2.1, rfl⟩
    rw [if_neg fun both => deaf segment both.2, List.append_nil]
    cases greeted : (n.sockets member).greeted with
    | false =>
      rw [waits greeted]
      exact ⟨log ++ frames.map (⟨segment, source, ·⟩), [], [],
        by rw [List.append_nil, List.append_nil], rfl, fun _ => rfl, fun _ => rfl⟩
    | true =>
      have gone : (n.sockets member).destroyed = true := by
        by_contra alive
        exact hears ⟨greeted, Bool.eq_false_iff.mpr alive, rfl⟩
      refine ⟨before, window, after ++ frames.map (⟨segment, source, ·⟩), ?_, rfl, ?_, ?_⟩
      · rw [split, List.append_assoc]
      · exact fun silent => absurd (silent.symm.trans (later.greeted greeted)) Bool.false_ne_true
      · exact fun now => absurd (now.2.1.symm.trans (later.destroyed gone)) Bool.false_ne_true

theorem frameOf_fits {buf : Message} {frame : Frame} (here : frame ∈ frameOf buf) :
    FrameFits rethMaxFrame frame := by
  rw [frameOf] at here
  split_ifs at here with right
  · obtain rfl := List.mem_singleton.mp here
    have size : ((buf.drop 4).take (joinLength (buf.getD 2 0) (buf.getD 3 0))).length =
        joinLength (buf.getD 2 0) (buf.getD 3 0) := by
      rw [List.length_take, List.length_drop]
      omega
    exact ⟨by omega, by omega⟩
  · exact absurd here List.not_mem_nil

/-- An event that opens no connection delivers what it puts on the segments. -/
theorem puts_delivered (sound : Sound n 0) (event : EthEvent)
    (opens : ∀ segment, event ≠ .connect segment) :
    ∃ segment source frames, Delivered n (n.step event) segment source frames ∧
      n.puts event = frames.map (⟨segment, source, ·⟩) ∧
      ∀ frame ∈ frames, FrameFits rethMaxFrame frame := by
  obtain ⟨after, repeats⟩ := step_spec sound event
  have none_ : ∀ frame ∈ ([] : List Frame), FrameFits rethMaxFrame frame :=
    fun _ here => absurd here List.not_mem_nil
  cases event with
  | connect segment => exact absurd rfl (opens segment)
  | data member chunk =>
    obtain ⟨frames, delivered⟩ := repeats
    have own := delivered.repeated member
    rw [if_pos rfl] at own
    refine ⟨_, _, frames, delivered, ?_, fun frame here => ?_⟩
    · simp only [puts]
      rw [own, List.drop_left]
    · exact (after.framed' member).fits frame (own ▸ List.mem_append_right _ here)
  | emulatorMessage buf =>
    refine ⟨_, _, _, repeats, ?_, fun frame here => ?_⟩
    · simp only [puts]
      split_ifs <;> rfl
    · split_ifs at here
      · exact absurd here List.not_mem_nil
      · exact frameOf_fits here
  | ended member => exact ⟨_, _, _, repeats, rfl, none_⟩
  | close member => exact ⟨_, _, _, repeats, rfl, none_⟩
  | emulatorConnect => exact ⟨_, _, _, repeats, rfl, none_⟩
  | emulatorClosing => exact ⟨_, _, _, repeats, rfl, none_⟩
  | emulatorClose => exact ⟨_, _, _, repeats, rfl, none_⟩

theorem connect_logged (sound : Sound n 0) (logged : n.Logged log) (segment : Byte) :
    (n.step (.connect segment)).Logged log := by
  have old (other : Nat) (apart : other ≠ n.opened) :
      (n.step (.connect segment)).sockets other = n.sockets other :=
    Function.update_of_ne apart _ _
  have new : (n.step (.connect segment)).sockets n.opened =
      ⟨segment, [], false, false, false, [], [], rethMagic ++ [rethVersionMember]⟩ :=
    Function.update_self _ _ _
  refine ⟨logged.fits, fun other => ?_, fun other => ?_⟩
  · rw [logged.sent]
    by_cases same : other = n.opened
    · rw [same, new, sound.fresh n.opened le_rfl]
      rfl
    · rw [old other same]
  · by_cases same : other = n.opened
    · right
      rw [Heard, same, new]
      exact ⟨log, [], [], by rw [List.append_nil, List.append_nil], rfl, fun _ => rfl,
        fun _ => rfl⟩
    · have heard := logged.heard other
      rw [Heard, Hears] at heard ⊢
      rwa [old other same]

theorem step_logged (sound : Sound n 0) (logged : n.Logged log) (event : EthEvent) :
    (n.step event).Logged (log ++ n.puts event) := by
  by_cases opens : ∃ segment, event = .connect segment
  · obtain ⟨segment, rfl⟩ := opens
    rw [puts, List.append_nil]
    · exact connect_logged sound logged segment
    · exact fun _ _ same => EthEvent.noConfusion same
    · exact fun _ same => EthEvent.noConfusion same
  · have stays := not_exists.mp opens
    obtain ⟨segment, source, frames, delivered, same, fits⟩ := puts_delivered sound event stays
    rw [same]
    refine ⟨fun entry here => ?_, fun member => ?_, fun member => ?_⟩
    · rcases List.mem_append.mp here with old | new
      · exact logged.fits entry old
      · obtain ⟨frame, given, rfl⟩ := List.mem_map.mp new
        exact fits frame given
    · rw [sentBy_append, logged.sent, sentBy_frames, delivered.repeated]
    · have later := @step_later n event member stays
      rcases logged.heard member with ⟨silent, gone⟩ | heard
      · refine .inl ⟨?_, later.destroyed gone⟩
        rw [delivered.written, silent, if_neg, List.append_nil]
        exact fun both => Bool.false_ne_true (both.2.2.1.symm.trans gone)
      · exact .inr (heard.goOn delivered later)

end EthGateway

/- The network. -/

namespace EthNetwork

variable {ι : Type} [DecidableEq ι] {n : EthNetwork ι}

/-- What is read at one end of a connection was written at the other. -/
structure Piped (n : EthNetwork ι) : Prop where
  carrying : ∀ card, Carrying (n.links card)
  sound : n.gateway.Sound 0
  logged : n.gateway.Logged n.log
  opened : ∀ member card fd, n.peer member = some (card, fd) →
    (n.gateway.sockets member).written ≠ [] ∧ fd < (n.links card).opened
  once : ∀ member other card fd, n.peer member = some (card, fd) →
    n.peer other = some (card, fd) → member = other
  up : ∀ member card fd, n.peer member = some (card, fd) →
    (n.gateway.sockets member).received <+: ((n.links card).streams fd).written
  down : ∀ member card fd, n.peer member = some (card, fd) →
    ((n.links card).streams fd).received <+: (n.gateway.sockets member).written

omit [DecidableEq ι] in
theorem start_piped : (start : EthNetwork ι).Piped where
  carrying := fun _ => ⟨TcpLink.start_between, fun _ here => absurd here List.not_mem_nil⟩
  sound := EthGateway.start_sound
  logged :=
    { fits := fun _ here => absurd here List.not_mem_nil
      sent := fun _ => rfl
      heard := fun _ => .inl ⟨rfl, rfl⟩ }
  opened := fun _ _ _ here => absurd here.symm (Option.some_ne_none _)
  once := fun _ _ _ _ here => absurd here.symm (Option.some_ne_none _)
  up := fun _ _ _ here => absurd here.symm (Option.some_ne_none _)
  down := fun _ _ _ here => absurd here.symm (Option.some_ne_none _)

/-- What holds of all cards holds after a step of one. -/
theorem putLink_each {holds : ι → TcpLink → Prop} {card : ι} {event : TcpEvent}
    (own : holds card ((n.links card).step event)) (others : ∀ other, holds other (n.links other))
    (other : ι) : holds other ((n.putLink card event).links other) := by
  by_cases same : other = card
  · subst same
    rw [show (n.putLink other event).links other = _ from Function.update_self _ _ _]
    exact own
  · rw [show (n.putLink card event).links other = _ from Function.update_of_ne same _ _]
    exact others other

theorem putLink_piped (inv : n.Piped) (card : ι) (event : TcpEvent)
    (fed : ∀ member fd, n.peer member = some (card, fd) →
      ((n.links card).streams fd).received ++ offered (n.links card) event fd <+:
        (n.gateway.sockets member).written) : (n.putLink card event).Piped where
  carrying := putLink_each (step_carrying (inv.carrying card) event) inv.carrying
  sound := inv.sound
  logged := inv.logged
  opened member other fd := by
    refine @putLink_each _ _ n (fun other link => n.peer member = some (other, fd) →
      (n.gateway.sockets member).written ≠ [] ∧ fd < link.opened) card event (fun here => ?_)
      (fun other => inv.opened member other fd) other
    obtain ⟨written, inside⟩ := inv.opened member card fd here
    exact ⟨written, inside.trans_le (step_goes _ event).opened⟩
  once := inv.once
  up member other fd :=
    @putLink_each _ _ n (fun other link => n.peer member = some (other, fd) →
      (n.gateway.sockets member).received <+: (link.streams fd).written) card event
      (fun here => (inv.up member card fd here).trans ((step_goes _ event).streams fd).written)
      (fun other => inv.up member other fd) other
  down member other fd := by
    refine @putLink_each _ _ n (fun other link => n.peer member = some (other, fd) →
      (link.streams fd).received <+: (n.gateway.sockets member).written) card event
      (fun here => ?_) (fun other => inv.down member other fd) other
    obtain ⟨bytes, taken, read⟩ := ((step_goes (n.links card) event).streams fd).received
    rw [read]
    exact ((List.prefix_append_right_inj _).mpr taken).trans (fed member fd here)

omit [DecidableEq ι] in
theorem onGateway_piped (inv : n.Piped) (event : EthEvent)
    (opens : ∀ segment, event ≠ .connect segment)
    (fed : ∀ member card fd, n.peer member = some (card, fd) →
      (n.gateway.sockets member).received ++ n.gateway.takes event member <+:
        ((n.links card).streams fd).written) : (n.onGateway event).Piped := by
  obtain ⟨segment, source, frames, delivered, -, -⟩ :=
    EthGateway.puts_delivered inv.sound event opens
  exact {
    carrying := inv.carrying
    sound := (EthGateway.step_spec inv.sound event).1
    logged := EthGateway.step_logged inv.sound inv.logged event
    opened := by
      intro member card fd here
      refine ⟨fun none_ => ?_, (inv.opened member card fd here).2⟩
      change ((n.gateway.step event).sockets member).written = [] at none_
      rw [delivered.written] at none_
      exact (inv.opened member card fd here).1 (List.append_eq_nil_iff.mp none_).1
    once := inv.once
    up := by
      intro member card fd here
      change ((n.gateway.step event).sockets member).received <+: _
      rw [(EthGateway.step_later event member opens).received]
      exact fed member card fd here
    down := by
      intro member card fd here
      change _ <+: ((n.gateway.step event).sockets member).written
      rw [delivered.written]
      exact (inv.down member card fd here).trans (List.prefix_append _ _) }

omit [DecidableEq ι] in
/-- A connection is opened that belongs to no card yet. -/
theorem connect_piped (inv : n.Piped) (segment : Byte) : (n.onGateway (.connect segment)).Piped := by
  have old (member : Nat) (card : ι) (fd : Nat) (here : n.peer member = some (card, fd)) :
      (n.gateway.step (.connect segment)).sockets member = n.gateway.sockets member := by
    refine Function.update_of_ne (fun same => ?_) _ _
    have fresh := inv.sound.fresh member (Nat.le_of_eq same.symm)
    exact (inv.opened member card fd here).1 (by rw [fresh]; rfl)
  exact {
    carrying := inv.carrying
    sound := (EthGateway.step_spec inv.sound (.connect segment)).1
    logged := EthGateway.step_logged inv.sound inv.logged (.connect segment)
    opened := by
      intro member card fd here
      change ((n.gateway.step (.connect segment)).sockets member).written ≠ [] ∧ _
      rw [old member card fd here]
      exact inv.opened member card fd here
    once := inv.once
    up := by
      intro member card fd here
      change ((n.gateway.step (.connect segment)).sockets member).received <+: _
      rw [old member card fd here]
      exact inv.up member card fd here
    down := by
      intro member card fd here
      change _ <+: ((n.gateway.step (.connect segment)).sockets member).written
      rw [old member card fd here]
      exact inv.down member card fd here }

/-- Reading goes on where it stopped. -/
theorem read_on {sent got : Message} (part : got <+: sent) (count : Nat) :
    got ++ (sent.drop got.length).take count <+: sent := by
  obtain ⟨rest, rfl⟩ := part
  rw [List.drop_left]
  exact (List.prefix_append_right_inj got).mpr (List.take_prefix _ _)

omit [DecidableEq ι] in
/-- Both ends of a new connection have read nothing. -/
theorem putPeer_piped (inv : n.Piped) {new fd : Nat} {card : ι}
    (written : (n.gateway.sockets new).written ≠ [])
    (unread : (n.gateway.sockets new).received = []) (inside : fd < (n.links card).opened)
    (fresh : ((n.links card).streams fd).received = [])
    (free : ∀ other, n.peer other ≠ some (card, fd)) :
    { n with peer := Function.update n.peer new (some (card, fd)) }.Piped := by
  have either (member : Nat) (other : ι) (second : Nat)
      (here : Function.update n.peer new (some (card, fd)) member = some (other, second)) :
      member = new ∧ card = other ∧ fd = second ∨ n.peer member = some (other, second) := by
    by_cases now : member = new
    · rw [now, Function.update_self, Option.some.injEq, Prod.mk.injEq] at here
      exact .inl ⟨now, here⟩
    · rw [Function.update_of_ne now] at here
      exact .inr here
  refine ⟨inv.carrying, inv.sound, inv.logged, ?_, ?_, ?_, ?_⟩
  · intro member other second here
    rcases either member other second here with ⟨rfl, rfl, rfl⟩ | old
    · exact ⟨written, inside⟩
    · exact inv.opened member other second old
  · intro member second other third here there
    rcases either member other third here with ⟨rfl, rfl, rfl⟩ | old
    · rcases either second card fd there with ⟨rfl, -, -⟩ | old
      · rfl
      · exact absurd old (free second)
    · rcases either second other third there with ⟨rfl, rfl, rfl⟩ | older
      · exact absurd old (free member)
      · exact inv.once member second other third old older
  · intro member other second here
    rcases either member other second here with ⟨rfl, rfl, rfl⟩ | old
    · rw [unread]
      exact List.nil_prefix
    · exact inv.up member other second old
  · intro member other second here
    rcases either member other second here with ⟨rfl, rfl, rfl⟩ | old
    · rw [fresh]
      exact List.nil_prefix
    · exact inv.down member other second old

theorem dial_piped (inv : n.Piped) (card : ι) (served : Bool) (segment : Byte)
    (idle : (n.links card).phase = .idle) : (n.step (.dial card served segment)).Piped := by
  have dialled : ((n.onGateway (.connect segment)).putLink card (.connect served)).links card =
      (n.links card).step (.connect served) := Function.update_self _ _ _
  have new : (n.onGateway (.connect segment)).gateway.sockets n.gateway.opened =
      ⟨segment, [], false, false, false, [], [], rethMagic ++ [rethVersionMember]⟩ :=
    Function.update_self _ _ _
  have connected := connect_piped inv segment
  have linked := putLink_piped connected card (.connect served) fun member fd here => by
    rw [offered, List.append_nil]
    · exact connected.down member card fd here
    · exact fun _ same => TcpEvent.noConfusion same
  rw [step, if_pos idle]
  refine putPeer_piped linked ?_ ?_ ?_ ?_ fun other here => ?_
  · exact fun none_ => List.cons_ne_nil _ _ ((congrArg EthSocket.written new).symm.trans none_)
  · exact congrArg EthSocket.received new
  · rw [dialled, TcpLink.step, TcpLink.connect, idle]
    exact Nat.lt_succ_self _
  · rw [dialled, TcpLink.step, TcpLink.connect, idle]
    exact ((inv.carrying card).between.read.fresh _ le_rfl).1
  · exact Nat.lt_irrefl _ (inv.opened other card _ here).2

theorem step_piped (inv : n.Piped) (event : NetworkEvent ι) : (n.step event).Piped := by
  cases event with
  | dial card served segment =>
    by_cases idle : (n.links card).phase = .idle
    · exact dial_piped inv card served segment idle
    · rw [step, if_neg idle]
      exact inv
  | link card event =>
    rw [step]
    split_ifs with reads
    · exact inv
    · refine putLink_piped inv card event fun member fd here => ?_
      have silent : offered (n.links card) event fd = [] := by
        cases event with
        | receive chunk => exact absurd rfl reads
        | _ => rfl
      rw [silent, List.append_nil]
      exact inv.down member card fd here
  | toLink member count =>
    rw [step]
    rcases belongs : n.peer member with _ | ⟨card, fd⟩
    · exact inv
    · dsimp only
      split_ifs with serves
      · refine putLink_piped inv card _ fun other fd' here => ?_
        rw [offered]
        split_ifs with mine
        · obtain rfl := Option.some.inj (serves.symm.trans mine)
          obtain rfl := inv.once member other card fd belongs here
          exact read_on (inv.down member card fd belongs) count
        · rw [List.append_nil]
          exact inv.down other card fd' here
      · exact inv
  | toGateway member count =>
    rw [step]
    rcases belongs : n.peer member with _ | ⟨card, fd⟩
    · exact inv
    · refine onGateway_piped inv _ (fun _ same => EthEvent.noConfusion same)
        fun other card' fd' here => ?_
      rw [EthGateway.takes]
      split_ifs with mine
      · obtain ⟨rfl, rfl⟩ : card = card' ∧ fd = fd' := by
          rw [mine.1, belongs] at here
          exact ⟨congrArg Prod.fst (Option.some.inj here), congrArg Prod.snd (Option.some.inj here)⟩
        rw [mine.1]
        exact read_on (inv.up member card fd belongs) count
      · rw [List.append_nil]
        exact inv.up other card' fd' here
  | gateway event =>
    rw [step]
    split_ifs with foreign
    · by_cases opens : ∃ segment, event = .connect segment
      · obtain ⟨segment, rfl⟩ := opens
        exact connect_piped inv segment
      · refine onGateway_piped inv event (not_exists.mp opens) fun member card fd here => ?_
        have silent : n.gateway.takes event member = [] := by
          cases event with
          | data other chunk =>
            refine if_neg fun both => ?_
            have none_ := of_decide_eq_true foreign
            rw [← both.1, here] at none_
            exact absurd none_ (Option.some_ne_none _)
          | _ => rfl
        rw [silent, List.append_nil]
        exact inv.up member card fd here
    · exact inv

omit [DecidableEq ι] in
/-- The frames of a card that were repeated are the first ones of those it wrote. -/
theorem sent_begins (inv : n.Piped) {member : Nat} {card : ι} {fd : Nat}
    (here : n.peer member = some (card, fd)) :
    sentBy member n.log <+: framesOn (n.links card).delivered fd := by
  have framed := inv.sound.framed' member
  rw [inv.logged.sent]
  cases greeted : (n.gateway.sockets member).greeted with
  | false =>
    rw [(framed.waiting greeted).1]
    exact List.nil_prefix
  | true =>
    have up := inv.up member card fd here
    obtain ⟨version, stream⟩ := framed.stream greeted
    have between := (inv.carrying card).between
    have carries := TcpLink.carriesFrames_of_inv between.write between.order
    have small : rethMaxFrame < 65536 := by decide
    have hello : (rethMagic ++ [version]).length = tcpHello.length := rfl
    rw [stream, List.append_assoc] at up
    rcases carries.1 fd with ⟨short, none_⟩ | written
    · have begins := up.trans short
      rw [← List.append_nil tcpHello] at begins
      have behind := ((List.prefix_append_inj_of_length_eq hello).mp begins).2
      rw [none_]
      exact @frameStream_begins rethMaxFrame _ [] [] _ small (fun _ member => absurd member
        List.not_mem_nil) framed.fits (cut_of_short (Nat.zero_le 2)) behind
    · rw [written, List.append_assoc tcpHello] at up
      have behind := ((List.prefix_append_inj_of_length_eq hello).mp up).2
      refine frameStream_begins small (fun frame given => ?_) framed.fits
        ((carries.2.1 fd).cut small) behind
      obtain ⟨entry, from_, rfl⟩ := List.mem_map.mp given
      exact (inv.carrying card).fits entry (List.mem_filter.mp from_).1

omit [DecidableEq ι] in
/-- What a card reads is what was written to its connection. -/
theorem arrived_begins (inv : n.Piped) {member : Nat} {card : ι} {fd : Nat}
    (here : n.peer member = some (card, fd)) :
    ∃ before window after, n.log = before ++ window ++ after ∧
      (n.gateway.Hears (n.gateway.sockets member).segment member → after = []) ∧
      framesOn (n.links card).arrived fd <+:
        heardBy member (n.gateway.sockets member).segment window := by
  have reads := TcpLink.readsFrames_of_inv (inv.carrying card).between.read fd
  have nothing : Broken ethNetTcpMaxFrame [] := TcpLink.nothing_broken
  have down := inv.down member card fd here
  rcases inv.logged.heard member with ⟨silent, -⟩ | ⟨before, window, after, split, written, -, now⟩
  · exact absurd silent (inv.opened member card fd here).1
  · refine ⟨before, window, after, split, now, ?_⟩
    refine (reads _ [] (fun frame given => ?_) nothing).1 ?_
    · obtain ⟨entry, from_, rfl⟩ := List.mem_map.mp given
      refine inv.logged.fits entry ?_
      rw [split]
      exact List.mem_append_left _ (List.mem_append_right _ (List.mem_filter.mp from_).1)
    · rw [List.append_nil]
      rw [written] at down
      exact down

/-- The cards that are linked to one gateway agree on the order of the frames in every run. -/
theorem segment_orders_frames (events : List (NetworkEvent ι)) :
    EachState step Broadcasts (start : EthNetwork ι) events := by
  have each := eachState_of_keeps (fun n event (inv : n.Piped) => step_piped inv event)
    (@start_piped ι) events
  refine each.weaken fun n inv member card fd here => ?_
  have between := (inv.carrying card).between
  exact ⟨sent_begins inv here,
    (TcpLink.carriesFrames_of_inv between.write between.order).2.2, arrived_begins inv here⟩

end EthNetwork

end Nd100x.Gateway
