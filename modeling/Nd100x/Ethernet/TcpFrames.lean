import Nd100x.Ethernet.TcpLink
import Nd100x.Library.Runs

namespace Nd100x.Ethernet

open Nd100x.Library

/-- The frames of one connection. -/
def framesOn (all : List (Nat × Frame)) (fd : Nat) : List Frame :=
  (all.filter fun entry => entry.1 = fd).map Prod.snd

namespace LinkPhase

/-- The connection that the link thread serves. -/
def serves : LinkPhase → Option Nat
  | .idle => none
  | .greeting fd => some fd
  | .awaitingHello fd _ => some fd
  | .publishing fd => some fd
  | .raising fd => some fd
  | .readingLength fd _ => some fd
  | .readingFrame fd _ _ => some fd
  | .lowering fd => some fd
  | .retracting fd => some fd
  | .closing fd => some fd

/-- The connection that the sender sees. -/
def published : LinkPhase → Option Nat
  | .raising fd => some fd
  | .readingLength fd _ => some fd
  | .readingFrame fd _ _ => some fd
  | .lowering fd => some fd
  | .retracting fd => some fd
  | _ => none

/-- The connection that is reported as up. -/
def up : LinkPhase → Option Nat
  | .readingLength fd _ => some fd
  | .readingFrame fd _ _ => some fd
  | _ => none

end LinkPhase

namespace TcpLink

/-- Whole frames follow the handshake, and at most one broken frame follows them. -/
def CarriesFrames (n : TcpLink) : Prop :=
  (∀ fd, (n.streams fd).written <+: tcpHello ∧ framesOn n.delivered fd = [] ∨
    (n.streams fd).written =
      tcpHello ++ frameStream (framesOn n.delivered fd) ++ (n.streams fd).broken) ∧
  (∀ fd, Broken ethNetTcpMaxFrame (n.streams fd).broken) ∧
  (n.delivered.map Prod.snd).Sublist n.sent

/-- Nothing follows a frame that could not be written, and all that is written is followed. -/
def EndsBroken (n : TcpLink) (event : TcpEvent) : Prop :=
  ∀ fd, ((n.streams fd).broken ≠ [] → (n.streams fd).shutDown = true) ∧
    ((n.streams fd).shutDown = true →
      ((n.step event).streams fd).written = (n.streams fd).written)

/-- What is handed to the ring are the whole frames of the stream that was read. -/
def ReadsFrames (n : TcpLink) : Prop :=
  ∀ fd (frames : List Frame) (broken : List (BitVec 8)),
    (∀ frame ∈ frames, FrameFits ethNetTcpMaxFrame frame) → Broken ethNetTcpMaxFrame broken →
    ((n.streams fd).received <+: tcpHello ++ frameStream frames ++ broken →
      framesOn n.arrived fd <+: frames) ∧
    ((n.streams fd).received = tcpHello ++ frameStream frames ++ broken →
      framesOn n.arrived fd = frames)

/-- The ring gives the frames back in order. -/
def RingInOrder (n : TcpLink) : Prop := n.taken ++ n.ring = n.arrived.map Prod.snd

/-- A connection that is up is seen by the sender until a write on it fails. -/
def StaysUp (n : TcpLink) : Prop :=
  ∀ fd, n.phase.up = some fd → (n.streams fd).shutDown = false →
    n.active = true ∧ n.conn = some fd

/-- A frame that is sent while a connection is up is written to it. -/
def WritesFrame (n : TcpLink) : TcpEvent → Prop
  | .send frame => ∀ fd, n.phase.up = some fd → (n.streams fd).shutDown = false →
      n.sender = .idle → FrameFits ethNetTcpMaxFrame frame →
      (n.step (.send frame)).sender = .checked frame
  | .sendLocked results => ∀ fd frame, n.phase.up = some fd → (n.streams fd).shutDown = false →
      n.sender = .checked frame →
      (n.step (.sendLocked results)).delivered = n.delivered ++ [(fd, frame)] ∨
        ((n.step (.sendLocked results)).streams fd).shutDown = true
  | _ => True

/-- A connection is not reported as up while the sender has still to clear the active flag for an
earlier one, and no frame meets a full ring. -/
def KeepsUp (n : TcpLink) : TcpEvent → Prop
  | .linkStep => ∀ fd failedOn, n.phase = .raising fd → n.sender = .clearing failedOn →
      failedOn = some fd
  | .receive chunk => ∀ fd length got, n.phase = .readingFrame fd length got →
      length ≤ got.length + chunk.length → n.ring.length < ethNetRxRingSize
  | _ => True

end TcpLink

/- Writing. -/

theorem writeFully_spec (fuel : Nat) (results : Nat → Int) (data : List (BitVec 8))
    (enough : data.length ≤ fuel) :
    (writeFully fuel results data).1 <+: data ∧
      ((writeFully fuel results data).2.1 = true ↔ (writeFully fuel results data).1 = data) := by
  induction fuel generalizing results data with
  | zero =>
    obtain rfl := List.length_eq_zero_iff.mp (Nat.le_zero.mp enough)
    exact ⟨List.prefix_rfl, iff_of_true rfl rfl⟩
  | succ fuel ih =>
    cases data with
    | nil => exact ⟨List.prefix_rfl, iff_of_true rfl rfl⟩
    | cons first rest =>
      simp only [writeFully]
      split_ifs with failed
      · exact ⟨List.nil_prefix, iff_of_false not_false not_false⟩
      · generalize sent : min (results 0).toNat (first :: rest).length = count
        have some_ : 0 < count := by
          rw [← sent, List.length_cons]
          omega
        have shorter : ((first :: rest).drop count).length ≤ fuel := by
          rw [List.length_drop]
          omega
        obtain ⟨begins, all⟩ := ih (fun call => results (call + 1)) _ shorter
        have joined := List.take_append_drop count (first :: rest)
        constructor
        · obtain ⟨missing, together⟩ := begins
          exact ⟨missing, by rw [List.append_assoc, together, joined]⟩
        · rw [all]
          constructor
          · intro same
            rw [same, joined]
          · intro same
            exact List.append_cancel_left (same.trans joined.symm)

/-- A frame is written as a whole or not to its end. -/
theorem writeFrame_spec (results : Nat → Int) (frame : Frame) :
    (TcpLink.writeFrame results frame).1 <+: framed frame ∧
      ((TcpLink.writeFrame results frame).2 = true ↔
        (TcpLink.writeFrame results frame).1 = framed frame) := by
  obtain ⟨begins, all⟩ := writeFully_spec 2 results (lengthBytes frame.length) le_rfl
  simp only [TcpLink.writeFrame]
  split_ifs with header
  · rw [all.mp header, framed]
    obtain ⟨bodyBegins, bodyAll⟩ := writeFully_spec frame.length
      (writeFully 2 results (lengthBytes frame.length)).2.2 frame le_rfl
    refine ⟨(List.prefix_append_right_inj _).mpr bodyBegins, bodyAll.trans ?_⟩
    exact (List.append_right_inj _).symm
  · refine ⟨begins.trans (List.prefix_append _ _), iff_of_false not_false fun whole => ?_⟩
    have longer : (writeFully 2 results (lengthBytes frame.length)).1.length =
        (framed frame).length := congrArg List.length whole
    rw [framed, List.length_append] at longer
    have short := begins.length_le
    refine header (all.mpr (begins.eq_of_length ?_))
    omega

/-- Nothing is written to a connection that was shut down. -/
theorem writeFrame_shutDown (frame : Frame) : TcpLink.writeFrame (fun _ => -1) frame = ([], false) :=
  rfl

theorem framesOn_append_here (all : List (Nat × Frame)) (fd : Nat) (frame : Frame) :
    framesOn (all ++ [(fd, frame)]) fd = framesOn all fd ++ [frame] := by
  simp [framesOn]

theorem framesOn_append_other (all : List (Nat × Frame)) {fd other : Nat} (apart : other ≠ fd)
    (frame : Frame) : framesOn (all ++ [(fd, frame)]) other = framesOn all other := by
  simp [framesOn, apart.symm]

namespace TcpLink

variable {n t : TcpLink}

/-- The connections whose handshake was written. -/
def greeted : LinkPhase → Option Nat
  | .idle => none
  | .greeting _ => none
  | .closing _ => none
  | .awaitingHello fd _ => some fd
  | .publishing fd => some fd
  | .raising fd => some fd
  | .readingLength fd _ => some fd
  | .readingFrame fd _ _ => some fd
  | .lowering fd => some fd
  | .retracting fd => some fd

/-- Nothing was written to a connection. -/
structure Unused (n : TcpLink) (fd : Nat) : Prop where
  written : (n.streams fd).written = []
  broken : (n.streams fd).broken = []
  shutDown : (n.streams fd).shutDown = false
  frames : framesOn n.delivered fd = []

def Ungreeted (n : TcpLink) (fd : Nat) : Prop :=
  (n.streams fd).written <+: tcpHello ∧ framesOn n.delivered fd = []

def Greeted (n : TcpLink) (fd : Nat) : Prop :=
  (n.streams fd).written =
    tcpHello ++ frameStream (framesOn n.delivered fd) ++ (n.streams fd).broken

structure WriteInv (n : TcpLink) : Prop where
  conn : n.conn = n.phase.published
  opened : ∀ fd, n.phase.serves = some fd → fd < n.opened
  fresh : ∀ fd, n.opened ≤ fd → n.Unused fd
  greeting : ∀ fd, n.phase = .greeting fd → n.Unused fd
  greeted : ∀ fd, greeted n.phase = some fd → n.Greeted fd
  written : ∀ fd, n.Ungreeted fd ∨ n.Greeted fd
  unbroken : ∀ fd, (n.streams fd).shutDown = false → (n.streams fd).broken = []
  broken : ∀ fd, Broken ethNetTcpMaxFrame (n.streams fd).broken

/-- Nothing is written. -/
structure SameWrites (n t : TcpLink) : Prop where
  opened : t.opened = n.opened
  delivered : t.delivered = n.delivered
  written : ∀ fd, (t.streams fd).written = (n.streams fd).written
  broken : ∀ fd, (t.streams fd).broken = (n.streams fd).broken
  shutDown : ∀ fd, (t.streams fd).shutDown = (n.streams fd).shutDown

theorem SameWrites.unused (same : SameWrites n t) {fd : Nat} (unused : n.Unused fd) :
    t.Unused fd where
  written := (same.written fd).trans unused.written
  broken := (same.broken fd).trans unused.broken
  shutDown := (same.shutDown fd).trans unused.shutDown
  frames := by
    rw [same.delivered]
    exact unused.frames

theorem SameWrites.greeted (same : SameWrites n t) {fd : Nat} (greeted : n.Greeted fd) :
    t.Greeted fd := by
  rw [Greeted, same.written, same.delivered, same.broken]
  exact greeted

theorem SameWrites.ungreeted (same : SameWrites n t) {fd : Nat} (ungreeted : n.Ungreeted fd) :
    t.Ungreeted fd := by
  rw [Ungreeted, same.written, same.delivered]
  exact ungreeted

/-- A step of the link thread that writes nothing. -/
theorem WriteInv.move (inv : n.WriteInv) (same : SameWrites n t) (conn : t.conn = t.phase.published)
    (serves : ∀ fd, t.phase.serves = some fd → n.phase.serves = some fd)
    (greeting : ∀ fd, t.phase = .greeting fd → n.phase = .greeting fd)
    (greeted_ : ∀ fd, TcpLink.greeted t.phase = some fd → TcpLink.greeted n.phase = some fd) :
    t.WriteInv where
  conn := conn
  opened fd serving := same.opened ▸ inv.opened fd (serves fd serving)
  fresh fd later := same.unused (inv.fresh fd (same.opened ▸ later))
  greeting fd here := same.unused (inv.greeting fd (greeting fd here))
  greeted fd here := same.greeted (inv.greeted fd (greeted_ fd here))
  written fd := (inv.written fd).imp same.ungreeted same.greeted
  unbroken fd := by
    rw [same.shutDown, same.broken]
    exact inv.unbroken fd
  broken fd := by
    rw [same.broken]
    exact inv.broken fd

theorem note_same (n : TcpLink) (fd : Nat) (bytes : List (BitVec 8)) : SameWrites n (n.note fd bytes) := by
  have other (place : Nat) : ((n.note fd bytes).streams place).written = (n.streams place).written ∧
      ((n.note fd bytes).streams place).broken = (n.streams place).broken ∧
      ((n.note fd bytes).streams place).shutDown = (n.streams place).shutDown := by
    by_cases here : place = fd
    · subst here
      simp [note, onStream]
    · simp [note, onStream, Function.update_of_ne here]
  exact ⟨rfl, rfl, fun place => (other place).1, fun place => (other place).2.1,
    fun place => (other place).2.2⟩

theorem SameWrites.trans {u : TcpLink} (first : SameWrites n t) (second : SameWrites t u) :
    SameWrites n u where
  opened := second.opened.trans first.opened
  delivered := second.delivered.trans first.delivered
  written fd := (second.written fd).trans (first.written fd)
  broken fd := (second.broken fd).trans (first.broken fd)
  shutDown fd := (second.shutDown fd).trans (first.shutDown fd)

/-- The fields of the link thread and of the ring beside the streams. -/
theorem same_of_streams (streams : t.streams = n.streams) (opened : t.opened = n.opened)
    (delivered : t.delivered = n.delivered) : SameWrites n t :=
  ⟨opened, delivered, fun _ => by rw [streams], fun _ => by rw [streams], fun _ => by rw [streams]⟩

theorem connect_writeInv (inv : n.WriteInv) (served : Bool) : (n.connect served).WriteInv := by
  cases phase : n.phase with
  | idle =>
    have unpublished : n.conn = none := inv.conn.trans (by rw [phase]; rfl)
    have unused := inv.fresh n.opened le_rfl
    simp only [connect, phase]
    cases served with
    | true =>
      refine ⟨unpublished, fun fd here => ?_, fun fd later => ?_, fun fd here => ?_,
        fun fd here => ?_, fun fd => ?_, inv.unbroken, inv.broken⟩
      · obtain rfl := Option.some.inj here
        exact Nat.lt_succ_self _
      · obtain ⟨written, broken, shutDown, frames⟩ := inv.fresh fd (Nat.le_of_succ_le later)
        exact ⟨written, broken, shutDown, frames⟩
      · obtain rfl : n.opened = fd := by simpa using here
        exact ⟨unused.written, unused.broken, unused.shutDown, unused.frames⟩
      · exact absurd here.symm (Option.some_ne_none fd)
      · exact inv.written fd
    | false =>
      refine ⟨unpublished, fun fd here => ?_, fun fd later => ?_, fun fd here => ?_,
        fun fd here => ?_, fun fd => ?_, inv.unbroken, inv.broken⟩
      · obtain rfl := Option.some.inj here
        exact Nat.lt_succ_self _
      · obtain ⟨written, broken, shutDown, frames⟩ := inv.fresh fd (Nat.le_of_succ_le later)
        exact ⟨written, broken, shutDown, frames⟩
      · exact LinkPhase.noConfusion here
      · exact absurd here.symm (Option.some_ne_none fd)
      · exact inv.written fd
  | _ =>
    simp only [connect, phase]
    exact inv

theorem onStream_here (n : TcpLink) (fd : Nat) (change : TcpStream → TcpStream) :
    (n.onStream fd change).streams fd = change (n.streams fd) := Function.update_self _ _ _

theorem onStream_other (n : TcpLink) {fd other : Nat} (apart : other ≠ fd)
    (change : TcpStream → TcpStream) :
    (n.onStream fd change).streams other = n.streams other := Function.update_of_ne apart _ _

@[simp] theorem putPhase_streams (n : TcpLink) (phase : LinkPhase) :
    (n.putPhase phase).streams = n.streams := rfl

/-- A state in which the streams of the other connections are as before. -/
theorem WriteInv.onStream (inv : n.WriteInv) {fd : Nat} (inside : fd < n.opened)
    (opened : t.opened = n.opened)
    (others : ∀ other, other ≠ fd → t.streams other = n.streams other ∧
      framesOn t.delivered other = framesOn n.delivered other)
    (conn : t.conn = t.phase.published)
    (serves : ∀ other, t.phase.serves = some other → other = fd)
    (greeting : t.phase ≠ .greeting fd)
    (here : TcpLink.greeted t.phase = some fd ∧ t.Greeted fd ∨
      TcpLink.greeted t.phase = none ∧ t.Ungreeted fd)
    (unbroken : (t.streams fd).shutDown = false → (t.streams fd).broken = [])
    (broken : Broken ethNetTcpMaxFrame (t.streams fd).broken) : t.WriteInv where
  conn := conn
  opened other serving := by
    rw [serves other serving, opened]
    exact inside
  fresh other later := by
    rw [opened] at later
    have apart : other ≠ fd := fun same => Nat.not_lt.mpr later (same ▸ inside)
    obtain ⟨written, broken, shutDown, frames⟩ := inv.fresh other later
    obtain ⟨stream, kept⟩ := others other apart
    exact ⟨stream ▸ written, stream ▸ broken, stream ▸ shutDown, kept.trans frames⟩
  greeting other phase := by
    have same := serves other (by rw [phase]; rfl)
    exact absurd (same ▸ phase) greeting
  greeted other phase := by
    rcases here with ⟨current, done⟩ | ⟨none_, -⟩
    · exact Option.some.inj (current.symm.trans phase) ▸ done
    · exact absurd (phase.symm.trans none_) (Option.some_ne_none other)
  written other := by
    by_cases same : other = fd
    · subst same
      exact here.elim (fun done => .inr done.2) fun undone => .inl undone.2
    · obtain ⟨stream, kept⟩ := others other same
      rw [Ungreeted, Greeted, stream, kept]
      exact inv.written other
  unbroken other := by
    by_cases same : other = fd
    · exact same ▸ unbroken
    · rw [(others other same).1]
      exact inv.unbroken other
  broken other := by
    by_cases same : other = fd
    · exact same ▸ broken
    · rw [(others other same).1]
      exact inv.broken other

theorem nothing_broken : Broken ethNetTcpMaxFrame [] :=
  ⟨[0], ⟨by decide, by decide⟩, List.nil_prefix, by decide⟩

theorem greet_writeInv (inv : n.WriteInv) (results : Nat → Int) : (n.greet results).WriteInv := by
  cases phase : n.phase with
  | greeting fd =>
    have unused := inv.greeting fd phase
    obtain ⟨begins, all⟩ := writeFully_spec tcpHello.length results tcpHello le_rfl
    have unpublished : n.conn = none := inv.conn.trans (by rw [phase]; rfl)
    have inside := inv.opened fd (by rw [phase]; rfl)
    simp only [greet, phase]
    generalize writeFully tcpHello.length results tcpHello = written at begins all ⊢
    refine inv.onStream inside rfl (fun other apart => ⟨?_, rfl⟩) ?_ ?_ ?_ ?_ ?_ ?_
    · rw [putPhase_streams, onStream_other n apart]
    · cases written.2.1 with
      | true => exact unpublished
      | false => exact unpublished
    · intro other
      cases written.2.1 with
      | true => exact fun serves => (Option.some.inj serves).symm
      | false => exact fun serves => (Option.some.inj serves).symm
    · cases written.2.1 with
      | true => exact LinkPhase.noConfusion
      | false => exact LinkPhase.noConfusion
    · cases whole : written.2.1 with
      | true =>
        refine .inl ⟨rfl, ?_⟩
        simp [Greeted, putPhase, onStream, unused.written, unused.broken, unused.frames,
          all.mp whole, frameStream]
      | false =>
        refine .inr ⟨rfl, ?_, unused.frames⟩
        simpa [putPhase, onStream, unused.written] using begins
    · intro _
      simpa [putPhase, onStream] using unused.broken
    · have none_ : ((n.onStream fd fun stream =>
          { stream with written := stream.written ++ written.1 }).streams fd).broken = [] := by
        rw [onStream_here]
        exact unused.broken
      exact none_ ▸ nothing_broken
  | _ =>
    simp only [greet, phase]
    exact inv

/-- A step of another thread that writes nothing. -/
theorem WriteInv.beside (inv : n.WriteInv) (same : SameWrites n t) (conn : t.conn = n.conn)
    (phase : t.phase = n.phase) : t.WriteInv := by
  refine inv.move same (conn.trans (inv.conn.trans (phase ▸ rfl))) ?_ ?_ ?_
  · rw [phase]
    exact fun _ => id
  · rw [phase]
    exact fun _ => id
  · rw [phase]
    exact fun _ => id

/-- The link thread goes on with its connection. -/
theorem WriteInv.goOn (inv : n.WriteInv) (same : SameWrites n t) (conn : t.conn = n.conn)
    (published : t.phase.published = n.phase.published)
    (serves : t.phase.serves = n.phase.serves) (greeting : ∀ fd, t.phase ≠ .greeting fd)
    (greeted_ : TcpLink.greeted t.phase = TcpLink.greeted n.phase ∨
      TcpLink.greeted t.phase = none) : t.WriteInv := by
  refine inv.move same (conn.trans (inv.conn.trans published.symm)) (fun fd here => ?_)
    (fun fd here => absurd here (greeting fd)) fun fd here => ?_
  · rw [← serves]
    exact here
  · rcases greeted_ with kept | none_
    · exact kept.symm.trans here
    · exact absurd (here.symm.trans none_) (Option.some_ne_none fd)

theorem ringPut_same (n : TcpLink) (fd : Nat) (frame : Frame) : SameWrites n (n.ringPut fd frame) :=
  same_of_streams rfl rfl rfl

theorem putPhase_same (n : TcpLink) (phase : LinkPhase) : SameWrites n (n.putPhase phase) :=
  same_of_streams rfl rfl rfl

theorem receive_writeInv (inv : n.WriteInv) (chunk : List (BitVec 8)) :
    (n.receive chunk).WriteInv := by
  cases phase : n.phase with
  | awaitingHello fd got =>
    have noted (bytes : List (BitVec 8)) (later : LinkPhase) :=
      (note_same n fd bytes).trans (putPhase_same _ later)
    simp only [receive, phase]
    split_ifs
    · exact inv.goOn (putPhase_same n _) rfl (phase ▸ rfl) (phase ▸ rfl)
        (fun _ => LinkPhase.noConfusion) (.inr rfl)
    · exact inv.goOn (noted _ _) rfl (phase ▸ rfl) (phase ▸ rfl) (fun _ => LinkPhase.noConfusion)
        (.inl (phase ▸ rfl))
    · exact inv.goOn (noted _ _) rfl (phase ▸ rfl) (phase ▸ rfl) (fun _ => LinkPhase.noConfusion)
        (.inl (phase ▸ rfl))
    · exact inv.goOn (noted _ _) rfl (phase ▸ rfl) (phase ▸ rfl) (fun _ => LinkPhase.noConfusion)
        (.inr rfl)
  | readingLength fd got =>
    have noted (bytes : List (BitVec 8)) (later : LinkPhase) :=
      (note_same n fd bytes).trans (putPhase_same _ later)
    simp only [receive, phase]
    split_ifs
    · exact inv.goOn (putPhase_same n _) rfl (phase ▸ rfl) (phase ▸ rfl)
        (fun _ => LinkPhase.noConfusion) (.inl (phase ▸ rfl))
    · exact inv.goOn (noted _ _) rfl (phase ▸ rfl) (phase ▸ rfl) (fun _ => LinkPhase.noConfusion)
        (.inl (phase ▸ rfl))
    · exact inv.goOn (noted _ _) rfl (phase ▸ rfl) (phase ▸ rfl) (fun _ => LinkPhase.noConfusion)
        (.inl (phase ▸ rfl))
    · exact inv.goOn (noted _ _) rfl (phase ▸ rfl) (phase ▸ rfl) (fun _ => LinkPhase.noConfusion)
        (.inl (phase ▸ rfl))
  | readingFrame fd length got =>
    simp only [receive, phase]
    split_ifs
    · exact inv.goOn (putPhase_same n _) rfl (phase ▸ rfl) (phase ▸ rfl)
        (fun _ => LinkPhase.noConfusion) (.inl (phase ▸ rfl))
    · exact inv.goOn ((note_same n fd _).trans (putPhase_same _ _)) rfl (phase ▸ rfl)
        (phase ▸ rfl) (fun _ => LinkPhase.noConfusion) (.inl (phase ▸ rfl))
    · exact inv.goOn (((note_same n fd _).trans (ringPut_same _ _ _)).trans (putPhase_same _ _))
        rfl (phase ▸ rfl) (phase ▸ rfl) (fun _ => LinkPhase.noConfusion) (.inl (phase ▸ rfl))
  | _ =>
    simp only [receive, phase]
    exact inv

theorem linkStep_writeInv (inv : n.WriteInv) : n.linkStep.WriteInv := by
  have same (u : TcpLink) (streams : u.streams = n.streams) (opened : u.opened = n.opened)
      (delivered : u.delivered = n.delivered) : SameWrites n u :=
    same_of_streams streams opened delivered
  cases phase : n.phase with
  | publishing fd =>
    simp only [linkStep, phase]
    exact inv.move (same _ rfl rfl rfl) rfl (fun _ here => phase ▸ here)
      (fun _ here => LinkPhase.noConfusion here) fun _ here => phase ▸ here
  | raising fd =>
    simp only [linkStep, phase]
    exact inv.goOn (same _ rfl rfl rfl) rfl (phase ▸ rfl) (phase ▸ rfl)
      (fun _ => LinkPhase.noConfusion) (.inl (phase ▸ rfl))
  | lowering fd =>
    simp only [linkStep, phase]
    exact inv.goOn (same _ rfl rfl rfl) rfl (phase ▸ rfl) (phase ▸ rfl)
      (fun _ => LinkPhase.noConfusion) (.inl (phase ▸ rfl))
  | retracting fd =>
    have conn : n.conn = some fd := inv.conn.trans (by rw [phase]; rfl)
    simp only [linkStep, phase]
    refine inv.move (same _ rfl rfl rfl) (if_pos conn) (fun _ here => phase ▸ here)
      (fun _ here => LinkPhase.noConfusion here)
      fun other here => absurd here.symm (Option.some_ne_none other)
  | closing fd =>
    simp only [linkStep, phase]
    refine inv.move (same _ rfl rfl rfl) (inv.conn.trans (phase ▸ rfl))
      (fun other here => absurd here.symm (Option.some_ne_none other))
      (fun _ here => LinkPhase.noConfusion here)
      fun other here => absurd here.symm (Option.some_ne_none other)
  | _ =>
    simp only [linkStep, phase]
    exact inv

/- The sender. -/

/-- The bytes that the sender writes to a connection. -/
def sentPart (n : TcpLink) (fd : Nat) (results : Nat → Int) (frame : Frame) :
    List (BitVec 8) × Bool :=
  writeFrame (resultsOn (n.streams fd) results) frame

theorem sendLocked_eq {frame : Frame} {fd : Nat} (checked : n.sender = .checked frame)
    (conn : n.conn = some fd) (results : Nat → Int) :
    n.sendLocked results =
      if (n.sentPart fd results frame).2 then
        { (n.wrote fd (n.sentPart fd results frame).1).putSender .idle with
          delivered := n.delivered ++ [(fd, frame)] }
      else ((n.wrote fd (n.sentPart fd results frame).1).breakOff fd
        (n.sentPart fd results frame).1).putSender (.clearing (some fd)) := by
  simp only [sendLocked, checked, conn]
  rfl

theorem published_serves {phase : LinkPhase} {fd : Nat} (published : phase.published = some fd) :
    phase.serves = some fd ∧ TcpLink.greeted phase = some fd := by
  cases phase with
  | raising place => exact ⟨published, published⟩
  | readingLength place got => exact ⟨published, published⟩
  | readingFrame place length got => exact ⟨published, published⟩
  | lowering place => exact ⟨published, published⟩
  | retracting place => exact ⟨published, published⟩
  | _ => exact absurd published.symm (Option.some_ne_none fd)

theorem wrote_other (n : TcpLink) {fd other : Nat} (apart : other ≠ fd) (bytes : List (BitVec 8)) :
    (n.wrote fd bytes).streams other = n.streams other := onStream_other n apart _

theorem breakOff_here (n : TcpLink) (fd : Nat) (bytes : List (BitVec 8)) :
    ((n.wrote fd bytes).breakOff fd bytes).streams fd =
      { n.streams fd with
        written := (n.streams fd).written ++ bytes
        shutDown := true
        broken := (n.streams fd).broken ++ bytes } := by
  rw [breakOff, onStream_here, wrote, onStream_here]

theorem breakOff_other (n : TcpLink) {fd other : Nat} (apart : other ≠ fd)
    (bytes : List (BitVec 8)) :
    ((n.wrote fd bytes).breakOff fd bytes).streams other = n.streams other := by
  rw [breakOff, onStream_other _ apart, wrote, onStream_other _ apart]

theorem sendLocked_writeInv (inv : n.WriteInv)
    (fits : ∀ frame, n.sender = .checked frame → FrameFits ethNetTcpMaxFrame frame)
    (results : Nat → Int) : (n.sendLocked results).WriteInv := by
  cases sender : n.sender with
  | checked frame =>
    cases conn : n.conn with
    | none =>
      simp only [sendLocked, sender, conn]
      exact inv.beside (same_of_streams rfl rfl rfl) rfl rfl
    | some fd =>
      have published : n.phase.published = some fd := inv.conn.symm.trans conn
      obtain ⟨serves, greeted_⟩ := published_serves published
      have inside := inv.opened fd serves
      have whole : n.Greeted fd := inv.greeted fd greeted_
      have only (other : Nat) (serving : n.phase.serves = some other) : other = fd :=
        Option.some.inj (serving.symm.trans serves)
      have past : n.phase ≠ .greeting fd := by
        intro here
        rw [here] at greeted_
        exact absurd greeted_.symm (Option.some_ne_none fd)
      obtain ⟨begins, all⟩ := writeFrame_spec (resultsOn (n.streams fd) results) frame
      rw [sendLocked_eq sender conn, sentPart]
      have stopped (down : (n.streams fd).shutDown = true) :
          writeFrame (resultsOn (n.streams fd) results) frame = ([], false) := by
        rw [resultsOn, if_pos down]
        exact writeFrame_shutDown frame
      generalize writeFrame (resultsOn (n.streams fd) results) frame = part at begins all stopped ⊢
      split_ifs with ok
      · have written : part.1 = framed frame := all.mp ok
        have running : (n.streams fd).shutDown = false := by
          refine Bool.eq_false_iff.mpr fun down => ?_
          rw [stopped down] at ok
          exact Bool.false_ne_true ok
        have unbroken := inv.unbroken fd running
        refine inv.onStream inside rfl (fun other apart => ⟨wrote_other n apart part.1,
          framesOn_append_other _ apart _⟩) inv.conn only past (.inl ⟨greeted_, ?_⟩) ?_ ?_
        · have before : (n.streams fd).written =
              tcpHello ++ frameStream (framesOn n.delivered fd) := by
            rw [whole, unbroken, List.append_nil]
          change ((n.wrote fd part.1).streams fd).written = tcpHello ++
            frameStream (framesOn (n.delivered ++ [(fd, frame)]) fd) ++
              ((n.wrote fd part.1).streams fd).broken
          rw [framesOn_append_here, frameStream_concat, wrote, onStream_here]
          dsimp only
          rw [before, unbroken, written, List.append_nil, List.append_assoc]
        · intro _
          change ((n.wrote fd part.1).streams fd).broken = []
          rw [wrote, onStream_here]
          exact unbroken
        · change Broken ethNetTcpMaxFrame ((n.wrote fd part.1).streams fd).broken
          rw [wrote, onStream_here]
          exact inv.broken fd
      · refine inv.onStream inside rfl (fun other apart => ⟨breakOff_other n apart _, rfl⟩)
          inv.conn only past (.inl ⟨greeted_, ?_⟩) (fun running => ?_) ?_
        · change (((n.wrote fd part.1).breakOff fd part.1).streams fd).written = tcpHello ++
            frameStream (framesOn n.delivered fd) ++
              (((n.wrote fd part.1).breakOff fd part.1).streams fd).broken
          rw [breakOff_here]
          dsimp only
          rw [whole, List.append_assoc]
        · change (((n.wrote fd part.1).breakOff fd part.1).streams fd).shutDown = false at running
          rw [breakOff_here] at running
          exact absurd running.symm Bool.false_ne_true
        · change Broken ethNetTcpMaxFrame
            (((n.wrote fd part.1).breakOff fd part.1).streams fd).broken
          rw [breakOff_here]
          dsimp only
          by_cases down : (n.streams fd).shutDown = true
          · rw [stopped down, List.append_nil]
            exact inv.broken fd
          · rw [inv.unbroken fd (Bool.eq_false_iff.mpr down), List.nil_append]
            exact ⟨frame, fits frame sender, begins, fun same => ok (all.mpr same)⟩
  | _ =>
    simp only [sendLocked, sender]
    exact inv

/-- The frame that waits for the lock. -/
def pending : SendPhase → List Frame
  | .checked frame => [frame]
  | _ => []

structure OrderInv (n : TcpLink) : Prop where
  order : (n.delivered.map Prod.snd ++ pending n.sender).Sublist n.sent
  fits : ∀ frame, n.sender = .checked frame → FrameFits ethNetTcpMaxFrame frame

/-- A step of the link thread leaves the sender alone. -/
structure SameSender (n t : TcpLink) : Prop where
  sender : t.sender = n.sender
  sent : t.sent = n.sent
  delivered : t.delivered = n.delivered

theorem SameSender.orderInv (same : SameSender n t) (inv : n.OrderInv) : t.OrderInv := by
  constructor
  · rw [same.sender, same.sent, same.delivered]
    exact inv.order
  · rw [same.sender]
    exact inv.fits

theorem connect_sender (n : TcpLink) (served : Bool) : SameSender n (n.connect served) := by
  rw [connect]
  cases n.phase <;> exact ⟨rfl, rfl, rfl⟩

theorem greet_sender (n : TcpLink) (results : Nat → Int) : SameSender n (n.greet results) := by
  rw [greet]
  cases n.phase <;> exact ⟨rfl, rfl, rfl⟩

theorem receive_sender (n : TcpLink) (chunk : List (BitVec 8)) :
    SameSender n (n.receive chunk) := by
  rw [receive]
  cases n.phase with
  | awaitingHello fd got =>
    dsimp only
    split_ifs <;> exact ⟨rfl, rfl, rfl⟩
  | readingLength fd got =>
    dsimp only
    split_ifs <;> exact ⟨rfl, rfl, rfl⟩
  | readingFrame fd length got =>
    dsimp only
    split_ifs <;> exact ⟨rfl, rfl, rfl⟩
  | _ => exact ⟨rfl, rfl, rfl⟩

theorem linkStep_sender (n : TcpLink) : SameSender n n.linkStep := by
  rw [linkStep]
  cases n.phase <;> exact ⟨rfl, rfl, rfl⟩

theorem take_sender (n : TcpLink) : SameSender n n.take := by
  rw [take]
  cases n.ring <;> exact ⟨rfl, rfl, rfl⟩

theorem send_orderInv (inv : n.OrderInv) (frame : Frame) : (n.send frame).OrderInv := by
  simp only [send]
  split_ifs with idle dropped long
  · refine ⟨?_, fun other checked => ?_⟩
    · exact inv.order.trans (List.sublist_append_left _ _)
    · exact inv.fits other checked
  · refine ⟨?_, fun other checked => ?_⟩
    · exact inv.order.trans (List.sublist_append_left _ _)
    · exact inv.fits other checked
  · have order := inv.order
    rw [idle] at order
    have shorter : (n.delivered.map Prod.snd).Sublist n.sent :=
      (List.sublist_append_left _ _).trans order
    refine ⟨List.Sublist.append_right shorter [frame], fun other checked => ?_⟩
    obtain rfl : frame = other := by simpa [putSender] using checked
    exact ⟨Nat.pos_of_ne_zero fun none_ => dropped (.inl none_), Nat.le_of_not_lt long⟩
  · exact inv

theorem sendLocked_orderInv (inv : n.OrderInv) (results : Nat → Int) :
    (n.sendLocked results).OrderInv := by
  cases sender : n.sender with
  | checked frame =>
    have order := inv.order
    rw [sender] at order
    have shorter : (n.delivered.map Prod.snd).Sublist n.sent :=
      (List.sublist_append_left _ _).trans order
    cases conn : n.conn with
    | none =>
      simp only [sendLocked, sender, conn]
      exact ⟨(List.append_nil _).symm ▸ shorter, fun _ checked => SendPhase.noConfusion checked⟩
    | some fd =>
      rw [sendLocked_eq sender conn]
      split_ifs
      · refine ⟨?_, fun _ checked => SendPhase.noConfusion checked⟩
        change ((n.delivered ++ [(fd, frame)]).map Prod.snd ++ []).Sublist n.sent
        rw [List.append_nil, List.map_append]
        exact order
      · exact ⟨(List.append_nil _).symm ▸ shorter,
          fun _ checked => SendPhase.noConfusion checked⟩
  | _ =>
    simp only [sendLocked, sender]
    exact inv

theorem clearActive_orderInv (inv : n.OrderInv) : n.clearActive.OrderInv := by
  cases sender : n.sender with
  | clearing failedOn =>
    have order := inv.order
    rw [sender] at order
    simp only [clearActive, sender]
    exact ⟨order, fun _ checked => SendPhase.noConfusion checked⟩
  | _ =>
    simp only [clearActive, sender]
    exact inv

theorem step_orderInv (inv : n.OrderInv) (event : TcpEvent) : (n.step event).OrderInv := by
  cases event with
  | connect served => exact (connect_sender n served).orderInv inv
  | greet results => exact (greet_sender n results).orderInv inv
  | receive chunk => exact (receive_sender n chunk).orderInv inv
  | linkStep => exact (linkStep_sender n).orderInv inv
  | send frame => exact send_orderInv inv frame
  | sendLocked results => exact sendLocked_orderInv inv results
  | clearActive => exact clearActive_orderInv inv
  | take => exact (take_sender n).orderInv inv

theorem send_same (n : TcpLink) (frame : Frame) :
    (n.send frame).streams = n.streams ∧ (n.send frame).conn = n.conn ∧
      (n.send frame).phase = n.phase ∧ (n.send frame).opened = n.opened ∧
      (n.send frame).delivered = n.delivered ∧ (n.send frame).arrived = n.arrived ∧
      (n.send frame).ring = n.ring ∧ (n.send frame).taken = n.taken ∧
      (n.send frame).active = n.active := by
  simp only [send]
  split_ifs <;> exact ⟨rfl, rfl, rfl, rfl, rfl, rfl, rfl, rfl, rfl⟩

theorem step_writeInv (inv : n.WriteInv) (order : n.OrderInv) (event : TcpEvent) :
    (n.step event).WriteInv := by
  cases event with
  | connect served => exact connect_writeInv inv served
  | greet results => exact greet_writeInv inv results
  | receive chunk => exact receive_writeInv inv chunk
  | linkStep => exact linkStep_writeInv inv
  | send frame =>
    obtain ⟨streams, conn, phase, opened, delivered, -⟩ := send_same n frame
    exact inv.beside (same_of_streams streams opened delivered) conn phase
  | sendLocked results => exact sendLocked_writeInv inv order.fits results
  | clearActive =>
    simp only [step, clearActive]
    cases n.sender with
    | clearing failedOn => exact inv.beside (same_of_streams rfl rfl rfl) rfl rfl
    | _ => exact inv
  | take =>
    simp only [step, take]
    cases n.ring with
    | nil => exact inv
    | cons frame rest => exact inv.beside (same_of_streams rfl rfl rfl) rfl rfl

theorem carriesFrames_of_inv (inv : n.WriteInv) (order : n.OrderInv) : n.CarriesFrames :=
  ⟨inv.written, inv.broken, (List.sublist_append_left _ _).trans order.order⟩

/-- Once a write failed nothing more goes out. -/
theorem endsBroken_of_inv (inv : n.WriteInv) (event : TcpEvent) : n.EndsBroken event := by
  intro fd
  refine ⟨fun some_ => ?_, fun down => ?_⟩
  · by_contra running
    exact some_ (inv.unbroken fd (Bool.eq_false_iff.mpr running))
  · cases event with
    | connect served =>
      simp only [step, connect]
      cases n.phase <;> rfl
    | greet results =>
      cases phase : n.phase with
      | greeting place =>
        have apart : fd ≠ place := by
          rintro rfl
          rw [(inv.greeting fd phase).shutDown] at down
          exact Bool.false_ne_true down
        simp only [step, greet, phase]
        rw [putPhase_streams, onStream_other n apart]
      | _ =>
        simp only [step, greet, phase]
    | receive chunk =>
      simp only [step, receive]
      cases n.phase with
      | awaitingHello place got =>
        dsimp only
        split_ifs <;> first | rfl | exact (note_same n place _).written fd
      | readingLength place got =>
        dsimp only
        split_ifs <;> first | rfl | exact (note_same n place _).written fd
      | readingFrame place length got =>
        dsimp only
        split_ifs <;> first | rfl | exact (note_same n place _).written fd
      | _ => rfl
    | linkStep =>
      simp only [step, linkStep]
      cases n.phase <;> rfl
    | send frame =>
      rw [step, (send_same n frame).1]
    | sendLocked results =>
      cases sender : n.sender with
      | checked frame =>
        cases conn : n.conn with
        | none =>
          simp only [step, sendLocked, sender, conn]
          rfl
        | some place =>
          rw [step, sendLocked_eq sender conn]
          by_cases here : fd = place
          · subst here
            have nothing : n.sentPart fd results frame = ([], false) := by
              rw [sentPart, resultsOn, if_pos down]
              exact writeFrame_shutDown frame
            rw [nothing, if_neg Bool.false_ne_true]
            change (((n.wrote fd []).breakOff fd []).streams fd).written = _
            rw [breakOff_here]
            exact List.append_nil _
          · split_ifs
            · exact congrArg TcpStream.written (wrote_other n here _)
            · exact congrArg TcpStream.written (breakOff_other n here _)
      | _ =>
        simp only [step, sendLocked, sender]
    | clearActive =>
      simp only [step, clearActive]
      cases n.sender <;> rfl
    | take =>
      simp only [step, take]
      cases n.ring <;> rfl

/- Reading. -/

/-- What was read ends with the bytes that are no whole frame yet. -/
def AtFrame (n : TcpLink) (fd : Nat) (rest : List (BitVec 8)) : Prop :=
  ∃ hello, hello.length = 5 ∧
    (n.streams fd).received = hello ++ (frameStream (framesOn n.arrived fd) ++ rest)

/-- What the link thread has read of its connection. -/
def ReadNow (n : TcpLink) : Prop :=
  match n.phase with
  | .greeting fd => (n.streams fd).received = [] ∧ framesOn n.arrived fd = []
  | .awaitingHello fd got =>
    (n.streams fd).received = got ∧ got.length < 5 ∧ framesOn n.arrived fd = []
  | .publishing fd => (n.streams fd).received.length = 5 ∧ framesOn n.arrived fd = []
  | .raising fd => (n.streams fd).received.length = 5 ∧ framesOn n.arrived fd = []
  | .readingLength fd got => n.AtFrame fd got ∧ got.length < 2
  | .readingFrame fd length got => n.AtFrame fd (lengthBytes length ++ got) ∧
      got.length < length ∧ length ≤ ethNetTcpMaxFrame
  | _ => True

/-- What was read of a connection, and the frames in it. -/
def Read (n : TcpLink) (fd : Nat) : Prop :=
  (n.streams fd).received.length ≤ 5 ∧ framesOn n.arrived fd = [] ∨
    ∃ rest, n.AtFrame fd rest ∧ Cut ethNetTcpMaxFrame rest

structure ReadInv (n : TcpLink) : Prop where
  read : ∀ fd, n.Read fd
  fits : ∀ fd, ∀ frame ∈ framesOn n.arrived fd, FrameFits ethNetTcpMaxFrame frame
  fresh : ∀ fd, n.opened ≤ fd → (n.streams fd).received = [] ∧ framesOn n.arrived fd = []
  now : n.ReadNow

/-- Nothing is read. -/
structure SameReads (n t : TcpLink) : Prop where
  opened : t.opened = n.opened
  arrived : t.arrived = n.arrived
  received : ∀ fd, (t.streams fd).received = (n.streams fd).received

theorem SameReads.atFrame (same : SameReads n t) (fd : Nat) (rest : List (BitVec 8)) :
    t.AtFrame fd rest ↔ n.AtFrame fd rest := by
  rw [AtFrame, AtFrame, same.received, same.arrived]

theorem ReadInv.move (inv : n.ReadInv) (same : SameReads n t) (now : t.ReadNow) : t.ReadInv where
  read fd := by
    rw [Read, same.received, same.arrived]
    simp only [same.atFrame]
    exact inv.read fd
  fits := by
    rw [same.arrived]
    exact inv.fits
  fresh := by
    rw [same.opened, same.arrived]
    simp only [same.received]
    exact inv.fresh
  now := now

theorem ReadInv.beside (inv : n.ReadInv) (same : SameReads n t) (phase : t.phase = n.phase) :
    t.ReadInv := by
  refine inv.move same ?_
  have now := inv.now
  rw [ReadNow] at now ⊢
  rw [phase, same.arrived]
  simp only [same.received, same.atFrame]
  exact now

/-- The link thread reads from its connection. -/
theorem ReadInv.advance (inv : n.ReadInv) {fd : Nat} (inside : fd < n.opened)
    (opened : t.opened = n.opened)
    (others : ∀ other, other ≠ fd → (t.streams other).received = (n.streams other).received ∧
      framesOn t.arrived other = framesOn n.arrived other)
    (read : t.Read fd) (fits : ∀ frame ∈ framesOn t.arrived fd, FrameFits ethNetTcpMaxFrame frame)
    (now : t.ReadNow) : t.ReadInv where
  read other := by
    by_cases here : other = fd
    · exact here ▸ read
    · obtain ⟨received, arrived⟩ := others other here
      rw [Read, received, arrived]
      simp only [AtFrame, received, arrived]
      exact inv.read other
  fits other := by
    by_cases here : other = fd
    · exact here ▸ fits
    · rw [(others other here).2]
      exact inv.fits other
  fresh other later := by
    rw [opened] at later
    have apart : other ≠ fd := fun same => Nat.not_lt.mpr later (same ▸ inside)
    rw [(others other apart).1, (others other apart).2]
    exact inv.fresh other later
  now := now

theorem note_received (n : TcpLink) (fd : Nat) (bytes : List (BitVec 8)) :
    ((n.note fd bytes).streams fd).received = (n.streams fd).received ++ bytes := by
  rw [note, onStream_here]

theorem note_other (n : TcpLink) {fd other : Nat} (apart : other ≠ fd) (bytes : List (BitVec 8)) :
    (n.note fd bytes).streams other = n.streams other := onStream_other n apart _

theorem AtFrame.note {fd : Nat} {rest : List (BitVec 8)} (at_ : n.AtFrame fd rest)
    (bytes : List (BitVec 8)) : (n.note fd bytes).AtFrame fd (rest ++ bytes) := by
  obtain ⟨hello, five, received⟩ := at_
  refine ⟨hello, five, ?_⟩
  rw [note_received, received]
  simp only [List.append_assoc]
  rfl

/-- A whole frame is handed over. -/
theorem AtFrame.ringPut {fd : Nat} {frame : Frame} (at_ : n.AtFrame fd (framed frame)) :
    (n.ringPut fd frame).AtFrame fd [] := by
  obtain ⟨hello, five, received⟩ := at_
  refine ⟨hello, five, received.trans ?_⟩
  change _ = hello ++ (frameStream (framesOn (n.arrived ++ [(fd, frame)]) fd) ++ [])
  rw [framesOn_append_here, frameStream_concat, List.append_nil]

theorem take_fits {most : Nat} (got chunk : List (BitVec 8)) (short : got.length ≤ most) :
    (got ++ chunk.take (most - got.length)).length ≤ most := by
  rw [List.length_append, List.length_take]
  omega

/-- A step of the link thread on its connection. -/
theorem ReadInv.note (inv : n.ReadInv) {fd : Nat} (inside : fd < n.opened)
    (bytes : List (BitVec 8)) (phase : LinkPhase) (read : (n.note fd bytes).Read fd)
    (now : ((n.note fd bytes).putPhase phase).ReadNow) :
    ((n.note fd bytes).putPhase phase).ReadInv :=
  inv.advance inside rfl
    (fun _ apart => ⟨congrArg TcpStream.received (note_other n apart bytes), rfl⟩) read
    (inv.fits fd) now

theorem putPhase_reads (n : TcpLink) (phase : LinkPhase) : SameReads n (n.putPhase phase) :=
  ⟨rfl, rfl, fun _ => rfl⟩

theorem receive_readInv (inv : n.ReadInv) (write : n.WriteInv) (chunk : List (BitVec 8)) :
    (n.receive chunk).ReadInv := by
  have now := inv.now
  cases phase : n.phase with
  | awaitingHello fd got =>
    rw [ReadNow, phase] at now
    obtain ⟨received, short, none_⟩ := now
    have inside := write.opened fd (by rw [phase]; rfl)
    have most := take_fits got chunk short.le
    have got' : ((n.note fd (chunk.take (5 - got.length))).streams fd).received =
        got ++ chunk.take (5 - got.length) := by
      rw [note_received, received]
    have read : (n.note fd (chunk.take (5 - got.length))).Read fd :=
      .inl ⟨got' ▸ most, none_⟩
    simp only [receive, phase]
    split_ifs with nothing missing accepted
    · exact inv.move (putPhase_reads n _) trivial
    · exact inv.note inside _ _ read ⟨got', missing, none_⟩
    · exact inv.note inside _ _ read ⟨got' ▸ le_antisymm most (Nat.le_of_not_lt missing), none_⟩
    · exact inv.note inside _ _ read trivial
  | readingLength fd got =>
    rw [ReadNow, phase] at now
    obtain ⟨at_, short⟩ := now
    have inside := write.opened fd (by rw [phase]; rfl)
    have most := take_fits got chunk short.le
    have after := at_.note (chunk.take (2 - got.length))
    have read : (n.note fd (chunk.take (2 - got.length))).Read fd :=
      .inr ⟨_, after, cut_of_short most⟩
    simp only [receive, phase]
    generalize got ++ chunk.take (2 - got.length) = both at most after ⊢
    split_ifs with nothing missing fits
    · exact inv.move (putPhase_reads n _) trivial
    · exact inv.note inside _ _ read ⟨after, missing⟩
    · refine inv.note inside _ _ read ⟨?_, fits.1, fits.2⟩
      obtain ⟨high, low, rfl⟩ := List.length_eq_two.mp
        (le_antisymm most (Nat.le_of_not_lt missing))
      rw [lengthBytes_joinLength, List.append_nil]
      exact after
    · exact inv.note inside _ _ read trivial
  | readingFrame fd length got =>
    rw [ReadNow, phase] at now
    obtain ⟨at_, short, limit⟩ := now
    have inside := write.opened fd (by rw [phase]; rfl)
    have most := take_fits got chunk short.le
    have after := at_.note (chunk.take (length - got.length))
    rw [List.append_assoc] at after
    simp only [receive, phase]
    generalize chunk.take (length - got.length) = bytes at most after ⊢
    split_ifs with nothing missing
    · exact inv.move (putPhase_reads n _) trivial
    · exact inv.note inside _ _ (.inr ⟨_, after, cut_of_missing (by decide) limit missing⟩)
        ⟨after, missing, limit⟩
    · have whole : (got ++ bytes).length = length :=
        le_antisymm most (Nat.le_of_not_lt missing)
      have handed : ((n.note fd bytes).ringPut fd (got ++ bytes)).AtFrame fd [] := by
        refine AtFrame.ringPut ?_
        rw [framed, whole]
        exact after
      refine inv.advance inside rfl (fun other apart => ⟨?_, ?_⟩) (.inr ⟨[], handed, ?_⟩) ?_
        ⟨handed, Nat.zero_lt_two⟩
      · exact congrArg TcpStream.received (note_other n apart bytes)
      · exact framesOn_append_other _ apart _
      · exact cut_of_short (Nat.zero_le _)
      · intro frame member
        have member' : frame ∈ framesOn (n.arrived ++ [(fd, got ++ bytes)]) fd := member
        rw [framesOn_append_here] at member'
        rcases List.mem_append.mp member' with before | here
        · exact inv.fits fd frame before
        · rw [List.mem_singleton.mp here]
          exact ⟨whole ▸ Nat.zero_lt_of_lt short, whole ▸ limit⟩
  | _ =>
    simp only [receive, phase]
    exact inv

theorem connect_readInv (inv : n.ReadInv) (served : Bool) : (n.connect served).ReadInv := by
  cases phase : n.phase with
  | idle =>
    simp only [connect, phase]
    refine ⟨inv.read, inv.fits, fun fd later => inv.fresh fd (Nat.le_of_succ_le later), ?_⟩
    cases served with
    | true => exact inv.fresh n.opened le_rfl
    | false => exact trivial
  | _ =>
    simp only [connect, phase]
    exact inv

theorem onStream_reads (n : TcpLink) (fd : Nat) (change : TcpStream → TcpStream)
    (received : (change (n.streams fd)).received = (n.streams fd).received) :
    SameReads n (n.onStream fd change) := by
  refine ⟨rfl, rfl, fun other => ?_⟩
  by_cases here : other = fd
  · subst here
    rw [onStream_here, received]
  · rw [onStream_other n here]

theorem SameReads.trans {u : TcpLink} (first : SameReads n t) (second : SameReads t u) :
    SameReads n u where
  opened := second.opened.trans first.opened
  arrived := second.arrived.trans first.arrived
  received fd := (second.received fd).trans (first.received fd)

theorem greet_readInv (inv : n.ReadInv) (results : Nat → Int) : (n.greet results).ReadInv := by
  have now := inv.now
  cases phase : n.phase with
  | greeting fd =>
    rw [ReadNow, phase] at now
    simp only [greet, phase]
    generalize writeFully tcpHello.length results tcpHello = written
    have same := onStream_reads n fd
      (fun stream => { stream with written := stream.written ++ written.1 }) rfl
    refine inv.move (same.trans (putPhase_reads _ _)) ?_
    cases written.2.1 with
    | true => exact ⟨(same.received fd).trans now.1, by decide, now.2⟩
    | false => exact trivial
  | _ =>
    simp only [greet, phase]
    exact inv

theorem linkStep_readInv (inv : n.ReadInv) : n.linkStep.ReadInv := by
  have now := inv.now
  have same (u : TcpLink) (streams : u.streams = n.streams) (opened : u.opened = n.opened)
      (arrived : u.arrived = n.arrived) : SameReads n u :=
    ⟨opened, arrived, fun fd => by rw [streams]⟩
  rw [ReadNow] at now
  cases phase : n.phase with
  | publishing fd =>
    rw [phase] at now
    simp only [linkStep, phase]
    exact inv.move (same _ rfl rfl rfl) now
  | raising fd =>
    rw [phase] at now
    simp only [linkStep, phase]
    refine inv.move (same _ rfl rfl rfl) ⟨⟨(n.streams fd).received, now.1, ?_⟩, Nat.zero_lt_two⟩
    change _ = _ ++ (frameStream (framesOn n.arrived fd) ++ [])
    rw [now.2]
    exact (List.append_nil _).symm
  | lowering fd =>
    simp only [linkStep, phase]
    exact inv.move (same _ rfl rfl rfl) trivial
  | retracting fd =>
    simp only [linkStep, phase]
    exact inv.move (same _ rfl rfl rfl) trivial
  | closing fd =>
    simp only [linkStep, phase]
    exact inv.move (same _ rfl rfl rfl) trivial
  | _ =>
    simp only [linkStep, phase]
    exact inv

theorem sendLocked_keeps (n : TcpLink) (results : Nat → Int) :
    SameReads n (n.sendLocked results) ∧ (n.sendLocked results).phase = n.phase ∧
      (n.sendLocked results).conn = n.conn ∧ (n.sendLocked results).active = n.active ∧
      (n.sendLocked results).ring = n.ring ∧ (n.sendLocked results).taken = n.taken := by
  have nothing : SameReads n n := ⟨rfl, rfl, fun _ => rfl⟩
  cases sender : n.sender with
  | checked frame =>
    cases conn : n.conn with
    | none =>
      simp only [sendLocked, sender, conn]
      exact ⟨⟨rfl, rfl, fun _ => rfl⟩, rfl, conn, rfl, rfl, rfl⟩
    | some fd =>
      rw [sendLocked_eq sender conn]
      have wrote := onStream_reads n fd (fun stream =>
        { stream with written := stream.written ++ (n.sentPart fd results frame).1 }) rfl
      split_ifs
      · exact ⟨⟨rfl, rfl, wrote.received⟩, rfl, conn, rfl, rfl, rfl⟩
      · have broke := wrote.trans (onStream_reads (n.wrote fd (n.sentPart fd results frame).1) fd
          (fun stream => { stream with
            shutDown := true
            broken := stream.broken ++ (n.sentPart fd results frame).1 }) rfl)
        exact ⟨⟨rfl, rfl, broke.received⟩, rfl, conn, rfl, rfl, rfl⟩
  | _ =>
    have waits : n.sendLocked results = n := by simp only [sendLocked, sender]
    rw [waits]
    exact ⟨nothing, rfl, rfl, rfl, rfl, rfl⟩

theorem clearActive_keeps (n : TcpLink) :
    n.clearActive.streams = n.streams ∧ n.clearActive.phase = n.phase ∧
      n.clearActive.conn = n.conn ∧ n.clearActive.opened = n.opened ∧
      n.clearActive.arrived = n.arrived ∧ n.clearActive.ring = n.ring ∧
      n.clearActive.taken = n.taken := by
  rw [clearActive]
  cases n.sender <;> exact ⟨rfl, rfl, rfl, rfl, rfl, rfl, rfl⟩

theorem take_keeps (n : TcpLink) :
    n.take.streams = n.streams ∧ n.take.phase = n.phase ∧ n.take.conn = n.conn ∧
      n.take.opened = n.opened ∧ n.take.arrived = n.arrived ∧ n.take.active = n.active := by
  rw [take]
  cases n.ring <;> exact ⟨rfl, rfl, rfl, rfl, rfl, rfl⟩

theorem step_readInv (inv : n.ReadInv) (write : n.WriteInv) (event : TcpEvent) :
    (n.step event).ReadInv := by
  cases event with
  | connect served => exact connect_readInv inv served
  | greet results => exact greet_readInv inv results
  | receive chunk => exact receive_readInv inv write chunk
  | linkStep => exact linkStep_readInv inv
  | send frame =>
    obtain ⟨streams, -, phase, opened, -, arrived, -⟩ := send_same n frame
    exact inv.beside ⟨opened, arrived, fun fd => by rw [step, streams]⟩ phase
  | sendLocked results =>
    obtain ⟨same, phase, -⟩ := sendLocked_keeps n results
    exact inv.beside same phase
  | clearActive =>
    obtain ⟨streams, phase, -, opened, arrived, -⟩ := clearActive_keeps n
    exact inv.beside ⟨opened, arrived, fun fd => by rw [step, streams]⟩ phase
  | take =>
    obtain ⟨streams, phase, -, opened, arrived, -⟩ := take_keeps n
    exact inv.beside ⟨opened, arrived, fun fd => by rw [step, streams]⟩ phase

theorem readsFrames_of_inv (inv : n.ReadInv) : n.ReadsFrames := by
  intro fd frames broken fits cut
  have small : ethNetTcpMaxFrame < 65536 := by decide
  have hello : tcpHello.length = 5 := rfl
  rcases inv.read fd with ⟨short, none_⟩ | ⟨rest, ⟨peer, five, received⟩, restCut⟩
  · rw [none_]
    refine ⟨fun _ => List.nil_prefix, fun same => ?_⟩
    cases frames with
    | nil => rfl
    | cons one later =>
      rw [same, frameStream, List.flatMap_cons] at short
      simp only [List.length_append, framed_length, hello] at short
      omega
  · have lengths : peer.length = tcpHello.length := five.trans hello.symm
    rw [received, List.append_assoc tcpHello]
    constructor
    · intro begins
      exact frameStream_begins small fits (inv.fits fd) (cut.cut small)
        ((List.prefix_append_inj_of_length_eq lengths).mp begins).2
    · intro same
      exact frameStream_inj small fits (inv.fits fd) (cut.cut small) restCut
        (List.append_inj same lengths).2

/- The active flag and the ring. -/

structure UpInv (n : TcpLink) : Prop where
  active : ∀ fd, n.phase.up = some fd → (n.streams fd).shutDown = false → n.active = true
  failed : ∀ fd, n.sender = .clearing (some fd) → (n.streams fd).shutDown = true
  clearing : ∀ fd failedOn, n.phase.up = some fd → n.sender = .clearing failedOn →
    failedOn = some fd

theorem up_published {phase : LinkPhase} {fd : Nat} (up : phase.up = some fd) :
    phase.published = some fd := by
  cases phase with
  | readingLength place got => exact up
  | readingFrame place length got => exact up
  | _ => exact absurd up.symm (Option.some_ne_none fd)

/-- A step of the link thread that does not touch the flag. -/
theorem UpInv.goOn (inv : n.UpInv) (sender : t.sender = n.sender)
    (shutDown : ∀ fd, (t.streams fd).shutDown = (n.streams fd).shutDown)
    (active : t.active = n.active)
    (up : ∀ fd, t.phase.up = some fd → n.phase.up = some fd) : t.UpInv where
  active fd here := by
    rw [shutDown, active]
    exact inv.active fd (up fd here)
  failed fd := by
    rw [sender, shutDown]
    exact inv.failed fd
  clearing fd failedOn here := by
    rw [sender]
    exact inv.clearing fd failedOn (up fd here)

theorem connect_upInv (inv : n.UpInv) (served : Bool) : (n.connect served).UpInv := by
  cases phase : n.phase with
  | idle =>
    simp only [connect, phase]
    refine inv.goOn rfl (fun _ => rfl) rfl fun fd here => ?_
    cases served with
    | true => exact absurd here.symm (Option.some_ne_none fd)
    | false => exact absurd here.symm (Option.some_ne_none fd)
  | _ =>
    simp only [connect, phase]
    exact inv

theorem greet_upInv (inv : n.UpInv) (results : Nat → Int) : (n.greet results).UpInv := by
  cases phase : n.phase with
  | greeting fd =>
    simp only [greet, phase]
    generalize writeFully tcpHello.length results tcpHello = written
    refine inv.goOn rfl (fun other => ?_) rfl fun other here => ?_
    · rw [putPhase_streams]
      by_cases same : other = fd
      · rw [same, onStream_here]
      · rw [onStream_other n same]
    · revert here
      cases written.2.1 with
      | true => exact fun here => absurd here.symm (Option.some_ne_none other)
      | false => exact fun here => absurd here.symm (Option.some_ne_none other)
  | _ =>
    simp only [greet, phase]
    exact inv

theorem receive_upInv (inv : n.UpInv) (chunk : List (BitVec 8)) : (n.receive chunk).UpInv := by
  have noted (fd : Nat) (bytes : List (BitVec 8)) (other : Nat) :
      ((n.note fd bytes).streams other).shutDown = (n.streams other).shutDown :=
    (note_same n fd bytes).shutDown other
  have down {phase : LinkPhase} (low : phase.up = none) (fd : Nat) (here : phase.up = some fd) :
      n.phase.up = some fd := absurd (here.symm.trans low) (Option.some_ne_none fd)
  cases phase : n.phase with
  | awaitingHello fd got =>
    simp only [receive, phase]
    split_ifs
    · exact inv.goOn rfl (fun _ => rfl) rfl (down rfl)
    · exact inv.goOn rfl (noted fd _) rfl (down rfl)
    · exact inv.goOn rfl (noted fd _) rfl (down rfl)
    · exact inv.goOn rfl (noted fd _) rfl (down rfl)
  | readingLength fd got =>
    simp only [receive, phase]
    split_ifs
    · exact inv.goOn rfl (fun _ => rfl) rfl (down rfl)
    · exact inv.goOn rfl (noted fd _) rfl fun other here => phase ▸ here
    · exact inv.goOn rfl (noted fd _) rfl fun other here => phase ▸ here
    · exact inv.goOn rfl (noted fd _) rfl (down rfl)
  | readingFrame fd length got =>
    simp only [receive, phase]
    split_ifs
    · exact inv.goOn rfl (fun _ => rfl) rfl (down rfl)
    · exact inv.goOn rfl (noted fd _) rfl fun other here => phase ▸ here
    · exact inv.goOn rfl (noted fd _) rfl fun other here => phase ▸ here
  | _ =>
    simp only [receive, phase]
    exact inv

/-- The flag is raised when no older failure has still to clear it. -/
theorem linkStep_upInv (inv : n.UpInv) (keeps : n.KeepsUp .linkStep) : n.linkStep.UpInv := by
  have down {phase : LinkPhase} (low : phase.up = none) (fd : Nat) (here : phase.up = some fd) :
      n.phase.up = some fd := absurd (here.symm.trans low) (Option.some_ne_none fd)
  cases phase : n.phase with
  | publishing fd =>
    simp only [linkStep, phase]
    exact inv.goOn rfl (fun _ => rfl) rfl (down rfl)
  | raising fd =>
    simp only [linkStep, phase]
    refine ⟨fun _ _ _ => rfl, inv.failed, fun other failedOn here clearing => ?_⟩
    obtain rfl := Option.some.inj here
    exact keeps fd failedOn phase clearing
  | lowering fd =>
    simp only [linkStep, phase]
    exact ⟨fun other here => absurd here.symm (Option.some_ne_none other), inv.failed,
      fun other _ here => absurd here.symm (Option.some_ne_none other)⟩
  | retracting fd =>
    simp only [linkStep, phase]
    exact inv.goOn rfl (fun _ => rfl) rfl (down rfl)
  | closing fd =>
    simp only [linkStep, phase]
    exact inv.goOn rfl (fun _ => rfl) rfl (down rfl)
  | _ =>
    simp only [linkStep, phase]
    exact inv

theorem send_upInv (inv : n.UpInv) (frame : Frame) : (n.send frame).UpInv := by
  simp only [send]
  split_ifs with idle
  · exact inv.goOn rfl (fun _ => rfl) rfl fun _ => id
  · exact inv.goOn rfl (fun _ => rfl) rfl fun _ => id
  · exact ⟨inv.active, fun _ clearing => SendPhase.noConfusion clearing,
      fun _ _ _ clearing => SendPhase.noConfusion clearing⟩
  · exact inv

/-- A write that fails concerns the connection that is up. -/
theorem sendLocked_upInv (inv : n.UpInv) (write : n.WriteInv) (results : Nat → Int) :
    (n.sendLocked results).UpInv := by
  cases sender : n.sender with
  | checked frame =>
    have served {fd : Nat} (up : n.phase.up = some fd) : n.conn = some fd :=
      write.conn.trans (up_published up)
    cases conn : n.conn with
    | none =>
      simp only [sendLocked, sender, conn]
      refine ⟨inv.active, fun fd clearing => ?_, fun fd failedOn up _ => ?_⟩
      · exact absurd (SendPhase.clearing.inj clearing).symm (Option.some_ne_none fd)
      · exact absurd ((served up).symm.trans conn) (Option.some_ne_none fd)
    | some place =>
      rw [sendLocked_eq sender conn]
      split_ifs
      · have kept (fd : Nat) : ((n.wrote place (n.sentPart place results frame).1).streams
            fd).shutDown = (n.streams fd).shutDown := by
          by_cases same : fd = place
          · rw [same, wrote, onStream_here]
          · rw [wrote_other n same]
        exact ⟨fun fd up running => inv.active fd up ((kept fd).symm.trans running),
          fun _ clearing => SendPhase.noConfusion clearing,
          fun _ _ _ clearing => SendPhase.noConfusion clearing⟩
      · refine ⟨fun fd up running => ?_, fun fd clearing => ?_, fun fd failedOn up clearing => ?_⟩
        · obtain rfl := Option.some.inj ((served up).symm.trans conn)
          refine absurd running ?_
          change ¬ (((n.wrote fd _).breakOff fd _).streams fd).shutDown = false
          rw [breakOff_here]
          exact Bool.true_eq_false_eq_False
        · obtain rfl := Option.some.inj (SendPhase.clearing.inj clearing)
          change (((n.wrote place _).breakOff place _).streams place).shutDown = true
          rw [breakOff_here]
        · rw [← SendPhase.clearing.inj clearing, ← conn]
          exact served up
  | _ =>
    simp only [sendLocked, sender]
    exact inv

theorem clearActive_upInv (inv : n.UpInv) : n.clearActive.UpInv := by
  cases sender : n.sender with
  | clearing failedOn =>
    simp only [clearActive, sender]
    refine ⟨fun fd up running => ?_, fun _ clearing => SendPhase.noConfusion clearing,
      fun _ _ _ clearing => SendPhase.noConfusion clearing⟩
    have same := inv.clearing fd failedOn up sender
    rw [same] at sender
    exact absurd ((inv.failed fd sender).symm.trans running) Bool.true_eq_false_eq_False
  | _ =>
    simp only [clearActive, sender]
    exact inv

theorem take_upInv (inv : n.UpInv) : n.take.UpInv := by
  obtain ⟨streams, phase, -, -, -, active⟩ := take_keeps n
  exact inv.goOn (take_sender n).sender (fun fd => by rw [streams]) active
    fun fd here => phase ▸ here

theorem step_upInv (inv : n.UpInv) (write : n.WriteInv) (event : TcpEvent)
    (keeps : n.KeepsUp event) : (n.step event).UpInv := by
  cases event with
  | connect served => exact connect_upInv inv served
  | greet results => exact greet_upInv inv results
  | receive chunk => exact receive_upInv inv chunk
  | linkStep => exact linkStep_upInv inv keeps
  | send frame => exact send_upInv inv frame
  | sendLocked results => exact sendLocked_upInv inv write results
  | clearActive => exact clearActive_upInv inv
  | take => exact take_upInv inv

theorem staysUp_of_inv (inv : n.UpInv) (write : n.WriteInv) : n.StaysUp :=
  fun fd up running => ⟨inv.active fd up running, write.conn.trans (up_published up)⟩

theorem writesFrame_of_inv (inv : n.UpInv) (write : n.WriteInv) (event : TcpEvent) :
    n.WritesFrame event := by
  cases event with
  | send frame =>
    intro fd up running idle fits
    have active := inv.active fd up running
    simp only [step, send]
    rw [if_pos idle, if_neg, if_neg (Nat.not_lt.mpr fits.2)]
    · rfl
    · rintro (none_ | low)
      · exact Nat.not_lt.mpr (Nat.le_zero.mpr none_) fits.1
      · exact absurd (active.symm.trans low) Bool.true_eq_false_eq_False
  | sendLocked results =>
    intro fd frame up running checked
    have conn : n.conn = some fd := write.conn.trans (up_published up)
    rw [step, sendLocked_eq checked conn]
    split_ifs
    · exact .inl rfl
    · right
      change (((n.wrote fd _).breakOff fd _).streams fd).shutDown = true
      rw [breakOff_here]
  | _ => exact trivial

theorem receive_ring (ring : n.RingInOrder) (read : n.ReadInv) (chunk : List (BitVec 8))
    (keeps : n.KeepsUp (.receive chunk)) : (n.receive chunk).RingInOrder := by
  cases phase : n.phase with
  | awaitingHello fd got =>
    simp only [receive, phase]
    split_ifs <;> exact ring
  | readingLength fd got =>
    simp only [receive, phase]
    split_ifs <;> exact ring
  | readingFrame fd length got =>
    have now := read.now
    rw [ReadNow, phase] at now
    have most := take_fits got chunk now.2.1.le
    have room : length ≤ (got ++ chunk.take (length - got.length)).length →
        n.ring.length < ethNetRxRingSize := by
      intro whole
      refine keeps fd length got phase (whole.trans ?_)
      rw [List.length_append, List.length_take]
      omega
    simp only [receive, phase]
    generalize chunk.take (length - got.length) = bytes at most room ⊢
    split_ifs with nothing missing
    · exact ring
    · exact ring
    · have stored : (got ++ bytes).take ethNetTcpMaxFrame = got ++ bytes :=
        List.take_of_length_le (most.trans now.2.2)
      have handed : (((n.note fd bytes).ringPut fd (got ++ bytes)).putPhase
          (.readingLength fd [])).ring = n.ring ++ [got ++ bytes] := by
        change (if ethNetRxRingSize ≤ n.ring.length then n.ring
          else n.ring ++ [(got ++ bytes).take ethNetTcpMaxFrame]) = _
        rw [if_neg (Nat.not_le.mpr (room (Nat.le_of_not_lt missing))), stored]
      rw [RingInOrder, handed]
      change n.taken ++ (n.ring ++ [got ++ bytes]) =
        (n.arrived ++ [(fd, got ++ bytes)]).map Prod.snd
      rw [← List.append_assoc, show n.taken ++ n.ring = n.arrived.map Prod.snd from ring,
        List.map_append]
      rfl
  | _ =>
    simp only [receive, phase]
    exact ring

/-- A step that neither fills nor empties the ring. -/
theorem RingInOrder.kept (ring : n.RingInOrder) (taken : t.taken = n.taken) (same : t.ring = n.ring)
    (arrived : t.arrived = n.arrived) : t.RingInOrder := by
  rw [RingInOrder, taken, same, arrived]
  exact ring

theorem step_ring (ring : n.RingInOrder) (read : n.ReadInv) (event : TcpEvent)
    (keeps : n.KeepsUp event) : (n.step event).RingInOrder := by
  cases event with
  | connect served =>
    simp only [step, connect]
    cases n.phase <;> exact ring
  | greet results =>
    simp only [step, greet]
    cases n.phase <;> exact ring
  | receive chunk => exact receive_ring ring read chunk keeps
  | linkStep =>
    simp only [step, linkStep]
    cases n.phase <;> exact ring
  | send frame =>
    obtain ⟨-, -, -, -, -, arrived, same, taken, -⟩ := send_same n frame
    exact ring.kept taken same arrived
  | sendLocked results =>
    obtain ⟨reads, -, -, -, same, taken⟩ := sendLocked_keeps n results
    exact ring.kept taken same reads.arrived
  | clearActive =>
    obtain ⟨-, -, -, -, arrived, same, taken⟩ := clearActive_keeps n
    exact ring.kept taken same arrived
  | take =>
    cases held : n.ring with
    | nil =>
      simp only [step, take, held]
      exact ring
    | cons frame rest =>
      rw [RingInOrder, held] at ring
      simp only [step, take, held]
      change n.taken ++ [frame] ++ rest = _
      rw [List.append_assoc]
      exact ring

/- Runs. -/

/-- What holds between the steps of both threads. -/
structure Between (n : TcpLink) : Prop where
  write : n.WriteInv
  order : n.OrderInv
  read : n.ReadInv

theorem step_between (event : TcpEvent) (between : n.Between) : (n.step event).Between :=
  ⟨step_writeInv between.write between.order event, step_orderInv between.order event,
    step_readInv between.read between.write event⟩

theorem start_between : start.Between where
  write :=
    { conn := rfl
      opened := fun fd here => absurd here.symm (Option.some_ne_none fd)
      fresh := fun _ _ => ⟨rfl, rfl, rfl, rfl⟩
      greeting := fun _ here => LinkPhase.noConfusion here
      greeted := fun fd here => absurd here.symm (Option.some_ne_none fd)
      written := fun _ => .inl ⟨List.nil_prefix, rfl⟩
      unbroken := fun _ _ => rfl
      broken := fun _ => nothing_broken }
  order := ⟨List.Sublist.refl _, fun _ checked => SendPhase.noConfusion checked⟩
  read :=
    { read := fun _ => .inl ⟨Nat.zero_le _, rfl⟩
      fits := fun _ _ member => absurd member List.not_mem_nil
      fresh := fun _ _ => ⟨rfl, rfl⟩
      now := trivial }

theorem start_upInv : start.UpInv :=
  ⟨fun fd here => absurd here.symm (Option.some_ne_none fd),
    fun _ clearing => SendPhase.noConfusion clearing,
    fun _ _ _ clearing => SendPhase.noConfusion clearing⟩

theorem run_staysUp (events : List TcpEvent) (between : n.Between) (inv : n.UpInv)
    (ring : n.RingInOrder) (keeps : EachStep step KeepsUp n events) :
    EachState step (fun n => n.RingInOrder ∧ n.StaysUp) n events ∧
      EachStep step WritesFrame n events := by
  induction events generalizing n with
  | nil => exact ⟨⟨ring, staysUp_of_inv inv between.write⟩, trivial⟩
  | cons event rest ih =>
    have later := ih (step_between event between)
      (step_upInv inv between.write event keeps.1) (step_ring ring between.read event keeps.1)
      keeps.2
    exact ⟨⟨⟨ring, staysUp_of_inv inv between.write⟩, later.1⟩,
      writesFrame_of_inv inv between.write event, later.2⟩

/-- Whole frames are written and read in every run, and what is sent over a connection that is up
is written to it where no older failure is left when it is reported. -/
theorem link_carries_frames (events : List TcpEvent) :
    EachState step (fun n => n.CarriesFrames ∧ n.ReadsFrames) start events ∧
      EachStep step EndsBroken start events ∧
      (EachStep step KeepsUp start events →
        EachState step (fun n => n.RingInOrder ∧ n.StaysUp) start events ∧
          EachStep step WritesFrame start events) := by
  have each := eachState_of_keeps (fun _ event between => step_between event between)
    start_between events
  refine ⟨each.weaken fun n between => ?_, ?_, ?_⟩
  · exact ⟨carriesFrames_of_inv between.write between.order, readsFrames_of_inv between.read⟩
  · exact eachStep_of_keeps (fun _ event between => step_between event between)
      (fun _ event between => endsBroken_of_inv between.write event) start_between events
  · exact run_staysUp events start_between start_upInv rfl

/-- All calls of send take what they are given. -/
def allSent : Nat → Int := fun _ => 4096

def allFailed : Nat → Int := fun _ => -1

/-- A connection comes up. -/
def comesUp : List TcpEvent :=
  [.connect true, .greet allSent, .receive tcpHello, .linkStep, .linkStep]

/-- A connection ends and is closed. -/
def goesDown : List TcpEvent := [.receive [], .linkStep, .linkStep, .linkStep]

theorem link_carries_sent :
    EachState step (fun n => n.RingInOrder ∧ n.StaysUp) start
        (comesUp ++ [.send [1, 2], .sendLocked allSent, .receive [0, 1], .receive [7], .take]) ∧
      EachStep step WritesFrame start
        (comesUp ++ [.send [1, 2], .sendLocked allSent, .receive [0, 1], .receive [7], .take]) := by
  refine (link_carries_frames _).2.2 ⟨trivial, trivial, ?_, ?_, ?_, trivial, trivial, ?_, ?_,
    trivial, trivial⟩
  · exact fun _ _ _ here => LinkPhase.noConfusion here
  · exact fun _ _ here => LinkPhase.noConfusion here
  · exact fun _ _ _ here => SendPhase.noConfusion here
  · exact fun _ _ _ here => LinkPhase.noConfusion here
  · exact fun _ _ _ _ _ => by decide

/-- A send that failed on the first connection clears the flag of the second. -/
theorem link_stays_inactive :
    ¬ EachState step (fun n => n.RingInOrder ∧ n.StaysUp) start
      (comesUp ++ [.send [1], .sendLocked allFailed] ++ goesDown ++ comesUp ++ [.clearActive]) := by
  intro each
  have up := each.final.2 1 rfl rfl
  exact absurd up.1 (by decide)

end TcpLink

end Nd100x.Ethernet
