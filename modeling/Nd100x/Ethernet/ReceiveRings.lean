import Nd100x.Ethernet.IpChecksum
import Nd100x.Ethernet.TcpLink
import Nd100x.Library.Ring
import Mathlib.Tactic.SplitIfs

namespace Nd100x.Ethernet

open Nd100x.Library

section Model

def ethNetMaxFrame : Nat := ethNetTcpMaxFrame
def lanceReceiveQueueSize : Nat := 16
def lancePacketBytes : Nat := 4096
def ethMinFrameBytes : Nat := 60

/-- The ring of a backend. A slot holds the bytes that were copied last. -/
structure EthNet where
  ring : Nat → List Byte
  ringLength : Nat → Nat
  ringWrite : Nat
  ringRead : Nat
  ringCount : Nat
  framesReceived : Nat
  framesDroppedRing : Nat

namespace EthNet

def create : EthNet := ⟨fun _ => [], fun _ => 0, 0, 0, 0, 0, 0⟩

def hasFrame (net : EthNet) : Bool := 0 < net.ringCount

/-- A full ring drops the frame. -/
def ringPut (net : EthNet) (data : List Byte) : EthNet :=
  let length := min data.length ethNetMaxFrame
  if ethNetRxRingSize ≤ net.ringCount then
    { net with framesDroppedRing := net.framesDroppedRing + 1 }
  else
    { ring := Function.update net.ring net.ringWrite (data.take length)
      ringLength := Function.update net.ringLength net.ringWrite length
      ringWrite := (net.ringWrite + 1) % ethNetRxRingSize
      ringRead := net.ringRead
      ringCount := net.ringCount + 1
      framesReceived := net.framesReceived + 1
      framesDroppedRing := net.framesDroppedRing }

def receive (net : EthNet) (size : Nat) : List Byte × EthNet :=
  if size = 0 ∨ net.ringCount = 0 then ([], net)
  else
    let length := min (net.ringLength net.ringRead) size
    ((net.ring net.ringRead).take length,
      { net with
        ringRead := (net.ringRead + 1) % ethNetRxRingSize
        ringCount := net.ringCount - 1 })

end EthNet

/-- The receive queue of the chip. -/
structure ReceiveQueue where
  rxQueue : Nat → List Byte
  rxQueueLengths : Nat → Nat
  rxQueueUsed : Nat → Bool
  rxQueueHead : Nat
  rxQueueTail : Nat
  rxQueueCount : Nat

namespace ReceiveQueue

def create : ReceiveQueue := ⟨fun _ => [], fun _ => 0, fun _ => false, 0, 0, 0⟩

def enqueueReceivedPacket (queue : ReceiveQueue) (data : List Byte) : ReceiveQueue :=
  if lanceReceiveQueueSize ≤ queue.rxQueueCount then queue
  else
    let copy := min data.length lancePacketBytes
    { rxQueue := Function.update queue.rxQueue queue.rxQueueHead (data.take copy)
      rxQueueLengths := Function.update queue.rxQueueLengths queue.rxQueueHead copy
      rxQueueUsed := Function.update queue.rxQueueUsed queue.rxQueueHead true
      rxQueueHead := (queue.rxQueueHead + 1) &&& (lanceReceiveQueueSize - 1)
      rxQueueTail := queue.rxQueueTail
      rxQueueCount := queue.rxQueueCount + 1 }

/-- One turn of the loop of `lance_clock`, with the packet for `lance_receive_packet`. -/
def takePacket (queue : ReceiveQueue) : Option (List Byte) × ReceiveQueue :=
  let packet := (queue.rxQueue queue.rxQueueTail).take (queue.rxQueueLengths queue.rxQueueTail)
  (if queue.rxQueueUsed queue.rxQueueTail then some packet else none,
    { queue with
      rxQueueUsed := Function.update queue.rxQueueUsed queue.rxQueueTail false
      rxQueueTail := (queue.rxQueueTail + 1) &&& (lanceReceiveQueueSize - 1)
      rxQueueCount := queue.rxQueueCount - 1 })

/-- Every turn takes one packet of the count away. -/
def clockLoop : (turns : Nat) → ReceiveQueue → List (List Byte) × ReceiveQueue
  | 0, queue => ([], queue)
  | turns + 1, queue =>
    if queue.rxQueueCount = 0 then ([], queue)
    else
      let taken := queue.takePacket
      let later := clockLoop turns taken.2
      (taken.1.toList ++ later.1, later.2)

/-- The packets that a clock gives to `lance_receive_packet`. -/
def clock (queue : ReceiveQueue) : List (List Byte) × ReceiveQueue :=
  queue.clockLoop queue.rxQueueCount

end ReceiveQueue

/-- The card with the backend that is attached to it. -/
structure EthReceiver where
  net : EthNet
  queue : ReceiveQueue
  physicalAddress : Vector Byte 6
  repairChecksums : Bool
  ownEchoesDropped : Nat
  checksumsRepaired : Nat
  runtFramesPadded : Nat

/-- What an order to the chip does to its address. -/
inductive LanceOrder where
  | reset
  | executeInitialize (physicalAddress : Vector Byte 6)

namespace EthReceiver

def create (repairChecksums : Bool) : EthReceiver :=
  ⟨.create, .create, Vector.replicate 6 0, repairChecksums, 0, 0, 0⟩

def isOwn (physicalAddress : Vector Byte 6) (data : List Byte) : Bool :=
  12 ≤ data.length ∧ (data.drop 6).take 6 = physicalAddress.toList

def deliverReceived (card : EthReceiver) (data : List Byte) : EthReceiver :=
  if isOwn card.physicalAddress data then
    { card with ownEchoesDropped := card.ownEchoesDropped + 1 }
  else
    let repaired :=
      if card.repairChecksums then
        (IpChecksum.ethIpcsumRepair data data.length).getD (IpChecksum.ethIpcsumNone, data)
      else (IpChecksum.ethIpcsumNone, data)
    let runt := 14 ≤ data.length ∧ data.length < ethMinFrameBytes
    let padded :=
      if runt then repaired.2 ++ List.replicate (ethMinFrameBytes - data.length) 0 else repaired.2
    { card with
      queue := card.queue.enqueueReceivedPacket padded
      checksumsRepaired :=
        card.checksumsRepaired + if repaired.1 ≠ IpChecksum.ethIpcsumNone then 1 else 0
      runtFramesPadded := card.runtFramesPadded + if runt then 1 else 0 }

/-- One turn of the loop of `eth_poll_network`, with the frame that it takes from the ring.
The loop ends where there is none. -/
def pollTurn (card : EthReceiver) : Option (List Byte) × EthReceiver :=
  if card.net.hasFrame ∧ card.queue.rxQueueCount < lanceReceiveQueueSize then
    let received := card.net.receive ethNetMaxFrame
    if received.1.length = 0 then (none, { card with net := received.2 })
    else (some received.1, { card with net := received.2 }.deliverReceived received.1)
  else (none, card)

def order (card : EthReceiver) : LanceOrder → EthReceiver
  | .reset => { card with physicalAddress := Vector.replicate 6 0 }
  | .executeInitialize physicalAddress => { card with physicalAddress }

end EthReceiver

end Model

section Purpose

/-- The slots in use of a backend, the oldest first, with the lengths of their frames. -/
def EthNet.slots (net : EthNet) : List (List Byte × Nat) :=
  (List.range net.ringCount).map fun k =>
    let slot := (net.ringRead + k) % ethNetRxRingSize
    (net.ring slot, net.ringLength slot)

def ReceiveQueue.slots (queue : ReceiveQueue) : List (List Byte × Nat) :=
  (List.range queue.rxQueueCount).map fun k =>
    let slot := (queue.rxQueueTail + k) % lanceReceiveQueueSize
    (queue.rxQueue slot, queue.rxQueueLengths slot)

/-- The frames that wait. -/
def EthNet.contents (net : EthNet) : List (List Byte) := net.slots.map fun slot => slot.1.take slot.2

def ReceiveQueue.contents (queue : ReceiveQueue) : List (List Byte) :=
  queue.slots.map fun slot => slot.1.take slot.2

/-- A backend hands over no empty frame. -/
inductive EthEvent where
  | arrive (frame : List Byte) (some_ : frame ≠ [])
  | clock
  | order (order : LanceOrder)
  | pollTurn

/-- A card with what has happened to the frames: those that the backend took in, those that left
its ring with the address of that moment, and those that the chip was given. -/
structure EthHistory where
  card : EthReceiver
  accepted : List (List Byte)
  taken : List (List Byte × Vector Byte 6)
  given : List (List Byte)

namespace EthHistory

def start (repairChecksums : Bool) : EthHistory := ⟨.create repairChecksums, [], [], []⟩

def step (h : EthHistory) : EthEvent → EthHistory
  | .arrive frame _ =>
    { h with
      card := { h.card with net := h.card.net.ringPut frame }
      accepted :=
        if h.card.net.contents.length < ethNetRxRingSize then h.accepted ++ [frame]
        else h.accepted }
  | .clock =>
    { h with
      card := { h.card with queue := h.card.queue.clock.2 }
      given := h.given ++ h.card.queue.clock.1 }
  | .order order => { h with card := h.card.order order }
  | .pollTurn =>
    { h with
      card := h.card.pollTurn.2
      taken := h.taken ++ (h.card.pollTurn.1.map fun frame => (frame, h.card.physicalAddress)).toList }

def run (h : EthHistory) (events : List EthEvent) : EthHistory := events.foldl step h

/-- A tick: the clock of the chip, the orders of its processor and the poll of the backend, which
takes at most what its ring holds. -/
def tickEvents (orders : List LanceOrder) : List EthEvent :=
  .clock :: orders.map .order ++ List.replicate ethNetRxRingSize .pollTurn

end EthHistory

/-- A frame with its checksums repaired and a runt padded with zeros. -/
def asReceived (repairChecksums : Bool) (frame : List Byte) : List Byte :=
  let repaired :=
    if repairChecksums then
      ((IpChecksum.ethIpcsumRepair frame frame.length).getD (IpChecksum.ethIpcsumNone, frame)).2
    else frame
  if 14 ≤ frame.length ∧ frame.length < ethMinFrameBytes then
    repaired ++ List.replicate (ethMinFrameBytes - frame.length) 0
  else repaired

/-- A frame that the card sent itself is left out. -/
def kept (repairChecksums : Bool) (taken : List Byte × Vector Byte 6) : Option (List Byte) :=
  if EthReceiver.isOwn taken.2 taken.1 then none else some (asReceived repairChecksums taken.1)

/-- Every frame that was taken in is in the backend, in the chip or given, in its order. -/
structure EthHistory.InOrder (h : EthHistory) : Prop where
  taken : h.taken.map Prod.fst ++ h.card.net.contents = h.accepted.map (List.take ethNetMaxFrame)
  given : h.given ++ h.card.queue.contents = h.taken.filterMap (kept h.card.repairChecksums)

/-- Nothing waits. -/
structure EthHistory.Drained (h : EthHistory) : Prop where
  net : h.card.net.contents = []
  queue : h.card.queue.contents = []

end Purpose

theorem update_pair {A B : Type} (first : Nat → A) (second : Nat → B) (place : Nat) (a : A) (b : B) :
    (fun k => (Function.update first place a k, Function.update second place b k)) =
      Function.update (fun k => (first k, second k)) place (a, b) := by
  funext k
  by_cases here : k = place
  · subst here
    simp only [Function.update_self]
  · simp only [Function.update_of_ne here]

theorem take_min (data : List Byte) (bound : Nat) :
    (data.take (min data.length bound)).take (min data.length bound) = data.take bound := by
  rw [List.take_take, Nat.min_self]
  rcases Nat.le_total data.length bound with short | long
  · rw [Nat.min_eq_left short, List.take_length, List.take_of_length_le short]
  · rw [Nat.min_eq_right long]

namespace EthNet

variable {net : EthNet}

/-- The places are inside the ring, and every slot in use holds a frame. -/
structure Inside (net : EthNet) : Prop where
  read : net.ringRead < ethNetRxRingSize
  count : net.ringCount ≤ ethNetRxRingSize
  write : net.ringWrite = (net.ringRead + net.ringCount) % ethNetRxRingSize
  whole : ∀ slot ∈ net.slots, slot.2 ≤ ethNetMaxFrame ∧ slot.1.take slot.2 ≠ []

def Inside.toRing (inside : net.Inside) : Ring (List Byte × Nat) ethNetRxRingSize where
  slots k := (net.ring k, net.ringLength k)
  head := net.ringRead
  count := net.ringCount
  inside := inside.read
  fits := inside.count

@[simp] theorem contents_length : net.contents.length = net.ringCount := by
  rw [contents, slots, List.length_map, List.length_map, List.length_range]

theorem ringPut_full (full : ethNetRxRingSize ≤ net.ringCount) (data : List Byte) :
    (net.ringPut data).contents = net.contents := by
  rw [ringPut]
  simp only [if_pos full]
  rfl

theorem ringPut_slots (inside : net.Inside) (room : net.ringCount < ethNetRxRingSize)
    (data : List Byte) : (net.ringPut data).slots = net.slots ++
      [(data.take (min data.length ethNetMaxFrame), min data.length ethNetMaxFrame)] := by
  refine Eq.trans ?_ (inside.toRing.put_values
    (data.take (min data.length ethNetMaxFrame), min data.length ethNetMaxFrame) room)
  rw [Ring.values, ringPut, slots]
  simp only [if_neg (Nat.not_le.mpr room), inside.write]
  refine List.map_congr_left fun k _ => ?_
  exact congrFun (update_pair net.ring net.ringLength _ _ _) _

theorem ringPut_contents (inside : net.Inside) (room : net.ringCount < ethNetRxRingSize)
    (data : List Byte) :
    (net.ringPut data).contents = net.contents ++ [data.take ethNetMaxFrame] := by
  rw [contents, contents, ringPut_slots inside room, List.map_append, List.map_singleton, take_min]

theorem ringPut_inside (inside : net.Inside) {data : List Byte} (some_ : data ≠ []) :
    (net.ringPut data).Inside := by
  by_cases full : ethNetRxRingSize ≤ net.ringCount
  · have same : net.ringPut data = { net with framesDroppedRing := net.framesDroppedRing + 1 } := by
      rw [ringPut]
      exact if_pos full
    rw [same]
    exact ⟨inside.read, inside.count, inside.write, inside.whole⟩
  · have room := Nat.not_le.mp full
    have added := ringPut_slots inside room data
    have read : (net.ringPut data).ringRead = net.ringRead := by
      rw [ringPut]
      simp only [if_neg full]
    have count : (net.ringPut data).ringCount = net.ringCount + 1 := by
      rw [ringPut]
      simp only [if_neg full]
    have write : (net.ringPut data).ringWrite = (net.ringWrite + 1) % ethNetRxRingSize := by
      rw [ringPut]
      simp only [if_neg full]
    refine ⟨read ▸ inside.read, count ▸ room, ?_, ?_⟩
    · rw [write, read, count, inside.write, Nat.mod_add_mod, Nat.add_assoc]
    · rw [added]
      intro slot member
      rcases List.mem_append.mp member with old | new
      · exact inside.whole slot old
      · obtain rfl := List.mem_singleton.mp new
        refine ⟨Nat.min_le_right _ _, ?_⟩
        rw [take_min]
        simp only [ne_eq, List.take_eq_nil_iff, not_or]
        exact ⟨by decide, some_⟩

/-- What is received is the oldest frame, which is not empty. -/
theorem receive_contents (inside : net.Inside) (some_ : net.ringCount ≠ 0) :
    net.contents = (net.receive ethNetMaxFrame).1 :: (net.receive ethNetMaxFrame).2.contents ∧
      (net.receive ethNetMaxFrame).1 ≠ [] ∧ (net.receive ethNetMaxFrame).2.Inside := by
  have taken : net.slots = (net.ring net.ringRead, net.ringLength net.ringRead) ::
      (net.receive ethNetMaxFrame).2.slots := by
    refine (inside.toRing.values_take some_).trans ?_
    rw [receive, if_neg (by simp only [some_, or_false]; decide)]
    rfl
  have first := inside.whole _ (taken ▸ List.mem_cons_self)
  have frame : (net.receive ethNetMaxFrame).1 =
      (net.ring net.ringRead).take (net.ringLength net.ringRead) := by
    rw [receive, if_neg (by simp only [some_, or_false]; decide)]
    dsimp only
    rw [Nat.min_eq_left first.1]
  refine ⟨?_, frame ▸ first.2, ?_⟩
  · rw [contents, taken, List.map_cons, frame]
    rfl
  · refine ⟨?_, ?_, ?_, fun slot member => inside.whole slot (taken ▸ List.mem_cons_of_mem _ member)⟩
    all_goals rw [receive, if_neg (by simp only [some_, or_false]; decide)]
    · exact Nat.mod_lt _ (by decide)
    · exact (Nat.sub_le _ _).trans inside.count
    · have write := inside.write
      dsimp only
      rw [write, Nat.mod_add_mod]
      congr 1
      omega

theorem receive_count (net : EthNet) (some_ : net.ringCount ≠ 0) :
    (net.receive ethNetMaxFrame).2.ringCount = net.ringCount - 1 := by
  rw [receive, if_neg (by simp only [some_, or_false]; decide)]

end EthNet

namespace ReceiveQueue

variable {queue : ReceiveQueue}

theorem and_mask (place : Nat) :
    place &&& (lanceReceiveQueueSize - 1) = place % lanceReceiveQueueSize :=
  Nat.and_two_pow_sub_one_eq_mod place 4

/-- The places are inside the queue, and every slot in use is marked so. -/
structure Inside (queue : ReceiveQueue) : Prop where
  tail : queue.rxQueueTail < lanceReceiveQueueSize
  count : queue.rxQueueCount ≤ lanceReceiveQueueSize
  head : queue.rxQueueHead = (queue.rxQueueTail + queue.rxQueueCount) % lanceReceiveQueueSize
  used : ∀ k < queue.rxQueueCount,
    queue.rxQueueUsed ((queue.rxQueueTail + k) % lanceReceiveQueueSize) = true

def Inside.toRing (inside : queue.Inside) : Ring (List Byte × Nat) lanceReceiveQueueSize where
  slots k := (queue.rxQueue k, queue.rxQueueLengths k)
  head := queue.rxQueueTail
  count := queue.rxQueueCount
  inside := inside.tail
  fits := inside.count

@[simp] theorem contents_length : queue.contents.length = queue.rxQueueCount := by
  rw [contents, slots, List.length_map, List.length_map, List.length_range]

theorem contents_nil : queue.contents = [] ↔ queue.rxQueueCount = 0 := by
  rw [← List.length_eq_zero_iff, contents_length]

theorem enqueue_contents (inside : queue.Inside) (room : queue.rxQueueCount < lanceReceiveQueueSize)
    (data : List Byte) :
    (queue.enqueueReceivedPacket data).contents = queue.contents ++ [data.take lancePacketBytes] := by
  have added : (queue.enqueueReceivedPacket data).slots = queue.slots ++
      [(data.take (min data.length lancePacketBytes), min data.length lancePacketBytes)] := by
    refine Eq.trans ?_ (inside.toRing.put_values
      (data.take (min data.length lancePacketBytes), min data.length lancePacketBytes) room)
    rw [Ring.values, enqueueReceivedPacket, slots]
    simp only [if_neg (Nat.not_le.mpr room), inside.head]
    refine List.map_congr_left fun k _ => ?_
    exact congrFun (update_pair queue.rxQueue queue.rxQueueLengths _ _ _) _
  rw [contents, contents, added, List.map_append, List.map_singleton, take_min]

theorem enqueue_inside (inside : queue.Inside) (room : queue.rxQueueCount < lanceReceiveQueueSize)
    (data : List Byte) : (queue.enqueueReceivedPacket data).Inside := by
  rw [enqueueReceivedPacket, if_neg (Nat.not_le.mpr room)]
  refine ⟨inside.tail, room, ?_, fun k below => ?_⟩
  · dsimp only
    rw [and_mask, inside.head, Nat.mod_add_mod, Nat.add_assoc]
  · dsimp only at below ⊢
    rcases Nat.lt_succ_iff_lt_or_eq.mp below with old | rfl
    · rw [Function.update_of_ne (by
        rw [inside.head]
        exact Ring.place_ne old room)]
      exact inside.used k old
    · rw [inside.head, Function.update_self]

/-- A turn gives the oldest packet. -/
theorem takePacket_contents (inside : queue.Inside) (some_ : queue.rxQueueCount ≠ 0) :
    queue.contents = queue.takePacket.1.toList ++ queue.takePacket.2.contents ∧
      queue.takePacket.2.Inside := by
  have taken : queue.slots = (queue.rxQueue queue.rxQueueTail, queue.rxQueueLengths queue.rxQueueTail) ::
      queue.takePacket.2.slots := by
    refine (inside.toRing.values_take some_).trans ?_
    rw [takePacket, and_mask]
    rfl
  have tail := inside.tail
  have first : queue.rxQueueUsed queue.rxQueueTail = true := by
    have used := inside.used 0 (Nat.pos_of_ne_zero some_)
    rwa [Nat.add_zero, Nat.mod_eq_of_lt tail] at used
  constructor
  · rw [contents, taken, List.map_cons, takePacket, if_pos first]
    rfl
  · rw [takePacket]
    refine ⟨?_, (Nat.sub_le _ _).trans inside.count, ?_, fun k below => ?_⟩
    · dsimp only
      rw [and_mask]
      exact Nat.mod_lt _ (by decide)
    · dsimp only
      rw [and_mask, inside.head, Nat.mod_add_mod]
      congr 1
      omega
    · dsimp only at below ⊢
      have full := inside.count
      have place : (queue.rxQueueTail + 1 + k) % lanceReceiveQueueSize ≠ queue.rxQueueTail := by
        have apart := @Ring.place_ne _ queue.rxQueueTail 0 (k + 1) (Nat.succ_pos k)
          (show k + 1 < lanceReceiveQueueSize by omega)
        rw [Nat.add_zero, Nat.mod_eq_of_lt tail] at apart
        rw [Nat.add_assoc, Nat.add_comm 1 k]
        exact apart.symm
      rw [and_mask, Nat.mod_add_mod, Function.update_of_ne place, Nat.add_assoc, Nat.add_comm 1 k]
      exact inside.used (k + 1) (by omega)

theorem takePacket_count (queue : ReceiveQueue) :
    queue.takePacket.2.rxQueueCount = queue.rxQueueCount - 1 := rfl

/-- The clock gives all that waits. -/
theorem clockLoop_spec (turns : Nat) (inside : queue.Inside) (enough : queue.rxQueueCount ≤ turns) :
    (queue.clockLoop turns).1 = queue.contents ∧ (queue.clockLoop turns).2.rxQueueCount = 0 ∧
      (queue.clockLoop turns).2.Inside := by
  induction turns generalizing queue with
  | zero =>
    have none_ : queue.rxQueueCount = 0 := Nat.le_zero.mp enough
    exact ⟨(contents_nil.mpr none_).symm, none_, inside⟩
  | succ turns ih =>
    rw [clockLoop]
    by_cases none_ : queue.rxQueueCount = 0
    · rw [if_pos none_]
      exact ⟨(contents_nil.mpr none_).symm, none_, inside⟩
    · rw [if_neg none_]
      obtain ⟨split, later⟩ := takePacket_contents inside none_
      obtain ⟨given, empty, settled⟩ := ih later (by rw [takePacket_count]; omega)
      refine ⟨?_, empty, settled⟩
      dsimp only
      rw [given, ← split]

theorem clock_spec (inside : queue.Inside) :
    queue.clock.1 = queue.contents ∧ queue.clock.2.rxQueueCount = 0 ∧ queue.clock.2.Inside :=
  clockLoop_spec _ inside le_rfl

end ReceiveQueue

namespace EthReceiver

variable {card : EthReceiver}

structure Inside (card : EthReceiver) : Prop where
  net : card.net.Inside
  queue : card.queue.Inside

theorem create_inside (repairChecksums : Bool) : (create repairChecksums).Inside where
  net := ⟨show 0 < 512 by decide, show 0 ≤ 512 by decide, rfl,
    fun slot member => absurd member List.not_mem_nil⟩
  queue := ⟨show 0 < 16 by decide, show 0 ≤ 16 by decide, rfl,
    fun k below => absurd below (Nat.not_lt_zero k)⟩

/-- A repair keeps the length, and a packet fits in the queue of the chip. -/
theorem asReceived_length (repairChecksums : Bool) {frame : List Byte}
    (fits : frame.length ≤ ethNetMaxFrame) :
    (asReceived repairChecksums frame).length ≤ lancePacketBytes := by
  obtain ⟨flags, repaired, well, _, run⟩ := IpChecksum.ethIpcsumRepair_repairs frame
  have plain := run []
  rw [List.append_nil, List.append_nil] at plain
  have same : (if repairChecksums then
      ((IpChecksum.ethIpcsumRepair frame frame.length).getD (IpChecksum.ethIpcsumNone, frame)).2
      else frame).length = frame.length := by
    rw [plain]
    cases repairChecksums
    · rfl
    · exact well.length
  have sizes : ethNetMaxFrame = 2048 ∧ lancePacketBytes = 4096 ∧ ethMinFrameBytes = 60 :=
    ⟨rfl, rfl, rfl⟩
  unfold asReceived
  dsimp only
  generalize (if repairChecksums then _ else _ : List Byte) = mended at same ⊢
  split
  · rw [List.length_append, List.length_replicate]
    omega
  · omega

theorem deliverReceived_queue (card : EthReceiver) (data : List Byte) :
    (card.deliverReceived data).queue =
      match kept card.repairChecksums (data, card.physicalAddress) with
      | none => card.queue
      | some frame => card.queue.enqueueReceivedPacket frame := by
  rw [deliverReceived, kept]
  by_cases own : isOwn card.physicalAddress data = true
  · rw [if_pos own, if_pos own]
  · rw [if_neg own, if_neg own]
    dsimp only [asReceived]
    cases card.repairChecksums <;> rfl

theorem deliverReceived_kept (card : EthReceiver) (data : List Byte) :
    (card.deliverReceived data).net = card.net ∧
      (card.deliverReceived data).repairChecksums = card.repairChecksums := by
  rw [deliverReceived]
  split <;> exact ⟨rfl, rfl⟩

/-- A frame that is delivered is enqueued, unless it is the card's own. -/
theorem deliverReceived_contents (inside : card.Inside)
    (room : card.queue.rxQueueCount < lanceReceiveQueueSize) {data : List Byte}
    (fits : data.length ≤ ethNetMaxFrame) :
    (card.deliverReceived data).queue.contents = card.queue.contents ++
        (kept card.repairChecksums (data, card.physicalAddress)).toList ∧
      (card.deliverReceived data).Inside := by
  rw [deliverReceived_queue]
  have net : (card.deliverReceived data).net.Inside := by
    rw [(card.deliverReceived_kept data).1]
    exact inside.net
  have queued := card.deliverReceived_queue data
  by_cases own : isOwn card.physicalAddress data = true
  · have left : kept card.repairChecksums (data, card.physicalAddress) = none := if_pos own
    rw [left] at queued ⊢
    exact ⟨(List.append_nil _).symm, net, queued ▸ inside.queue⟩
  · have entered : kept card.repairChecksums (data, card.physicalAddress) =
        some (asReceived card.repairChecksums data) := if_neg own
    rw [entered] at queued ⊢
    dsimp only at queued ⊢
    refine ⟨?_, net, queued ▸ ReceiveQueue.enqueue_inside inside.queue room _⟩
    rw [ReceiveQueue.enqueue_contents inside.queue room,
      List.take_of_length_le (asReceived_length _ fits)]
    rfl

/-- A turn of the poll stops, or moves the oldest frame. -/
theorem pollTurn_cases (inside : card.Inside) :
    (card.pollTurn = (none, card) ∧
      (card.net.ringCount = 0 ∨ lanceReceiveQueueSize ≤ card.queue.rxQueueCount)) ∨
    ∃ frame, card.pollTurn.1 = some frame ∧
      card.net.contents = frame :: card.pollTurn.2.net.contents ∧
      card.net.ringCount = card.pollTurn.2.net.ringCount + 1 ∧
      card.pollTurn.2.queue.contents = card.queue.contents ++
        (kept card.repairChecksums (frame, card.physicalAddress)).toList ∧
      card.pollTurn.2.repairChecksums = card.repairChecksums ∧ card.pollTurn.2.Inside := by
  by_cases moves : card.net.hasFrame = true ∧ card.queue.rxQueueCount < lanceReceiveQueueSize
  · right
    have some_ : card.net.ringCount ≠ 0 := Nat.pos_iff_ne_zero.mp (of_decide_eq_true moves.1)
    obtain ⟨split, filled, settled⟩ := EthNet.receive_contents inside.net some_
    have fits : (card.net.receive ethNetMaxFrame).1.length ≤ ethNetMaxFrame := by
      rw [EthNet.receive, if_neg (by simp only [some_, or_false]; decide)]
      exact (List.length_take_le _ _).trans (Nat.min_le_right _ _)
    have turn : card.pollTurn = (some (card.net.receive ethNetMaxFrame).1,
        { card with net := (card.net.receive ethNetMaxFrame).2 }.deliverReceived
          (card.net.receive ethNetMaxFrame).1) := by
      rw [pollTurn, if_pos moves]
      exact if_neg (fun zero => filled (List.length_eq_zero_iff.mp zero))
    have moved : Inside { card with net := (card.net.receive ethNetMaxFrame).2 } :=
      ⟨settled, inside.queue⟩
    obtain ⟨contents, after⟩ := deliverReceived_contents moved moves.2 fits
    have same := deliverReceived_kept { card with net := (card.net.receive ethNetMaxFrame).2 }
      (card.net.receive ethNetMaxFrame).1
    refine ⟨_, by rw [turn], ?_, ?_, ?_, ?_, ?_⟩
    · rw [turn]
      dsimp only
      rw [same.1]
      exact split
    · rw [turn]
      dsimp only
      rw [same.1]
      dsimp only
      rw [EthNet.receive_count _ some_]
      omega
    · rw [turn]
      exact contents
    · rw [turn]
      exact same.2
    · rw [turn]
      exact after
  · left
    refine ⟨if_neg moves, ?_⟩
    rcases not_and_or.mp moves with empty | full
    · exact .inl (Nat.eq_zero_of_not_pos fun some_ => empty (decide_eq_true some_))
    · exact .inr (Nat.not_lt.mp full)

end EthReceiver

namespace EthHistory

variable {h : EthHistory}

structure Sound (h : EthHistory) : Prop extends h.InOrder where
  inside : h.card.Inside

theorem start_sound (repairChecksums : Bool) : (start repairChecksums).Sound :=
  ⟨⟨rfl, rfl⟩, EthReceiver.create_inside repairChecksums⟩

theorem order_same (card : EthReceiver) (order : LanceOrder) :
    (card.order order).net = card.net ∧ (card.order order).queue = card.queue ∧
      (card.order order).repairChecksums = card.repairChecksums := by
  cases order <;> exact ⟨rfl, rfl, rfl⟩

theorem arrive_sound (sound : h.Sound) {frame : List Byte} (some_ : frame ≠ []) :
    (h.step (.arrive frame some_)).Sound := by
  have net := sound.inside.net
  refine ⟨⟨?_, sound.given⟩, ⟨EthNet.ringPut_inside net some_, sound.inside.queue⟩⟩
  dsimp only [step]
  rw [EthNet.contents_length]
  by_cases room : h.card.net.ringCount < ethNetRxRingSize
  · rw [if_pos room, EthNet.ringPut_contents net room, List.map_append, ← sound.taken,
      List.append_assoc]
    rfl
  · rw [if_neg room, EthNet.ringPut_full (Nat.not_lt.mp room)]
    exact sound.taken

theorem clock_sound (sound : h.Sound) : (h.step .clock).Sound := by
  obtain ⟨given, empty, settled⟩ := ReceiveQueue.clock_spec sound.inside.queue
  refine ⟨⟨sound.taken, ?_⟩, ⟨sound.inside.net, settled⟩⟩
  dsimp only [step]
  rw [given, ReceiveQueue.contents_nil.mpr empty, List.append_nil]
  exact sound.given

theorem order_sound (sound : h.Sound) (order : LanceOrder) : (h.step (.order order)).Sound := by
  obtain ⟨net, queue, repair⟩ := order_same h.card order
  refine ⟨⟨?_, ?_⟩, ⟨?_, ?_⟩⟩ <;> dsimp only [step]
  · rw [net]
    exact sound.taken
  · rw [queue, repair]
    exact sound.given
  · rw [net]
    exact sound.inside.net
  · rw [queue]
    exact sound.inside.queue

theorem pollTurn_sound (sound : h.Sound) : (h.step .pollTurn).Sound := by
  rcases EthReceiver.pollTurn_cases sound.inside with
    ⟨stops, _⟩ | ⟨frame, taken, split, _, entered, repair, inside⟩
  · have same : h.step .pollTurn = h := by
      rw [step, stops]
      exact congrArg (fun taken => { h with taken }) (List.append_nil _)
    rw [same]
    exact sound
  · refine ⟨⟨?_, ?_⟩, inside⟩ <;> dsimp only [step]
    · rw [taken, ← sound.taken, split]
      simp only [Option.map_some, Option.toList_some, List.map_append, List.map_singleton,
        List.append_assoc, List.singleton_append]
    · rw [taken, entered, repair, ← List.append_assoc, sound.given]
      simp only [Option.map_some, Option.toList_some, List.filterMap_append]
      congr 1

theorem step_sound (sound : h.Sound) (event : EthEvent) : (h.step event).Sound := by
  cases event with
  | arrive frame some_ => exact arrive_sound sound some_
  | clock => exact clock_sound sound
  | order order => exact order_sound sound order
  | pollTurn => exact pollTurn_sound sound

theorem run_sound (sound : h.Sound) (events : List EthEvent) : (h.run events).Sound := by
  induction events generalizing h with
  | nil => exact sound
  | cons event rest ih => exact ih (step_sound sound event)

theorem run_append (h : EthHistory) (first second : List EthEvent) :
    h.run (first ++ second) = (h.run first).run second := List.foldl_append

theorem run_cons (h : EthHistory) (event : EthEvent) (rest : List EthEvent) :
    h.run (event :: rest) = (h.step event).run rest := rfl

/-- The orders to the chip move no frame. -/
theorem orders_counts (h : EthHistory) (orders : List LanceOrder) :
    (h.run (orders.map .order)).card.net = h.card.net ∧
      (h.run (orders.map .order)).card.queue = h.card.queue := by
  induction orders generalizing h with
  | nil => exact ⟨rfl, rfl⟩
  | cons order rest ih =>
    obtain ⟨net, queue⟩ := ih (h.step (.order order))
    obtain ⟨net', queue', _⟩ := order_same h.card order
    exact ⟨net.trans net', queue.trans queue'⟩

/-- Turns of the poll empty the backend no further than it was filled. -/
theorem polls_count (sound : h.Sound) (turns : Nat) :
    (h.run (List.replicate turns .pollTurn)).card.net.ringCount ≤ h.card.net.ringCount ∧
      (h.card.net.ringCount = 0 → h.run (List.replicate turns .pollTurn) = h) := by
  induction turns generalizing h with
  | zero => exact ⟨le_rfl, fun _ => rfl⟩
  | succ turns ih =>
    obtain ⟨fewer, stays⟩ := ih (pollTurn_sound sound)
    rcases EthReceiver.pollTurn_cases sound.inside with ⟨stops, _⟩ | ⟨frame, taken, _, count, _⟩
    · have same : h.step .pollTurn = h := by
        rw [step, stops]
        exact congrArg (fun taken => { h with taken }) (List.append_nil _)
      rw [same] at fewer stays
      rw [List.replicate_succ]
      change (run (h.step .pollTurn) _).card.net.ringCount ≤ _ ∧ (_ → run (h.step .pollTurn) _ = h)
      rw [same]
      exact ⟨fewer, stays⟩
    · refine ⟨?_, fun none_ => ?_⟩
      · rw [List.replicate_succ]
        refine fewer.trans ?_
        change h.card.pollTurn.2.net.ringCount ≤ _
        omega
      · omega

/-- A tick takes a frame from a backend that has one, and empties a chip that gets none. -/
theorem tick_counts (sound : h.Sound) (orders : List LanceOrder) :
    (h.run (tickEvents orders)).card.net.ringCount ≤ h.card.net.ringCount - 1 ∧
      (h.card.net.ringCount = 0 → (h.run (tickEvents orders)).Drained) := by
  let ordered := (h.step .clock).run (orders.map .order)
  have entered : ordered.Sound := run_sound (clock_sound sound) _
  have counts := orders_counts (h.step .clock) orders
  have net : ordered.card.net.ringCount = h.card.net.ringCount :=
    congrArg EthNet.ringCount counts.1
  have queue : ordered.card.queue.rxQueueCount = 0 :=
    (congrArg ReceiveQueue.rxQueueCount counts.2).trans
      (ReceiveQueue.clock_spec sound.inside.queue).2.1
  have ticked : h.run (tickEvents orders) =
      (ordered.step .pollTurn).run (List.replicate 511 .pollTurn) := by
    rw [tickEvents, run_append, run_cons, show ethNetRxRingSize = 511 + 1 from rfl,
      List.replicate_succ, run_cons]
  have rest := polls_count (pollTurn_sound entered) 511
  rw [ticked]
  rcases EthReceiver.pollTurn_cases entered.inside with ⟨stops, empty⟩ | ⟨frame, _, _, count, _⟩
  · have none_ : ordered.card.net.ringCount = 0 := by
      rcases empty with none_ | full
      · exact none_
      · rw [queue] at full
        exact absurd full (by decide)
    have same : ordered.step .pollTurn = ordered := by
      rw [step, stops]
      exact congrArg (fun taken => { ordered with taken }) (List.append_nil _)
    rw [same] at rest ⊢
    have stays := rest.2 none_
    rw [stays]
    refine ⟨by omega, fun _ => ⟨?_, ReceiveQueue.contents_nil.mpr queue⟩⟩
    rw [← List.length_eq_zero_iff, EthNet.contents_length]
    exact none_
  · have fewer : (ordered.step .pollTurn).card.net.ringCount + 1 = ordered.card.net.ringCount :=
      count.symm
    exact ⟨by omega, fun none_ => by omega⟩

/-- After more ticks than frames wait in the backend, nothing waits. -/
theorem ticks_drain (sound : h.Sound) (ticks : List (List LanceOrder))
    (enough : h.card.net.ringCount < ticks.length) :
    (h.run (ticks.flatMap tickEvents)).Drained := by
  induction ticks generalizing h with
  | nil => exact absurd enough (Nat.not_lt_zero _)
  | cons orders rest ih =>
    rw [List.flatMap_cons, run_append]
    obtain ⟨fewer, drained⟩ := tick_counts sound orders
    rw [List.length_cons] at enough
    cases rest with
    | nil => exact drained (by simpa using enough)
    | cons next rest =>
      refine ih (run_sound sound _) ?_
      rw [List.length_cons] at enough ⊢
      omega

/-- In every run the frames go from the backend to the chip in the order in which they came. -/
theorem received_in_order (repairChecksums : Bool) (events : List EthEvent) :
    let h := (start repairChecksums).run events
    h.InOrder ∧ ∀ ticks : List (List LanceOrder), h.card.net.contents.length < ticks.length →
      let later := h.run (ticks.flatMap tickEvents)
      later.InOrder ∧ later.Drained := by
  have sound := run_sound (start_sound repairChecksums) events
  refine ⟨sound.toInOrder, fun ticks enough => ⟨(run_sound sound _).toInOrder, ?_⟩⟩
  exact ticks_drain sound ticks (by rwa [EthNet.contents_length] at enough)

end EthHistory

end Nd100x.Ethernet
