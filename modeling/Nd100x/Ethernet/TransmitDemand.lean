import Nd100x.Ethernet.LanceLine

namespace Nd100x.Ethernet

open Nd100x.Library Am7990Lance

namespace LanceBoard

section Purpose

/-- The first status word of a descriptor, at a place of the transmit ring. -/
def statusWord (dram : Nat → Byte) (base : BitVec 32) (pos : Byte) : Word :=
  let address := ringAddr base pos ||| 2
  let place := (address &&& 0xFFFFFF).toNat
  if dmaInside address then ((dram place).setWidth 16 <<< 8) ||| (dram (place + 1)).setWidth 16
  else 0

/-- The place behind a number of descriptors. -/
def placeBehind (mask : Byte) : (pos : Byte) → (count : Nat) → Byte
  | pos, 0 => pos
  | pos, count + 1 => placeBehind mask (nextPos pos mask) count

/-- The places of a number of descriptors from one on. -/
def places (mask : Byte) : (pos : Byte) → (count : Nat) → List Byte
  | _, 0 => []
  | pos, count + 1 => pos :: places mask (nextPos pos mask) count

/-- The chip owns the descriptors, and the last of them ends a packet. -/
def EndsFrame (status : Byte → Word) (mask : Byte) : (pos : Byte) → (count : Nat) → Prop
  | _, 0 => False
  | pos, 1 => anyFlag (status pos) Md1.own = true ∧ anyFlag (status pos) Md1.enp = true
  | pos, count + 2 =>
    anyFlag (status pos) Md1.own = true ∧ anyFlag (status pos) Md1.enp = false ∧
      EndsFrame status mask (nextPos pos mask) (count + 1)

/-- Complete frames with these numbers of descriptors follow a place of the ring. -/
def HoldsFrames (status : Byte → Word) (mask : Byte) : (pos : Byte) → (counts : List Nat) → Prop
  | _, [] => True
  | pos, count :: rest =>
    anyFlag (status pos) Md1.stp = true ∧ EndsFrame status mask pos count ∧
      HoldsFrames status mask (placeBehind mask pos count) rest

/-- The transmit ring of a board, as its chip reads it. -/
def txStatus (m : LanceBoard) (pos : Byte) : Word := statusWord m.dram m.lance.txRingBase pos

/-- The descriptors of the frames that follow the ring position. -/
def framePlaces (m : LanceBoard) (counts : List Nat) : List Byte :=
  places m.lance.txRingMask m.lance.txRingPos counts.sum

/-- Each frame has its own descriptors. -/
structure TransmitRing (m : LanceBoard) (counts : List Nat) : Prop where
  frames : HoldsFrames m.txStatus m.lance.txRingMask m.lance.txRingPos counts
  apart : ((m.framePlaces counts).map (ringAddr m.lance.txRingBase)).Nodup

/-- The chip is asked for a transmission and not stopped. -/
def Demands (value : Word) : Prop := anyFlag value Csr0.tdmd = true ∧ anyFlag value Csr0.stop = false

def demanded (m : LanceBoard) (value : Word) (clocks : Nat) : LanceBoard :=
  clock^[clocks] (m.writeCsr0 value)

/-- One packet for each frame has left the chip, and every descriptor is the driver's again. -/
structure Drained (m t : LanceBoard) (counts : List Nat) : Prop where
  packets : ∃ packets, t.transmitted = m.transmitted ++ packets ∧ packets.length = counts.length
  returned : ∀ pos ∈ m.framePlaces counts,
    anyFlag (statusWord t.dram m.lance.txRingBase pos) Md1.own = false

/-- The packets that wait to be received are not stored over the descriptors of the frames. -/
def ReceivesBeside (m t : LanceBoard) (counts : List Nat) : Prop :=
  ∀ pos ∈ m.framePlaces counts,
    statusWord t.drainQueue.dram m.lance.txRingBase pos = statusWord t.dram m.lance.txRingBase pos

/-- A chip that was used in any way. The processors store what they want into the memory. -/
inductive Used : LanceBoard → Prop
  | create (startAddress : BitVec 32) (swapByteLanes : Bool) (dram : Nat → Byte) (cpuMask : Nat) :
      Used (create startAddress swapByteLanes dram cpuMask)
  | step {m : LanceBoard} (used : Used m) (event : LanceEvent) : Used (m.step event)
  | store {m : LanceBoard} (used : Used m) (dram : Nat → Byte) : Used { m with dram }

end Purpose

/- What steers the transmitter. -/

def steerFlags : Word := Csr0.strt ||| Csr0.stop ||| Csr0.tdmd ||| Csr0.txon

structure Steering where
  flags : Word
  mode : Word
  txRingBase : BitVec 32
  txRingMask : Byte
  txRingPos : Byte
  txMd1 : Word
  transmitterEnabled : Bool
  txPollPending : Bool
  transmitted : List (List Byte)

def steering (m : LanceBoard) : Steering where
  flags := m.lance.csr0 &&& steerFlags
  mode := m.lance.mode
  txRingBase := m.lance.txRingBase
  txRingMask := m.lance.txRingMask
  txRingPos := m.lance.txRingPos
  txMd1 := m.lance.txMd1
  transmitterEnabled := m.lance.transmitterEnabled
  txPollPending := m.lance.txPollPending
  transmitted := m.transmitted

/-- A step leaves the transmitter as it is. -/
structure Steers (m t : LanceBoard) : Prop where
  steering : t.steering = m.steering

/-- A step leaves the memory as well. -/
structure Calm (m t : LanceBoard) : Prop extends Steers m t where
  dram : t.dram = m.dram

variable {m t u : LanceBoard}

theorem Steers.refl (m : LanceBoard) : Steers m m := ⟨rfl⟩

theorem Steers.trans (first : Steers m t) (second : Steers t u) : Steers m u :=
  ⟨second.steering.trans first.steering⟩

theorem Calm.refl (m : LanceBoard) : Calm m m := ⟨.refl m, rfl⟩

theorem Calm.trans (first : Calm m t) (second : Calm t u) : Calm m u :=
  ⟨first.toSteers.trans second.toSteers, second.dram.trans first.dram⟩

theorem onLance_calm (m : LanceBoard) (change : Am7990Lance → Am7990Lance)
    (same : ∀ n : LanceBoard, (n.onLance change).steering = n.steering) : Calm m (m.onLance change) :=
  ⟨⟨same m⟩, rfl⟩

theorem putRxMd1_calm (m : LanceBoard) (word : Word) : Calm m (m.putRxMd1 word) :=
  onLance_calm m _ fun _ => rfl

theorem putRxRingPos_calm (m : LanceBoard) (pos : Byte) : Calm m (m.putRxRingPos pos) :=
  onLance_calm m _ fun _ => rfl

theorem orCsr0_calm (m : LanceBoard) {flags : Word} (apart : flags &&& steerFlags = 0) :
    Calm m (m.orCsr0 flags) where
  toSteers := by
    have same : (m.lance.csr0 ||| flags) &&& steerFlags = m.lance.csr0 &&& steerFlags :=
      or_and_of_apart apart
    exact ⟨congrArg (fun flags => ({ m.steering with flags } : Steering)) same⟩
  dram := rfl

theorem dropCsr0_calm (m : LanceBoard) {flags : Word} (apart : flags &&& steerFlags = 0) :
    Calm m (m.dropCsr0 flags) where
  toSteers := by
    have same : m.lance.csr0 &&& ~~~flags &&& steerFlags = m.lance.csr0 &&& steerFlags :=
      and_not_and apart
    exact ⟨congrArg (fun flags => ({ m.steering with flags } : Steering)) same⟩
  dram := rfl

theorem checkInterrupts_calm (m : LanceBoard) : Calm m m.checkInterrupts := by
  have flagged : Calm m (if shouldInterrupt m.lance.csr0 m.lance.csr3 then m.orCsr0 Csr0.intr
      else m.dropCsr0 Csr0.intr) := by
    split_ifs
    · exact orCsr0_calm m (by decide)
    · exact dropCsr0_calm m (by decide)
  simp only [checkInterrupts]
  generalize (if shouldInterrupt m.lance.csr0 m.lance.csr3 then m.orCsr0 Csr0.intr
      else m.dropCsr0 Csr0.intr) = flaggedBoard at flagged ⊢
  split_ifs
  all_goals exact ⟨⟨flagged.steering⟩, flagged.dram⟩

theorem setMemoryError_calm (m : LanceBoard) : Calm m m.setMemoryError :=
  (orCsr0_calm m (by decide)).trans (checkInterrupts_calm _)

theorem dmaIn_calm (m : LanceBoard) (address : BitVec 32) : Calm m (m.dmaIn address).1 := by
  simp only [dmaIn]
  have noted : Calm m (m.noteAccess address) := ⟨⟨rfl⟩, rfl⟩
  split_ifs
  · exact noted
  · exact noted.trans (setMemoryError_calm _)

theorem dmaOut_steers (m : LanceBoard) (address : BitVec 32) (data : Word) :
    Steers m (m.dmaOut address data) := by
  simp only [dmaOut]
  have noted : Calm m (m.noteAccess address) := ⟨⟨rfl⟩, rfl⟩
  split_ifs
  · exact ⟨rfl⟩
  · exact (noted.trans (setMemoryError_calm _)).toSteers

theorem putPacket_calm (m : LanceBoard) (pos : Nat) (byte : Byte) : Calm m (m.putPacket pos byte) := by
  rw [putPacket]
  split_ifs <;> exact ⟨⟨rfl⟩, rfl⟩

theorem readPair_calm (m : LanceBoard) (address : BitVec 32) (pos : Nat) :
    Calm m (m.readPair address pos) := by
  simp only [readPair]
  split_ifs
  · exact ((dmaIn_calm m address).trans (putPacket_calm _ _ _)).trans (putPacket_calm _ _ _)
  · exact ((dmaIn_calm m address).trans (putPacket_calm _ _ _)).trans (putPacket_calm _ _ _)
  · exact dmaIn_calm m address

theorem readPairs_calm (m : LanceBoard) (address : BitVec 32) (pos pairs : Nat) :
    Calm m (m.readPairs address pos pairs) := by
  induction pairs generalizing m address pos with
  | zero => exact .refl m
  | succ pairs ih =>
    exact (readPair_calm m address pos).trans (ih _ _ _)

theorem readEven_calm (m : LanceBoard) (address : BitVec 32) (pos length : Nat) :
    Calm m (m.readEven address pos length) := by
  have pairs := readPairs_calm m address pos (length / 2)
  simp only [readEven]
  split_ifs
  · exact (pairs.trans (dmaIn_calm _ _)).trans (putPacket_calm _ _ _)
  · exact pairs

theorem dmaReadBuffer_calm (m : LanceBoard) (address : BitVec 32) (offset length : Nat) :
    Calm m (m.dmaReadBuffer address offset length) := by
  rw [dmaReadBuffer]
  split_ifs
  · exact ((dmaIn_calm m _).trans (putPacket_calm _ _ _)).trans (readEven_calm _ _ _ _)
  · exact readEven_calm m address offset length

theorem appendFcs_calm (m : LanceBoard) (length : Nat) : Calm m (m.appendFcs length).1 := by
  simp only [appendFcs]
  split_ifs
  · exact (((putPacket_calm m _ _).trans (putPacket_calm _ _ _)).trans (putPacket_calm _ _ _)).trans
      (putPacket_calm _ _ _)
  · exact .refl m

theorem babble_calm (m : LanceBoard) (gathered : Nat) : Calm m (m.babble gathered) := by
  rw [babble]
  split_ifs
  · exact orCsr0_calm m (by decide)
  · exact .refl m

/- The receiver. -/

theorem writeEven_steers (m : LanceBoard) (address : BitVec 32) (bytes : List Byte) :
    Steers m (m.writeEven address bytes) := by
  induction m, address, bytes using writeEven.induct with
  | case1 m address => exact .refl m
  | case2 m address last => exact dmaOut_steers m address _
  | case3 m address first second rest ih =>
    exact (dmaOut_steers m address _).trans ih

theorem dmaWriteBuffer_steers (m : LanceBoard) (address : BitVec 32) (bytes : List Byte) :
    Steers m (m.dmaWriteBuffer address bytes) := by
  cases bytes with
  | nil =>
    simp only [dmaWriteBuffer]
    split_ifs
    · exact .refl m
    · exact writeEven_steers m address []
  | cons first rest =>
    simp only [dmaWriteBuffer]
    split_ifs
    · exact (dmaOut_steers m _ _).trans (writeEven_steers _ _ _)
    · exact writeEven_steers m address _

theorem receiveBuffer_steers (m : LanceBoard) (ra : BitVec 32) (frame : List Byte) (offset : Nat) :
    Steers m (m.receiveBuffer ra frame offset).1 :=
  ((((dmaIn_calm m ra).trans (dmaIn_calm _ (ra ||| 4))).trans
    (onLance_calm _ _ fun _ => rfl)).toSteers.trans (dmaWriteBuffer_steers _ _ _)).trans
    (putRxMd1_calm _ _).toSteers

theorem receiveLoop_steers (frame : List Byte) (fuel : Nat) (m : LanceBoard) (ra : BitVec 32)
    (offset : Nat) : Steers m (receiveLoop frame fuel m ra offset).1 := by
  induction fuel generalizing m ra offset with
  | zero => exact .refl m
  | succ fuel ih =>
    have stored := receiveBuffer_steers m ra frame offset
    simp only [receiveLoop]
    split_ifs
    · exact ((((stored.trans (dmaIn_calm _ _).toSteers).trans (dmaOut_steers _ _ _)).trans
        (putRxRingPos_calm _ _).toSteers).trans (putRxMd1_calm _ _).toSteers).trans
        (ih _ _ _)
    · exact (stored.trans (dmaIn_calm _ _).toSteers).trans (putRxMd1_calm _ _).toSteers
    · exact stored
    · exact .refl m

theorem receivePacket_steers (m : LanceBoard) (frame : List Byte) :
    Steers m (m.receivePacket frame).1 := by
  have read := (dmaIn_calm m (m.rxRingAddr ||| 2)).trans
    (putRxMd1_calm _ (m.dmaIn (m.rxRingAddr ||| 2)).2)
  have looped (word : Word) := (read.trans (putRxMd1_calm _ word)).toSteers.trans
    (receiveLoop_steers frame frame.length _ m.rxRingAddr 0)
  simp only [receivePacket]
  split_ifs <;> dsimp only
  · exact .refl m
  · exact (onLance_calm m _ fun _ => rfl).toSteers
  · exact .refl m
  · exact (onLance_calm m _ fun _ => rfl).toSteers
  · exact ((read.trans (orCsr0_calm _ (by decide))).trans (onLance_calm _ _ fun _ => rfl)).toSteers
  · exact ((looped _).trans (putRxMd1_calm _ _).toSteers).trans (onLance_calm _ _ fun _ => rfl).toSteers
  · exact (looped _).trans (onLance_calm _ _ fun _ => rfl).toSteers

theorem receiveComplete_steers (m : LanceBoard) (result : Int) :
    Steers m (m.receiveComplete result) := by
  have reported (n : LanceBoard) : Steers n (n.orCsr0 (Csr0.rint ||| Csr0.intr)).checkInterrupts :=
    ((orCsr0_calm n (by decide)).trans (checkInterrupts_calm _)).toSteers
  simp only [receiveComplete]
  split_ifs
  · exact reported m
  · exact .refl m
  · exact (((dmaOut_steers m _ _).trans (dmaOut_steers _ _ _)).trans
      (putRxRingPos_calm _ _).toSteers).trans (reported _)
  · exact (((dmaOut_steers m _ _).trans (dmaOut_steers _ _ _)).trans
      (putRxRingPos_calm _ _).toSteers).trans (reported _)

theorem receiveQueued_steers (m : LanceBoard) (frame : List Byte) :
    Steers m (m.receiveQueued frame) := by
  simp only [receiveQueued]
  split_ifs
  · exact receivePacket_steers m frame
  · exact (receivePacket_steers m frame).trans (receiveComplete_steers _ _)

/-- The packets that are received do not touch the transmitter. -/
theorem drainQueue_steers (m : LanceBoard) : Steers m m.drainQueue := by
  have folded (queue : List (List Byte)) (n : LanceBoard) : Steers n (queue.foldl receiveQueued n) := by
    induction queue generalizing n with
    | nil => exact .refl n
    | cons frame rest ih =>
      exact (receiveQueued_steers n frame).trans (ih _)
  exact (onLance_calm m _ fun _ => rfl).toSteers.trans (folded _ _)

/- The words of the descriptors. -/

variable {base : BitVec 32} {pos other : Byte}

theorem ringAddr_mod (base : BitVec 32) (pos : Byte) : (ringAddr base pos).toNat % 8 = 0 := by
  have low : ringAddr base pos &&& 7 = 0 := by
    rw [ringAddr, BitVec.and_assoc]
    exact BitVec.and_zero
  have value := congrArg BitVec.toNat low
  rw [BitVec.toNat_and] at value
  exact (Nat.and_two_pow_sub_one_eq_mod (ringAddr base pos).toNat 3).symm.trans value

theorem ringAddr_le (base : BitVec 32) (pos : Byte) : (ringAddr base pos).toNat ≤ 0xFFFFF8 := by
  rw [ringAddr, BitVec.toNat_and]
  exact Nat.and_le_right

/-- The place of a status word in the memory. -/
theorem status_place (base : BitVec 32) (pos : Byte) :
    ((ringAddr base pos ||| 2) &&& 0xFFFFFF).toNat = (ringAddr base pos).toNat + 2 := by
  have apart : ringAddr base pos &&& 2 = 0 := by
    rw [ringAddr, BitVec.and_assoc]
    exact BitVec.and_zero
  have most := ringAddr_le base pos
  have masked (address : BitVec 32) : (address &&& 0xFFFFFF).toNat = address.toNat % 2 ^ 24 := by
    rw [BitVec.toNat_and]
    exact Nat.and_two_pow_sub_one_eq_mod address.toNat 24
  rw [masked, ← BitVec.add_eq_or_of_and_eq_zero _ _ apart, BitVec.toNat_add]
  simp only [BitVec.reduceToNat]
  omega

theorem dmaIn_status (m : LanceBoard) (pos : Byte) :
    (m.dmaIn (ringAddr m.lance.txRingBase pos ||| 2)).2 = m.txStatus pos := by
  simp only [dmaIn, txStatus, statusWord]
  split_ifs <;> rfl

theorem joined_halves (word : Word) :
    (((word >>> 8).setWidth 8 : Byte).setWidth 16 <<< 8 : Word) |||
      (word.setWidth 8 : Byte).setWidth 16 = word := by
  apply BitVec.eq_of_getLsbD_eq
  intro bit inside
  simp only [BitVec.getLsbD_or, BitVec.getLsbD_shiftLeft, BitVec.getLsbD_setWidth,
    BitVec.getLsbD_ushiftRight]
  by_cases low : bit < 8
  · simp [low, inside]
  · simp [low, inside, show bit - 8 < 8 by omega, show bit - 8 < 16 by omega,
      show 8 + (bit - 8) = bit by omega]

/-- A status word that is stored is read back. -/
theorem statusWord_dmaOut (m : LanceBoard) (data : Word)
    (owned : anyFlag (statusWord m.dram base pos) Md1.own = true) :
    statusWord (m.dmaOut (ringAddr base pos ||| 2) data).dram base pos = data := by
  by_cases inside : dmaInside (ringAddr base pos ||| 2) = true
  · simp only [dmaOut, statusWord, if_pos inside]
    rw [Function.update_self, Function.update_of_ne (by omega), Function.update_self]
    exact joined_halves data
  · rw [statusWord, if_neg inside] at owned
    exact absurd owned (by decide)

/-- The other descriptors keep their words. -/
theorem statusWord_dmaOut_ne (m : LanceBoard) (data : Word)
    (apart : ringAddr base other ≠ ringAddr base pos) :
    statusWord (m.dmaOut (ringAddr base pos ||| 2) data).dram base other =
      statusWord m.dram base other := by
  have distance : (ringAddr base other).toNat ≠ (ringAddr base pos).toNat := fun same =>
    apart (BitVec.eq_of_toNat_eq same)
  have first := ringAddr_mod base other
  have second := ringAddr_mod base pos
  simp only [dmaOut]
  split_ifs with inside
  · simp only [statusWord, status_place]
    split_ifs
    · rw [Function.update_of_ne (by omega), Function.update_of_ne (by omega),
        Function.update_of_ne (by omega), Function.update_of_ne (by omega)]
      rfl
    · rfl
  · exact congrArg (fun dram => statusWord dram base other)
      (setMemoryError_calm (m.noteAccess _)).dram

theorem getBufferLength_pos (data : Word) : getBufferLength data ≠ 0 := by
  rw [getBufferLength]
  split_ifs
  · decide
  · have high : 0xF000 ≤ (0xF000 ||| data : Word).toNat := by
      rw [BitVec.toNat_or]
      exact Nat.left_le_or
    have bound := (0xF000 ||| data : Word).isLt
    rw [BitVec.toInt_eq_toNat_cond]
    split_ifs <;> omega

/-- The buffer of a descriptor is gathered, and the chip gives its own copy of the descriptor back. -/
theorem gatherBuffer_spec (m : LanceBoard) (ra : BitVec 32) (length : Nat) :
    (m.gatherBuffer ra length).1.steering =
        { m.steering with txMd1 := m.lance.txMd1 &&& ~~~Md1.own } ∧
      (m.gatherBuffer ra length).1.dram = m.dram ∧ (m.gatherBuffer ra length).2 ≠ 0 := by
  have read := (dmaIn_calm m ra).trans (dmaIn_calm _ (ra ||| 4))
  have some_ := getBufferLength_pos ((m.dmaIn ra).1.dmaIn (ra ||| 4)).2
  simp only [gatherBuffer, if_neg some_]
  have buffered (n : LanceBoard) (address : BitVec 32) (count : Nat) :=
    dmaReadBuffer_calm n address length count
  refine ⟨(buffered _ _ _).steering.trans ?_, (buffered _ _ _).dram.trans read.dram, some_⟩
  have kept := read.steering
  have md1 := congrArg Steering.txMd1 kept
  generalize ((m.dmaIn ra).1.dmaIn (ra ||| 4)).1 = n at kept md1
  change ({ n.steering with txMd1 := n.lance.txMd1 &&& ~~~Md1.own } : Steering) = _
  rw [kept, show n.lance.txMd1 = m.lance.txMd1 from md1]

/- Places. -/

variable {mask : Byte} {status : Byte → Word} {count : Nat}

theorem EndsFrame.congr {also : Byte → Word} (ends : EndsFrame status mask pos count)
    (same : ∀ place ∈ places mask pos count, also place = status place) :
    EndsFrame also mask pos count := by
  induction pos, count using EndsFrame.induct mask with
  | case1 pos => exact ends
  | case2 pos =>
    rw [EndsFrame, same pos List.mem_cons_self]
    exact ends
  | case3 pos count ih =>
    rw [EndsFrame, same pos List.mem_cons_self]
    exact ⟨ends.1, ends.2.1, ih ends.2.2 fun place member => same place (List.mem_cons_of_mem _ member)⟩

theorem EndsFrame.owned (ends : EndsFrame status mask pos count) :
    anyFlag (status pos) Md1.own = true := by
  match count, ends with
  | 1, ends => exact ends.1
  | _ + 2, ends => exact ends.1

theorem places_add (first second : Nat) :
    places mask pos (first + second) =
      places mask pos first ++ places mask (placeBehind mask pos first) second := by
  induction first generalizing pos with
  | zero => rw [Nat.zero_add, places, placeBehind, List.nil_append]
  | succ first ih =>
    rw [Nat.succ_add, places, ih, places, placeBehind, List.cons_append]

@[simp] theorem places_length : (places mask pos count).length = count := by
  induction count generalizing pos with
  | zero => rfl
  | succ count ih => rw [places, List.length_cons, ih]

theorem places_succ (mask pos : Byte) (count : Nat) :
    places mask pos (count + 1) = places mask pos count ++ [placeBehind mask pos count] :=
  places_add count 1

theorem placeBehind_succ (mask pos : Byte) (count : Nat) :
    placeBehind mask pos (count + 1) = nextPos (placeBehind mask pos count) mask := by
  induction count generalizing pos with
  | zero => rfl
  | succ count ih => exact ih (nextPos pos mask)

/-- Some descriptors are the driver's, and the others keep their words. -/
structure Returned (m t : LanceBoard) (base : BitVec 32) (given : List Byte) : Prop where
  returned : ∀ place ∈ given, anyFlag (statusWord t.dram base place) Md1.own = false
  others : ∀ place, ringAddr base place ∉ given.map (ringAddr base) →
    statusWord t.dram base place = statusWord m.dram base place

theorem Returned.nil (same : t.dram = m.dram) : Returned m t base [] where
  returned := fun _ member => absurd member List.not_mem_nil
  others := fun _ _ => by rw [same]

theorem Returned.trans {first second : List Byte} (one : Returned m t base first)
    (two : Returned t u base second)
    (apart : ∀ place ∈ first, ringAddr base place ∉ second.map (ringAddr base)) :
    Returned m u base (first ++ second) where
  returned := by
    intro place member
    rcases List.mem_append.mp member with early | late
    · rw [two.others place (apart place early)]
      exact one.returned place early
    · exact two.returned place late
  others := by
    intro place away
    rw [List.map_append, List.mem_append, not_or] at away
    rw [two.others place away.2, one.others place away.1]

theorem Returned.congr {given : List Byte} (one : Returned m t base given) (same : u.dram = t.dram) :
    Returned m u base given where
  returned := by
    rw [same]
    exact one.returned
  others := by
    rw [same]
    exact one.others

/-- A descriptor of the chip is given back. -/
theorem dmaOut_returned (m : LanceBoard) {data : Word}
    (owned : anyFlag (statusWord m.dram base pos) Md1.own = true)
    (free : anyFlag data Md1.own = false) :
    Returned m (m.dmaOut (ringAddr base pos ||| 2) data) base [pos] where
  returned := by
    intro place member
    obtain rfl := List.mem_singleton.mp member
    rw [statusWord_dmaOut m data owned]
    exact free
  others := by
    intro place away
    rw [List.map_singleton, List.mem_singleton] at away
    exact statusWord_dmaOut_ne m data away

theorem own_dropped (word : Word) : anyFlag (word &&& ~~~Md1.own) Md1.own = false := by
  have zero : word &&& ~~~Md1.own &&& Md1.own = 0 := by
    rw [BitVec.and_assoc]
    exact BitVec.and_zero
  rw [anyFlag, zero]
  rfl

theorem enp_kept (word : Word) : anyFlag (word &&& ~~~Md1.own) Md1.enp = anyFlag word Md1.enp :=
  anyFlag_drop (by decide)

/-- The loop gathers a frame: its last descriptor is not yet given back. -/
theorem transmitLoop_frame (count fuel length : Nat) (enough : count < fuel)
    (ring : m.lance.txRingPos = pos) (current : m.lance.txMd1 = m.txStatus pos)
    (ends : EndsFrame m.txStatus m.lance.txRingMask pos (count + 1))
    (apart : ((places m.lance.txRingMask pos (count + 1)).map (ringAddr m.lance.txRingBase)).Nodup) :
    ∃ t gathered word, transmitLoop fuel m (ringAddr m.lance.txRingBase pos) length =
        (t, .gathered gathered) ∧ 0 < gathered ∧ anyFlag word Md1.own = false ∧
      t.steering = { m.steering with
        txRingPos := placeBehind m.lance.txRingMask pos count
        txMd1 := word } ∧
      Returned m t m.lance.txRingBase (places m.lance.txRingMask pos count) := by
  induction count generalizing m pos length fuel with
  | zero =>
    obtain ⟨fuel, rfl⟩ := Nat.exists_eq_add_of_lt enough
    rw [Nat.zero_add]
    obtain ⟨steering, dram, some_⟩ := gatherBuffer_spec m (ringAddr m.lance.txRingBase pos) length
    have md1 : (m.gatherBuffer (ringAddr m.lance.txRingBase pos) length).1.lance.txMd1 =
        m.lance.txMd1 &&& ~~~Md1.own := congrArg Steering.txMd1 steering
    refine ⟨_, length + (m.gatherBuffer (ringAddr m.lance.txRingBase pos) length).2,
      m.lance.txMd1 &&& ~~~Md1.own, ?_, by omega, own_dropped _, ?_, .nil dram⟩
    · rw [transmitLoop]
      dsimp only
      rw [if_neg some_, md1, enp_kept, current, if_pos ends.2]
    · rw [steering, placeBehind, ← ring]
      rfl
  | succ count ih =>
    obtain ⟨fuel, rfl⟩ : ∃ fuel', fuel = fuel' + 1 := ⟨fuel - 1, by omega⟩
    obtain ⟨owned, inner, tail⟩ := ends
    obtain ⟨steering, dram, some_⟩ := gatherBuffer_spec m (ringAddr m.lance.txRingBase pos) length
    rw [transmitLoop]
    generalize m.gatherBuffer (ringAddr m.lance.txRingBase pos) length = gathered at steering dram some_
    obtain ⟨buffered, bufLen⟩ := gathered
    dsimp only at steering dram some_ ⊢
    have md1 : buffered.lance.txMd1 = m.lance.txMd1 &&& ~~~Md1.own :=
      congrArg Steering.txMd1 steering
    have base : buffered.lance.txRingBase = m.lance.txRingBase := congrArg Steering.txRingBase steering
    have mask : buffered.lance.txRingMask = m.lance.txRingMask := congrArg Steering.txRingMask steering
    have place : buffered.lance.txRingPos = pos := (congrArg Steering.txRingPos steering).trans ring
    rw [if_neg some_, md1, enp_kept, current, inner, if_neg Bool.false_ne_true, mask, place]
    have read := dmaIn_calm buffered
      (ringAddr buffered.lance.txRingBase (nextPos pos m.lance.txRingMask) ||| 2)
    have word : (buffered.dmaIn
        (ringAddr buffered.lance.txRingBase (nextPos pos m.lance.txRingMask) ||| 2)).2 =
        m.txStatus (nextPos pos m.lance.txRingMask) := by
      rw [dmaIn_status, txStatus, txStatus, dram, base]
    rw [word, if_pos tail.owned]
    generalize (buffered.dmaIn
      (ringAddr buffered.lance.txRingBase (nextPos pos m.lance.txRingMask) ||| 2)).1 = n at read ⊢
    have copy : n.lance.txMd1 = m.lance.txMd1 &&& ~~~Md1.own :=
      (congrArg Steering.txMd1 read.steering).trans md1
    have stored : Returned m (n.dmaOut (ringAddr m.lance.txRingBase pos ||| 2) n.lance.txMd1)
        m.lance.txRingBase [pos] := by
      have same : n.dram = m.dram := read.dram.trans dram
      have given := @dmaOut_returned m.lance.txRingBase pos n n.lance.txMd1
        (by rw [same]; exact owned) (by rw [copy]; exact own_dropped _)
      exact ⟨given.returned, fun place away => (given.others place away).trans (by rw [same])⟩
    have written := (dmaOut_steers n (ringAddr m.lance.txRingBase pos ||| 2) n.lance.txMd1).steering
    generalize n.dmaOut (ringAddr m.lance.txRingBase pos ||| 2) n.lance.txMd1 = w at stored written ⊢
    let next := (w.putTxRingPos (nextPos pos m.lance.txRingMask)).putTxMd1
      (m.txStatus (nextPos pos m.lance.txRingMask))
    have moved : next.steering = { m.steering with
        txRingPos := nextPos pos m.lance.txRingMask
        txMd1 := m.txStatus (nextPos pos m.lance.txRingMask) } := by
      have all := (written.trans read.steering).trans steering
      change ({ w.steering with
        txRingPos := nextPos pos m.lance.txRingMask
        txMd1 := m.txStatus (nextPos pos m.lance.txRingMask) } : Steering) = _
      rw [all]
    have nextBase : next.lance.txRingBase = m.lance.txRingBase := congrArg Steering.txRingBase moved
    have nextMask : next.lance.txRingMask = m.lance.txRingMask := congrArg Steering.txRingMask moved
    have here : Returned m next m.lance.txRingBase [pos] := stored.congr rfl
    rw [places, List.map_cons, List.nodup_cons] at apart
    have kept : ∀ place ∈ places m.lance.txRingMask (nextPos pos m.lance.txRingMask) (count + 1),
        next.txStatus place = m.txStatus place := by
      intro place member
      rw [txStatus, nextBase]
      refine here.others place ?_
      rw [List.map_singleton, List.mem_singleton]
      exact fun same => apart.1 (same ▸ List.mem_map_of_mem member)
    obtain ⟨t, total, last, run, positive, free, final, given⟩ := @ih next
      (nextPos pos m.lance.txRingMask) fuel (length + bufLen) (by omega) rfl
      (kept _ (by rw [places]; exact List.mem_cons_self)).symm
      (by rw [nextMask]; exact tail.congr kept) (by rw [nextMask, nextBase]; exact apart.2)
    rw [nextBase, nextMask] at given
    rw [nextBase] at run
    rw [base]
    refine ⟨t, total, last, run, positive, free, ?_, ?_⟩
    · rw [final, moved, nextMask]
      rfl
    · refine here.trans given ?_
      intro place member
      obtain rfl := List.mem_singleton.mp member
      refine fun inside => apart.1 ?_
      rw [places_succ, List.map_append]
      exact List.mem_append_left _ inside

/-- The last descriptor of a frame is given back, and the ring moves on. -/
theorem transmitComplete_sent (m : LanceBoard) {result : Int} (sent : 0 < result)
    (owned : anyFlag (m.txStatus m.lance.txRingPos) Md1.own = true)
    (free : anyFlag m.lance.txMd1 Md1.own = false) :
    (m.transmitComplete result).steering =
        { m.steering with txRingPos := nextPos m.lance.txRingPos m.lance.txRingMask } ∧
      Returned m (m.transmitComplete result) m.lance.txRingBase [m.lance.txRingPos] := by
  have stored := @dmaOut_returned m.lance.txRingBase m.lance.txRingPos m m.lance.txMd1 owned free
  have written := (dmaOut_steers m (m.txRingAddr ||| 2) m.lance.txMd1).steering
  simp only [transmitComplete, if_neg (show result ≠ -2 by omega),
    if_neg (show result ≠ -1 by omega), if_neg (show result ≠ 0 by omega)]
  change Returned m (m.dmaOut (m.txRingAddr ||| 2) m.lance.txMd1) _ _ at stored
  generalize m.dmaOut (m.txRingAddr ||| 2) m.lance.txMd1 = w at stored written ⊢
  have place : w.lance.txRingPos = m.lance.txRingPos := congrArg Steering.txRingPos written
  have mask : w.lance.txRingMask = m.lance.txRingMask := congrArg Steering.txRingMask written
  rw [place, mask]
  have reported := (orCsr0_calm (w.putTxRingPos (nextPos m.lance.txRingPos m.lance.txRingMask))
    (show (Csr0.tint ||| Csr0.intr) &&& steerFlags = 0 by decide)).trans (checkInterrupts_calm _)
  refine ⟨reported.steering.trans ?_, stored.congr reported.dram⟩
  change ({ w.steering with
    txRingPos := nextPos m.lance.txRingPos m.lance.txRingMask } : Steering) = _
  rw [written]

/-- A gathered frame leaves the chip. -/
theorem sendGathered_sent (m : LanceBoard) {gathered : Nat} (some_ : 0 < gathered)
    (straight : m.loops = false) (owned : anyFlag (m.txStatus m.lance.txRingPos) Md1.own = true)
    (free : anyFlag m.lance.txMd1 Md1.own = false) :
    ∃ packet, (m.sendGathered gathered).steering =
        { m.steering with
          txRingPos := nextPos m.lance.txRingPos m.lance.txRingMask
          transmitted := m.transmitted ++ [packet] } ∧
      Returned m (m.sendGathered gathered) m.lance.txRingBase [m.lance.txRingPos] := by
  have calm := (babble_calm m gathered).trans
    (appendFcs_calm (m.babble gathered) (min gathered lancePacketBufferSize))
  have length : 0 < ((m.babble gathered).appendFcs (min gathered lancePacketBufferSize)).2 := by
    have wire : 0 < min gathered lancePacketBufferSize := Nat.lt_min.mpr ⟨some_, by decide⟩
    simp only [appendFcs]
    split_ifs <;> dsimp only <;> omega
  rw [sendGathered]
  dsimp only
  generalize (m.babble gathered).appendFcs (min gathered lancePacketBufferSize) = finished
    at calm length ⊢
  have mode : finished.1.loops = false := by
    rw [loops, show finished.1.lance.mode = m.lance.mode from congrArg Steering.mode calm.steering]
    exact straight
  rw [handOver, mode, if_neg Bool.false_ne_true]
  dsimp only
  have base : finished.1.lance.txRingBase = m.lance.txRingBase :=
    congrArg Steering.txRingBase calm.steering
  have place : finished.1.lance.txRingPos = m.lance.txRingPos :=
    congrArg Steering.txRingPos calm.steering
  have mask : finished.1.lance.txRingMask = m.lance.txRingMask :=
    congrArg Steering.txRingMask calm.steering
  have md1 : finished.1.lance.txMd1 = m.lance.txMd1 := congrArg Steering.txMd1 calm.steering
  let packet := (List.range (min gathered lancePacketBufferSize)).map finished.1.lance.packetBuffer
  let handed : LanceBoard := { finished.1 with transmitted := finished.1.transmitted ++ [packet] }
  have status : handed.txStatus handed.lance.txRingPos = m.txStatus m.lance.txRingPos := by
    change statusWord finished.1.dram finished.1.lance.txRingBase finished.1.lance.txRingPos = _
    rw [calm.dram, base, place]
    rfl
  have sent : (0 : Int) < finished.2 := by omega
  obtain ⟨steering, given⟩ := transmitComplete_sent handed sent (status ▸ owned) (md1.symm ▸ free)
  refine ⟨packet, steering.trans ?_, ?_⟩
  · have left : handed.steering =
        { m.steering with transmitted := m.transmitted ++ [packet] } := by
      change ({ finished.1.steering with
        transmitted := finished.1.steering.transmitted ++ [packet] } : Steering) = _
      rw [calm.steering]
      rfl
    rw [left]
    change ({ m.steering with
      txRingPos := nextPos finished.1.lance.txRingPos finished.1.lance.txRingMask
      transmitted := m.transmitted ++ [packet] } : Steering) = _
    rw [place, mask]
  · have same : Returned m handed m.lance.txRingBase [] := .nil calm.dram
    change Returned handed _ finished.1.lance.txRingBase [finished.1.lance.txRingPos] at given
    rw [base, place] at given
    exact same.trans given fun _ member => absurd member List.not_mem_nil

theorem EndsFrame.last_owned (ends : EndsFrame status mask pos (count + 1)) :
    anyFlag (status (placeBehind mask pos count)) Md1.own = true := by
  induction count generalizing pos with
  | zero => exact ends.1
  | succ count ih => exact ih ends.2.2

/-- A poll sends the frame at the ring position. -/
theorem transmitPoll_sends (m : LanceBoard) {count : Nat} (on : anyFlag m.lance.csr0 Csr0.txon = true)
    (straight : m.loops = false) (starts : anyFlag (m.txStatus m.lance.txRingPos) Md1.stp = true)
    (ends : EndsFrame m.txStatus m.lance.txRingMask m.lance.txRingPos count)
    (apart : ((places m.lance.txRingMask m.lance.txRingPos count).map
      (ringAddr m.lance.txRingBase)).Nodup) (fits : count ≤ 129) :
    ∃ packet word, m.transmitPoll.steering =
        { m.steering with
          flags := m.steering.flags &&& ~~~Csr0.tdmd
          txRingPos := placeBehind m.lance.txRingMask m.lance.txRingPos count
          txMd1 := word
          transmitted := m.transmitted ++ [packet] } ∧
      Returned m m.transmitPoll m.lance.txRingBase
        (places m.lance.txRingMask m.lance.txRingPos count) := by
  obtain ⟨count, rfl⟩ : ∃ fewer, count = fewer + 1 := by
    cases count with
    | zero => exact ends.elim
    | succ fewer => exact ⟨fewer, rfl⟩
  have dropped : (m.dropCsr0 Csr0.tdmd).steering =
      { m.steering with flags := m.steering.flags &&& ~~~Csr0.tdmd } := by
    have flags : m.lance.csr0 &&& ~~~Csr0.tdmd &&& steerFlags =
        m.lance.csr0 &&& steerFlags &&& ~~~Csr0.tdmd := by
      rw [BitVec.and_assoc, BitVec.and_comm (~~~Csr0.tdmd), ← BitVec.and_assoc]
    exact congrArg (fun flags => ({ m.steering with flags } : Steering)) flags
  have running : anyFlag (m.dropCsr0 Csr0.tdmd).lance.csr0 Csr0.txon = true :=
    (anyFlag_drop (by decide)).trans on
  rw [transmitPoll]
  dsimp only
  rw [if_pos running]
  have read := dmaIn_calm (m.dropCsr0 Csr0.tdmd) ((m.dropCsr0 Csr0.tdmd).txRingAddr ||| 2)
  have word : ((m.dropCsr0 Csr0.tdmd).dmaIn ((m.dropCsr0 Csr0.tdmd).txRingAddr ||| 2)).2 =
      m.txStatus m.lance.txRingPos := dmaIn_status (m.dropCsr0 Csr0.tdmd) m.lance.txRingPos
  rw [word, ends.owned, starts]
  simp only [Bool.not_true, if_neg Bool.false_ne_true]
  generalize ((m.dropCsr0 Csr0.tdmd).dmaIn ((m.dropCsr0 Csr0.tdmd).txRingAddr ||| 2)).1 = n at read ⊢
  have loaded : (n.putTxMd1 (m.txStatus m.lance.txRingPos)).steering = { m.steering with
      flags := m.steering.flags &&& ~~~Csr0.tdmd
      txMd1 := m.txStatus m.lance.txRingPos } := by
    change ({ n.steering with txMd1 := m.txStatus m.lance.txRingPos } : Steering) = _
    rw [read.steering, dropped]
  have dram : (n.putTxMd1 (m.txStatus m.lance.txRingPos)).dram = m.dram := read.dram
  have current : (n.putTxMd1 (m.txStatus m.lance.txRingPos)).lance.txMd1 =
      m.txStatus m.lance.txRingPos := rfl
  generalize n.putTxMd1 (m.txStatus m.lance.txRingPos) = start at loaded dram current ⊢
  have base : start.lance.txRingBase = m.lance.txRingBase := congrArg Steering.txRingBase loaded
  have mask : start.lance.txRingMask = m.lance.txRingMask := congrArg Steering.txRingMask loaded
  have place : start.lance.txRingPos = m.lance.txRingPos := congrArg Steering.txRingPos loaded
  have status : start.txStatus = m.txStatus := by
    funext pos
    rw [txStatus, txStatus, dram, base]
  obtain ⟨t, gathered, last, run, positive, free, final, given⟩ := @transmitLoop_frame start
    m.lance.txRingPos count transmitFuel 0 (by unfold transmitFuel; omega) place
    (by rw [current, status]) (by rw [status, mask]; exact ends) (by rw [mask, base]; exact apart)
  rw [base, mask] at given
  rw [loaded] at final
  have endBase : t.lance.txRingBase = m.lance.txRingBase := congrArg Steering.txRingBase final
  have endMask : t.lance.txRingMask = m.lance.txRingMask := congrArg Steering.txRingMask final
  have endPlace : t.lance.txRingPos = placeBehind m.lance.txRingMask m.lance.txRingPos count := by
    rw [← mask]
    exact congrArg Steering.txRingPos final
  have endLoops : t.loops = false := by
    rw [loops, show t.lance.mode = m.lance.mode from congrArg Steering.mode final]
    exact straight
  rw [places_succ, List.map_append, List.nodup_append'] at apart
  have beside : ringAddr m.lance.txRingBase
      (placeBehind m.lance.txRingMask m.lance.txRingPos count) ∉
      (places m.lance.txRingMask m.lance.txRingPos count).map (ringAddr m.lance.txRingBase) :=
    fun member => apart.2.2 member List.mem_cons_self
  have owned : anyFlag (t.txStatus t.lance.txRingPos) Md1.own = true := by
    rw [txStatus, endBase, endPlace, given.others _ beside, dram]
    exact ends.last_owned
  obtain ⟨packet, sent, returned⟩ := sendGathered_sent t positive endLoops owned
    (by rw [show t.lance.txMd1 = last from congrArg Steering.txMd1 final]; exact free)
  have transmits : start.transmit = t.sendGathered gathered := by
    have address : start.txRingAddr = ringAddr start.lance.txRingBase m.lance.txRingPos := by
      rw [txRingAddr, place]
    rw [transmit, address, run]
  rw [transmits]
  have sentLoops : (t.sendGathered gathered).loops = false := by
    rw [loops, show (t.sendGathered gathered).lance.mode = t.lance.mode from
      congrArg Steering.mode sent]
    exact endLoops
  rw [pollLoopback, if_neg (fun both => by rw [sentLoops] at both; exact Bool.false_ne_true both.2)]
  refine ⟨packet, last, ?_, ?_⟩
  · rw [sent, final, endPlace, endMask, placeBehind_succ,
      show t.transmitted = m.transmitted from congrArg Steering.transmitted final]
  · rw [endBase, endPlace] at returned
    have begun : Returned m t m.lance.txRingBase (places m.lance.txRingMask m.lance.txRingPos count) :=
      ⟨given.returned, fun place away => (given.others place away).trans (by rw [dram])⟩
    rw [places_succ]
    refine begun.trans returned fun place member inside => ?_
    exact apart.2.2 (List.mem_map_of_mem member) inside

/- What the transmitter can do in any state. -/

/-- The packets that left the chip, and what became of the flags that let it transmit. -/
structure Transmits (m t : LanceBoard) (packets : List (List Byte)) : Prop where
  transmitted : t.transmitted = m.transmitted ++ packets
  pending : t.lance.txPollPending = m.lance.txPollPending
  mask : t.lance.txRingMask = m.lance.txRingMask
  started : anyFlag t.lance.csr0 Csr0.strt = anyFlag m.lance.csr0 Csr0.strt
  stopped : anyFlag t.lance.csr0 Csr0.stop = anyFlag m.lance.csr0 Csr0.stop
  demand : anyFlag t.lance.csr0 Csr0.tdmd = true → anyFlag m.lance.csr0 Csr0.tdmd = true
  on : anyFlag t.lance.csr0 Csr0.txon = true → anyFlag m.lance.csr0 Csr0.txon = true ∧
    t.lance.transmitterEnabled = m.lance.transmitterEnabled

theorem Steers.flag (steers : Steers m t) {flag : Word} (inside : flag &&& steerFlags = flag) :
    anyFlag t.lance.csr0 flag = anyFlag m.lance.csr0 flag :=
  anyFlag_of_agree (congrArg Steering.flags steers.steering) inside

theorem Steers.transmits (steers : Steers m t) : Transmits m t [] where
  transmitted := (congrArg Steering.transmitted steers.steering).trans (List.append_nil _).symm
  pending := congrArg Steering.txPollPending steers.steering
  mask := congrArg Steering.txRingMask steers.steering
  started := steers.flag (by decide)
  stopped := steers.flag (by decide)
  demand := (steers.flag (by decide)).symm.trans
  on := fun on => ⟨(steers.flag (by decide)).symm.trans on,
    congrArg Steering.transmitterEnabled steers.steering⟩

theorem Transmits.refl (m : LanceBoard) : Transmits m m [] := (Steers.refl m).transmits

theorem Transmits.trans {first second : List (List Byte)} (one : Transmits m t first)
    (two : Transmits t u second) : Transmits m u (first ++ second) where
  transmitted := by rw [two.transmitted, one.transmitted, List.append_assoc]
  pending := two.pending.trans one.pending
  mask := two.mask.trans one.mask
  started := two.started.trans one.started
  stopped := two.stopped.trans one.stopped
  demand := one.demand ∘ two.demand
  on := fun on => ⟨(one.on (two.on on).1).1, (two.on on).2.trans (one.on (two.on on).1).2⟩

theorem putTxRingPos_transmits (m : LanceBoard) (pos : Byte) : Transmits m (m.putTxRingPos pos) [] :=
  ⟨(List.append_nil _).symm, rfl, rfl, rfl, rfl, id, fun on => ⟨on, rfl⟩⟩

theorem putTxMd1_transmits (m : LanceBoard) (word : Word) : Transmits m (m.putTxMd1 word) [] :=
  ⟨(List.append_nil _).symm, rfl, rfl, rfl, rfl, id, fun on => ⟨on, rfl⟩⟩

theorem transmitComplete_transmits (m : LanceBoard) (result : Int) :
    Transmits m (m.transmitComplete result) [] := by
  have failed (n : LanceBoard) (word : Word → Word) (flag : Word → Word) :
      Transmits n (n.onLance fun l => { l with txMd1 := word l.txMd1, txMd3 := flag l.txMd3 }) [] :=
    ⟨(List.append_nil _).symm, rfl, rfl, rfl, rfl, id, fun on => ⟨on, rfl⟩⟩
  have ended (n : LanceBoard) (address : BitVec 32) (word : Word) (pos : Byte) :
      Transmits n (((n.dmaOut address word).putTxRingPos pos).orCsr0
        (Csr0.tint ||| Csr0.intr)).checkInterrupts [] :=
    ((dmaOut_steers n address word).transmits.trans (putTxRingPos_transmits _ pos)).trans
      ((orCsr0_calm _ (by decide)).trans (checkInterrupts_calm _)).transmits
  simp only [transmitComplete]
  split_ifs
  · exact (putTxMd1_transmits m _).trans (ended _ _ _ _)
  · exact ((failed m (fun word => word ||| Md1.err) fun flag => flag ||| Tmd3.rtry).trans
      (dmaOut_steers _ _ _).transmits).trans (ended _ _ _ _)
  · exact ((failed m (fun word => word ||| Md1.err) fun flag => flag ||| Tmd3.lcar).trans
      (dmaOut_steers _ _ _).transmits).trans (ended _ _ _ _)
  · exact ended m _ _ _

theorem gatherBuffer_transmits (m : LanceBoard) (ra : BitVec 32) (length : Nat) :
    Transmits m (m.gatherBuffer ra length).1 [] := by
  have same : Steers (m.putTxMd1 (m.lance.txMd1 &&& ~~~Md1.own)) (m.gatherBuffer ra length).1 :=
    ⟨(gatherBuffer_spec m ra length).1⟩
  exact (putTxMd1_transmits m _).trans same.transmits

theorem underflow_transmits (m : LanceBoard) (ra : BitVec 32) : Transmits m (m.underflow ra) [] := by
  have marked : Transmits m (m.onLance fun l =>
      { l with txMd1 := l.txMd1 ||| Md1.err, txMd3 := l.txMd3 ||| Tmd3.buff ||| Tmd3.uflo }) [] :=
    ⟨(List.append_nil _).symm, rfl, rfl, rfl, rfl, id, fun on => ⟨on, rfl⟩⟩
  have off (n : LanceBoard) : Transmits n
      ((n.dropCsr0 Csr0.txon).onLance fun l => { l with transmitterEnabled := false }) [] := by
    refine ⟨(List.append_nil _).symm, rfl, rfl, anyFlag_drop (by decide), anyFlag_drop (by decide),
      (anyFlag_drop (by decide)).symm.trans, fun on => ?_⟩
    have zero : n.lance.csr0 &&& ~~~Csr0.txon &&& Csr0.txon = 0 := by
      rw [BitVec.and_assoc]
      exact BitVec.and_zero
    have clear : anyFlag (n.lance.csr0 &&& ~~~Csr0.txon) Csr0.txon = false := by
      rw [anyFlag, zero]
      rfl
    exact absurd (clear.symm.trans on) Bool.false_ne_true
  exact (marked.trans (dmaOut_steers _ _ _).transmits).trans (off _)

theorem transmitLoop_transmits (fuel : Nat) (m : LanceBoard) (ra : BitVec 32) (length : Nat) :
    Transmits m (transmitLoop fuel m ra length).1 [] := by
  induction fuel generalizing m ra length with
  | zero => exact .refl m
  | succ fuel ih =>
    have gathered := gatherBuffer_transmits m ra length
    simp only [transmitLoop]
    split_ifs
    · exact (gathered.trans (dmaOut_steers _ _ _).transmits).trans (putTxRingPos_transmits _ _)
    · exact gathered
    · exact ((((gathered.trans (dmaIn_calm _ _).transmits).trans
        (dmaOut_steers _ _ _).transmits).trans (putTxRingPos_transmits _ _)).trans
        (putTxMd1_transmits _ _)).trans (ih _ _ _)
    · exact (gathered.trans (dmaIn_calm _ _).transmits).trans (underflow_transmits _ _)

theorem sendGathered_transmits (m : LanceBoard) (gathered : Nat) :
    ∃ packets, Transmits m (m.sendGathered gathered) packets ∧ packets.length ≤ 1 := by
  have calm := ((babble_calm m gathered).trans
    (appendFcs_calm (m.babble gathered) (min gathered lancePacketBufferSize))).transmits
  rw [sendGathered]
  generalize (m.babble gathered).appendFcs (min gathered lancePacketBufferSize) = finished at calm ⊢
  have copied (n : LanceBoard) (copy : Nat) : Transmits n (n.onLance fun l =>
      { l with loopbackBuffer := (List.range copy).map l.packetBuffer }) [] :=
    ⟨(List.append_nil _).symm, rfl, rfl, rfl, rfl, id, fun on => ⟨on, rfl⟩⟩
  have left (n : LanceBoard) (packet : List Byte) :
      Transmits n { n with transmitted := n.transmitted ++ [packet] } [packet] :=
    ⟨rfl, rfl, rfl, rfl, rfl, id, fun on => ⟨on, rfl⟩⟩
  simp only [handOver]
  split_ifs
  · exact ⟨[], calm.trans (transmitComplete_transmits _ _), Nat.zero_le _⟩
  · exact ⟨[], (calm.trans (copied _ _)).trans (transmitComplete_transmits _ _), Nat.zero_le _⟩
  · exact ⟨_, (calm.trans (left _ _)).trans (transmitComplete_transmits _ _), le_rfl⟩

theorem transmit_transmits (m : LanceBoard) :
    ∃ packets, Transmits m m.transmit packets ∧ packets.length ≤ 1 := by
  have looped := transmitLoop_transmits transmitFuel m m.txRingAddr 0
  rw [transmit]
  generalize transmitLoop transmitFuel m m.txRingAddr 0 = result at looped ⊢
  obtain ⟨t, exit⟩ := result
  cases exit with
  | gathered length =>
    obtain ⟨packets, sent, one⟩ := sendGathered_transmits t length
    exact ⟨packets, looped.trans sent, one⟩
  | emptyBuffer => exact ⟨[], looped, Nat.zero_le _⟩
  | unfinished => exact ⟨[], looped, Nat.zero_le _⟩

theorem pollLoopback_transmits (m : LanceBoard) : Transmits m m.pollLoopback [] := by
  have marked (n : LanceBoard) (receiving : Bool) : Transmits n (n.onLance fun l =>
      { l with inLoopbackReceive := receiving }) [] :=
    ⟨(List.append_nil _).symm, rfl, rfl, rfl, rfl, id, fun on => ⟨on, rfl⟩⟩
  have emptied (n : LanceBoard) : Transmits n (n.onLance fun l =>
      { l with inLoopbackReceive := false, loopbackBuffer := [] }) [] :=
    ⟨(List.append_nil _).symm, rfl, rfl, rfl, rfl, id, fun on => ⟨on, rfl⟩⟩
  rw [pollLoopback]
  split_ifs
  · exact (((marked m true).trans (receivePacket_steers _ _).transmits).trans (emptied _)).trans
      (receiveComplete_steers _ _).transmits
  · exact .refl m

/-- A poll sends at most one packet, and the demand is answered. -/
theorem transmitPoll_transmits (m : LanceBoard) :
    ∃ packets, Transmits m m.transmitPoll packets ∧ packets.length ≤ 1 ∧
      anyFlag m.transmitPoll.lance.csr0 Csr0.tdmd = false := by
  have zero : m.lance.csr0 &&& ~~~Csr0.tdmd &&& Csr0.tdmd = 0 := by
    rw [BitVec.and_assoc]
    exact BitVec.and_zero
  have clear : anyFlag (m.dropCsr0 Csr0.tdmd).lance.csr0 Csr0.tdmd = false := by
    change anyFlag (m.lance.csr0 &&& ~~~Csr0.tdmd) Csr0.tdmd = false
    rw [anyFlag, zero]
    rfl
  have dropped : Transmits m (m.dropCsr0 Csr0.tdmd) [] :=
    ⟨(List.append_nil _).symm, rfl, rfl, anyFlag_drop (by decide), anyFlag_drop (by decide),
      fun demand => absurd (clear.symm.trans demand) Bool.false_ne_true,
      fun on => ⟨(anyFlag_drop (by decide)).symm.trans on, rfl⟩⟩
  have polled : ∃ packets, Transmits (m.dropCsr0 Csr0.tdmd) m.transmitPoll packets ∧
      packets.length ≤ 1 := by
    rw [transmitPoll]
    dsimp only
    generalize m.dropCsr0 Csr0.tdmd = n
    have read (word : Word) : Transmits n ((n.dmaIn (n.txRingAddr ||| 2)).1.putTxMd1 word) [] :=
      (dmaIn_calm n _).transmits.trans (putTxMd1_transmits _ _)
    split_ifs
    · exact ⟨[], (read _).trans (pollLoopback_transmits _), Nat.zero_le _⟩
    · exact ⟨[], (((read _).trans (dmaOut_steers _ _ _).transmits).trans
        (putTxRingPos_transmits _ _)).trans (pollLoopback_transmits _), Nat.zero_le _⟩
    · obtain ⟨packets, sent, one⟩ := transmit_transmits
        ((n.dmaIn (n.txRingAddr ||| 2)).1.putTxMd1 (n.dmaIn (n.txRingAddr ||| 2)).2)
      have all := ((read _).trans sent).trans (pollLoopback_transmits _)
      rw [List.nil_append, List.append_nil] at all
      exact ⟨packets, all, one⟩
    · exact ⟨[], pollLoopback_transmits n, Nat.zero_le _⟩
  obtain ⟨packets, sent, one⟩ := polled
  refine ⟨packets, dropped.trans sent, one, ?_⟩
  by_contra set
  exact Bool.false_ne_true (clear.symm.trans (sent.demand (Bool.eq_true_of_not_eq_false set)))

/- What holds in every state that the chip comes to. -/

/-- A transmitter that is on has been started, and a ring has at most 128 descriptors. -/
structure Able (m : LanceBoard) : Prop where
  mask : m.lance.txRingMask.toNat ≤ 127
  started : anyFlag m.lance.csr0 Csr0.txon = true → anyFlag m.lance.csr0 Csr0.strt = true ∧
    anyFlag m.lance.csr0 Csr0.stop = false ∧ m.lance.transmitterEnabled = true

/-- No demand is left unanswered. -/
structure Ready (m : LanceBoard) : Prop extends Able m where
  demand : anyFlag m.lance.csr0 Csr0.tdmd = false

theorem Able.transmits {packets : List (List Byte)} (able : m.Able) (sent : Transmits m t packets) :
    t.Able where
  mask := sent.mask ▸ able.mask
  started on := by
    obtain ⟨before, enabled⟩ := sent.on on
    obtain ⟨started, stopped, was⟩ := able.started before
    exact ⟨sent.started.trans started, sent.stopped.trans stopped, enabled.trans was⟩

theorem Ready.transmits {packets : List (List Byte)} (ready : m.Ready) (sent : Transmits m t packets) :
    t.Ready where
  toAble := ready.toAble.transmits sent
  demand := by
    by_contra set
    exact Bool.false_ne_true
      (ready.demand.symm.trans (sent.demand (Bool.eq_true_of_not_eq_false set)))

theorem Ready.steers (ready : m.Ready) (steers : Steers m t) : t.Ready := ready.transmits steers.transmits

/-- A chip that does not transmit. -/
theorem Ready.off (mask : t.lance.txRingMask.toNat ≤ 127)
    (off : anyFlag t.lance.csr0 Csr0.txon = false) (demand : anyFlag t.lance.csr0 Csr0.tdmd = false) :
    t.Ready :=
  ⟨⟨mask, fun on => absurd (off.symm.trans on) Bool.false_ne_true⟩, demand⟩

theorem ringMask_le (high : Word) : (ringMask high).toNat ≤ 127 := by
  have small : ((high >>> 13) &&& 7).toNat ≤ 7 := by
    rw [BitVec.toNat_and]
    exact Nat.and_le_right
  rw [ringMask]
  generalize ((high >>> 13) &&& 7).toNat = size at small
  match size, small with
  | 0, _ | 1, _ | 2, _ | 3, _ | 4, _ | 5, _ | 6, _ | 7, _ => decide

theorem readWords_calm (m : LanceBoard) (address : BitVec 32) (count : Nat) :
    Calm m (m.readWords address count).1 := by
  induction count generalizing m address with
  | zero => exact .refl m
  | succ count ih =>
    exact (dmaIn_calm m address).trans (ih _ _)

theorem dropped_clear (word flag : Word) : anyFlag (word &&& ~~~flag) flag = false := by
  have zero : word &&& ~~~flag &&& flag = 0 := by
    rw [BitVec.and_assoc, BitVec.and_comm _ flag, BitVec.and_not_self]
    exact BitVec.and_zero
  rw [anyFlag, zero]
  rfl

theorem executeInitialize_ready (ready : m.Ready) (stopped : anyFlag m.lance.csr0 Csr0.stop = true) :
    m.executeInitialize.Ready := by
  have off : anyFlag m.lance.csr0 Csr0.txon = false := by
    by_contra set
    have running := (ready.started (Bool.eq_true_of_not_eq_false set)).2.1
    exact Bool.false_ne_true (running.symm.trans stopped)
  simp only [executeInitialize]
  split_ifs
  · exact ready
  · generalize reads : m.readWords _ 12 = read
    have same : Calm m read.1 := reads ▸ readWords_calm m _ 12
    refine Ready.steers (Ready.off ?_ ?_ ?_) (checkInterrupts_calm _).toSteers
    · exact ringMask_le _
    · exact (anyFlag_drop (by decide)).trans ((anyFlag_of_agree
        (@or_and_of_apart _ _ steerFlags (by decide)) (by decide)).trans
        ((same.flag (by decide)).trans off))
    · exact (anyFlag_drop (by decide)).trans ((anyFlag_of_agree
        (@or_and_of_apart _ _ steerFlags (by decide)) (by decide)).trans
        ((same.flag (by decide)).trans ready.demand))

theorem or_set (word flag : Word) (some_ : flag ≠ 0) : anyFlag (word ||| flag) flag = true := by
  rw [anyFlag_or, Bool.or_eq_true]
  refine .inr (decide_eq_true ?_)
  rw [BitVec.and_self]
  exact some_

theorem executeStart_ready (ready : m.Ready) : m.executeStart.Ready := by
  rw [executeStart]
  split_ifs
  · have begun : anyFlag ((m.orCsr0 Csr0.strt).dropCsr0 Csr0.stop).lance.csr0 Csr0.strt = true ∧
        anyFlag ((m.orCsr0 Csr0.strt).dropCsr0 Csr0.stop).lance.csr0 Csr0.stop = false ∧
        anyFlag ((m.orCsr0 Csr0.strt).dropCsr0 Csr0.stop).lance.csr0 Csr0.tdmd = false := by
      refine ⟨(anyFlag_drop (by decide)).trans (or_set _ _ (by decide)), dropped_clear _ _, ?_⟩
      refine (anyFlag_drop (by decide)).trans ((anyFlag_or _ _ _).trans ?_)
      rw [ready.demand]
      rfl
    have ring : ((m.orCsr0 Csr0.strt).dropCsr0 Csr0.stop).lance.txRingMask.toNat ≤ 127 := ready.mask
    generalize (m.orCsr0 Csr0.strt).dropCsr0 Csr0.stop = started at begun ring ⊢
    have received : Calm started (if (!anyFlag started.lance.mode Mode.drx) = true
        then started.orCsr0 Csr0.rxon else started.dropCsr0 Csr0.rxon) := by
      split_ifs
      · exact orCsr0_calm started (by decide)
      · exact dropCsr0_calm started (by decide)
    dsimp only
    generalize (if (!anyFlag started.lance.mode Mode.drx) = true
      then started.orCsr0 Csr0.rxon else started.dropCsr0 Csr0.rxon) = n at received ⊢
    have mask : n.lance.txRingMask.toNat ≤ 127 := by
      rw [show n.lance.txRingMask = started.lance.txRingMask from
        congrArg Steering.txRingMask received.steering]
      exact ring
    have strt := (received.flag (show Csr0.strt &&& steerFlags = Csr0.strt by decide)).trans begun.1
    have stop := (received.flag (show Csr0.stop &&& steerFlags = Csr0.stop by decide)).trans begun.2.1
    have tdmd := (received.flag (show Csr0.tdmd &&& steerFlags = Csr0.tdmd by decide)).trans begun.2.2
    cases (!anyFlag n.lance.mode Mode.dtx) with
    | true =>
      have kept {flag : Word} (apart : Csr0.txon &&& flag = 0) :
          anyFlag (n.orCsr0 Csr0.txon).lance.csr0 flag = anyFlag n.lance.csr0 flag :=
        anyFlag_of_agree (or_and_of_apart apart) BitVec.and_self
      exact ⟨⟨mask, fun _ => ⟨(kept (by decide)).trans strt, (kept (by decide)).trans stop, rfl⟩⟩,
        (kept (by decide)).trans tdmd⟩
    | false =>
      exact .off mask (dropped_clear _ _) ((anyFlag_drop (by decide)).trans tdmd)
  · exact ready

theorem executeStop_ready (ready : m.Ready) : m.executeStop.Ready := by
  refine .off ready.mask ?_ ?_
  · change anyFlag ((m.lance.csr0 ||| Csr0.stop) &&& ~~~(Csr0.rxon ||| Csr0.txon)) Csr0.txon = false
    have zero : (m.lance.csr0 ||| Csr0.stop) &&& ~~~(Csr0.rxon ||| Csr0.txon) &&& Csr0.txon = 0 := by
      rw [BitVec.and_assoc]
      exact BitVec.and_zero
    rw [anyFlag, zero]
    rfl
  · refine (anyFlag_drop (by decide)).trans ((anyFlag_or _ _ _).trans ?_)
    rw [ready.demand]
    rfl

theorem reset_ready (m : LanceBoard) : m.reset.Ready := by
  have cleared : m.reset.lance.txRingMask = 0 := by
    simp only [reset]
    split_ifs <;> rfl
  have csr0 := (reset_lance m).1
  refine .off (cleared ▸ by decide) ?_ ?_ <;> rw [csr0] <;> decide

theorem commandInit_ready (ready : m.Ready) (value : Word) : (m.commandInit value).Ready := by
  rw [commandInit]
  split_ifs with asked stopped
  · exact executeInitialize_ready ready stopped
  · exact ready.steers (orCsr0_calm m (by decide)).toSteers
  · exact ready.steers (orCsr0_calm m (by decide)).toSteers
  · exact ready

theorem commandStart_ready (ready : m.Ready) (value : Word) : (m.commandStart value).Ready := by
  rw [commandStart]
  split_ifs
  · exact executeStart_ready ready
  · exact ready

/-- The board on which a demand makes its first poll. -/
def asked (m : LanceBoard) : LanceBoard :=
  (m.orCsr0 Csr0.tdmd).onLance fun l => { l with txPollPending := true }

theorem asked_able (able : m.Able) : m.asked.Able where
  mask := able.mask
  started on := by
    have kept {flag : Word} (apart : Csr0.tdmd &&& flag = 0) :
        anyFlag m.asked.lance.csr0 flag = anyFlag m.lance.csr0 flag :=
      anyFlag_of_agree (or_and_of_apart apart) BitVec.and_self
    obtain ⟨started, stopped, enabled⟩ := able.started ((kept (by decide)).symm.trans on)
    exact ⟨(kept (by decide)).trans started, (kept (by decide)).trans stopped, enabled⟩

theorem commandTransmit_ready (ready : m.Ready) (value : Word) : (m.commandTransmit value).Ready := by
  rw [commandTransmit]
  split_ifs
  · obtain ⟨packets, sent, _, answered⟩ := transmitPoll_transmits m.asked
    exact ⟨(asked_able ready.toAble).transmits sent, answered⟩
  · exact ready

theorem summarize_calm (m : LanceBoard) (value : Word) : Calm m (m.summarize value) := by
  have turn (n : LanceBoard) (on : Bool) {flags : Word} (apart : flags &&& steerFlags = 0) :
      Calm n (if on = true then n.orCsr0 flags else n.dropCsr0 flags) := by
    split_ifs
    · exact orCsr0_calm n apart
    · exact dropCsr0_calm n apart
  exact ((turn m _ (by decide)).trans (turn _ _ (by decide))).trans (turn _ _ (by decide))

theorem cleared_calm (m : LanceBoard) (value : Word) : Calm m (m.dropCsr0 (value &&& csr0ClearMask)) := by
  refine dropCsr0_calm m ?_
  rw [BitVec.and_assoc]
  exact BitVec.and_zero

theorem writeCsr0_ready (ready : m.Ready) (value : Word) : (m.writeCsr0 value).Ready := by
  simp only [writeCsr0]
  split_ifs
  · exact ready
  · exact reset_ready m
  · have commanded := commandTransmit_ready (commandStart_ready (commandInit_ready
      (ready.steers (cleared_calm m value).toSteers) value) value) value
    exact commanded.steers ((summarize_calm _ value).trans (checkInterrupts_calm _)).toSteers

theorem writeCsr_ready (ready : m.Ready) (csrNumber value : Word) : (m.writeCsr csrNumber value).Ready := by
  have stored (change : Am7990Lance → Am7990Lance)
      (same : ∀ n : LanceBoard, (n.onLance change).steering = n.steering) : (m.onLance change).Ready :=
    ready.steers (onLance_calm m change same).toSteers
  rw [writeCsr]
  split_ifs
  · exact writeCsr0_ready ready value
  · exact stored _ fun _ => rfl
  · exact ready
  · exact stored _ fun _ => rfl
  · exact ready
  · exact (stored _ fun _ => rfl).steers (checkInterrupts_calm _).toSteers
  · exact ready.steers (checkInterrupts_calm _).toSteers
  · exact ready

theorem write_ready (ready : m.Ready) (address : BitVec 32) (value : Byte) : (m.write address value).Ready := by
  have stored (change : Am7990Lance → Am7990Lance)
      (same : ∀ n : LanceBoard, (n.onLance change).steering = n.steering) : (m.onLance change).Ready :=
    ready.steers (onLance_calm m change same).toSteers
  simp only [write]
  split_ifs
  · exact writeCsr_ready (stored _ fun _ => rfl) _ _
  · exact stored _ fun _ => rfl
  · exact ready
  · exact stored _ fun _ => rfl
  · exact stored _ fun _ => rfl
  · exact ready

theorem clock_ready (ready : m.Ready) : m.clock.Ready := by
  have drained := ready.steers (drainQueue_steers m)
  rw [clock, pollWhenPending]
  split_ifs
  · obtain ⟨packets, sent, _, _⟩ := transmitPoll_transmits
      (m.drainQueue.onLance fun l => { l with txPollPending := false })
    have marked : (m.drainQueue.onLance fun l => { l with txPollPending := false }).Ready :=
      ⟨⟨drained.mask, drained.started⟩, drained.demand⟩
    exact marked.transmits sent
  · exact drained

theorem cpuTick_steers (m : LanceBoard) (cpuHalted : Bool) : Steers m (m.cpuTick cpuHalted) := by
  simp only [cpuTick]
  split_ifs
  · exact ⟨rfl⟩
  · rw [handleLanceInterruptAck]
    split_ifs <;> exact ⟨rfl⟩
  · exact ⟨rfl⟩

theorem step_ready (ready : m.Ready) (event : LanceEvent) : (m.step event).Ready := by
  cases event with
  | write address value => exact write_ready ready address value
  | enqueue data =>
    rw [step, enqueueReceivedPacket]
    split_ifs
    · exact ready
    · exact ready.steers (onLance_calm m _ fun _ => rfl).toSteers
  | receive frame => exact ready.steers (receiveQueued_steers m frame)
  | transmitPoll =>
    obtain ⟨packets, sent, _, _⟩ := transmitPoll_transmits m
    exact ready.transmits sent
  | clock => exact clock_ready ready
  | memoryError => exact ready.steers (setMemoryError_calm m).toSteers
  | stop => exact executeStop_ready ready
  | reset => exact reset_ready m
  | cpuTick cpuHalted => exact ready.steers (cpuTick_steers m cpuHalted)
  | cpuMask mask => exact ⟨⟨ready.mask, ready.started⟩, ready.demand⟩
  | enableInterrupts enabled => exact ⟨⟨ready.mask, ready.started⟩, ready.demand⟩
  | request level active => exact ⟨⟨ready.mask, ready.started⟩, ready.demand⟩

theorem create_ready (startAddress : BitVec 32) (swapByteLanes : Bool) (dram : Nat → Byte)
    (cpuMask : Nat) : (create startAddress swapByteLanes dram cpuMask).Ready :=
  .off (show (0 : Byte).toNat ≤ 127 by decide) (show anyFlag Csr0.stop Csr0.txon = false by decide)
    (show anyFlag Csr0.stop Csr0.tdmd = false by decide)

/-- A chip that was used in any way is ready. -/
theorem Used.ready (used : Used m) : m.Ready := by
  induction used with
  | create startAddress swapByteLanes dram cpuMask => exact create_ready _ _ _ _
  | step used event ih => exact step_ready ih event
  | store used dram ih =>
    exact ⟨⟨ih.mask, ih.started⟩, ih.demand⟩

theorem Used.run (used : Used m) (events : List LanceEvent) : Used (events.foldl LanceBoard.step m) := by
  induction events generalizing m with
  | nil => exact used
  | cons event rest ih => exact ih (used.step event)

/- The demand. -/

theorem places_le (small : mask.toNat ≤ 127) :
    ∀ place ∈ places mask (nextPos pos mask) count, place.toNat ≤ 127 := by
  induction count generalizing pos with
  | zero => exact fun place member => absurd member List.not_mem_nil
  | succ count ih =>
    intro place member
    rcases List.mem_cons.mp member with rfl | later
    · rw [nextPos, BitVec.toNat_and]
      exact Nat.and_le_right.trans small
    · exact ih place later

/-- Different descriptors of a ring are at most as many as it has. -/
theorem count_le (small : mask.toNat ≤ 127) (apart : (places mask pos count).Nodup) : count ≤ 129 := by
  cases count with
  | zero => omega
  | succ count =>
    have tail := (List.nodup_cons.mp apart).2
    have numbers : ((places mask (nextPos pos mask) count).map BitVec.toNat).Nodup :=
      tail.map fun _ _ => BitVec.eq_of_toNat_eq
    have inside : (places mask (nextPos pos mask) count).map BitVec.toNat ⊆ List.range 128 := by
      intro number member
      obtain ⟨place, among, rfl⟩ := List.mem_map.mp member
      exact List.mem_range.mpr (Nat.lt_succ_of_le (places_le small place among))
    have fewer := (numbers.subperm inside).length_le
    rw [List.length_map, places_length, List.length_range] at fewer
    omega

/-- A demand is a poll between changes that do not touch the transmitter. -/
theorem writeCsr0_polls (ready : m.Ready) (on : anyFlag m.lance.csr0 Csr0.txon = true) {value : Word}
    (demands : Demands value) : ∃ n, Calm m n ∧ Calm n.asked.transmitPoll (m.writeCsr0 value) := by
  obtain ⟨started, running, _⟩ := ready.started on
  have cleared := cleared_calm m value
  have initialized : Calm (m.dropCsr0 (value &&& csr0ClearMask))
      ((m.dropCsr0 (value &&& csr0ClearMask)).commandInit value) := by
    have stop : anyFlag (m.dropCsr0 (value &&& csr0ClearMask)).lance.csr0 Csr0.stop = false :=
      (cleared.flag (by decide)).trans running
    rw [commandInit, stop, if_neg Bool.false_ne_true]
    split_ifs
    · exact orCsr0_calm _ (by decide)
    · exact orCsr0_calm _ (by decide)
    · exact .refl _
  have before := cleared.trans initialized
  refine ⟨_, before, ?_⟩
  rw [writeCsr0, demands.2, if_neg Bool.false_ne_true]
  dsimp only
  generalize (m.dropCsr0 (value &&& csr0ClearMask)).commandInit value = n at before ⊢
  have strt : anyFlag n.lance.csr0 Csr0.strt = true := (before.flag (by decide)).trans started
  have tdmd : anyFlag n.lance.csr0 Csr0.tdmd = false := (before.flag (by decide)).trans ready.demand
  have start : n.commandStart value = n := by
    rw [commandStart, strt, Bool.not_true, Bool.and_false, if_neg Bool.false_ne_true]
  have transmit : n.commandTransmit value = n.asked.transmitPoll := by
    rw [commandTransmit, demands.1, tdmd]
    rfl
  rw [start, transmit]
  exact (summarize_calm _ value).trans (checkInterrupts_calm _)

/-- At most two packets leave the chip however often it is clocked. -/
theorem demanded_packets (ready : m.Ready) (on : anyFlag m.lance.csr0 Csr0.txon = true) {value : Word}
    (demands : Demands value) (clocks : Nat) :
    ∃ packets, (m.demanded value clocks).transmitted = m.transmitted ++ packets ∧
      packets.length ≤ 2 := by
  obtain ⟨n, before, after⟩ := writeCsr0_polls ready on demands
  obtain ⟨first, sent, one, _⟩ := transmitPoll_transmits n.asked
  have written : (m.writeCsr0 value).transmitted = m.transmitted ++ first := by
    rw [show (m.writeCsr0 value).transmitted = n.asked.transmitPoll.transmitted from
      congrArg Steering.transmitted after.steering, sent.transmitted]
    congr 1
    exact congrArg Steering.transmitted before.steering
  have later : ∃ packets, (m.demanded value clocks).transmitted =
      (m.writeCsr0 value).transmitted ++ packets ∧ (packets = [] ∨
        packets.length ≤ 1 ∧ (m.demanded value clocks).lance.txPollPending = false) := by
    induction clocks with
    | zero => exact ⟨[], (List.append_nil _).symm, .inl rfl⟩
    | succ clocks ih =>
      obtain ⟨packets, made, few⟩ := ih
      rw [demanded, Function.iterate_succ_apply', ← demanded, clock]
      have drained := (drainQueue_steers (m.demanded value clocks)).transmits
      have same : (m.demanded value clocks).drainQueue.transmitted =
          (m.writeCsr0 value).transmitted ++ packets := by
        rw [drained.transmitted, List.append_nil, made]
      rw [pollWhenPending]
      split_ifs with polls
      · obtain ⟨more, sent, one, _⟩ := transmitPoll_transmits
          ((m.demanded value clocks).drainQueue.onLance fun l => { l with txPollPending := false })
        have none_ : packets = [] := by
          rcases few with none_ | ⟨_, idle⟩
          · exact none_
          · rw [Bool.and_eq_true, Bool.and_eq_true, drained.pending, idle] at polls
            exact absurd polls.1.1 Bool.false_ne_true
        subst none_
        rw [List.append_nil] at same
        exact ⟨more, sent.transmitted.trans (congrArg (· ++ more) same), .inr ⟨one, sent.pending⟩⟩
      · exact ⟨packets, same, few.imp_right fun both => ⟨both.1, drained.pending.trans both.2⟩⟩
  obtain ⟨packets, made, few⟩ := later
  refine ⟨first ++ packets, by rw [made, written, List.append_assoc], ?_⟩
  rw [List.length_append]
  rcases few with rfl | ⟨fewer, _⟩
  · rw [List.length_nil]
    omega
  · omega

/-- A frame has left the chip. -/
structure Sent (m t : LanceBoard) (count : Nat) : Prop where
  packet : ∃ packet, t.transmitted = m.transmitted ++ [packet]
  place : t.lance.txRingPos = placeBehind m.lance.txRingMask m.lance.txRingPos count
  base : t.lance.txRingBase = m.lance.txRingBase
  mask : t.lance.txRingMask = m.lance.txRingMask
  straight : t.loops = false
  enabled : t.lance.transmitterEnabled = m.lance.transmitterEnabled
  pending : t.lance.txPollPending = m.lance.txPollPending
  on : anyFlag t.lance.csr0 Csr0.txon = true
  returned : Returned m t m.lance.txRingBase (places m.lance.txRingMask m.lance.txRingPos count)

/-- A board on which a complete frame stands at the ring position. -/
structure Holds (m : LanceBoard) (count : Nat) : Prop where
  on : anyFlag m.lance.csr0 Csr0.txon = true
  straight : m.loops = false
  small : m.lance.txRingMask.toNat ≤ 127
  starts : anyFlag (m.txStatus m.lance.txRingPos) Md1.stp = true
  ends : EndsFrame m.txStatus m.lance.txRingMask m.lance.txRingPos count
  apart : ((places m.lance.txRingMask m.lance.txRingPos count).map
    (ringAddr m.lance.txRingBase)).Nodup

theorem Holds.polled (holds : m.Holds count) : Sent m m.transmitPoll count := by
  obtain ⟨packet, word, steering, returned⟩ := transmitPoll_sends m holds.on holds.straight
    holds.starts holds.ends holds.apart (count_le holds.small (holds.apart.of_map _))
  have flags : m.transmitPoll.lance.csr0 &&& steerFlags =
      m.lance.csr0 &&& steerFlags &&& ~~~Csr0.tdmd := congrArg Steering.flags steering
  refine ⟨⟨packet, congrArg Steering.transmitted steering⟩, congrArg Steering.txRingPos steering,
    congrArg Steering.txRingBase steering, congrArg Steering.txRingMask steering, ?_,
    congrArg Steering.transmitterEnabled steering, congrArg Steering.txPollPending steering, ?_,
    returned⟩
  · rw [loops, show m.transmitPoll.lance.mode = m.lance.mode from congrArg Steering.mode steering]
    exact holds.straight
  · have kept : m.transmitPoll.lance.csr0 &&& (steerFlags &&& Csr0.txon) =
        m.lance.csr0 &&& (steerFlags &&& ~~~Csr0.tdmd &&& Csr0.txon) := by
      rw [← BitVec.and_assoc, flags]
      simp only [BitVec.and_assoc]
    exact (congrArg (fun word : Word => decide (word ≠ 0)) kept).trans holds.on

theorem Sent.calm (sent : Sent m t count) (calm : Calm t u) : Sent m u count where
  packet := by
    obtain ⟨packet, same⟩ := sent.packet
    exact ⟨packet, (congrArg Steering.transmitted calm.steering).trans same⟩
  place := (congrArg Steering.txRingPos calm.steering).trans sent.place
  base := (congrArg Steering.txRingBase calm.steering).trans sent.base
  mask := (congrArg Steering.txRingMask calm.steering).trans sent.mask
  straight := by
    rw [loops, show u.lance.mode = t.lance.mode from congrArg Steering.mode calm.steering]
    exact sent.straight
  enabled := (congrArg Steering.transmitterEnabled calm.steering).trans sent.enabled
  pending := (congrArg Steering.txPollPending calm.steering).trans sent.pending
  on := (calm.flag (by decide)).trans sent.on
  returned := sent.returned.congr calm.dram

/-- The write sends the first frame and leaves a poll pending. -/
theorem writeCsr0_sends (ready : m.Ready) (holds : m.Holds count) {value : Word}
    (demands : Demands value) :
    ∃ n, Calm m n ∧ Sent n.asked (m.writeCsr0 value) count := by
  obtain ⟨n, before, after⟩ := writeCsr0_polls ready holds.on demands
  have base : n.lance.txRingBase = m.lance.txRingBase := congrArg Steering.txRingBase before.steering
  have mask : n.lance.txRingMask = m.lance.txRingMask := congrArg Steering.txRingMask before.steering
  have place : n.lance.txRingPos = m.lance.txRingPos := congrArg Steering.txRingPos before.steering
  have status : n.asked.txStatus = m.txStatus := by
    funext pos
    change statusWord n.dram n.lance.txRingBase pos = _
    rw [before.dram, base]
    rfl
  refine ⟨n, before, Sent.calm (Holds.polled ⟨?_, ?_, ?_, ?_, ?_, ?_⟩) after⟩
  · change anyFlag (n.lance.csr0 ||| Csr0.tdmd) Csr0.txon = true
    rw [anyFlag_or, before.flag (show Csr0.txon &&& steerFlags = Csr0.txon by decide), holds.on]
    rfl
  · change n.loops = false
    rw [loops, show n.lance.mode = m.lance.mode from congrArg Steering.mode before.steering]
    exact holds.straight
  · change n.lance.txRingMask.toNat ≤ 127
    rw [mask]
    exact holds.small
  · rw [status]
    change anyFlag (m.txStatus n.lance.txRingPos) Md1.stp = true
    rw [place]
    exact holds.starts
  · rw [status]
    change EndsFrame m.txStatus n.lance.txRingMask n.lance.txRingPos count
    rw [mask, place]
    exact holds.ends
  · change ((places n.lance.txRingMask n.lance.txRingPos count).map
      (ringAddr n.lance.txRingBase)).Nodup
    rw [mask, place, base]
    exact holds.apart

theorem TransmitRing.holds {rest : List Nat} (ready : m.Ready)
    (on : anyFlag m.lance.csr0 Csr0.txon = true) (straight : m.loops = false)
    (ring : TransmitRing m (count :: rest)) : m.Holds count := by
  have apart := ring.apart
  rw [framePlaces, List.sum_cons, places_add, List.map_append] at apart
  exact ⟨on, straight, ready.mask, ring.frames.1, ring.frames.2.1, apart.of_append_left⟩

/-- The clock sends the second frame. -/
theorem clock_sends {first second : Nat} (ready : m.Ready)
    (on : anyFlag m.lance.csr0 Csr0.txon = true) (straight : m.loops = false)
    (ring : TransmitRing m [first, second]) {value : Word} (demands : Demands value)
    (beside : ReceivesBeside m (m.writeCsr0 value) [first, second]) :
    Drained m (m.writeCsr0 value).clock [first, second] := by
  obtain ⟨n, before, sent⟩ := writeCsr0_sends ready (ring.holds ready on straight) demands
  have base : n.lance.txRingBase = m.lance.txRingBase := congrArg Steering.txRingBase before.steering
  have mask : n.lance.txRingMask = m.lance.txRingMask := congrArg Steering.txRingMask before.steering
  have place : n.lance.txRingPos = m.lance.txRingPos := congrArg Steering.txRingPos before.steering
  generalize m.writeCsr0 value = t at sent beside ⊢
  have drained := drainQueue_steers t
  let w := t.drainQueue.onLance fun l => { l with txPollPending := false }
  have drainedOn : anyFlag t.drainQueue.lance.csr0 Csr0.txon = true :=
    (drained.flag (by decide)).trans sent.on
  have enabled : t.drainQueue.lance.transmitterEnabled = true :=
    (congrArg Steering.transmitterEnabled drained.steering).trans (sent.enabled.trans
      ((congrArg Steering.transmitterEnabled before.steering).trans (ready.started on).2.2))
  have pending : t.drainQueue.lance.txPollPending = true :=
    (congrArg Steering.txPollPending drained.steering).trans sent.pending
  have polled : t.clock = w.transmitPoll := by
    rw [clock, pollWhenPending, pending, enabled, drainedOn]
    rfl
  have wBase : w.lance.txRingBase = m.lance.txRingBase :=
    (congrArg Steering.txRingBase drained.steering).trans (sent.base.trans base)
  have wMask : w.lance.txRingMask = m.lance.txRingMask :=
    (congrArg Steering.txRingMask drained.steering).trans (sent.mask.trans mask)
  have wPlace : w.lance.txRingPos = placeBehind m.lance.txRingMask m.lance.txRingPos first := by
    rw [← mask, ← place]
    exact (congrArg Steering.txRingPos drained.steering).trans sent.place
  have split : m.framePlaces [first, second] = places m.lance.txRingMask m.lance.txRingPos first ++
      places m.lance.txRingMask (placeBehind m.lance.txRingMask m.lance.txRingPos first) second := by
    rw [framePlaces, ← places_add]
    rfl
  have apart := ring.apart
  rw [split, List.map_append, List.nodup_append'] at apart
  have returned : Returned n t n.lance.txRingBase
      (places n.lance.txRingMask n.lance.txRingPos first) :=
    ⟨sent.returned.returned, sent.returned.others⟩
  rw [base, mask, place] at returned
  have status : ∀ pos ∈ places m.lance.txRingMask
      (placeBehind m.lance.txRingMask m.lance.txRingPos first) second, w.txStatus pos = m.txStatus pos := by
    intro pos member
    have away : ringAddr m.lance.txRingBase pos ∉
        (places m.lance.txRingMask m.lance.txRingPos first).map (ringAddr m.lance.txRingBase) :=
      fun inside => apart.2.2 inside (List.mem_map_of_mem member)
    rw [txStatus, wBase]
    refine (beside pos (split ▸ List.mem_append_right _ member)).trans ?_
    rw [returned.others pos away, before.dram]
    rfl
  obtain ⟨starts, ends, _⟩ := ring.frames.2.2
  have holds : w.Holds second := by
    refine ⟨drainedOn, ?_, wMask ▸ ready.mask, ?_, ?_, ?_⟩
    · change t.drainQueue.loops = false
      rw [loops, show t.drainQueue.lance.mode = t.lance.mode from
        congrArg Steering.mode drained.steering]
      exact sent.straight
    · rw [wPlace, status _ (by
        cases second with
        | zero => exact ends.elim
        | succ second => exact List.mem_cons_self)]
      exact starts
    · rw [wMask, wPlace]
      exact ends.congr status
    · rw [wMask, wPlace, wBase]
      exact apart.2.1
  have last := holds.polled
  rw [← polled] at last
  obtain ⟨packet, left⟩ := sent.packet
  obtain ⟨next, later⟩ := last.packet
  have lastReturned := last.returned
  rw [wMask, wPlace, wBase] at lastReturned
  refine ⟨⟨[packet, next], ?_, rfl⟩, fun pos member => ?_⟩
  · rw [later, show w.transmitted = t.transmitted from congrArg Steering.transmitted drained.steering,
      left, show n.asked.transmitted = m.transmitted from congrArg Steering.transmitted before.steering,
      List.append_assoc]
    rfl
  · rw [split] at member
    rcases List.mem_append.mp member with early | late
    · rw [lastReturned.others pos fun inside => apart.2.2 (List.mem_map_of_mem early) inside]
      rw [show statusWord w.dram m.lance.txRingBase pos = statusWord t.dram m.lance.txRingBase pos from
        beside pos (split ▸ List.mem_append_left _ early)]
      exact returned.returned pos early
    · exact lastReturned.returned pos late

/-- An initialization block at 16 and a transmit ring at 128 with three frames of one byte. -/
def threeFrames (place : Nat) : Byte :=
  ([(0x11, 0x08), (0x25, 0x80), (0x26, 0x40), (0x82, 0x83), (0x84, 0xFF), (0x85, 0xFF), (0x8A, 0x83),
    (0x8C, 0xFF), (0x8D, 0xFF), (0x92, 0x83), (0x94, 0xFF), (0x95, 0xFF)].lookup place).getD 0

/-- The chip is initialized and started. -/
def startWrites : List LanceEvent :=
  [.write 2 1, .write 3 0, .write 0 0x10, .write 1 0, .write 2 2, .write 3 0, .write 0 0, .write 1 0,
    .write 2 0, .write 3 0, .write 0 0x01, .write 1 0, .write 0 0x02, .write 1 0]

def startedBoard : LanceBoard := startWrites.foldl LanceBoard.step (create 0 false threeFrames 0)

theorem startedBoard_used : Used startedBoard := (Used.create 0 false threeFrames 0).run startWrites

set_option maxRecDepth 4000 in
theorem startedBoard_on : anyFlag startedBoard.lance.csr0 Csr0.txon = true := by decide

set_option maxRecDepth 4000 in
theorem startedBoard_straight : startedBoard.loops = false := by decide

set_option maxRecDepth 4000 in
theorem startedBoard_ring : TransmitRing startedBoard [1, 1, 1] where
  frames := ⟨by decide, ⟨by decide, by decide⟩, by decide, ⟨by decide, by decide⟩, by decide,
    ⟨by decide, by decide⟩, trivial⟩
  apart := by decide

end LanceBoard

end Nd100x.Ethernet
