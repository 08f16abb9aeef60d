import Nd100x.Hdlc.TransmitList

namespace Nd100x.Hdlc

open Nd100x.Library

/-- No frame outgrows the outbound buffer. -/
def RoomFor : Nat → List (Word × List Byte) → Prop
  | _, [] => True
  | pending, block :: rest =>
    (if anyBit block.1 KeyFlag.rcostRsom then 0 else pending) + block.2.length ≤
        outboundBufferCapacity ∧
      RoomFor (if anyBit block.1 KeyFlag.rcostReom then 0
        else (if anyBit block.1 KeyFlag.rcostRsom then 0 else pending) + block.2.length) rest

/-- The blocks with the bytes that are read from them. -/
def Device.readBlocks (s : Device) : Nat → List (Word × List Byte) → List (Word × List Byte)
  | _, [] => []
  | k, block :: rest => (block.1, s.readBytes k block.2) :: s.readBlocks (k + 1) rest

/-- The wires of the finished frames that fit the frame buffer. -/
def outgoingWires (payloads : List (List Byte)) : List (List Byte) :=
  payloads.filterMap fun data => buildFrame data frameBufferSize

section Run

variable {s u v : Device} {blocks : List (Word × List Byte)} {k : Nat}

theorem sentKey_key (keyValue : Word) :
    sentKey keyValue &&& KeyFlag.maskKey = KeyFlag.alreadyTransmittedBlock := by
  have low : keyValue &&& KeyFlag.maskDataflowCost &&& KeyFlag.maskKey = 0#16 := by
    rw [BitVec.and_assoc]
    exact BitVec.and_zero
  have high : KeyFlag.alreadyTransmittedBlock &&& KeyFlag.maskKey =
      KeyFlag.alreadyTransmittedBlock := rfl
  rw [sentKey, BitVec.and_comm, BitVec.and_or_distrib_left, BitVec.and_comm KeyFlag.maskKey,
    BitVec.and_comm KeyFlag.maskKey, low, high, BitVec.zero_or]

/-- The loop goes on up to the end of the list, or to the wrap of the sixteen bits of the offset. -/
theorem SentUpTo.loadNext (list : TransmitList s blocks) (sent : SentUpTo s v (k + 1))
    (pointer : v.txListPointer = s.txListPointer) (offset : v.txListPointerOffset = k)
    (inside : k < blocks.length) (low : k < 2 ^ 16) :
    v.loadNextTxBuffer.2 = decide (k + 1 < blocks.length ∧ k + 1 < 2 ^ 16) := by
  have bound := list.listInside
  have small := list.small
  have key (j : Nat) (jInside : j ≤ blocks.length) (position : (k + 1) % 2 ^ 16 = j) :
      v.loadNextTxBuffer.2 = decide
        (v.memory.words (s.txEntry j) &&& KeyFlag.maskKey = KeyFlag.blockToBeTransmitted) := by
    have present : (v.putTxListPointerOffset (v.txListPointerOffset + 1)).txListPointer ≠ 0 := by
      change v.txListPointer ≠ 0
      rw [pointer]
      exact list.present
    obtain ⟨dcb, description, keyValue⟩ :=
      (v.putTxListPointerOffset (v.txListPointerOffset + 1)).loadBufferDescription_key present
        ((v.txListPointerOffset + 1) % 2 ^ 16)
    have read : dcb.keyValue = v.memory.words (s.txEntry j) := by
      have entry : v.txListPointer + (v.txListPointerOffset + 1) % 2 ^ 16 * 4 = s.txEntry j := by
        rw [pointer, offset, position]
        rfl
      rw [keyValue]
      change v.memory.dmaRead (v.txListPointer + _) = _
      rw [entry]
      apply CoreMemory.dmaRead_installed (by rw [sent.size]; exact small)
      rw [sent.size]
      simp only [Device.txEntry] at bound ⊢
      omega
    simp only [Device.loadNextTxBuffer, Device.txKey, Device.loadTxBuffer, Device.putTxDCB_txDCB,
      Device.putTxListPointerOffset_txListPointerOffset, description, Option.map_some,
      Option.getD_some, Dcb.key, read]
  by_cases last : k + 1 < 2 ^ 16
  · rw [key (k + 1) inside (Nat.mod_eq_of_lt last)]
    have kept : v.memory.words (s.txEntry (k + 1)) = s.memory.words (s.txEntry (k + 1)) :=
      sent.word_kept (.inl (Nat.le_refl _)) (Nat.zero_le 3)
    rw [kept]
    by_cases more : k + 1 < blocks.length
    · rw [list.keys (k + 1) more, list.transmitted _ (List.getElem_mem more)]
      rw [decide_eq_true rfl, decide_eq_true ⟨more, last⟩]
    · have ended := list.ended
      have whole : blocks.length = k + 1 := by omega
      rw [whole] at ended
      rw [decide_eq_false ended, decide_eq_false (fun both => more both.1)]
  · have wrapped : (k + 1) % 2 ^ 16 = 0 := by omega
    have stop : ¬ (k + 1 < blocks.length ∧ k + 1 < 2 ^ 16) := fun both => last both.2
    rw [key 0 (Nat.zero_le _) wrapped, sent.marked 0 (Nat.succ_pos k), sentKey_key,
      decide_eq_false stop]
    rfl

theorem Device.setTxdmaFlag_kept (s : Device) (flag : Word) :
    (s.setTxdmaFlag flag).memory = s.memory ∧
      (s.setTxdmaFlag flag).txListPointer = s.txListPointer ∧
      (s.setTxdmaFlag flag).txListPointerOffset = s.txListPointerOffset ∧
      (s.setTxdmaFlag flag).parameters = s.parameters ∧
      (s.setTxdmaFlag flag).txDCB = s.txDCB ∧
      (s.setTxdmaFlag flag).outboundBuffer = s.outboundBuffer ∧
      (s.setTxdmaFlag flag).sent = s.sent ∧ (s.setTxdmaFlag flag).overrun = s.overrun := by
  simp only [Device.setTxdmaFlag]
  split_ifs <;> exact ⟨rfl, rfl, rfl, rfl, rfl, rfl, rfl, rfl⟩

/-- The next descriptor is loaded for the next round of the loop. -/
theorem SentUpTo.next (sent : SentUpTo s v (k + 1)) (pointer : v.txListPointer = s.txListPointer)
    (offset : v.txListPointerOffset = k) (parameters : v.parameters = s.parameters) (flag : Word) :
    Sending s (v.loadNextTxBuffer.1.setTxdmaFlag flag) (k + 1) := by
  obtain ⟨memory, keptPointer, keptOffset, keptParameters, loaded, -, -, -⟩ :=
    v.loadNextTxBuffer.1.setTxdmaFlag_kept flag
  have nextMemory : (v.loadNextTxBuffer.1.setTxdmaFlag flag).memory = v.memory := memory
  have nextOffset : (v.loadNextTxBuffer.1.setTxdmaFlag flag).txListPointerOffset = k + 1 :=
    keptOffset.trans (congrArg (· + 1) offset)
  refine ⟨⟨?_, ?_, ?_⟩, keptPointer.trans pointer, nextOffset, keptParameters.trans parameters, ?_⟩
  · rw [nextMemory]
    exact sent.size
  · rw [nextMemory]
    exact sent.marked
  · rw [nextMemory]
    exact sent.others
  · rw [loaded, keptPointer, keptOffset]
    have same (listPointer offset : Nat) :
        (v.loadNextTxBuffer.1.setTxdmaFlag flag).loadBufferDescription listPointer offset =
          (v.putTxListPointerOffset (v.txListPointerOffset + 1)).loadBufferDescription listPointer
            offset := by
      simp only [Device.loadBufferDescription, Device.readDcbWords, Device.dmaRead,
        Device.pickDisplacement, nextMemory, keptParameters]
      rfl
    rw [same]
    rfl

/-- The wires so far and the wires of the finished frames. -/
structure WiresSent (u t : Device) (payloads : List (List Byte)) : Prop where
  sent : t.sent = u.sent ++ outgoingWires payloads
  overrun : t.overrun = (u.overrun || (outgoingWires payloads).any
    fun wire => decide (maxFrameSize < wire.length))

theorem BlockSent.wires {block : Word × List Byte} (effect : BlockSent u v block) {t : Device}
    {payloads : List (List Byte)} (later : WiresSent v t payloads) :
    WiresSent u t ((transmitBlock u.outboundBuffer block).2.toList ++ payloads) := by
  have wires : outgoingWires ((transmitBlock u.outboundBuffer block).2.toList ++ payloads) =
      (outgoingWire (transmitBlock u.outboundBuffer block).2).toList ++ outgoingWires payloads := by
    rw [outgoingWires, List.filterMap_append]
    rcases (transmitBlock u.outboundBuffer block).2 with _ | payload
    · rfl
    · rcases built : buildFrame payload frameBufferSize with _ | wire
      · simp [outgoingWire, outgoingWires, built]
      · simp [outgoingWire, outgoingWires, built]
  refine ⟨?_, ?_⟩
  · rw [wires, later.sent, effect.sent, List.append_assoc]
  · rw [wires, later.overrun, effect.overrun, List.any_append, Bool.or_assoc]
    congr 2
    rcases outgoingWire (transmitBlock u.outboundBuffer block).2 with _ | wire
    · rfl
    · exact (Bool.or_false _).symm

theorem Device.sendLoop_block {dcb : Dcb} (loaded : u.txDCB = some dcb)
    (key : dcb.key = KeyFlag.blockToBeTransmitted) (fuel : Nat) :
    u.sendLoop (fuel + 1) =
      if (u.sendBlock dcb).1.loadNextTxBuffer.2 then
        ((u.sendBlock dcb).1.loadNextTxBuffer.1.setTxdmaFlag (u.sendBlock dcb).2).sendLoop fuel
      else some ((u.sendBlock dcb).1.loadNextTxBuffer.1.setTxdmaFlag ((u.sendBlock dcb).2 |||
        (Tts.transmissionFinished ||| Tts.listEnd))).stopSender := by
  have plain : KeyFlag.blockToBeTransmitted ≠ KeyFlag.alreadyTransmittedBlock := by decide
  rw [Device.sendLoop, loaded]
  simp only [key, if_neg plain, if_true]

/-- The outbound buffer is not longer than the bytes that could have been read. -/
theorem transmitBlock_bound {pending bytes : List Byte} {keyValue : Word} {count bound : Nat}
    (short : pending.length ≤ bound) :
    (transmitBlock pending (keyValue, bytes.take count)).1.length ≤
      if anyBit keyValue KeyFlag.rcostReom then 0
      else (if anyBit keyValue KeyFlag.rcostRsom then 0 else bound) + bytes.length := by
  have taken := List.length_take_le' count bytes
  simp only [transmitBlock]
  split_ifs <;> simp only [List.length_append, List.length_nil] <;> omega

/-- The loop sends the rest of the list. -/
theorem Sending.run (list : TransmitList s blocks) {rest : List (Word × List Byte)} {bound : Nat}
    (sending : Sending s u k) (low : k < 2 ^ 16) (suffix : blocks.drop k = rest)
    (nonempty : rest ≠ []) (room : RoomFor bound rest) (short : u.outboundBuffer.length ≤ bound) :
    ∃ t, (∀ fuel, rest.length ≤ fuel → u.sendLoop fuel = some t) ∧
      SentUpTo s t (min blocks.length (2 ^ 16)) ∧
      WiresSent u t (transduce transmitBlock u.outboundBuffer
        (s.readBlocks k (rest.take (2 ^ 16 - k)))).2 := by
  induction rest generalizing u k bound with
  | nil => exact absurd rfl nonempty
  | cons block others ih =>
    have inside : k < blocks.length := by
      by_contra outside
      rw [List.drop_eq_nil_of_le (by omega)] at suffix
      cases suffix
    have split := List.drop_eq_getElem_cons inside
    rw [suffix] at split
    obtain ⟨here, later⟩ := List.cons.inj split
    have space : (if anyBit blocks[k].1 KeyFlag.rcostRsom then [] else u.outboundBuffer).length +
        blocks[k].2.length ≤ outboundBufferCapacity := by
      have first := room.1
      rw [here] at first
      have started : (if anyBit blocks[k].1 KeyFlag.rcostRsom then []
          else u.outboundBuffer).length ≤
          if anyBit blocks[k].1 KeyFlag.rcostRsom then 0 else bound := by
        split_ifs
        · exact Nat.le_refl 0
        · exact short
      omega
    obtain ⟨dcb, loaded, key, sent, pointer, offset, parameters, effect⟩ :=
      sending.sendBlock list inside low (by unfold outboundBufferCapacity maxFrameSize at space; omega)
        space
    have moved := sent.loadNext list pointer offset inside low
    have loop := Device.sendLoop_block loaded key
    rw [← here] at effect
    generalize (u.sendBlock dcb).1 = v at sent pointer offset parameters effect moved loop
    generalize (u.sendBlock dcb).2 = flag at loop
    have counted : blocks.length - k = others.length + 1 := by
      rw [← List.length_drop, suffix, List.length_cons]
    have taken : (block :: others).take (2 ^ 16 - k) =
        block :: others.take (2 ^ 16 - (k + 1)) := by
      have more : 2 ^ 16 - k = 2 ^ 16 - (k + 1) + 1 := by omega
      rw [more, List.take_succ_cons]
    have outputs (remaining : List (Word × List Byte)) :
        (transduce transmitBlock u.outboundBuffer (s.readBlocks k (block :: remaining))).2 =
          (transmitBlock u.outboundBuffer (block.1, s.readBytes k block.2)).2.toList ++
            (transduce transmitBlock v.outboundBuffer (s.readBlocks (k + 1) remaining)).2 := by
      rw [effect.outbound]
      rfl
    rw [taken, outputs]
    rw [moved] at loop
    by_cases more : k + 1 < blocks.length ∧ k + 1 < 2 ^ 16
    · have next := sent.next pointer offset parameters flag
      obtain ⟨-, -, -, -, -, outbound, wires, overrun⟩ :=
        v.loadNextTxBuffer.1.setTxdmaFlag_kept flag
      have bounded : (v.loadNextTxBuffer.1.setTxdmaFlag flag).outboundBuffer.length ≤
          if anyBit block.1 KeyFlag.rcostReom then 0
          else (if anyBit block.1 KeyFlag.rcostRsom then 0 else bound) + block.2.length := by
        rw [outbound]
        change v.outboundBuffer.length ≤ _
        rw [effect.outbound]
        exact transmitBlock_bound short
      have remaining : others ≠ [] := by
        apply List.ne_nil_of_length_pos
        omega
      obtain ⟨t, loops, marked, sends⟩ :=
        ih next more.2 later.symm remaining room.2 bounded
      refine ⟨t, ?_, marked, ?_⟩
      · intro fuel enough
        rw [List.length_cons] at enough
        obtain ⟨less, rfl⟩ := Nat.exists_eq_succ_of_ne_zero (n := fuel) (by omega)
        rw [loop less, decide_eq_true more, if_pos rfl]
        exact loops less (by omega)
      · apply effect.wires
        rw [outbound] at sends
        exact ⟨sends.sent.trans (congrArg (· ++ _) wires),
          sends.overrun.trans (congrArg (· || _) overrun)⟩
    · have stopped : others.take (2 ^ 16 - (k + 1)) = [] := by
        rw [List.take_eq_nil_iff]
        by_cases wrapped : k + 1 < 2 ^ 16
        · right
          apply List.eq_nil_of_length_eq_zero
          omega
        · left
          omega
      have all : min blocks.length (2 ^ 16) = k + 1 := by omega
      obtain ⟨memory, -, -, -, -, -, wires, overrun⟩ :=
        v.loadNextTxBuffer.1.setTxdmaFlag_kept (flag ||| (Tts.transmissionFinished ||| Tts.listEnd))
      refine ⟨(v.loadNextTxBuffer.1.setTxdmaFlag
        (flag ||| (Tts.transmissionFinished ||| Tts.listEnd))).stopSender, ?_, ?_, ?_⟩
      · intro fuel enough
        obtain ⟨less, rfl⟩ := Nat.exists_eq_succ_of_ne_zero (n := fuel) (by
          rw [List.length_cons] at enough
          omega)
        rw [loop less, decide_eq_false more]
        rfl
      · rw [all]
        exact ⟨(congrArg CoreMemory.size memory).trans sent.size,
          fun j before => (congrFun (congrArg CoreMemory.words memory) _).trans (sent.marked j before),
          fun address other =>
            (congrFun (congrArg CoreMemory.words memory) _).trans (sent.others address other)⟩
      · rw [stopped]
        apply effect.wires
        exact ⟨wires.trans (List.append_nil _).symm, overrun.trans (Bool.or_false _).symm⟩

end Run

end Nd100x.Hdlc
