import Nd100x.Ethernet.MfpParts
import Nd100x.Library.OnesComplement

namespace Nd100x.Ethernet

open Nd100x.Library

namespace IpChecksum

section Model

def etherTypeIpv4 : BitVec 16 := 0x0800
def etherTypeVlan : BitVec 16 := 0x8100
def protocolTcp : Byte := 6
def protocolUdp : Byte := 17

/-- The bits of a result. -/
def ethIpcsumNone : BitVec 32 := 0x00
def ethIpcsumIpHeader : BitVec 32 := 0x01
def ethIpcsumTcp : BitVec 32 := 0x02
def ethIpcsumUdp : BitVec 32 := 0x04

/-- A read outside the first `length` bytes has no result. -/
def readByte (length : Int) (frame : List Byte) (index : Nat) : Option Byte :=
  if (index : Int) < length then frame[index]? else none

def readWord (length : Int) (frame : List Byte) (index : Nat) : Option (BitVec 16) := do
  let high ← readByte length frame index
  let low ← readByte length frame (index + 1)
  return high ++ low

def writeByte (length : Int) (frame : List Byte) (index : Nat) (value : Byte) : Option (List Byte) :=
  if (index : Int) < length ∧ index < frame.length then some (frame.set index value) else none

def writeWord (length : Int) (frame : List Byte) (index : Nat) (value : BitVec 16) :
    Option (List Byte) := do
  let frame ← writeByte length frame index (value.extractLsb' 8 8)
  writeByte length frame (index + 1) (value.setWidth 8)

/-- The loop of `sum16`, with the bytes that remain. -/
def sum16From (length : Int) (frame : List Byte) (data : Nat) :
    (remaining : Nat) → (sum : BitVec 32) → Option (BitVec 32)
  | 0, sum => some sum
  | 1, sum => do
      let high ← readByte length frame data
      return sum + high.setWidth 32 <<< 8
  | remaining + 2, sum => do
      let word ← readWord length frame data
      sum16From length frame (data + 2) remaining (sum + word.setWidth 32)

def sum16 (length : Int) (frame : List Byte) (data dataLength : Nat) : Option (BitVec 32) :=
  sum16From length frame data dataLength 0

theorem toNat_high (sum : BitVec 32) : (sum >>> 16).toNat = sum.toNat / 0x10000 := by
  simp [BitVec.toNat_ushiftRight, Nat.shiftRight_eq_div_pow]

theorem toNat_carry (sum : BitVec 32) :
    ((sum &&& 0xFFFF#32) + (sum >>> 16)).toNat = sum.toNat % 0x10000 + sum.toNat / 0x10000 := by
  have low : (sum &&& 0xFFFF#32).toNat = sum.toNat % 0x10000 := by
    rw [BitVec.toNat_and]
    exact Nat.and_two_pow_sub_one_eq_mod sum.toNat 16
  have := sum.isLt
  rw [BitVec.toNat_add, low, toNat_high, Nat.mod_eq_of_lt (by omega)]

def fold (sum : BitVec 32) : BitVec 16 :=
  if sum >>> 16 ≠ 0 then fold ((sum &&& 0xFFFF#32) + (sum >>> 16)) else sum.setWidth 16
termination_by sum.toNat
decreasing_by
  rename_i carries
  have some : sum.toNat / 0x10000 ≠ 0 := by
    intro zero
    exact carries (BitVec.eq_of_toNat_eq (by rw [toNat_high, zero]; rfl))
  rw [toNat_carry]
  omega

def pseudoHeaderSum (length : Int) (frame : List Byte) (ip : Nat) (protocol : Byte)
    (transportLength : Nat) : Option (BitVec 32) := do
  let first ← readWord length frame (ip + 12)
  let second ← readWord length frame (ip + 14)
  let third ← readWord length frame (ip + 16)
  let fourth ← readWord length frame (ip + 18)
  return first.setWidth 32 + second.setWidth 32 + third.setWidth 32 + fourth.setWidth 32 +
    protocol.setWidth 32 + BitVec.ofNat 32 transportLength

def transportSum16 (length : Int) (frame : List Byte) (ip payload : Nat) (protocol : Byte)
    (payloadLength : Nat) : Option (BitVec 32) := do
  let pseudo ← pseudoHeaderSum length frame ip protocol payloadLength
  let data ← sum16 length frame payload payloadLength
  return pseudo + data

/-- The checksum of a transport header. A UDP checksum of zero is computed as well. -/
def repairChecksum (length : Int) (frame : List Byte) (ip payload : Nat) (protocol : Byte)
    (payloadLength checksumOffset : Nat) : Option (BitVec 32 × List Byte) := do
  if fold (← transportSum16 length frame ip payload protocol payloadLength) = 0xFFFF then
    return (ethIpcsumNone, frame)
  else
    let saved ← readWord length frame (payload + checksumOffset)
    let cleared ← writeWord length frame (payload + checksumOffset) 0
    let computed := ~~~fold (← transportSum16 length cleared ip payload protocol payloadLength)
    -- A computed UDP checksum of zero is sent as all ones.
    let computed := if computed = 0 ∧ protocol = protocolUdp then 0xFFFF else computed
    let frame ← writeWord length cleared (payload + checksumOffset) computed
    if computed = saved then
      return (ethIpcsumNone, frame)
    else
      return (if protocol = protocolTcp then ethIpcsumTcp else ethIpcsumUdp, frame)

/-- Only an unfragmented TCP or UDP datagram is repaired. -/
def repairTransport (length : Int) (frame : List Byte) (ip ihl ipTotalLength : Nat) :
    Option (BitVec 32 × List Byte) := do
  let fragment ← readByte length frame (ip + 6)
  let offsetLow ← readByte length frame (ip + 7)
  let protocol ← readByte length frame (ip + 9)
  let fragmentOffset := ((fragment &&& 0x1F) ++ offsetLow : BitVec 16)
  let payloadLength := ipTotalLength - ihl
  let minimumHeader := if protocol = protocolTcp then 20 else 8
  let checksumOffset := if protocol = protocolTcp then 16 else 6
  if fragment &&& 0x20 ≠ 0 ∨ fragmentOffset ≠ 0 then
    return (ethIpcsumNone, frame)
  else if protocol ≠ protocolTcp ∧ protocol ≠ protocolUdp then
    return (ethIpcsumNone, frame)
  else if payloadLength < minimumHeader then
    return (ethIpcsumNone, frame)
  else
    repairChecksum length frame ip (ip + ihl) protocol payloadLength checksumOffset

/-- A correct header sums to all ones with its checksum field. -/
def repairHeader (length : Int) (frame : List Byte) (ip ihl : Nat) :
    Option (BitVec 32 × List Byte) := do
  if fold (← sum16 length frame ip ihl) ≠ 0xFFFF then
    let cleared ← writeWord length frame (ip + 10) 0
    let header := ~~~fold (← sum16 length cleared ip ihl)
    let frame ← writeWord length cleared (ip + 10) header
    return (ethIpcsumIpHeader, frame)
  else
    return (ethIpcsumNone, frame)

/-- The rest of `eth_ipcsum_repair` when the tag has been read. -/
def repairDatagram (length : Int) (frame : List Byte) (etherType : BitVec 16) (ip : Nat) :
    Option (BitVec 32 × List Byte) := do
  if etherType ≠ etherTypeIpv4 ∨ length < ip + 20 then
    return (ethIpcsumNone, frame)
  else
    let first ← readByte length frame ip
    let ihl := (first &&& 0x0F).toNat * 4
    if first >>> 4 ≠ 4 then
      return (ethIpcsumNone, frame)
    else if ihl < 20 ∨ length - ip < ihl then
      return (ethIpcsumNone, frame)
    else
      let stated := (← readWord length frame (ip + 2)).toNat
      if stated < ihl then
        return (ethIpcsumNone, frame)
      else
        -- A truncated datagram has only its header repaired.
        let ipTotalLength := if (stated : Int) > length - ip then ihl else stated
        let (header, frame) ← repairHeader length frame ip ihl
        let (transport, frame) ← repairTransport length frame ip ihl ipTotalLength
        return (header ||| transport, frame)

def ethIpcsumRepair (frame : List Byte) (length : Int) : Option (BitVec 32 × List Byte) := do
  if length < 14 then
    return (ethIpcsumNone, frame)
  else
    let etherType ← readWord length frame 12
    if etherType = etherTypeVlan then
      if length < 18 then
        return (ethIpcsumNone, frame)
      else
        repairDatagram length frame (← readWord length frame 16) 18
    else
      repairDatagram length frame etherType 14

end Model

section Purpose

inductive TransportProtocol where
  | tcp
  | udp
deriving DecidableEq

namespace TransportProtocol

def number : TransportProtocol → Byte
  | .tcp => protocolTcp
  | .udp => protocolUdp

def minimumHeader : TransportProtocol → Nat
  | .tcp => 20
  | .udp => 8

def checksumOffset : TransportProtocol → Nat
  | .tcp => 16
  | .udp => 6

def flag : TransportProtocol → BitVec 32
  | .tcp => ethIpcsumTcp
  | .udp => ethIpcsumUdp

end TransportProtocol

def headerLength (frame : List Byte) (ip : Nat) : Nat := (frame.getD ip 0 &&& 0x0F).toNat * 4

def totalLength (frame : List Byte) (ip : Nat) : Nat := (wordAt frame (ip + 2)).toNat

/-- A frame carries an IPv4 header that is wholly present, untagged or behind one tag. -/
structure Ipv4Header (frame : List Byte) (ip : Nat) : Prop where
  tag : ip = 14 ∨ (ip = 18 ∧ wordAt frame 12 = etherTypeVlan)
  etherType : wordAt frame (ip - 2) = etherTypeIpv4
  version : frame.getD ip 0 >>> 4 = 4
  least : 20 ≤ headerLength frame ip
  whole : ip + headerLength frame ip ≤ frame.length
  total : headerLength frame ip ≤ totalLength frame ip

/-- The datagram is wholly present, not a fragment, and has a transport header. -/
structure TransportHeader (frame : List Byte) (ip : Nat) (protocol : TransportProtocol) : Prop where
  whole : ip + totalLength frame ip ≤ frame.length
  last : frame.getD (ip + 6) 0 &&& 0x20 = 0
  first : ((frame.getD (ip + 6) 0 &&& 0x1F) ++ frame.getD (ip + 7) 0 : BitVec 16) = 0
  number : frame.getD (ip + 9) 0 = protocol.number
  least : protocol.minimumHeader ≤ totalLength frame ip - headerLength frame ip

def headerSum (ip ihl : Nat) (frame : List Byte) : Nat := wordSum (window frame ip ihl)

/-- The sum over the addresses, the protocol, the length and the data of a datagram. -/
def transportSum (ip ihl payloadLength : Nat) (protocol : Byte) (frame : List Byte) : Nat :=
  wordSum (window frame (ip + 12) 8) + protocol.toNat + payloadLength +
    wordSum (window frame (ip + ihl) payloadLength)

def HeaderVerifies (frame : List Byte) (ip : Nat) : Prop :=
  Verifies (headerSum ip (headerLength frame ip) frame)

def TransportVerifies (frame : List Byte) (ip : Nat) (protocol : TransportProtocol) : Prop :=
  Verifies (transportSum ip (headerLength frame ip) (totalLength frame ip - headerLength frame ip)
    protocol.number frame)

/-- The two bytes from `start` on are the field that a flag names. -/
inductive ChecksumField (frame : List Byte) : (flag : BitVec 32) → (start : Nat) → Prop
  | header (ip : Nat) (header : Ipv4Header frame ip) :
      ChecksumField frame ethIpcsumIpHeader (ip + 10)
  | transport (ip : Nat) (protocol : TransportProtocol) (header : Ipv4Header frame ip)
      (transport : TransportHeader frame ip protocol) :
      ChecksumField frame protocol.flag (ip + headerLength frame ip + protocol.checksumOffset)

/-- Every checksum of a frame verifies. -/
def Intact (frame : List Byte) : Prop :=
  ∀ ip, Ipv4Header frame ip → HeaderVerifies frame ip ∧
    ∀ protocol, TransportHeader frame ip protocol → TransportVerifies frame ip protocol

/-- What a repair makes of a frame. -/
structure Repaired (frame : List Byte) (flags : BitVec 32) (repaired : List Byte) : Prop where
  length : repaired.length = frame.length
  kept : ∀ index, repaired[index]? ≠ frame[index]? →
    ∃ flag start, ChecksumField frame flag start ∧ (index = start ∨ index = start + 1)
  header : ∀ ip, Ipv4Header frame ip → HeaderVerifies repaired ip
  transport : ∀ ip protocol, Ipv4Header frame ip → TransportHeader frame ip protocol →
    TransportVerifies repaired ip protocol
  named : ∀ flag ∈ [ethIpcsumIpHeader, ethIpcsumTcp, ethIpcsumUdp],
    flags &&& flag = flag ↔
      ∃ start, ChecksumField frame flag start ∧ wordAt repaired start ≠ wordAt frame start
  known : flags &&& ~~~(ethIpcsumIpHeader ||| ethIpcsumTcp ||| ethIpcsumUdp) = 0
  intact : Intact frame → flags = ethIpcsumNone ∧ repaired = frame

end Purpose

section Access

variable {frame : List Byte} {length : Int} {index data remaining : Nat}

theorem readByte_inside (fits : length = frame.length) (inside : index < frame.length)
    (rest : List Byte) : readByte length (frame ++ rest) index = some (frame.getD index 0) := by
  simp [readByte, fits, inside, List.getElem?_append_left, List.getD_eq_getElem?_getD]

theorem readWord_inside (fits : length = frame.length) (inside : index + 1 < frame.length)
    (rest : List Byte) : readWord length (frame ++ rest) index = some (wordAt frame index) := by
  rw [readWord, readByte_inside fits (by omega), readByte_inside fits inside]
  rfl

theorem writeWord_inside (fits : length = frame.length) (inside : index + 1 < frame.length)
    (value : BitVec 16) (rest : List Byte) :
    writeWord length (frame ++ rest) index value = some (setWord frame index value ++ rest) := by
  have write (bytes : List Byte) (size : length = bytes.length) (position : Nat)
      (within : position < bytes.length) (byte : Byte) :
      writeByte length (bytes ++ rest) position byte = some (bytes.set position byte ++ rest) := by
    rw [writeByte, if_pos ⟨by omega, by rw [List.length_append]; omega⟩,
      List.set_append_left _ _ within]
  rw [writeWord, write frame fits index (by omega)]
  exact write _ (by rw [fits, List.length_set]) (index + 1) (by rw [List.length_set]; exact inside) _

/-- The loop adds the words that remain. -/
theorem sum16From_eq (fits : length = frame.length) (rest : List Byte) (data remaining : Nat)
    (sum : BitVec 32) (inside : data + remaining ≤ frame.length) :
    sum16From length (frame ++ rest) data remaining sum =
      some (sum + BitVec.ofNat 32 (wordSum (window frame data remaining))) := by
  have widen (word : BitVec 16) : word.setWidth 32 = BitVec.ofNat 32 word.toNat :=
    (BitVec.ofNat_toNat 32 word).symm
  induction remaining using Nat.twoStepInduction generalizing data sum with
  | zero => simp [sum16From, window, wordSum]
  | one =>
    have shifted (high : Byte) : high.setWidth 32 <<< 8 = BitVec.ofNat 32 (high ++ 0#8 : BitVec 16).toNat := by
      rw [← widen]
      apply BitVec.eq_of_toNat_eq
      have bound := high.isLt
      rw [BitVec.toNat_shiftLeft, BitVec.toNat_setWidth, BitVec.toNat_setWidth, BitVec.toNat_append]
      simp only [Nat.shiftLeft_eq, BitVec.toNat_zero, Nat.or_zero]
      omega
    rw [sum16From, readByte_inside fits (by omega), window_succ (by omega)]
    simp only [Option.bind_eq_bind, Option.bind_some, Option.pure_def, window, List.take_zero,
      wordSum, shifted]
  | more remaining ih _ =>
    rw [sum16From, readWord_inside fits (by omega), window_succ (by omega), window_succ (by omega)]
    simp only [Option.bind_eq_bind, Option.bind_some]
    rw [ih (data + 2) _ (by omega), wordSum, BitVec.ofNat_add, ← widen, BitVec.add_assoc]
    rfl

theorem sum16_eq (fits : length = frame.length) (inside : data + remaining ≤ frame.length)
    (rest : List Byte) :
    sum16 length (frame ++ rest) data remaining =
      some (BitVec.ofNat 32 (wordSum (window frame data remaining))) := by
  rw [sum16, sum16From_eq fits rest data remaining 0 inside]
  congr 1
  exact BitVec.zero_add _

theorem fold_toNat (sum : BitVec 32) : (fold sum).toNat = foldSum sum.toNat := by
  induction sum using fold.induct with
  | case1 sum carries ih =>
    rw [fold, if_pos carries, ih, toNat_carry, foldSum_carry]
  | case2 sum none =>
    have zero : sum >>> 16 = 0 := not_not.mp none
    have small : sum.toNat / 0x10000 = 0 := by
      rw [← toNat_high, zero]
      rfl
    rw [fold, if_neg none, foldSum_small (by omega), BitVec.toNat_setWidth,
      Nat.mod_eq_of_lt (by omega)]

/-- A sum that does not overflow is all ones exactly when it verifies. -/
theorem fold_ones (sum : Nat) (small : sum < 2 ^ 32) :
    fold (BitVec.ofNat 32 sum) = 0xFFFF ↔ Verifies sum := by
  rw [← BitVec.toNat_inj, fold_toNat, BitVec.toNat_ofNat, Nat.mod_eq_of_lt small]
  rfl

theorem complement_toNat (sum : Nat) (small : sum < 2 ^ 32) :
    (~~~fold (BitVec.ofNat 32 sum)).toNat = 0xFFFF - foldSum sum := by
  rw [BitVec.toNat_not, fold_toNat, BitVec.toNat_ofNat, Nat.mod_eq_of_lt small]

end Access

section Mending

variable {frame : List Byte} {length : Int} {ip ihl ipTotalLength payloadLength start : Nat}
  {protocol : TransportProtocol}

/-- A field is left, or written with a word with which the sum verifies. -/
inductive Mended (sum : List Byte → Nat) (start : Nat) (flag : BitVec 32) (frame : List Byte) :
    BitVec 32 → List Byte → Prop
  | kept (right : Verifies (sum frame)) : Mended sum start flag frame ethIpcsumNone frame
  | written (value : BitVec 16) (wrong : ¬Verifies (sum frame))
      (right : Verifies (sum (setWord frame start value))) :
      Mended sum start flag frame flag (setWord frame start value)

/-- A word at an even place adds to the sum of a window with the field cleared. -/
theorem wordSum_field (value : BitVec 16) (place length : Nat) (even : place % 2 = 0)
    (within : place + 1 < length) (inside : start + length ≤ frame.length) :
    wordSum (window (setWord frame (start + place) value) start length) =
      wordSum (window (setWord frame (start + place) 0) start length) + value.toNat := by
  have size := length_window inside
  have written := @wordSum_setWord value (window frame start length) place even (by omega)
  have cleared := @wordSum_setWord 0 (window frame start length) place even (by omega)
  rw [window_setWord, window_setWord]
  simp only [BitVec.ofNat_eq_ofNat, BitVec.toNat_zero] at cleared ⊢
  omega

theorem headerSum_field (value : BitVec 16) (least : 20 ≤ ihl) (inside : ip + ihl ≤ frame.length) :
    headerSum ip ihl (setWord frame (ip + 10) value) =
      headerSum ip ihl (setWord frame (ip + 10) 0) + value.toNat :=
  wordSum_field value 10 ihl rfl (by omega) inside

theorem transportSum_field (value : BitVec 16) (least : 20 ≤ ihl)
    (minimum : protocol.minimumHeader ≤ payloadLength)
    (inside : ip + ihl + payloadLength ≤ frame.length) (number : Byte) :
    transportSum ip ihl payloadLength number
        (setWord frame (ip + ihl + protocol.checksumOffset) value) =
      transportSum ip ihl payloadLength number
        (setWord frame (ip + ihl + protocol.checksumOffset) 0) + value.toNat := by
  have field : protocol.checksumOffset % 2 = 0 ∧ protocol.checksumOffset + 1 < payloadLength := by
    cases protocol with
    | tcp => exact ⟨rfl, show 17 < payloadLength from Nat.lt_of_lt_of_le (by decide) minimum⟩
    | udp => exact ⟨rfl, show 7 < payloadLength from Nat.lt_of_lt_of_le (by decide) minimum⟩
  have data := wordSum_field value protocol.checksumOffset payloadLength field.1 field.2 inside
  have addresses (word : BitVec 16) :
      window (setWord frame (ip + ihl + protocol.checksumOffset) word) (ip + 12) 8 =
        window frame (ip + 12) 8 := window_setWord_apart (by omega)
  simp only [transportSum, addresses, data]
  omega

theorem headerSum_lt (most : ihl ≤ 60) (inside : ip + ihl ≤ frame.length) :
    headerSum ip ihl frame < 2 ^ 32 := by
  have bound := wordSum_le (window frame ip ihl)
  rw [length_window inside] at bound
  unfold headerSum
  omega

theorem transportSum_lt (number : Byte) (most : payloadLength ≤ 65535)
    (header : ip + 20 ≤ frame.length) (inside : ip + ihl + payloadLength ≤ frame.length) :
    transportSum ip ihl payloadLength number frame < 2 ^ 32 := by
  have addresses := wordSum_le (window frame (ip + 12) 8)
  have data := wordSum_le (window frame (ip + ihl) payloadLength)
  rw [length_window (by omega)] at addresses data
  have byte := number.isLt
  unfold transportSum
  omega

/-- The header checksum is left or mended, whatever stands behind the frame. -/
theorem repairHeader_mends (fits : length = frame.length) (least : 20 ≤ ihl) (most : ihl ≤ 60)
    (inside : ip + ihl ≤ frame.length) :
    ∃ flags repaired, Mended (headerSum ip ihl) (ip + 10) ethIpcsumIpHeader frame flags repaired ∧
      ∀ rest, repairHeader length (frame ++ rest) ip ihl = some (flags, repaired ++ rest) := by
  let cleared := setWord frame (ip + 10) 0
  have size : cleared.length = frame.length := length_setWord
  have small : headerSum ip ihl frame < 2 ^ 32 := headerSum_lt most inside
  have smallCleared : headerSum ip ihl cleared < 2 ^ 32 := headerSum_lt most (by omega)
  by_cases right : Verifies (headerSum ip ihl frame)
  · refine ⟨_, _, .kept right, fun rest => ?_⟩
    have ones := (fold_ones _ small).mpr right
    rw [headerSum] at ones
    simp [repairHeader, sum16_eq fits inside, ones]
  · let value := ~~~fold (BitVec.ofNat 32 (headerSum ip ihl cleared))
    have mended : Verifies (headerSum ip ihl (setWord frame (ip + 10) value)) := by
      rw [headerSum_field value least inside, complement_toNat _ smallCleared]
      exact verifies_complement _
    refine ⟨_, _, .written value right mended, fun rest => ?_⟩
    have ones := mt (fold_ones _ small).mp right
    rw [headerSum] at ones
    have fitsCleared : length = cleared.length := fits.trans (by rw [size])
    have rewritten : setWord cleared (ip + 10) value = setWord frame (ip + 10) value :=
      setWord_setWord 0
    have summed : sum16 length (cleared ++ rest) ip ihl =
        some (BitVec.ofNat 32 (headerSum ip ihl cleared)) := sum16_eq fitsCleared (by omega) rest
    have emptied : writeWord length (frame ++ rest) (ip + 10) 0 = some (cleared ++ rest) :=
      writeWord_inside fits (by omega) 0 rest
    have stored : writeWord length (cleared ++ rest) (ip + 10) value =
        some (setWord frame (ip + 10) value ++ rest) :=
      rewritten ▸ writeWord_inside fitsCleared (by omega) value rest
    simp only [repairHeader, sum16_eq fits inside, Option.bind_eq_bind, Option.bind_some, ne_eq,
      ones, not_false_eq_true, if_true, emptied, summed]
    rw [show ~~~fold (BitVec.ofNat 32 (headerSum ip ihl cleared)) = value from rfl, stored]
    rfl

theorem transportSum16_eq (fits : length = frame.length) (least : 20 ≤ ihl)
    (inside : ip + ihl + payloadLength ≤ frame.length) (number : Byte) (rest : List Byte) :
    transportSum16 length (frame ++ rest) ip (ip + ihl) number payloadLength =
      some (BitVec.ofNat 32 (transportSum ip ihl payloadLength number frame)) := by
  have widen (word : BitVec 16) : word.setWidth 32 = BitVec.ofNat 32 word.toNat :=
    (BitVec.ofNat_toNat 32 word).symm
  have byte : number.setWidth 32 = BitVec.ofNat 32 number.toNat :=
    (BitVec.ofNat_toNat 32 number).symm
  have addresses : wordSum (window frame (ip + 12) 8) =
      (wordAt frame (ip + 12)).toNat + ((wordAt frame (ip + 14)).toNat +
        ((wordAt frame (ip + 16)).toNat + (wordAt frame (ip + 18)).toNat)) := by
    simp only [window_succ (show ip + 12 < frame.length by omega),
      window_succ (show ip + 12 + 1 < frame.length by omega),
      window_succ (show ip + 12 + 1 + 1 < frame.length by omega),
      window_succ (show ip + 12 + 1 + 1 + 1 < frame.length by omega),
      window_succ (show ip + 12 + 1 + 1 + 1 + 1 < frame.length by omega),
      window_succ (show ip + 12 + 1 + 1 + 1 + 1 + 1 < frame.length by omega),
      window_succ (show ip + 12 + 1 + 1 + 1 + 1 + 1 + 1 < frame.length by omega),
      window_succ (show ip + 12 + 1 + 1 + 1 + 1 + 1 + 1 + 1 < frame.length by omega)]
    simp [window, wordSum, wordAt]
  rw [transportSum16, pseudoHeaderSum, readWord_inside fits (by omega),
    readWord_inside fits (by omega), readWord_inside fits (by omega),
    readWord_inside fits (by omega), sum16_eq fits inside]
  simp only [Option.bind_eq_bind, Option.bind_some, Option.pure_def, transportSum, addresses,
    BitVec.ofNat_add, widen, byte, BitVec.add_assoc]

/-- The header that `repair_transport` looks for. -/
structure Qualifies (frame : List Byte) (ip payloadLength : Nat) (protocol : TransportProtocol) :
    Prop where
  last : frame.getD (ip + 6) 0 &&& 0x20 = 0
  first : ((frame.getD (ip + 6) 0 &&& 0x1F) ++ frame.getD (ip + 7) 0 : BitVec 16) = 0
  number : frame.getD (ip + 9) 0 = protocol.number
  least : protocol.minimumHeader ≤ payloadLength

/-- The transport checksum is left or mended, whatever stands behind the frame. -/
theorem repairChecksum_mends (fits : length = frame.length) (least : 20 ≤ ihl)
    (minimum : protocol.minimumHeader ≤ payloadLength) (most : payloadLength ≤ 65535)
    (inside : ip + ihl + payloadLength ≤ frame.length) :
    ∃ flags repaired, Mended (transportSum ip ihl payloadLength protocol.number)
        (ip + ihl + protocol.checksumOffset) protocol.flag frame flags repaired ∧
      ∀ rest, repairChecksum length (frame ++ rest) ip (ip + ihl) protocol.number payloadLength
        protocol.checksumOffset = some (flags, repaired ++ rest) := by
  let start := ip + ihl + protocol.checksumOffset
  let cleared := setWord frame start 0
  let sum (bytes : List Byte) := transportSum ip ihl payloadLength protocol.number bytes
  have size : cleared.length = frame.length := length_setWord
  have within : start + 1 < frame.length := by
    have field : protocol.checksumOffset + 1 < payloadLength := by
      cases protocol with
      | tcp => exact Nat.lt_of_lt_of_le (by decide) minimum
      | udp => exact Nat.lt_of_lt_of_le (by decide) minimum
    show ip + ihl + protocol.checksumOffset + 1 < frame.length
    omega
  have small : sum frame < 2 ^ 32 := transportSum_lt _ most (by omega) inside
  have smallCleared : sum cleared < 2 ^ 32 := transportSum_lt _ most (by omega) (by omega)
  have fitsCleared : length = cleared.length := fits.trans (by rw [size])
  by_cases right : Verifies (sum frame)
  · refine ⟨_, _, .kept right, fun rest => ?_⟩
    rw [repairChecksum, transportSum16_eq fits least inside]
    dsimp only [bind, Option.bind]
    rw [if_pos ((fold_ones _ small).mpr right)]
    rfl
  · let complement := ~~~fold (BitVec.ofNat 32 (sum cleared))
    let value := if complement = 0 ∧ protocol.number = protocolUdp then 0xFFFF else complement
    have total : sum (setWord frame start value) = sum cleared + value.toNat :=
      transportSum_field value least minimum inside protocol.number
    have amount : complement.toNat = 0xFFFF - foldSum (sum cleared) :=
      complement_toNat _ smallCleared
    have mended : Verifies (sum (setWord frame start value)) := by
      rw [total]
      by_cases ones : complement = 0 ∧ protocol.number = protocolUdp
      · simp only [value, if_pos ones]
        exact verifies_ones (by rw [← amount, ones.1]; rfl)
      · simp only [value, if_neg ones, amount]
        exact verifies_complement _
    have changed : value ≠ wordAt frame start := by
      intro same
      rw [same, setWord_wordAt within] at mended
      exact right mended
    refine ⟨_, _, .written value right mended, fun rest => ?_⟩
    have summed : transportSum16 length (cleared ++ rest) ip (ip + ihl) protocol.number payloadLength =
        some (BitVec.ofNat 32 (sum cleared)) := transportSum16_eq fitsCleared least (by omega) _ rest
    have stored : writeWord length (cleared ++ rest) start value =
        some (setWord frame start value ++ rest) := by
      rw [writeWord_inside fitsCleared (by omega), setWord_setWord]
    have flag : (if protocol.number = protocolTcp then ethIpcsumTcp else ethIpcsumUdp) =
        protocol.flag := by
      cases protocol <;> rfl
    rw [repairChecksum, transportSum16_eq fits least inside]
    dsimp only [bind, Option.bind]
    rw [if_neg (mt (fold_ones _ small).mp right), readWord_inside fits within,
      writeWord_inside fits within]
    dsimp only
    rw [summed]
    dsimp only
    rw [show (if ~~~fold (BitVec.ofNat 32 (sum cleared)) = 0 ∧ protocol.number = protocolUdp
      then 0xFFFF else ~~~fold (BitVec.ofNat 32 (sum cleared))) = value from rfl, stored]
    dsimp only
    rw [if_neg changed, flag]
    rfl

/-- Another datagram is passed. -/
theorem repairTransport_passes (fits : length = frame.length) (header : ip + 20 ≤ frame.length)
    (other : ∀ protocol, ¬Qualifies frame ip (ipTotalLength - ihl) protocol) (rest : List Byte) :
    repairTransport length (frame ++ rest) ip ihl ipTotalLength =
      some (ethIpcsumNone, frame ++ rest) := by
  rw [repairTransport, readByte_inside fits (by omega), readByte_inside fits (by omega),
    readByte_inside fits (by omega)]
  dsimp only [bind, Option.bind]
  split
  · rfl
  rename_i fragment
  split
  · rfl
  rename_i listed
  rw [not_or, not_not, not_not] at fragment
  rcases not_and_or.mp listed with tcp | udp
  · have tcp := not_not.mp tcp
    have short : ipTotalLength - ihl < 20 :=
      Nat.lt_of_not_le fun least => other .tcp ⟨fragment.1, fragment.2, tcp, least⟩
    rw [if_pos (show ipTotalLength - ihl < if frame.getD (ip + 9) 0 = protocolTcp then 20 else 8 by
      rwa [if_pos tcp])]
    rfl
  · have udp := not_not.mp udp
    have short : ipTotalLength - ihl < 8 :=
      Nat.lt_of_not_le fun least => other .udp ⟨fragment.1, fragment.2, udp, least⟩
    rw [if_pos (show ipTotalLength - ihl < if frame.getD (ip + 9) 0 = protocolTcp then 20 else 8 by
      rwa [if_neg (by rw [udp]; decide)])]
    rfl

theorem repairTransport_mends (fits : length = frame.length) (least : 20 ≤ ihl)
    (most : ipTotalLength ≤ 65535) (ordered : ihl ≤ ipTotalLength)
    (inside : ip + ipTotalLength ≤ frame.length)
    (found : Qualifies frame ip (ipTotalLength - ihl) protocol) :
    ∃ flags repaired, Mended (transportSum ip ihl (ipTotalLength - ihl) protocol.number)
        (ip + ihl + protocol.checksumOffset) protocol.flag frame flags repaired ∧
      ∀ rest, repairTransport length (frame ++ rest) ip ihl ipTotalLength =
        some (flags, repaired ++ rest) := by
  obtain ⟨flags, repaired, mended, run⟩ := @repairChecksum_mends _ _ ip _ _ _ fits least found.least
    (by omega) (by omega)
  refine ⟨flags, repaired, mended, fun rest => ?_⟩
  have least := found.least
  rw [repairTransport, readByte_inside fits (by omega), readByte_inside fits (by omega),
    readByte_inside fits (by omega)]
  dsimp only [bind, Option.bind]
  have minimum : (if protocol.number = protocolTcp then 20 else 8) = protocol.minimumHeader := by
    cases protocol <;> rfl
  have offset : (if protocol.number = protocolTcp then 16 else 6) = protocol.checksumOffset := by
    cases protocol <;> rfl
  have listed : ¬(protocol.number ≠ protocolTcp ∧ protocol.number ≠ protocolUdp) := by
    cases protocol <;> decide
  rw [if_neg (by rw [found.last, found.first]; decide), found.number, minimum, offset,
    if_neg listed, if_neg (Nat.not_lt.mpr least)]
  exact run rest

namespace Mended

variable {sum : List Byte → Nat} {flag flags : BitVec 32} {repaired : List Byte}

theorem verifies (mended : Mended sum start flag frame flags repaired) : Verifies (sum repaired) := by
  cases mended with
  | kept right => exact right
  | written _ _ right => exact right

theorem length_eq (mended : Mended sum start flag frame flags repaired) :
    repaired.length = frame.length := by
  cases mended with
  | kept => rfl
  | written => exact length_setWord

theorem getElem?_ne (mended : Mended sum start flag frame flags repaired) {index : Nat}
    (away : index ≠ start) (next : index ≠ start + 1) : repaired[index]? = frame[index]? := by
  cases mended with
  | kept => rfl
  | written => exact getElem?_setWord_ne away next

theorem flag_or (mended : Mended sum start flag frame flags repaired) :
    flags = ethIpcsumNone ∨ flags = flag := by
  cases mended with
  | kept => exact .inl rfl
  | written => exact .inr rfl

/-- The flag is given exactly when the field has changed. -/
theorem flag_iff (mended : Mended sum start flag frame flags repaired) (some : flag ≠ ethIpcsumNone)
    (inside : start + 1 < frame.length) :
    flags = flag ↔ wordAt repaired start ≠ wordAt frame start := by
  cases mended with
  | kept => exact ⟨fun same => absurd same.symm some, fun changed => absurd rfl changed⟩
  | written value wrong right =>
    refine ⟨fun _ same => ?_, fun _ => rfl⟩
    rw [wordAt_setWord inside] at same
    rw [same, setWord_wordAt inside] at right
    exact wrong right

theorem unchanged (mended : Mended sum start flag frame flags repaired)
    (right : Verifies (sum frame)) : flags = ethIpcsumNone ∧ repaired = frame := by
  cases mended with
  | kept => exact ⟨rfl, rfl⟩
  | written value wrong => exact absurd right wrong

end Mended

end Mending

section Headers

variable {frame other : List Byte} {ip : Nat} {protocol : TransportProtocol}

/-- Two frames have the same header, but for its checksum. -/
structure SameHeader (ip : Nat) (frame other : List Byte) : Prop where
  length : other.length = frame.length
  bytes : ∀ index, index < ip + 20 → index ≠ ip + 10 → index ≠ ip + 11 →
    other.getD index 0 = frame.getD index 0

namespace SameHeader

theorem trans {third : List Byte} (one : SameHeader ip frame other) (two : SameHeader ip other third) :
    SameHeader ip frame third where
  length := two.length.trans one.length
  bytes index low away next := (two.bytes index low away next).trans (one.bytes index low away next)

theorem symm (same : SameHeader ip frame other) : SameHeader ip other frame where
  length := same.length.symm
  bytes index low away next := (same.bytes index low away next).symm

theorem word (same : SameHeader ip frame other) {index : Nat} (low : index + 1 < ip + 10) :
    wordAt other index = wordAt frame index := by
  rw [wordAt, wordAt, same.bytes index (by omega) (by omega) (by omega),
    same.bytes (index + 1) (by omega) (by omega) (by omega)]

theorem headerLength_eq (same : SameHeader ip frame other) :
    headerLength other ip = headerLength frame ip := by
  rw [headerLength, headerLength, same.bytes ip (by omega) (by omega) (by omega)]

theorem totalLength_eq (same : SameHeader ip frame other) :
    totalLength other ip = totalLength frame ip := by
  rw [totalLength, totalLength, same.word (by omega)]

theorem header (same : SameHeader ip frame other) (header : Ipv4Header frame ip) :
    Ipv4Header other ip where
  tag := header.tag.imp_right fun tagged => ⟨tagged.1, (same.word (by omega)).trans tagged.2⟩
  etherType := (same.word (by have := header.tag; omega)).trans header.etherType
  version := by
    rw [same.bytes ip (by omega) (by omega) (by omega)]
    exact header.version
  least := same.headerLength_eq ▸ header.least
  whole := by
    rw [same.headerLength_eq, same.length]
    exact header.whole
  total := by
    rw [same.headerLength_eq, same.totalLength_eq]
    exact header.total

theorem transport (same : SameHeader ip frame other) (transport : TransportHeader frame ip protocol) :
    TransportHeader other ip protocol where
  whole := by
    rw [same.totalLength_eq, same.length]
    exact transport.whole
  last := by
    rw [same.bytes (ip + 6) (by omega) (by omega) (by omega)]
    exact transport.last
  first := by
    rw [same.bytes (ip + 6) (by omega) (by omega) (by omega),
      same.bytes (ip + 7) (by omega) (by omega) (by omega)]
    exact transport.first
  number := by
    rw [same.bytes (ip + 9) (by omega) (by omega) (by omega)]
    exact transport.number
  least := by
    rw [same.totalLength_eq, same.headerLength_eq]
    exact transport.least

end SameHeader

theorem Mended.same {sum : List Byte → Nat} {flag flags : BitVec 32} {start : Nat}
    (mended : Mended sum start flag frame flags other) (field : start = ip + 10 ∨ ip + 20 ≤ start) :
    SameHeader ip frame other where
  length := mended.length_eq
  bytes index low away next := by
    rw [List.getD_eq_getElem?_getD, mended.getElem?_ne (by omega) (by omega),
      ← List.getD_eq_getElem?_getD]

theorem Ipv4Header.unique {a b : Nat} (one : Ipv4Header frame a) (two : Ipv4Header frame b) :
    a = b := by
  have apart (untagged : Ipv4Header frame 14) (tagged : wordAt frame 12 = etherTypeVlan) : False :=
    absurd (untagged.etherType.symm.trans tagged) (by decide)
  rcases one.tag with rfl | ⟨rfl, tagged⟩ <;> rcases two.tag with rfl | ⟨rfl, tagged'⟩
  · rfl
  · exact (apart one tagged').elim
  · exact (apart two tagged).elim
  · rfl

theorem TransportHeader.unique {p q : TransportProtocol} (one : TransportHeader frame ip p)
    (two : TransportHeader frame ip q) : p = q := by
  have same := one.number.symm.trans two.number
  cases p <;> cases q <;> first | rfl | exact absurd same (by decide)

theorem headerLength_le : headerLength frame ip ≤ 60 := by
  have nibble : (frame.getD ip 0 &&& 0x0F).toNat = (frame.getD ip 0).toNat % 16 := by
    rw [BitVec.toNat_and]
    exact Nat.and_two_pow_sub_one_eq_mod _ 4
  rw [headerLength, nibble]
  omega

end Headers

section Repair

variable {frame repaired : List Byte} {flags : BitVec 32} {ip : Nat}

/-- The header is mended, and then the transport header when there is one. -/
inductive Mends (frame : List Byte) (ip : Nat) : BitVec 32 → List Byte → Prop
  | alone {flags : BitVec 32} {repaired : List Byte}
      (header : Mended (headerSum ip (headerLength frame ip)) (ip + 10) ethIpcsumIpHeader frame
        flags repaired)
      (none : ∀ protocol, ¬TransportHeader frame ip protocol) : Mends frame ip flags repaired
  | both {flags transportFlags : BitVec 32} {headed repaired : List Byte} (protocol : TransportProtocol)
      (header : Mended (headerSum ip (headerLength frame ip)) (ip + 10) ethIpcsumIpHeader frame
        flags headed)
      (found : TransportHeader frame ip protocol)
      (transport : Mended (transportSum ip (headerLength frame ip)
          (totalLength frame ip - headerLength frame ip) protocol.number)
        (ip + headerLength frame ip + protocol.checksumOffset) protocol.flag headed
        transportFlags repaired) : Mends frame ip (flags ||| transportFlags) repaired

theorem repairDatagram_mends (header : Ipv4Header frame ip) :
    ∃ flags repaired, Mends frame ip flags repaired ∧ ∀ rest,
      repairDatagram frame.length (frame ++ rest) etherTypeIpv4 ip = some (flags, repaired ++ rest) := by
  have least := header.least
  have whole := header.whole
  have total := header.total
  have most : totalLength frame ip ≤ 65535 := by
    have bound := (wordAt frame (ip + 2)).isLt
    unfold totalLength
    omega
  obtain ⟨headerFlags, headed, mended, headerRun⟩ :=
    repairHeader_mends rfl header.least headerLength_le header.whole
  have same : SameHeader ip frame headed := mended.same (.inl rfl)
  let ipTotalLength :=
    if (totalLength frame ip : Int) > (frame.length : Int) - ip then headerLength frame ip
    else totalLength frame ip
  have enter (rest : List Byte) :
      repairDatagram frame.length (frame ++ rest) etherTypeIpv4 ip =
        (repairTransport frame.length (headed ++ rest) ip (headerLength frame ip) ipTotalLength).bind
          fun result => some (headerFlags ||| result.1, result.2) := by
    have run := headerRun rest
    rw [headerLength] at run
    rw [repairDatagram, if_neg (by simp only [ne_eq, not_true_eq_false, false_or]; omega),
      readByte_inside rfl (by omega)]
    dsimp only [bind, Option.bind]
    rw [if_neg (not_not.mpr header.version), if_neg (by rw [← headerLength]; omega),
      readWord_inside rfl (by omega)]
    dsimp only
    rw [if_neg (show ¬(wordAt frame (ip + 2)).toNat < (frame.getD ip 0 &&& 0x0F).toNat * 4 from
      Nat.not_lt.mpr header.total), run]
    rfl
  have tail : (∀ protocol, ¬Qualifies headed ip (ipTotalLength - headerLength frame ip) protocol) ∨
      ∃ protocol, Qualifies headed ip (ipTotalLength - headerLength frame ip) protocol := by
    by_cases found : ∃ protocol, Qualifies headed ip (ipTotalLength - headerLength frame ip) protocol
    · exact .inr found
    · exact .inl (not_exists.mp found)
  rcases tail with none | ⟨protocol, found⟩
  · refine ⟨headerFlags, headed, .alone mended fun protocol transport => none protocol ?_, fun rest => ?_⟩
    · have kept := same.transport transport
      have present := transport.whole
      have length : ipTotalLength = totalLength frame ip := if_neg (by omega)
      exact ⟨kept.last, kept.first, kept.number, length ▸ transport.least⟩
    · rw [enter, repairTransport_passes (by rw [same.length]) (by rw [same.length]; omega) none]
      simp [ethIpcsumNone]
  · have length : ipTotalLength = totalLength frame ip := by
      by_cases short : (totalLength frame ip : Int) > (frame.length : Int) - ip
      · have empty : ipTotalLength = headerLength frame ip := if_pos short
        have least := found.least
        rw [empty, Nat.sub_self] at least
        cases protocol <;> exact absurd least (by decide)
      · exact if_neg short
    have inside : ip + totalLength frame ip ≤ frame.length := by
      by_contra outside
      have empty : ipTotalLength = headerLength frame ip := if_pos (by omega)
      have least := found.least
      rw [empty, Nat.sub_self] at least
      cases protocol <;> exact absurd least (by decide)
    obtain ⟨transportFlags, repaired, transportMended, transportRun⟩ :=
      @repairTransport_mends _ frame.length _ _ _ _ (by rw [same.length]) least (length ▸ most)
        (length ▸ total) (by rw [length, same.length]; exact inside) found
    rw [length] at found transportMended
    have back := same.symm
    refine ⟨_, repaired, .both protocol mended ?_ transportMended, fun rest => ?_⟩
    · exact back.transport ⟨by rw [same.length, same.totalLength_eq]; exact inside, found.last, found.first,
        found.number, by rw [same.totalLength_eq, same.headerLength_eq]; exact found.least⟩
    · rw [enter, transportRun]
      rfl

/-- A frame without a header is passed. -/
theorem ethIpcsumRepair_passes (none : ∀ ip, ¬Ipv4Header frame ip) (rest : List Byte) :
    ethIpcsumRepair (frame ++ rest) frame.length = some (ethIpcsumNone, frame ++ rest) := by
  have passes (ip : Nat) (tag : ip = 14 ∨ (ip = 18 ∧ wordAt frame 12 = etherTypeVlan)) :
      repairDatagram frame.length (frame ++ rest) (wordAt frame (ip - 2)) ip =
        some (ethIpcsumNone, frame ++ rest) := by
    rw [repairDatagram]
    split
    · rfl
    rename_i typed
    rw [not_or, not_not] at typed
    rw [readByte_inside rfl (by omega)]
    dsimp only [bind, Option.bind]
    split
    · rfl
    rename_i version
    split
    · rfl
    rename_i lengths
    rw [readWord_inside rfl (by omega)]
    dsimp only
    split
    · rfl
    rename_i total
    rw [← headerLength] at lengths total
    exact absurd ⟨tag, typed.1, not_not.mp version, by omega, by omega, Nat.not_lt.mp total⟩ (none ip)
  rw [ethIpcsumRepair]
  split
  · rfl
  rename_i long
  rw [readWord_inside rfl (by omega)]
  dsimp only [bind, Option.bind]
  split
  · rename_i tagged
    split
    · rfl
    rw [readWord_inside rfl (by omega)]
    exact passes 18 (.inr ⟨rfl, tagged⟩)
  · exact passes 14 (.inl rfl)

theorem ethIpcsumRepair_mends (header : Ipv4Header frame ip) :
    ∃ flags repaired, Mends frame ip flags repaired ∧ ∀ rest,
      ethIpcsumRepair (frame ++ rest) frame.length = some (flags, repaired ++ rest) := by
  obtain ⟨flags, repaired, mends, run⟩ := repairDatagram_mends header
  refine ⟨flags, repaired, mends, fun rest => ?_⟩
  have least := header.least
  have whole := header.whole
  have etherType := header.etherType
  rcases header.tag with rfl | ⟨rfl, tagged⟩
  · rw [ethIpcsumRepair, if_neg (by omega), readWord_inside rfl (by omega)]
    dsimp only [bind, Option.bind]
    rw [etherType, if_neg (by decide), run]
  · rw [ethIpcsumRepair, if_neg (by omega), readWord_inside rfl (by omega)]
    dsimp only [bind, Option.bind]
    rw [if_pos tagged, if_neg (by omega), readWord_inside rfl (by omega)]
    dsimp only
    rw [etherType, run]

namespace Mends

theorem same (mends : Mends frame ip flags repaired) (header : Ipv4Header frame ip) :
    SameHeader ip frame repaired := by
  cases mends with
  | alone mended => exact mended.same (.inl rfl)
  | both protocol mended found transport =>
    have least := header.least
    exact (mended.same (.inl rfl)).trans (transport.same (.inr (by omega)))

end Mends

/-- The fields of a frame with a header. -/
theorem checksumField_iff (header : Ipv4Header frame ip) {flag : BitVec 32} {start : Nat} :
    ChecksumField frame flag start ↔
      (flag = ethIpcsumIpHeader ∧ start = ip + 10) ∨
      ∃ protocol, TransportHeader frame ip protocol ∧ flag = protocol.flag ∧
        start = ip + headerLength frame ip + protocol.checksumOffset := by
  constructor
  · rintro (⟨other, found⟩ | ⟨other, protocol, found, transport⟩)
    · exact .inl ⟨rfl, by rw [found.unique header]⟩
    · obtain rfl := found.unique header
      exact .inr ⟨protocol, transport, rfl, rfl⟩
  · rintro (⟨rfl, rfl⟩ | ⟨protocol, transport, rfl, rfl⟩)
    · exact .header ip header
    · exact .transport ip protocol header transport

theorem TransportProtocol.flag_ne (protocol : TransportProtocol) : protocol.flag ≠ ethIpcsumNone := by
  cases protocol <;> decide

theorem TransportHeader.field {protocol : TransportProtocol} (found : TransportHeader frame ip protocol) :
    ip + headerLength frame ip + protocol.checksumOffset + 1 < frame.length := by
  have whole := found.whole
  have least := found.least
  cases protocol with
  | tcp =>
    change 20 ≤ _ at least
    change ip + headerLength frame ip + 16 + 1 < _
    omega
  | udp =>
    change 8 ≤ _ at least
    change ip + headerLength frame ip + 6 + 1 < _
    omega

theorem repaired_alone (header : Ipv4Header frame ip)
    (mended : Mended (headerSum ip (headerLength frame ip)) (ip + 10) ethIpcsumIpHeader frame
      flags repaired)
    (none : ∀ protocol, ¬TransportHeader frame ip protocol) : Repaired frame flags repaired := by
  have same : SameHeader ip frame repaired := mended.same (.inl rfl)
  have least := header.least
  have whole := header.whole
  refine ⟨mended.length_eq, fun index changed => ?_, fun other found => ?_,
    fun other protocol found transport => ?_, fun flag listed => ?_, ?_, fun intact => ?_⟩
  · refine ⟨_, _, .header ip header, ?_⟩
    by_contra away
    rw [not_or] at away
    exact changed (mended.getElem?_ne away.1 away.2)
  · obtain rfl := found.unique header
    rw [HeaderVerifies, same.headerLength_eq]
    exact mended.verifies
  · obtain rfl := found.unique header
    exact absurd transport (none protocol)
  · have fields : (∃ start, ChecksumField frame flag start ∧
        wordAt repaired start ≠ wordAt frame start) ↔
        flag = ethIpcsumIpHeader ∧ flags = ethIpcsumIpHeader := by
      rw [mended.flag_iff (by decide) (by omega)]
      simp only [checksumField_iff header, none, false_and, exists_false, or_false]
      constructor
      · rintro ⟨_, ⟨named, rfl⟩, changed⟩
        exact ⟨named, changed⟩
      · rintro ⟨named, changed⟩
        exact ⟨_, ⟨named, rfl⟩, changed⟩
    rw [fields]
    simp only [List.mem_cons, List.not_mem_nil, or_false] at listed
    rcases mended.flag_or with rfl | rfl <;> rcases listed with rfl | rfl | rfl <;> decide
  · rcases mended.flag_or with rfl | rfl <;> decide
  · exact mended.unchanged (intact ip header).1

theorem repaired_both {headerFlags transportFlags : BitVec 32} {headed : List Byte}
    {protocol : TransportProtocol} (header : Ipv4Header frame ip)
    (mended : Mended (headerSum ip (headerLength frame ip)) (ip + 10) ethIpcsumIpHeader frame
      headerFlags headed)
    (found : TransportHeader frame ip protocol)
    (transport : Mended (transportSum ip (headerLength frame ip)
        (totalLength frame ip - headerLength frame ip) protocol.number)
      (ip + headerLength frame ip + protocol.checksumOffset) protocol.flag headed
      transportFlags repaired) : Repaired frame (headerFlags ||| transportFlags) repaired := by
  have least := header.least
  have whole := header.whole
  have field := found.field
  have one : SameHeader ip frame headed := mended.same (.inl rfl)
  have same : SameHeader ip frame repaired := one.trans (transport.same (.inr (by omega)))
  have headerWord : wordAt repaired (ip + 10) = wordAt headed (ip + 10) := by
    cases transport with
    | kept => rfl
    | written => exact wordAt_setWord_ne (.inl (by omega))
  have transportWord : wordAt headed (ip + headerLength frame ip + protocol.checksumOffset) =
      wordAt frame (ip + headerLength frame ip + protocol.checksumOffset) := by
    cases mended with
    | kept => rfl
    | written => exact wordAt_setWord_ne (.inr (by omega))
  have headerWindow : headerSum ip (headerLength frame ip) repaired =
      headerSum ip (headerLength frame ip) headed := by
    cases transport with
    | kept => rfl
    | written => exact congrArg wordSum (window_setWord_apart (.inr (by omega)))
  refine ⟨same.length, fun index changed => ?_, fun other also => ?_,
    fun other protocol' also transport' => ?_, fun flag listed => ?_, ?_, fun intact => ?_⟩
  · by_cases inHeader : index = ip + 10 ∨ index = ip + 11
    · exact ⟨_, _, .header ip header, inHeader⟩
    · rw [not_or] at inHeader
      refine ⟨_, _, .transport ip protocol header found, ?_⟩
      by_contra away
      rw [not_or] at away
      rw [transport.getElem?_ne away.1 away.2, mended.getElem?_ne inHeader.1 inHeader.2] at changed
      exact changed rfl
  · obtain rfl := also.unique header
    rw [HeaderVerifies, same.headerLength_eq, headerWindow]
    exact mended.verifies
  · obtain rfl := also.unique header
    obtain rfl := transport'.unique found
    rw [TransportVerifies, same.headerLength_eq, same.totalLength_eq]
    exact transport.verifies
  · have fields : (∃ start, ChecksumField frame flag start ∧
        wordAt repaired start ≠ wordAt frame start) ↔
        (flag = ethIpcsumIpHeader ∧ headerFlags = ethIpcsumIpHeader) ∨
        (flag = protocol.flag ∧ transportFlags = protocol.flag) := by
      rw [mended.flag_iff (by decide) (by omega), ← headerWord,
        transport.flag_iff protocol.flag_ne (by rw [one.length]; exact field), transportWord]
      simp only [checksumField_iff header]
      constructor
      · rintro ⟨_, ⟨named, rfl⟩ | ⟨protocol', transport', named, rfl⟩, changed⟩
        · exact .inl ⟨named, changed⟩
        · obtain rfl := transport'.unique found
          exact .inr ⟨named, changed⟩
      · rintro (⟨named, changed⟩ | ⟨named, changed⟩)
        · exact ⟨_, .inl ⟨named, rfl⟩, changed⟩
        · exact ⟨_, .inr ⟨protocol, found, named, rfl⟩, changed⟩
    rw [fields]
    simp only [List.mem_cons, List.not_mem_nil, or_false] at listed
    rcases mended.flag_or with rfl | rfl <;> rcases transport.flag_or with rfl | rfl <;>
      cases protocol <;> rcases listed with rfl | rfl | rfl <;> decide
  · rcases mended.flag_or with rfl | rfl <;> rcases transport.flag_or with rfl | rfl <;>
      cases protocol <;> decide
  · obtain ⟨rfl, rfl⟩ := mended.unchanged (intact ip header).1
    obtain ⟨rfl, rfl⟩ := transport.unchanged ((intact ip header).2 protocol found)
    exact ⟨rfl, rfl⟩

theorem Mends.well (mends : Mends frame ip flags repaired) (header : Ipv4Header frame ip) :
    Repaired frame flags repaired := by
  cases mends with
  | alone mended none => exact repaired_alone header mended none
  | both protocol mended found transport => exact repaired_both header mended found transport

/-- A repaired frame is intact. -/
theorem Mends.intact (mends : Mends frame ip flags repaired) (header : Ipv4Header frame ip) :
    Intact repaired := by
  intro other found
  have same := mends.same header
  have well := mends.well header
  obtain rfl := found.unique (same.header header)
  exact ⟨well.header _ header, fun protocol transport =>
    well.transport _ protocol header (same.symm.transport transport)⟩

/-- A frame without a header stays as it is. -/
theorem repaired_passed (none : ∀ ip, ¬Ipv4Header frame ip) : Repaired frame ethIpcsumNone frame where
  length := rfl
  kept _ changed := absurd rfl changed
  header ip header := absurd header (none ip)
  transport ip _ header := absurd header (none ip)
  named flag listed := by
    simp only [ne_eq, not_true_eq_false, and_false, exists_false, iff_false]
    simp only [List.mem_cons, List.not_mem_nil, or_false] at listed
    rcases listed with rfl | rfl | rfl <;> decide
  known := by decide
  intact _ := ⟨rfl, rfl⟩

/-- Every frame is repaired, whatever its bytes, its lengths and what stands behind it. -/
theorem ethIpcsumRepair_repairs (frame : List Byte) :
    ∃ flags repaired, Repaired frame flags repaired ∧ Intact repaired ∧ ∀ rest,
      ethIpcsumRepair (frame ++ rest) frame.length = some (flags, repaired ++ rest) := by
  by_cases found : ∃ ip, Ipv4Header frame ip
  · obtain ⟨ip, header⟩ := found
    obtain ⟨flags, repaired, mends, run⟩ := ethIpcsumRepair_mends header
    exact ⟨flags, repaired, mends.well header, mends.intact header, run⟩
  · have none := not_exists.mp found
    exact ⟨_, frame, repaired_passed none, fun ip header => absurd header (none ip),
      ethIpcsumRepair_passes none⟩

theorem checksum_repair :
    (∀ (buffer : List Byte) (length : Int), length < 14 →
      ethIpcsumRepair buffer length = some (ethIpcsumNone, buffer)) ∧
    ∀ frame : List Byte, ∃ flags repaired, Repaired frame flags repaired ∧ ∀ rest,
      ethIpcsumRepair (frame ++ rest) frame.length = some (flags, repaired ++ rest) ∧
      ethIpcsumRepair (repaired ++ rest) frame.length = some (ethIpcsumNone, repaired ++ rest) := by
  refine ⟨fun buffer length short => if_pos short, fun frame => ?_⟩
  obtain ⟨flags, repaired, well, intact, run⟩ := ethIpcsumRepair_repairs frame
  obtain ⟨again, second, well', _, run'⟩ := ethIpcsumRepair_repairs repaired
  obtain ⟨rfl, rfl⟩ := well'.intact intact
  rw [well.length] at run'
  exact ⟨flags, second, well, fun rest => ⟨run rest, run' rest⟩⟩

end Repair

end IpChecksum

end Nd100x.Ethernet
