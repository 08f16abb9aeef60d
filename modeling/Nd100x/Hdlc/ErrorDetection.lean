import Nd100x.Hdlc.Framing
import Nd100x.Library.Crc

namespace Nd100x.Hdlc

open Nd100x.Library

def calculateCrc (data : List Byte) : Word := data.foldl crcCalcCcitt fcsInit

/-- The reflected polynomial of the checksum. -/
def fcsPolynomial : Word := 0x8408

/-- Every entry of the table is eight shifts of its index. -/
theorem fcstab_entry (index : Byte) :
    fcstab.get index.toFin = crcShift fcsPolynomial 8 (index.setWidth 16) := by
  have entries : ∀ place : Fin 256, fcstab.get place =
      crcShift fcsPolynomial 8 ((BitVec.ofFin place : Byte).setWidth 16) := by decide +kernel
  exact entries index.toFin

/-- The checksum takes the bits in the order in which they are sent. -/
theorem calculateCrc_eq_crcBits (data : List Byte) :
    calculateCrc data = crcBits fcsPolynomial fcsInit (bytesBits data) := by
  rw [calculateCrc, crcCalcCcitt_eq]
  exact crcBytes_eq_crcBits fcstab_entry fcsInit data

/-- An error changes the checksum by a remainder of its own. -/
theorem calculateCrc_zipWith {data error : List Byte} (same : data.length = error.length) :
    calculateCrc (List.zipWith (· ^^^ ·) data error) =
      calculateCrc data ^^^ crcBits fcsPolynomial 0 (bytesBits error) := by
  have bits : (bytesBits data).length = (bytesBits error).length := by
    rw [bytesBits_length, bytesBits_length, same]
  have start : fcsInit = fcsInit ^^^ 0 := by decide
  rw [calculateCrc_eq_crcBits, bytesBits_zipWith same, calculateCrc_eq_crcBits]
  nth_rewrite 1 [start]
  exact crcBits_xor bits

/-- A checked message has the good residue, and no short burst of errors leaves it. -/
theorem calculateCrc_detects {data error : List Byte} (length : error.length = data.length + 2)
    (burst : IsBurst 16 (bytesBits error)) :
    calculateCrc (checked data) = fcsGood ∧
      calculateCrc (List.zipWith (· ^^^ ·) (checked data) error) ≠ fcsGood := by
  have residue : calculateCrc (checked data) = fcsGood := checked_residue data
  refine ⟨residue, fun same => ?_⟩
  obtain ⟨before, bits, after, split, short, some_⟩ := burst.split
  have remainder : crcBits fcsPolynomial 0 (bytesBits error) ≠ 0 := by
    rw [split]
    exact crcBits_burst (by decide) short some_ before after
  have lengths : (checked data).length = error.length := by rw [checked_length, length]
  rw [calculateCrc_zipWith lengths, residue] at same
  have cancel := congrArg (fcsGood ^^^ ·) same
  rw [← BitVec.xor_assoc, BitVec.xor_self, BitVec.zero_xor] at cancel
  exact remainder cancel

theorem calculateCrc_detects_one :
    calculateCrc (checked [0x7E]) = fcsGood ∧
      calculateCrc (List.zipWith (· ^^^ ·) (checked [0x7E]) [0x00, 0x80, 0x01]) ≠ fcsGood := by
  refine calculateCrc_detects rfl ⟨by decide, 15, fun place bit => ?_⟩
  have below : place < 24 := (List.getElem?_eq_some_iff.mp bit).1
  have places : ∀ place < 24,
      (bytesBits [0x00, 0x80, 0x01])[place]? = some true → 15 ≤ place ∧ place < 15 + 16 := by
    decide
  exact places place below bit

end Nd100x.Hdlc
