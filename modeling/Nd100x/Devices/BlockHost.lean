import Mathlib.Data.BitVec

namespace Nd100x.Devices

/-- What the machine gives a block device: memory without page tables, and the mounted images.
A memory cycle may fail, and a callback answers with the blocks that it moved. -/
structure BlockHost (μ π : Type) where
  dmaRead : μ → Nat → Option (BitVec 16)
  dmaWrite : μ → Nat → BitVec 16 → μ
  readFunc : Option (π → Nat → Nat → Nat → Nat → Int × List (BitVec 8))
  writeFunc : Option (π → Nat → List (BitVec 8) → Nat → Nat → Nat → Int × π)
  diskInfoFunc : Option (π → Nat → Nat × Bool)

/-- The words of a buffer are big-endian. -/
def ioBufferReadWord (buffer : List (BitVec 8)) (wordOffset : Nat) : BitVec 16 :=
  (buffer.getD (wordOffset * 2) 0).setWidth 16 <<< 8 |||
    (buffer.getD (wordOffset * 2 + 1) 0).setWidth 16

def ioBufferWriteWord (buffer : List (BitVec 8)) (wordOffset : Nat) (data : BitVec 16) :
    List (BitVec 8) :=
  (buffer.set (wordOffset * 2) ((data >>> 8).setWidth 8)).set (wordOffset * 2 + 1)
    (data.setWidth 8)

end Nd100x.Devices
