import Nd100x.Library.CanonicalCode
import Nd100x.Library.Crc

namespace Nd100x.Gunzip

open Nd100x.Library

abbrev Byte := BitVec 8

/-- A code alphabet is given by the lengths of its codes. -/
structure Alphabet where
  lengths : Nat → Nat
  count : Nat

namespace Alphabet

def ofList (lengths : List Nat) : Alphabet := ⟨fun symbol => lengths.getD symbol 0, lengths.length⟩

def decode (alphabet : Alphabet) (bits : List Bool) : Option (Nat × List Bool) :=
  decodeSymbol alphabet.lengths alphabet.count bits

def longestCode : Nat := 15

/-- The symbols that have a code. -/
def coded (alphabet : Alphabet) : Nat :=
  alphabet.count - (symbolsOf alphabet.lengths alphabet.count 0).length

/-- No length has too many codes. -/
def Allowed (alphabet : Alphabet) : Prop :=
  ∀ length < longestCode + 1, 0 ≤ room alphabet.lengths alphabet.count length

def Complete (alphabet : Alphabet) : Prop :=
  alphabet.Allowed ∧ room alphabet.lengths alphabet.count longestCode = 0

/-- An alphabet may have one code or none. -/
def Usable (alphabet : Alphabet) : Prop :=
  alphabet.Allowed ∧ (room alphabet.lengths alphabet.count longestCode = 0 ∨ alphabet.coded ≤ 1)

instance (alphabet : Alphabet) : Decidable alphabet.Allowed := by
  unfold Allowed
  exact inferInstance

instance (alphabet : Alphabet) : Decidable alphabet.Complete := by
  unfold Complete
  exact inferInstance

instance (alphabet : Alphabet) : Decidable alphabet.Usable := by
  unfold Usable
  exact inferInstance

end Alphabet

/-- The output so far with the bits that are not read yet. -/
structure Flow where
  out : List Byte
  bits : List Bool
  deriving DecidableEq, Repr

/-- The extra bits and the base of the lengths and distances. -/
def lengthCodes : List (Nat × Nat) :=
  [(0, 3), (0, 4), (0, 5), (0, 6), (0, 7), (0, 8), (0, 9), (0, 10), (1, 11), (1, 13), (1, 15),
    (1, 17), (2, 19), (2, 23), (2, 27), (2, 31), (3, 35), (3, 43), (3, 51), (3, 59), (4, 67),
    (4, 83), (4, 99), (4, 115), (5, 131), (5, 163), (5, 195), (5, 227), (0, 258)]

def distanceCodes : List (Nat × Nat) :=
  [(0, 1), (0, 2), (0, 3), (0, 4), (1, 5), (1, 7), (2, 9), (2, 13), (3, 17), (3, 25), (4, 33),
    (4, 49), (5, 65), (5, 97), (6, 129), (6, 193), (7, 257), (7, 385), (8, 513), (8, 769),
    (9, 1025), (9, 1537), (10, 2049), (10, 3073), (11, 4097), (11, 6145), (12, 8193), (12, 12289),
    (13, 16385), (13, 24577)]

/-- The copy may go on into its own output. -/
def copyBack (distance : Nat) : Nat → List Byte → List Byte
  | 0, out => out
  | length + 1, out => copyBack distance length (out ++ [out.getD (out.length - distance) 0])

/-- The base of a code with its extra bits. -/
def extended (codes : List (Nat × Nat)) (code : Nat) (bits : List Bool) :
    Option (Nat × List Bool) :=
  codes[code]?.bind fun entry =>
    (takeNumber entry.1 bits).map fun extra => (entry.2 + extra.1, extra.2)

/-- A length and a distance copy a part of the output. -/
def copyPart (distances : Alphabet) (code : Nat) (flow : Flow) : Option Flow :=
  (extended lengthCodes code flow.bits).bind fun length =>
    (distances.decode length.2).bind fun symbol =>
      (extended distanceCodes symbol.1 symbol.2).bind fun distance =>
        if distance.1 ≤ flow.out.length then
          some ⟨copyBack distance.1 length.1 flow.out, distance.2⟩
        else none

/-- The symbols of a block are read up to its end. Each of them has at least one bit. -/
def readBlock (literals distances : Alphabet) : Nat → Flow → Option Flow
  | 0, _ => none
  | fuel + 1, flow =>
    (literals.decode flow.bits).bind fun symbol =>
      if symbol.1 < 256 then
        readBlock literals distances fuel ⟨flow.out ++ [BitVec.ofNat 8 symbol.1], symbol.2⟩
      else if symbol.1 = 256 then some { flow with bits := symbol.2 }
      else
        (copyPart distances (symbol.1 - 257) { flow with bits := symbol.2 }).bind
          (readBlock literals distances fuel)

def takeBytes : Nat → List Bool → Option (List Byte × List Bool)
  | 0, bits => some ([], bits)
  | count + 1, bits =>
    (takeNumber 8 bits).bind fun byte =>
      (takeBytes count byte.2).map fun bytes => (BitVec.ofNat 8 byte.1 :: bytes.1, bytes.2)

/-- A stored block starts at the next byte, and its length comes with its complement. -/
def storedBlock (flow : Flow) : Option Flow :=
  (takeNumber 16 (flow.bits.drop (flow.bits.length % 8))).bind fun length =>
    (takeNumber 16 length.2).bind fun complement =>
      if length.1 + complement.1 = 0xFFFF then
        (takeBytes length.1 complement.2).map fun bytes => ⟨flow.out ++ bytes.1, bytes.2⟩
      else none

def fixedLiterals : Alphabet where
  lengths := fun symbol => if symbol < 144 then 8 else if symbol < 256 then 9
    else if symbol < 280 then 7 else 8
  count := 288

def fixedDistances : Alphabet := ⟨fun _ => 5, 30⟩

/-- The lengths of the code lengths come in this order. -/
def codeOrder : List Nat := [16, 17, 18, 0, 8, 7, 9, 6, 10, 5, 11, 4, 12, 3, 13, 2, 14, 1, 15]

def takeNumbers (width : Nat) : Nat → List Bool → Option (List Nat × List Bool)
  | 0, bits => some ([], bits)
  | count + 1, bits =>
    (takeNumber width bits).bind fun first =>
      (takeNumbers width count first.2).map fun rest => (first.1 :: rest.1, rest.2)

/-- A length that is not given is zero. -/
def lengthCode (given : List Nat) : Alphabet where
  lengths := fun symbol => (given[codeOrder.idxOf symbol]?).getD 0
  count := 19

/-- The lengths that were read, with the mark of a repeat count that was cut. -/
structure Lengths where
  lengths : List Nat
  bits : List Bool
  cut : Bool
  deriving DecidableEq, Repr

/-- The repeat count of a code length symbol. At the end of the bits, seven bits are taken for
minus one and the stream is marked. -/
def repeatOf (symbol : Nat) (read : Lengths) (bits : List Bool) :
    Option (List Nat × List Bool × Bool) :=
  if symbol = 16 then
    read.lengths.getLast?.bind fun last =>
      (takeNumber 2 bits).map fun more => (List.replicate (more.1 + 3) last, more.2, false)
  else if symbol = 17 then
    (takeNumber 3 bits).map fun more => (List.replicate (more.1 + 3) 0, more.2, false)
  else
    some ((takeNumber 7 bits).elim (List.replicate 10 0, bits, true) fun more =>
      (List.replicate (more.1 + 11) 0, more.2, false))

/-- The code lengths are read up to their number. -/
def readLengths (code : Alphabet) (total : Nat) : Nat → Lengths → Option Lengths
  | 0, _ => none
  | fuel + 1, read =>
    if total ≤ read.lengths.length then some read
    else
      (code.decode read.bits).bind fun symbol =>
        if symbol.1 < 16 then
          readLengths code total fuel
            { read with lengths := read.lengths ++ [symbol.1], bits := symbol.2 }
        else
          (repeatOf symbol.1 read symbol.2).bind fun more =>
            if read.lengths.length + more.1.length ≤ total then
              readLengths code total fuel
                ⟨read.lengths ++ more.1, more.2.1, read.cut || more.2.2⟩
            else none

/-- The alphabets of a dynamic block. -/
structure Tables where
  literals : Alphabet
  distances : Alphabet
  bits : List Bool
  cut : Bool

/-- The format has numbers for this many distance lengths, and the last two codes never occur. -/
def formatDistances : Nat := 32

/-- The alphabets are read when the block has no more distance lengths than this. -/
def dynamicTables (most : Nat) (bits : List Bool) : Option Tables :=
  (takeNumber 5 bits).bind fun hlit =>
    (takeNumber 5 hlit.2).bind fun hdist =>
      (takeNumber 4 hdist.2).bind fun hclen =>
        if hlit.1 + 257 ≤ 286 ∧ hdist.1 + 1 ≤ most then
          (takeNumbers 3 (hclen.1 + 4) hclen.2).bind fun given =>
            if (lengthCode given.1).Complete then
              (readLengths (lengthCode given.1) (hlit.1 + 257 + (hdist.1 + 1))
                (hlit.1 + 257 + (hdist.1 + 1) + 1) ⟨[], given.2, false⟩).bind fun read =>
                  let literals := Alphabet.ofList (read.lengths.take (hlit.1 + 257))
                  let distances := Alphabet.ofList (read.lengths.drop (hlit.1 + 257))
                  if literals.lengths 256 ≠ 0 ∧ literals.Usable ∧ distances.Usable then
                    some ⟨literals, distances, read.bits, read.cut⟩
                  else none
            else none
        else none

/-- A block with its type. -/
def block (most : Nat) (flow : Flow) (type : Nat) (cut : Bool) : Option (Flow × Bool) :=
  if type = 0 then (storedBlock flow).map fun next => (next, cut)
  else if type = 1 then
    (readBlock fixedLiterals fixedDistances (flow.bits.length + 1) flow).map
      fun next => (next, cut)
  else if type = 2 then
    (dynamicTables most flow.bits).bind fun tables =>
      (readBlock tables.literals tables.distances (tables.bits.length + 1)
        { flow with bits := tables.bits }).map fun next => (next, cut || tables.cut)
  else none

/-- The blocks are read up to the last one. -/
def blocks (most : Nat) : Nat → Flow → Bool → Option (Flow × Bool)
  | 0, _, _ => none
  | fuel + 1, flow, cut =>
    (takeNumber 1 flow.bits).bind fun last =>
      (takeNumber 2 last.2).bind fun type =>
        (block most { flow with bits := type.2 } type.1 cut).bind fun next =>
          if last.1 = 0 then blocks most fuel next.1 next.2 else some next

/-- The data of a stream, with the mark of a repeat count that was cut. -/
def inflate (most : Nat) (bytes : List Byte) : Option (List Byte × Bool) :=
  (blocks most (8 * bytes.length + 1) ⟨[], bytesBits bytes⟩ false).map fun last =>
    (last.1.out, last.2)

def crc32 (bytes : List Byte) : BitVec 32 :=
  crcBits 0xEDB88320 0xFFFFFFFF (bytesBits bytes) ^^^ 0xFFFFFFFF

def le32 : List Byte → BitVec 32
  | [first, second, third, fourth] => fourth ++ third ++ second ++ first
  | _ => 0

def skipString : List Byte → Option (List Byte)
  | [] => none
  | byte :: rest => if byte = 0 then some rest else skipString rest

def skipBytes (count : Nat) (bytes : List Byte) : Option (List Byte) :=
  if count ≤ bytes.length then some (bytes.drop count) else none

/-- The field has its length in front of it. -/
def skipExtra : List Byte → Option (List Byte)
  | low :: high :: rest => skipBytes (low.toNat + 2 ^ 8 * high.toNat) rest
  | _ => none

/-- The optional fields come in this order. -/
def skipFields (flags : Byte) (bytes : List Byte) : Option (List Byte) :=
  (if flags.getLsbD 2 then skipExtra bytes else some bytes).bind fun bytes =>
    (if flags.getLsbD 3 then skipString bytes else some bytes).bind fun bytes =>
      (if flags.getLsbD 4 then skipString bytes else some bytes).bind fun bytes =>
        if flags.getLsbD 1 then skipBytes 2 bytes else some bytes

/-- The bytes behind the header. -/
def gzipBody : List Byte → Option (List Byte)
  | first :: second :: method :: flags :: rest =>
    if first = 0x1F ∧ second = 0x8B ∧ method = 8 ∧ flags &&& 0xE0 = 0 then
      (skipBytes 6 rest).bind (skipFields flags)
    else none
  | _ => none

def largestOutput : Nat := 500 * 1024 * 1024

/-- The data of a file, whose trailer has the checksum and the size. -/
def gunzip (most : Nat) (input : List Byte) : Option (List Byte × Bool) :=
  (gzipBody input).bind fun body =>
    if 8 ≤ body.length then
      let trailer := body.drop (body.length - 8)
      (inflate most (body.take (body.length - 8))).bind fun data =>
        if (le32 (trailer.drop 4)).toNat ≤ largestOutput ∧
            data.1.length = (le32 (trailer.drop 4)).toNat ∧ crc32 data.1 = le32 (trailer.take 4) then
          some data
        else none
    else none

/-- A file is decompressed to this data. -/
def Decompresses (input data : List Byte) : Prop :=
  gunzip formatDistances input = some (data, false)

end Nd100x.Gunzip
