import Mathlib.Data.BitVec
import Mathlib.Logic.Function.Basic

namespace Nd100x.Gunzip

def gzMaxOut : Nat := 500 * 1024 * 1024
def gzMaxBits : Nat := 15
def gzMaxLitCodes : Nat := 288
def gzMaxDist : Nat := 30
def gzFlagHcrc : BitVec 8 := 0x02
def gzFlagExtra : BitVec 8 := 0x04
def gzFlagName : BitVec 8 := 0x08
def gzFlagComment : BitVec 8 := 0x10
def gzFlagReserved : BitVec 8 := 0xE0

/-- A function has no result when it reads or writes outside its arrays. -/
abbrev Table (size : Nat) := Fin size → Nat

namespace Table

variable {size : Nat}

def get? (table : Table size) (index : Int) : Option Nat :=
  if inside : 0 ≤ index ∧ index.toNat < size then some (table ⟨index.toNat, inside.2⟩) else none

def set? (table : Table size) (index value : Nat) : Option (Table size) :=
  if inside : index < size then some (Function.update table ⟨index, inside⟩ value) else none

end Table

/-- The output has the bytes that were written, and one byte more was allocated. -/
structure GzState where
  input : List (BitVec 8)
  inLen : Nat
  inPos : Nat
  bitBuf : Nat
  bitCnt : Nat
  out : List (BitVec 8)
  outCap : Nat

structure GzHuff where
  count : Table (gzMaxBits + 1)
  symbol : Table gzMaxLitCodes

namespace GzState

def put (s : GzState) (byte : BitVec 8) : Option GzState :=
  if s.out.length < s.outCap + 1 then some { s with out := s.out ++ [byte] } else none

/-- The byte lies before the end of the output. -/
def back (s : GzState) (dist : Nat) : Option (BitVec 8) :=
  if dist ≤ s.out.length then s.out[s.out.length - dist]? else none

end GzState

/-- Bytes are taken while bits are missing. A result without a value stands for minus one. -/
def gzFill (n : Nat) : Nat → GzState → Nat → Option (GzState × Option Nat)
  | 0, s, val => if s.bitCnt < n then none else some (s, some val)
  | fuel + 1, s, val =>
    if s.bitCnt < n then
      if s.inLen ≤ s.inPos then some (s, none)
      else
        s.input[s.inPos]?.bind fun byte =>
          gzFill n fuel { s with inPos := s.inPos + 1, bitCnt := s.bitCnt + 8 }
            (val ||| byte.toNat <<< s.bitCnt)
    else some (s, some val)

def gzBits (s : GzState) (n : Nat) : Option (GzState × Int) :=
  (gzFill n n s s.bitBuf).map fun filled =>
    match filled.2 with
    | none => (filled.1, -1)
    | some val =>
      ({ filled.1 with bitBuf := val >>> n, bitCnt := filled.1.bitCnt - n },
        ((val &&& (1 <<< n - 1) : Nat) : Int))

/-- The lengths are counted from their start in an array. -/
def gzCount {size : Nat} (length : Table size) (start : Nat) : Nat → Option (Table (gzMaxBits + 1))
  | 0 => some fun _ => 0
  | n + 1 =>
    (gzCount length start n).bind fun count =>
      (length.get? (start + n)).bind fun len =>
        (count.get? len).bind fun old => count.set? len (old + 1)

/-- The first negative value is the result. -/
def gzLeft (count : Table (gzMaxBits + 1)) : Nat → Option Int
  | 0 => some 1
  | len + 1 =>
    (gzLeft count len).bind fun left =>
      if left < 0 then some left
      else (count.get? (len + 1)).map fun codes : Nat => 2 * left - codes

def gzOffsets (count : Table (gzMaxBits + 1)) : Nat → Option (Table (gzMaxBits + 1))
  | 0 => Table.set? (fun _ => 0) 1 0
  | len + 1 =>
    (gzOffsets count len).bind fun offs =>
      (offs.get? (len + 1)).bind fun off =>
        (count.get? (len + 1)).bind fun codes => offs.set? (len + 2) (off + codes)

/-- The symbols are put in the order of their codes. -/
def gzPlace {size : Nat} (length : Table size) (start : Nat) (offs : Table (gzMaxBits + 1))
    (symbol : Table gzMaxLitCodes) :
    Nat → Option (Table (gzMaxBits + 1) × Table gzMaxLitCodes)
  | 0 => some (offs, symbol)
  | n + 1 =>
    (gzPlace length start offs symbol n).bind fun placed =>
      (length.get? (start + n)).bind fun len =>
        if len = 0 then some placed
        else
          (placed.1.get? len).bind fun off =>
            (placed.2.set? off n).bind fun symbol =>
              (placed.1.set? len (off + 1)).map fun offs => (offs, symbol)

/-- The result is negative for too many codes and positive for too few. -/
def gzConstruct {size : Nat} (h : GzHuff) (length : Table size) (start n : Nat) :
    Option (GzHuff × Int) :=
  (gzCount length start n).bind fun count =>
    (count.get? 0).bind fun none_ =>
      if none_ = n then some ({ h with count := count }, 0)
      else
        (gzLeft count gzMaxBits).bind fun left =>
          if left < 0 then some ({ h with count := count }, left)
          else
            (gzOffsets count (gzMaxBits - 1)).bind fun offs =>
              (gzPlace length start offs h.symbol n).map fun placed => (⟨count, placed.2⟩, left)

/-- The lengths of the codes are tried one after the other. -/
def gzDecodeFrom (h : GzHuff) : Nat → GzState → Nat → Nat → Nat → Option (GzState × Int)
  | 0, s, _, _, _ => some (s, -1)
  | more + 1, s, code, first, index =>
    (gzBits s 1).bind fun bit =>
      if bit.2 < 0 then some (bit.1, -1)
      else
        (h.count.get? (gzMaxBits - more : Nat)).bind fun count =>
          if ((code ||| bit.2.toNat : Nat) : Int) - count < first then
            (h.symbol.get? (index + ((code ||| bit.2.toNat : Nat) - (first : Int)))).map
              fun symbol : Nat => (bit.1, (symbol : Int))
          else
            gzDecodeFrom h more bit.1 ((code ||| bit.2.toNat) <<< 1) ((first + count) <<< 1)
              (index + count)

def gzDecode (s : GzState) (h : GzHuff) : Option (GzState × Int) :=
  gzDecodeFrom h gzMaxBits s 0 0 0

def gzLenBase : List Nat :=
  [3, 4, 5, 6, 7, 8, 9, 10, 11, 13, 15, 17, 19, 23, 27, 31, 35, 43, 51, 59, 67, 83, 99, 115, 131,
    163, 195, 227, 258]

def gzLenExtra : List Nat :=
  [0, 0, 0, 0, 0, 0, 0, 0, 1, 1, 1, 1, 2, 2, 2, 2, 3, 3, 3, 3, 4, 4, 4, 4, 5, 5, 5, 5, 0]

def gzDistBase : List Nat :=
  [1, 2, 3, 4, 5, 7, 9, 13, 17, 25, 33, 49, 65, 97, 129, 193, 257, 385, 513, 769, 1025, 1537,
    2049, 3073, 4097, 6145, 8193, 12289, 16385, 24577]

def gzDistExtra : List Nat :=
  [0, 0, 0, 0, 1, 1, 2, 2, 3, 3, 4, 4, 5, 5, 6, 6, 7, 7, 8, 8, 9, 9, 10, 10, 11, 11, 12, 12, 13,
    13]

def gzCopy (dist : Nat) : Nat → GzState → Option GzState
  | 0, s => some s
  | len + 1, s => (s.back dist).bind fun byte => (s.put byte).bind (gzCopy dist len)

/-- A length with its distance. The result is zero when the part was copied. -/
def gzMatch (s : GzState) (distcode : GzHuff) (sym : Nat) : Option (GzState × Int) :=
  if 29 ≤ sym then some (s, -1)
  else
    gzLenExtra[sym]?.bind fun lenExtra =>
      (gzBits s lenExtra).bind fun extra =>
        if extra.2 < 0 then some (extra.1, -1)
        else
          gzLenBase[sym]?.bind fun lenBase =>
            (gzDecode extra.1 distcode).bind fun dsym =>
              if dsym.2 < 0 ∨ (gzMaxDist : Int) ≤ dsym.2 then some (dsym.1, -1)
              else
                gzDistExtra[dsym.2.toNat]?.bind fun distExtra =>
                  (gzBits dsym.1 distExtra).bind fun more =>
                    if more.2 < 0 then some (more.1, -1)
                    else
                      gzDistBase[dsym.2.toNat]?.bind fun distBase =>
                        if more.1.out.length < distBase + more.2.toNat ∨
                            more.1.outCap - more.1.out.length < lenBase + extra.2.toNat then
                          some (more.1, -1)
                        else
                          (gzCopy (distBase + more.2.toNat) (lenBase + extra.2.toNat) more.1).map
                            fun s => (s, 0)

/-- The loop has no bound in the source. It has no result when the steps run out. -/
def gzCodes (lencode distcode : GzHuff) : Nat → GzState → Option (GzState × Int)
  | 0, _ => none
  | fuel + 1, s =>
    (gzDecode s lencode).bind fun sym =>
      if sym.2 < 0 then some (sym.1, -1)
      else if sym.2 < 256 then
        if sym.1.outCap ≤ sym.1.out.length then some (sym.1, -1)
        else (sym.1.put (BitVec.ofInt 8 sym.2)).bind (gzCodes lencode distcode fuel)
      else if sym.2 = 256 then some (sym.1, 0)
      else
        (gzMatch sym.1 distcode (sym.2 - 257).toNat).bind fun copied =>
          if copied.2 < 0 then some copied else gzCodes lencode distcode fuel copied.1

def gzMemcpy : Nat → GzState → Option GzState
  | 0, s => some s
  | len + 1, s =>
    s.input[s.inPos]?.bind fun byte =>
      (({ s with inPos := s.inPos + 1 } : GzState).put byte).bind (gzMemcpy len)

def gzLe16 (s : GzState) : Option Nat :=
  s.input[s.inPos]?.bind fun low =>
    s.input[s.inPos + 1]?.map fun high => low.toNat ||| high.toNat <<< 8

/-- The rest of the current byte is discarded. -/
def gzStored (s : GzState) : Option (GzState × Int) :=
  let s := { s with bitBuf := 0, bitCnt := 0 }
  if s.inLen - s.inPos < 4 then some (s, -1)
  else
    (gzLe16 s).bind fun len =>
      (gzLe16 { s with inPos := s.inPos + 2 }).bind fun nlen =>
        let s := { s with inPos := s.inPos + 4 }
        if len ≠ 0xFFFF - nlen ∨ s.inLen - s.inPos < len ∨ s.outCap - s.out.length < len then
          some (s, -1)
        else (gzMemcpy len s).map fun s => (s, 0)

abbrev GzLengths := Table (gzMaxLitCodes + gzMaxDist)

/-- The arrays of a block are not set before they are filled. -/
structure GzArrays where
  lencode : GzHuff
  distcode : GzHuff
  lengths : GzLengths

def gzFixedLengths : Table gzMaxLitCodes := fun sym =>
  if sym.val < 144 then 8 else if sym.val < 256 then 9 else if sym.val < 280 then 7 else 8

def gzFixed (arrays : GzArrays) (fuel : Nat) (s : GzState) : Option (GzState × Int) :=
  (gzConstruct arrays.lencode gzFixedLengths 0 gzMaxLitCodes).bind fun lencode =>
    (gzConstruct arrays.distcode (fun sym : Fin gzMaxLitCodes =>
        if sym.val < gzMaxDist then 5 else gzFixedLengths sym) 0 gzMaxDist).bind fun distcode =>
      gzCodes lencode.1 distcode.1 fuel s

def gzOrder : List Nat := [16, 17, 18, 0, 8, 7, 9, 6, 10, 5, 11, 4, 12, 3, 13, 2, 14, 1, 15]

/-- The lengths of the code lengths in their order, as far as they are given. -/
def gzCodeLengths (ncode : Nat) : Nat → GzState → GzLengths → Option (GzState × GzLengths × Int)
  | 0, s, lengths => some (s, lengths, 0)
  | idx + 1, s, lengths =>
    (gzCodeLengths ncode idx s lengths).bind fun before =>
      if before.2.2 < 0 then some before
      else
        gzOrder[idx]?.bind fun symbol =>
          if idx < ncode then
            (gzBits before.1 3).bind fun v =>
              if v.2 < 0 then some (v.1, before.2.1, -1)
              else (before.2.1.set? symbol v.2.toNat).map fun lengths => (v.1, lengths, 0)
          else (before.2.1.set? symbol 0).map fun lengths => (before.1, lengths, 0)

def gzFillLengths (prev : Nat) : Nat → GzLengths → Nat → Option GzLengths
  | 0, lengths, _ => some lengths
  | rep + 1, lengths, idx =>
    (lengths.set? idx prev).bind fun lengths => gzFillLengths prev rep lengths (idx + 1)

/-- The length that is repeated, and how often. A count that cannot be read is minus one. -/
def gzRepeat (s : GzState) (lengths : GzLengths) (idx sym : Nat) :
    Option (GzState × Option (Nat × Int)) :=
  if sym = 16 then
    if idx = 0 then some (s, none)
    else
      (lengths.get? ((idx : Int) - 1)).bind fun prev =>
        (gzBits s 2).map fun rep => (rep.1, some (prev, rep.2 + 3))
  else if sym = 17 then (gzBits s 3).map fun rep => (rep.1, some (0, rep.2 + 3))
  else (gzBits s 7).map fun rep => (rep.1, some (0, rep.2 + 11))

def gzReadLengths (lencode : GzHuff) (total : Nat) :
    Nat → GzState → GzLengths → Nat → Option (GzState × GzLengths × Int)
  | 0, _, _, _ => none
  | fuel + 1, s, lengths, idx =>
    if idx < total then
      (gzDecode s lencode).bind fun sym =>
        if sym.2 < 0 then some (sym.1, lengths, -1)
        else if sym.2 < 16 then
          (lengths.set? idx sym.2.toNat).bind fun lengths =>
            gzReadLengths lencode total fuel sym.1 lengths (idx + 1)
        else
          (gzRepeat sym.1 lengths idx sym.2.toNat).bind fun rep =>
            match rep.2 with
            | none => some (rep.1, lengths, -1)
            | some (prev, times) =>
              if times < 3 ∨ (total : Int) < idx + times then some (rep.1, lengths, -1)
              else
                (gzFillLengths prev times.toNat lengths idx).bind fun lengths =>
                  gzReadLengths lencode total fuel rep.1 lengths (idx + times.toNat)
    else some (s, lengths, 0)

/-- Too many codes are refused, and too few but for a single one. -/
def gzRefused (err : Int) (h : GzHuff) (n : Nat) : Option Bool :=
  (h.count.get? 0).map fun none_ : Nat =>
    decide (err < 0) || (decide (0 < err) && decide ((n : Int) - none_ ≠ 1))

def gzTables (s : GzState) (lengths : GzLengths) (nlen ndist : Nat) (lencode distcode : GzHuff)
    (fuel : Nat) : Option (GzState × Int) :=
  (lengths.get? 256).bind fun stop =>
    if stop = 0 then some (s, -1)
    else
      (gzConstruct lencode lengths 0 nlen).bind fun literals =>
        (gzRefused literals.2 literals.1 nlen).bind fun refused =>
          if refused then some (s, -1)
          else
            (gzConstruct distcode lengths nlen ndist).bind fun distances =>
              (gzRefused distances.2 distances.1 ndist).bind fun refused =>
                if refused then some (s, -1) else gzCodes literals.1 distances.1 fuel s

def gzDynamic (arrays : GzArrays) (fuel : Nat) (s : GzState) : Option (GzState × Int) :=
  (gzBits s 5).bind fun hlit =>
    (gzBits hlit.1 5).bind fun hdist =>
      (gzBits hdist.1 4).bind fun hclen =>
        if hlit.2 < 0 ∨ hdist.2 < 0 ∨ hclen.2 < 0 then some (hclen.1, -1)
        else
          let nlen := hlit.2.toNat + 257
          let ndist := hdist.2.toNat + 1
          if 286 < nlen ∨ gzMaxDist < ndist then some (hclen.1, -1)
          else
            (gzCodeLengths (hclen.2.toNat + 4) 19 hclen.1 arrays.lengths).bind fun given =>
              if given.2.2 < 0 then some (given.1, -1)
              else
                (gzConstruct arrays.lencode given.2.1 0 19).bind fun lencode =>
                  if lencode.2 ≠ 0 then some (given.1, -1)
                  else
                    (gzReadLengths lencode.1 (nlen + ndist) (nlen + ndist + 1) given.1 given.2.1
                      0).bind fun read =>
                        if read.2.2 < 0 then some (read.1, -1)
                        else
                          gzTables read.1 read.2.1 nlen ndist lencode.1 arrays.distcode fuel

def gzCrcStep (crc : BitVec 32) : BitVec 32 :=
  (crc >>> 1) ^^^ (0xEDB88320 &&& (0 - (crc &&& 1)))

def gzCrc32 (bytes : List (BitVec 8)) : BitVec 32 :=
  bytes.foldl (fun crc byte => gzCrcStep^[8] (crc ^^^ byte.setWidth 32)) 0xFFFFFFFF ^^^ 0xFFFFFFFF

def gzLe32 (input : List (BitVec 8)) (pos : Nat) : Option (BitVec 32) :=
  input[pos]?.bind fun first =>
    input[pos + 1]?.bind fun second =>
      input[pos + 2]?.bind fun third =>
        input[pos + 3]?.map fun fourth =>
          (first.setWidth 32 : BitVec 32) ||| ((second.setWidth 32 : BitVec 32) <<< 8) |||
            ((third.setWidth 32 : BitVec 32) <<< 16) ||| ((fourth.setWidth 32 : BitVec 32) <<< 24)

/-- The position behind the next zero byte. -/
def gzSkipString (input : List (BitVec 8)) : Nat → Nat → Option Nat
  | 0, _ => none
  | fuel + 1, pos =>
    if pos < input.length then
      input[pos]?.bind fun byte =>
        if byte = 0 then some (pos + 1) else gzSkipString input fuel (pos + 1)
    else some (pos + 1)

def gzSkipExtra (input : List (BitVec 8)) (pos : Nat) : Option (Option Nat) :=
  if input.length < pos + 2 then some none
  else
    input[pos]?.bind fun low =>
      input[pos + 1]?.map fun high => some (pos + (2 + (low.toNat ||| high.toNat <<< 8)))

/-- The position of the compressed data is zero for a bad header. -/
def gzHeader (input : List (BitVec 8)) : Option Nat :=
  if input.length < 18 then some 0
  else
    input[0]?.bind fun first =>
      input[1]?.bind fun second =>
        input[2]?.bind fun method =>
          input[3]?.bind fun flags =>
            if first ≠ 0x1F ∨ second ≠ 0x8B ∨ method ≠ 8 ∨ flags &&& gzFlagReserved ≠ 0 then some 0
            else
              (if flags &&& gzFlagExtra ≠ 0 then gzSkipExtra input 10 else some (some 10)).bind
                fun extra =>
                  match extra with
                  | none => some 0
                  | some pos =>
                    (if flags &&& gzFlagName ≠ 0 then gzSkipString input (input.length + 1) pos
                      else some pos).bind fun pos =>
                        (if flags &&& gzFlagComment ≠ 0 then
                            gzSkipString input (input.length + 1) pos
                          else some pos).map fun pos =>
                            let pos := if flags &&& gzFlagHcrc ≠ 0 then pos + 2 else pos
                            if input.length < pos + 8 then 0 else pos

/-- The blocks of a stream, as long as no error and no last block has come. -/
def gzBlocks (arrays : GzArrays) (steps : Nat) : Nat → GzState → Option (GzState × Int)
  | 0, _ => none
  | fuel + 1, s =>
    (gzBits s 1).bind fun last =>
      (gzBits last.1 2).bind fun type =>
        if last.2 < 0 ∨ type.2 < 0 then some (type.1, -1)
        else
          (if type.2 = 0 then gzStored type.1
            else if type.2 = 1 then gzFixed arrays steps type.1
            else if type.2 = 2 then gzDynamic arrays steps type.1
            else some (type.1, -1)).bind fun done =>
              if last.2 = 0 ∧ done.2 = 0 then gzBlocks arrays steps fuel done.1 else some done

/-- The outer result tells whether all accesses were inside the arrays and all loops have ended,
the inner one whether there is data. -/
def ndGunzip (arrays : GzArrays) (input : List (BitVec 8)) : Option (Option (List (BitVec 8))) :=
  (gzHeader input).bind fun start =>
    if start = 0 then some none
    else
      (gzLe32 input (input.length - 8)).bind fun wantCrc =>
        (gzLe32 input (input.length - 4)).bind fun wantSize =>
          if gzMaxOut < wantSize.toNat then some none
          else
            let s : GzState :=
              { input := input
                inLen := input.length - 8
                inPos := start
                bitBuf := 0
                bitCnt := 0
                out := []
                outCap := wantSize.toNat }
            (gzBlocks arrays (8 * input.length + 1) (8 * input.length + 1) s).bind fun done =>
              if done.2 ≠ 0 ∨ done.1.out.length ≠ wantSize.toNat ∨
                  gzCrc32 done.1.out ≠ wantCrc then
                some none
              else (done.1.put 0).map fun _ => some done.1.out

end Nd100x.Gunzip
