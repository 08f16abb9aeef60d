import Nd100x.Gunzip.PlainBlocks
import Nd100x.Gunzip.DynamicBlock
import Nd100x.Gunzip.Header

namespace Nd100x.Gunzip

open Nd100x.Library

section Stream

variable {cap most : Nat} {s : GzState}

theorem block_goes {flow next : Flow} {type : Nat} {cut cut_ : Bool}
    (read : block most flow type cut = some (next, cut_)) : flow.Goes next := by
  rw [block] at read
  split_ifs at read with stored fixed dynamic
  · obtain ⟨after, after_, same⟩ := Option.map_eq_some_iff.mp read
    rw [← (Prod.mk.inj same).1]
    exact storedBlock_goes after_
  · obtain ⟨after, after_, same⟩ := Option.map_eq_some_iff.mp read
    rw [← (Prod.mk.inj same).1]
    exact readBlock_goes after_
  · obtain ⟨tables, tables_, more⟩ := Option.bind_eq_some_iff.mp read
    obtain ⟨after, after_, same⟩ := Option.map_eq_some_iff.mp more
    rw [← (Prod.mk.inj same).1]
    have rest := readBlock_goes after_
    exact ⟨rest.bits.trans (dynamicTables_shorter tables_), rest.out⟩

theorem blocks_out {fuel : Nat} {flow next : Flow} {cut cut_ : Bool}
    (read : blocks most fuel flow cut = some (next, cut_)) :
    flow.out.length ≤ next.out.length := by
  induction fuel generalizing flow cut with
  | zero => cases read
  | succ fuel ih =>
    obtain ⟨last, -, more⟩ := Option.bind_eq_some_iff.mp read
    obtain ⟨type, -, more⟩ := Option.bind_eq_some_iff.mp more
    obtain ⟨⟨after, after_cut⟩, after_, more⟩ := Option.bind_eq_some_iff.mp more
    have written := (block_goes after_).out
    split_ifs at more
    · exact written.trans (ih more)
    · rw [Option.some.injEq, Prod.mk.injEq] at more
      rw [← more.1]
      exact written

theorem gzBlock_settles {fuel : Nat} (arrays : GzArrays) (ready : s.Ready cap)
    (enough : s.ahead.length < fuel) (type : Nat) (cut : Bool) :
    Settles cap
      (if (type : Int) = 0 then gzStored s
        else if (type : Int) = 1 then gzFixed arrays fuel s
        else if (type : Int) = 2 then gzDynamic arrays fuel s
        else some (s, -1)) ((block gzMaxDist s.flow type cut).map Prod.fst) := by
  have first (value : Option Flow) :
      (value.map fun next => (next, cut)).map Prod.fst = value := by
    cases value <;> rfl
  rw [block]
  by_cases stored : type = 0
  · rw [if_pos stored, if_pos (by omega), first]
    exact gzStored_settles ready
  rw [if_neg stored, if_neg (by omega)]
  by_cases fixed : type = 1
  · rw [if_pos fixed, if_pos (by omega), first]
    exact gzFixed_settles arrays ready enough (Nat.lt_succ_self _)
  rw [if_neg fixed, if_neg (by omega)]
  by_cases dynamic : type = 2
  · rw [if_pos dynamic, if_pos (by omega), Option.map_bind]
    have pushed : (Option.map Prod.fst ∘ fun tables : Tables =>
        (readBlock tables.literals tables.distances (tables.bits.length + 1)
          { s.flow with bits := tables.bits }).map fun next => (next, cut || tables.cut)) =
        fun tables => readBlock tables.literals tables.distances (tables.bits.length + 1)
          ⟨s.out, tables.bits⟩ := by
      funext tables
      rw [Function.comp_apply, Option.map_map]
      exact Option.map_id'
    rw [pushed]
    exact gzDynamic_settles arrays ready enough
  · rw [if_neg dynamic, if_neg (by omega)]
    exact Settles.stop s rfl

/-- The blocks are decoded up to the last one. -/
theorem gzBlocks_settles {steps fuel fuel_ : Nat} (arrays : GzArrays) (ready : s.Ready cap)
    (cut : Bool) (steps_ : s.ahead.length < steps) (enough : s.ahead.length < fuel)
    (enough_ : s.ahead.length < fuel_) :
    Settles cap (gzBlocks arrays steps fuel s)
      ((blocks gzMaxDist fuel_ s.flow cut).map Prod.fst) := by
  induction fuel generalizing s fuel_ cut with
  | zero => exact absurd enough (Nat.not_lt_zero _)
  | succ fuel ih =>
    obtain ⟨fuel_, rfl⟩ := Nat.exists_eq_succ_of_ne_zero (Nat.ne_zero_of_lt enough_)
    rw [gzBlocks, blocks]
    rcases gzBits_short ready (by decide : 1 ≤ 8) with
      ⟨first, last, result, first_, out, value⟩ | ⟨result, none_⟩
    swap
    · obtain ⟨second, type, result_, -⟩ := gzBits_ready ready (by decide : 2 ≤ 8)
      rw [result, Option.bind_some, result_, Option.bind_some, if_pos (Or.inl minus_one),
        GzState.flow, none_]
      exact Settles.stop second rfl
    have shorter := takeNumber_length value
    rw [result, Option.bind_some, GzState.flow, value, Option.bind_some]
    rcases gzBits_short first_ (by decide : 2 ≤ 8) with
      ⟨second, type, result, second_, out_, value⟩ | ⟨result, none_⟩
    swap
    · rw [result, Option.bind_some, if_pos (Or.inr minus_one), none_]
      exact Settles.stop first rfl
    have shorter_ := takeNumber_length value
    have written : second.out = s.out := out_.trans out
    have settled := @gzBlock_settles _ _ steps arrays second_ (by omega) type cut
    rw [result, Option.bind_some, value, Option.bind_some, if_neg (by omega), ← written]
    rw [GzState.flow] at settled
    rcases settled with ⟨next, done, next_, value_⟩ | ⟨next, done, long⟩
    · obtain ⟨⟨flow, cut_⟩, block_, same⟩ := Option.map_eq_some_iff.mp value_
      dsimp only at same
      subst same
      have goes := (block_goes block_).bits
      change next.ahead.length ≤ second.ahead.length at goes
      rw [done, Option.bind_some, block_, Option.bind_some]
      dsimp only
      by_cases more : last = 0
      · rw [if_pos ⟨by omega, rfl⟩, if_pos more]
        exact ih next_ cut_ (by omega) (by omega) (by omega)
      · rw [if_neg (by omega), if_neg more]
        exact Or.inl ⟨next, rfl, next_, rfl⟩
    · rw [done, Option.bind_some]
      have stopped : ¬((last : Int) = 0 ∧ (-1 : Int) = 0) := fun both => by omega
      rw [if_neg stopped]
      refine Or.inr ⟨next, rfl, ?_⟩
      intro flow read
      obtain ⟨⟨final, final_cut⟩, blocks_, same⟩ := Option.map_eq_some_iff.mp read
      dsimp only at same
      subst same
      obtain ⟨⟨after, after_cut⟩, after_, more⟩ := Option.bind_eq_some_iff.mp blocks_
      have exceeds := long after (by rw [after_]; rfl)
      split_ifs at more
      · exact exceeds.trans_le (blocks_out more)
      · rw [Option.some.injEq, Prod.mk.injEq] at more
        rw [← more.1]
        exact exceeds

end Stream

section Exactness

variable {input : List Byte} {start most : Nat}

/-- The data that is decoded passes the checks of the trailer. -/
def checked (wantCrc wantSize : BitVec 32) (data : List Byte × Bool) : Option (List Byte × Bool) :=
  if wantSize.toNat ≤ largestOutput ∧ data.1.length = wantSize.toNat ∧ crc32 data.1 = wantCrc then
    some data
  else none

theorem gunzip_split (inside : start + 8 ≤ input.length)
    (body : gzipBody input = some (input.drop start)) :
    gunzip most input = (inflate most ((input.take (input.length - 8)).drop start)).bind
      (checked (le32 ((input.drop (input.length - 8)).take 4))
        (le32 ((input.drop (input.length - 4)).take 4))) := by
  have length : (input.drop start).length = input.length - start := List.length_drop
  have enough : 8 ≤ (input.drop start).length := by omega
  have trailer : (input.drop start).drop ((input.drop start).length - 8) =
      input.drop (input.length - 8) := by
    rw [List.drop_drop, length]
    congr 1
    omega
  have size : (input.drop (input.length - 8)).drop 4 = (input.drop (input.length - 4)).take 4 := by
    rw [List.drop_drop, List.take_of_length_le (by rw [List.length_drop]; omega)]
    congr 1
    omega
  have packed : (input.drop start).take ((input.drop start).length - 8) =
      (input.take (input.length - 8)).drop start := by
    rw [List.drop_take, length]
    congr 1
    omega
  rw [gunzip, body, Option.bind_some, if_pos enough, trailer, packed]
  dsimp only
  rw [size]
  rfl

/-- The state before the first block has the whole compressed data ahead. -/
def startState (input : List Byte) (start cap : Nat) : GzState where
  input := input
  inLen := input.length - 8
  inPos := start
  bitBuf := 0
  bitCnt := 0
  out := []
  outCap := cap

theorem startState_ready (inside : start + 8 ≤ input.length) (cap : Nat) :
    (startState input start cap).Ready cap :=
  ⟨Nat.zero_lt_succ 7, Nat.one_pos, Nat.le_sub_of_add_le inside, Nat.sub_le _ _, Nat.zero_le _, rfl⟩

theorem startState_flow (cap : Nat) : (startState input start cap).flow =
    ⟨[], bytesBits ((input.take (input.length - 8)).drop start)⟩ := rfl

/-- The decoder gives the data of a stream whose blocks have few distance lengths, also when a
repeat count was cut. -/
theorem ndGunzip_eq (arrays : GzArrays) (input : List Byte) :
    ndGunzip arrays input = some ((gunzip gzMaxDist input).map Prod.fst) := by
  obtain ⟨start, start_, ⟨rfl, short⟩ | ⟨some_, inside, body⟩⟩ := gzHeader_finds input
  · have nothing : gunzip gzMaxDist input = none := by
      rw [gunzip]
      rcases found : gzipBody input with _ | body
      · rfl
      · rw [Option.bind_some, if_neg (Nat.not_le.mpr (short body found))]
    rw [ndGunzip, start_, Option.bind_some, if_pos rfl, nothing]
    rfl
  rw [gunzip_split inside body, ndGunzip, start_, Option.bind_some, if_neg some_,
    gzLe32_eq (by omega), Option.bind_some, gzLe32_eq (by omega), Option.bind_some]
  generalize le32 ((input.drop (input.length - 8)).take 4) = wantCrc
  generalize le32 ((input.drop (input.length - 4)).take 4) = wantSize
  dsimp only
  by_cases large : gzMaxOut < wantSize.toNat
  · have refused (data : List Byte × Bool) : checked wantCrc wantSize data = none :=
      if_neg fun fine => Nat.not_le.mpr large fine.1
    have nothing : ((inflate gzMaxDist ((input.take (input.length - 8)).drop start)).bind
        (checked wantCrc wantSize)) = none := by
      rcases inflate gzMaxDist ((input.take (input.length - 8)).drop start) with _ | data
      · rfl
      · exact refused data
    rw [if_pos large, nothing]
    rfl
  rw [if_neg large, inflate]
  change ((gzBlocks arrays _ _ (startState input start wantSize.toNat)).bind _) = _
  have whole : (startState input start wantSize.toNat).ahead.length =
      8 * ((input.take (input.length - 8)).drop start).length := bytesBits_length _
  have fewer : ((input.take (input.length - 8)).drop start).length ≤ input.length := by
    rw [List.length_drop, List.length_take]
    omega
  have settled := @gzBlocks_settles _ _ (8 * input.length + 1) (8 * input.length + 1)
      (8 * ((input.take (input.length - 8)).drop start).length + 1) arrays
      (startState_ready inside wantSize.toNat) false (by omega) (by omega) (by omega)
  rw [startState_flow] at settled
  rcases settled with ⟨next, done, ready, value⟩ | ⟨next, done, long⟩
  · obtain ⟨⟨flow, cut⟩, blocks_, same⟩ := Option.map_eq_some_iff.mp value
    dsimp only at same
    subst same
    rw [done, Option.bind_some, blocks_, Option.map_some, Option.bind_some, gzCrc32_eq]
    by_cases fine : next.out.length = wantSize.toNat ∧ crc32 next.out = wantCrc
    · have passed : checked wantCrc wantSize (next.out, cut) = some (next.out, cut) :=
        if_pos ⟨Nat.not_lt.mp large, fine⟩
      have good : ¬((0 : Int) ≠ 0 ∨ next.out.length ≠ wantSize.toNat ∨ crc32 next.out ≠ wantCrc) := by
        rintro (bad | bad | bad)
        · exact bad rfl
        · exact bad fine.1
        · exact bad fine.2
      have room_ : next.out.length < next.outCap + 1 := by
        rw [ready.outCap]
        exact Nat.lt_succ_of_le ready.fits
      rw [if_neg good, put_eq _ room_]
      change _ = some ((checked wantCrc wantSize (next.out, cut)).map Prod.fst)
      rw [passed]
      rfl
    · have refused : checked wantCrc wantSize (next.out, cut) = none :=
        if_neg fun all => fine all.2
      rw [if_pos (Or.inr (not_and_or.mp fine))]
      change _ = some ((checked wantCrc wantSize (next.out, cut)).map Prod.fst)
      rw [refused]
      rfl
  · rw [done, Option.bind_some, if_pos (Or.inl (by decide : (-1 : Int) ≠ 0))]
    rcases blocks_ : blocks gzMaxDist _ ⟨[], bytesBits _⟩ false with _ | ⟨flow, cut⟩
    · rfl
    · have exceeds := long flow (by rw [blocks_]; rfl)
      have refused : checked wantCrc wantSize (flow.out, cut) = none :=
        if_neg fun fine => absurd fine.2.1 (Nat.ne_of_gt exceeds)
      rw [Option.map_some, Option.bind_some, refused]
      rfl

/-- A stream that is read with fewer distance lengths is read with more of them. -/
theorem dynamicTables_mono {more : Nat} (less : most ≤ more) {bits : List Bool} {tables : Tables}
    (read : dynamicTables most bits = some tables) : dynamicTables more bits = some tables := by
  obtain ⟨hlit, hlit_, rest⟩ := Option.bind_eq_some_iff.mp read
  obtain ⟨hdist, hdist_, rest⟩ := Option.bind_eq_some_iff.mp rest
  obtain ⟨hclen, hclen_, rest⟩ := Option.bind_eq_some_iff.mp rest
  rw [dynamicTables, hlit_, Option.bind_some, hdist_, Option.bind_some, hclen_, Option.bind_some]
  by_cases counted : hlit.1 + 257 ≤ 286 ∧ hdist.1 + 1 ≤ most
  · rw [if_pos counted] at rest
    rw [if_pos ⟨counted.1, counted.2.trans less⟩]
    exact rest
  · rw [if_neg counted] at rest
    cases rest

theorem block_mono {more : Nat} (less : most ≤ more) {flow : Flow} {type : Nat} {cut : Bool}
    {next : Flow × Bool} (read : block most flow type cut = some next) :
    block more flow type cut = some next := by
  rw [block] at read ⊢
  split_ifs at read ⊢ with stored fixed dynamic
  · exact read
  · exact read
  · obtain ⟨tables, tables_, rest⟩ := Option.bind_eq_some_iff.mp read
    rw [dynamicTables_mono less tables_, Option.bind_some]
    exact rest

theorem blocks_mono {more : Nat} (less : most ≤ more) {fuel : Nat} {flow : Flow} {cut : Bool}
    {next : Flow × Bool} (read : blocks most fuel flow cut = some next) :
    blocks more fuel flow cut = some next := by
  induction fuel generalizing flow cut with
  | zero => cases read
  | succ fuel ih =>
    obtain ⟨last, last_, rest⟩ := Option.bind_eq_some_iff.mp read
    obtain ⟨type, type_, rest⟩ := Option.bind_eq_some_iff.mp rest
    obtain ⟨after, after_, rest⟩ := Option.bind_eq_some_iff.mp rest
    rw [blocks, last_, Option.bind_some, type_, Option.bind_some, block_mono less after_,
      Option.bind_some]
    split_ifs at rest ⊢ with again
    · exact ih rest
    · exact rest

theorem gunzip_mono {more : Nat} (less : most ≤ more) {data : List Byte × Bool}
    (read : gunzip most input = some data) : gunzip more input = some data := by
  obtain ⟨body, body_, rest⟩ := Option.bind_eq_some_iff.mp read
  rw [gunzip, body_, Option.bind_some]
  split_ifs at rest ⊢ with enough
  obtain ⟨found, found_, rest⟩ := Option.bind_eq_some_iff.mp rest
  obtain ⟨last, blocks_, same⟩ := Option.map_eq_some_iff.mp found_
  dsimp only
  rw [inflate, blocks_mono less blocks_, Option.map_some, same, Option.bind_some]
  exact rest

/-- The file is taken although a repeat count is cut by the end of the compressed data. -/
def CutRepeat (input : List Byte) : Prop := ∃ data, gunzip gzMaxDist input = some (data, true)

/-- The file is only valid with a block that gives a length for a distance code that never occurs. -/
def UnusedDistances (input : List Byte) : Prop :=
  gunzip gzMaxDist input = none ∧ ∃ data, Decompresses input data

/-- No access is outside of its array and every loop ends, and the result is the data of the file
but for the two kinds of files. -/
theorem nd_gunzip_exact_iff (arrays : GzArrays) (input : List Byte) :
    (∃ result, ndGunzip arrays input = some result) ∧
      ((∀ data, ndGunzip arrays input = some (some data) ↔ Decompresses input data) ↔
        ¬CutRepeat input ∧ ¬UnusedDistances input) := by
  have result := ndGunzip_eq arrays input
  have fewer : gzMaxDist ≤ formatDistances := by decide
  refine ⟨⟨_, result⟩, ?_, ?_⟩
  · intro exact_
    constructor
    · rintro ⟨data, cut⟩
      rw [cut] at result
      have valid := (exact_ data).mp result
      rw [Decompresses, gunzip_mono fewer cut] at valid
      cases valid
    · rintro ⟨nothing, data, valid⟩
      have returned := (exact_ data).mpr valid
      rw [result, nothing] at returned
      cases returned
  · rintro ⟨uncut, few⟩ data
    rw [result]
    rcases read : gunzip gzMaxDist input with _ | ⟨found, cut⟩
    · constructor
      · intro returned
        cases returned
      · intro valid
        exact absurd ⟨read, data, valid⟩ few
    · have valid := gunzip_mono fewer read
      cases cut with
      | true => exact absurd ⟨found, read⟩ uncut
      | false =>
        rw [Decompresses, valid, Option.map_some, Option.some.injEq, Option.some.injEq,
          Option.some.injEq, Prod.mk.injEq, and_iff_left rfl]

/-- The repeat count of the last code length is cut after four bits. -/
def cutStream : List Byte :=
  [31, 139, 8, 0, 0, 0, 0, 0, 0, 3, 5, 233, 129, 0, 0, 0, 0, 0, 16, 252, 95, 11, 0, 0, 0, 0, 0, 0,
    0, 0]

def zeroArrays : GzArrays := ⟨⟨fun _ => 0, fun _ => 0⟩, ⟨fun _ => 0, fun _ => 0⟩, fun _ => 0⟩

theorem cutStream_decoded : gunzip gzMaxDist cutStream = some ([], true) := by
  decide +kernel

theorem nd_gunzip_takes_cut_stream : ndGunzip zeroArrays cutStream = some (some []) ∧
    ∀ data, ¬Decompresses cutStream data := by
  constructor
  · rw [ndGunzip_eq, cutStream_decoded]
    rfl
  · intro data valid
    rw [Decompresses, gunzip_mono (by decide) cutStream_decoded] at valid
    cases valid

end Exactness

end Nd100x.Gunzip
