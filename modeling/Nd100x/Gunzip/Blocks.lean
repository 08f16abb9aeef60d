import Nd100x.Gunzip.CodeTable

namespace Nd100x.Gunzip

open Nd100x.Library

/-- The bits get no longer and the output gets no shorter. -/
structure Flow.Goes (flow next : Flow) : Prop where
  bits : next.bits.length ≤ flow.bits.length
  out : flow.out.length ≤ next.out.length

theorem Flow.Goes.trans {flow next last : Flow} (first : flow.Goes next) (second : next.Goes last) :
    flow.Goes last := ⟨second.bits.trans first.bits, first.out.trans second.out⟩

/-- A part of the stream is decoded, or it is bad, or it does not fit into the output. -/
def Settles (cap : Nat) (result : Option (GzState × Int)) (value : Option Flow) : Prop :=
  (∃ next, result = some (next, 0) ∧ next.Ready cap ∧ value = some next.flow) ∨
  ∃ next, result = some (next, -1) ∧ ∀ flow, value = some flow → cap < flow.out.length

theorem Settles.stop {cap : Nat} (next : GzState) {value : Option Flow} (none_ : value = none) :
    Settles cap (some (next, -1)) value :=
  Or.inr ⟨next, rfl, fun _ some_ => absurd (none_ ▸ some_) nofun⟩

theorem not_negative (number : Nat) : ¬(number : Int) < 0 :=
  Int.not_lt.mpr (Int.natCast_nonneg number)

theorem minus_one : (-1 : Int) < 0 := by decide

section Goes

theorem decode_shorter {alphabet : Alphabet} {bits rest : List Bool} {symbol : Nat}
    (decoded : alphabet.decode bits = some (symbol, rest)) : rest.length < bits.length := by
  obtain ⟨found, found_, same⟩ := Option.map_eq_some_iff.mp decoded
  rw [Prod.mk.injEq] at same
  have first := List.find?_some found_
  rw [Bool.and_eq_true, decide_eq_true_eq, List.isPrefixOf_iff_prefix] at first
  have length := first.2.length_le
  rw [codeword_length] at length
  rw [← same.2, List.length_drop]
  omega

theorem extended_shorter {codes : List (Nat × Nat)} {code value : Nat} {bits rest : List Bool}
    (extended_ : extended codes code bits = some (value, rest)) : rest.length ≤ bits.length := by
  obtain ⟨entry, _, taken⟩ := Option.bind_eq_some_iff.mp extended_
  obtain ⟨extra, extra_, same⟩ := Option.map_eq_some_iff.mp taken
  rw [Prod.mk.injEq] at same
  have length := @takeNumber_length _ extra.1 _ extra.2 extra_
  rw [← same.2]
  omega

@[simp] theorem copyBack_length (distance length : Nat) (out : List Byte) :
    (copyBack distance length out).length = out.length + length := by
  induction length generalizing out with
  | zero => rfl
  | succ length ih =>
    rw [copyBack, ih, List.length_append, List.length_singleton]
    omega

theorem copyPart_goes {distances : Alphabet} {code : Nat} {flow next : Flow}
    (copied : copyPart distances code flow = some next) : flow.Goes next := by
  obtain ⟨length, length_, rest⟩ := Option.bind_eq_some_iff.mp copied
  obtain ⟨symbol, symbol_, rest⟩ := Option.bind_eq_some_iff.mp rest
  obtain ⟨distance, distance_, rest⟩ := Option.bind_eq_some_iff.mp rest
  split_ifs at rest with behind
  rw [Option.some.injEq] at rest
  have first := @extended_shorter _ _ length.1 _ length.2 length_
  have second := @decode_shorter _ _ symbol.2 symbol.1 symbol_
  have third := @extended_shorter _ _ distance.1 _ distance.2 distance_
  rw [← rest]
  refine ⟨third.trans (second.le.trans first), ?_⟩
  change flow.out.length ≤ (copyBack _ _ flow.out).length
  rw [copyBack_length]
  exact Nat.le_add_right _ _

theorem readBlock_goes {literals distances : Alphabet} {fuel : Nat} {flow next : Flow}
    (read : readBlock literals distances fuel flow = some next) : flow.Goes next := by
  induction fuel generalizing flow with
  | zero => cases read
  | succ fuel ih =>
    obtain ⟨symbol, symbol_, rest⟩ := Option.bind_eq_some_iff.mp read
    have first := @decode_shorter _ _ symbol.2 symbol.1 symbol_
    split_ifs at rest with literal stop
    · have later := ih rest
      have out := later.out
      rw [List.length_append] at out
      exact ⟨later.bits.trans first.le, (Nat.le_add_right _ _).trans out⟩
    · rw [Option.some.injEq] at rest
      rw [← rest]
      exact ⟨first.le, Nat.le_refl _⟩
    · obtain ⟨middle, copied, rest⟩ := Option.bind_eq_some_iff.mp rest
      have part := (copyPart_goes copied).trans (ih rest)
      exact ⟨part.bits.trans first.le, part.out⟩

theorem takeBytes_shorter {count : Nat} {bits rest : List Bool} {bytes : List Byte}
    (taken : takeBytes count bits = some (bytes, rest)) : rest.length ≤ bits.length := by
  induction count generalizing bits bytes with
  | zero =>
    rw [takeBytes, Option.some.injEq, Prod.mk.injEq] at taken
    rw [taken.2]
  | succ count ih =>
    obtain ⟨⟨byte, middle⟩, byte_, more⟩ := Option.bind_eq_some_iff.mp taken
    obtain ⟨⟨after, last⟩, after_, same⟩ := Option.map_eq_some_iff.mp more
    obtain ⟨-, rfl⟩ := Prod.mk.inj same
    have length := takeNumber_length byte_
    have later := ih after_
    dsimp only at length later ⊢
    omega

theorem storedBlock_goes {flow next : Flow} (stored : storedBlock flow = some next) :
    flow.Goes next := by
  obtain ⟨length, length_, rest⟩ := Option.bind_eq_some_iff.mp stored
  obtain ⟨complement, complement_, rest⟩ := Option.bind_eq_some_iff.mp rest
  split_ifs at rest
  obtain ⟨bytes, bytes_, same⟩ := Option.map_eq_some_iff.mp rest
  have first := @takeNumber_length _ length.1 _ length.2 length_
  have second := @takeNumber_length _ complement.1 _ complement.2 complement_
  have third := @takeBytes_shorter _ _ bytes.2 bytes.1 bytes_
  rw [List.length_drop] at first
  rw [← same]
  refine ⟨?_, ?_⟩
  · change bytes.2.length ≤ flow.bits.length
    omega
  · change flow.out.length ≤ (flow.out ++ bytes.1).length
    rw [List.length_append]
    exact Nat.le_add_right _ _

end Goes

section Codes

variable {cap : Nat} {s : GzState}

theorem put_eq (byte : Byte) (room_ : s.out.length < s.outCap + 1) :
    s.put byte = some { s with out := s.out ++ [byte] } := if_pos room_

theorem gzCopy_eq {dist len : Nat} (some_ : dist ≠ 0) (behind : dist ≤ s.out.length)
    (room_ : s.out.length + len ≤ s.outCap) :
    gzCopy dist len s = some { s with out := copyBack dist len s.out } := by
  induction len generalizing s with
  | zero => rfl
  | succ len ih =>
    have here : s.back dist = some (s.out.getD (s.out.length - dist) 0) := by
      rw [GzState.back, if_pos behind, List.getD_eq_getElem?_getD,
        List.getElem?_eq_getElem (by omega), Option.getD_some]
    rw [gzCopy, here, Option.bind_some, put_eq _ (by omega), Option.bind_some,
      ih, copyBack]
    · rw [List.length_append]
      exact Nat.le_add_right_of_le behind
    · rw [List.length_append, List.length_singleton]
      dsimp only
      omega

theorem lengthCode_entry {sym : Nat} (inside : sym < 29) :
    ∃ extra base, gzLenExtra[sym]? = some extra ∧ gzLenBase[sym]? = some base ∧
      lengthCodes[sym]? = some (extra, base) := by
  have zipped : lengthCodes = gzLenExtra.zip gzLenBase := rfl
  have first : sym < gzLenExtra.length := inside
  have second : sym < gzLenBase.length := inside
  refine ⟨_, _, List.getElem?_eq_getElem first, List.getElem?_eq_getElem second, ?_⟩
  rw [zipped, List.getElem?_zip_eq_some]
  exact ⟨List.getElem?_eq_getElem first, List.getElem?_eq_getElem second⟩

theorem distanceCode_entry {sym : Nat} (inside : sym < gzMaxDist) :
    ∃ extra base, gzDistExtra[sym]? = some extra ∧ gzDistBase[sym]? = some base ∧
      distanceCodes[sym]? = some (extra, base) ∧ base ≠ 0 := by
  have zipped : distanceCodes = gzDistExtra.zip gzDistBase := rfl
  have first : sym < gzDistExtra.length := inside
  have second : sym < gzDistBase.length := inside
  have nonzero : ∀ base ∈ gzDistBase, base ≠ 0 := by decide
  refine ⟨_, _, List.getElem?_eq_getElem first, List.getElem?_eq_getElem second, ?_,
    nonzero _ (List.getElem_mem second)⟩
  rw [zipped, List.getElem?_zip_eq_some]
  exact ⟨List.getElem?_eq_getElem first, List.getElem?_eq_getElem second⟩

/-- A part is copied from where the format says. -/
theorem gzMatch_settles {distcode : GzHuff} {distances : Alphabet}
    (represents : Represents distcode distances) (ready : s.Ready cap) (sym : Nat) :
    Settles cap (gzMatch s distcode sym) (copyPart distances sym s.flow) := by
  rw [gzMatch]
  by_cases unknown : 29 ≤ sym
  · have none_ : lengthCodes[sym]? = none := List.getElem?_eq_none unknown
    rw [if_pos unknown]
    refine Settles.stop s ?_
    rw [copyPart, extended, none_]
    rfl
  obtain ⟨lenExtra, lenBase, extra_, base_, length_⟩ := lengthCode_entry (Nat.not_le.mp unknown)
  rw [if_neg unknown, extra_, Option.bind_some, copyPart, extended, length_, Option.bind_some]
  rcases gzBits_yields ready lenExtra with ⟨first, extra, result, ready_, out, value⟩ |
    ⟨first, result, none_⟩
  · rw [result, Option.bind_some, if_neg (not_negative extra), base_, Option.bind_some,
      GzState.flow, value, Option.map_some, Option.bind_some]
    rcases gzDecode_yields represents ready_ with
      ⟨second, dsym, result, ready_, out_, value⟩ | ⟨second, result, none_⟩
    · rw [result, Option.bind_some, value, Option.bind_some]
      by_cases far : gzMaxDist ≤ dsym
      · have none_ : distanceCodes[dsym]? = none := List.getElem?_eq_none far
        rw [if_pos (Or.inr (Int.ofNat_le.mpr far)), extended, none_]
        exact Settles.stop second rfl
      have near : ¬((dsym : Int) < 0 ∨ (gzMaxDist : Int) ≤ dsym) := by omega
      obtain ⟨distExtra, distBase, extra_, base_, distance_, nonzero⟩ :=
        distanceCode_entry (Nat.not_le.mp far)
      rw [if_neg near, Int.toNat_natCast, extra_, Option.bind_some, extended, distance_,
        Option.bind_some]
      rcases gzBits_yields ready_ distExtra with ⟨third, more, result, ready_, out__, value⟩ |
        ⟨third, result, none_⟩
      · have written : third.out = s.out := out__.trans (out_.trans out)
        have capacity := ready_.outCap
        have fits := ready_.fits
        rw [result, Option.bind_some, if_neg (not_negative more), base_, Option.bind_some, value,
          Option.map_some, Option.bind_some, Int.toNat_natCast, Int.toNat_natCast]
        dsimp only
        rw [← written]
        by_cases behind : distBase + more ≤ third.out.length
        · rw [if_pos behind]
          by_cases long : third.outCap - third.out.length < lenBase + extra
          · rw [if_pos (Or.inr long)]
            refine Or.inr ⟨third, rfl, ?_⟩
            rintro flow same
            rw [Option.some.injEq] at same
            rw [← same, copyBack_length]
            omega
          · rw [if_neg (by omega), gzCopy_eq (by omega) behind (by omega)]
            refine Or.inl ⟨_, rfl, ⟨ready_.loaded, ready_.held, ready_.behind, ready_.inside, ?_,
              capacity⟩, rfl⟩
            change (copyBack _ _ third.out).length ≤ cap
            rw [copyBack_length]
            omega
        · rw [if_neg behind, if_pos (Or.inl (Nat.not_le.mp behind))]
          exact Settles.stop third rfl
      · rw [result, none_]
        exact Settles.stop third rfl
    · rw [result, none_]
      exact Settles.stop second rfl
  · rw [result, GzState.flow, none_]
    exact Settles.stop first rfl

/-- The symbols of a block are decoded up to its end. -/
theorem gzCodes_settles {lencode distcode : GzHuff} {literals distances : Alphabet}
    (literals_ : Represents lencode literals) (distances_ : Represents distcode distances)
    {fuel steps : Nat} (ready : s.Ready cap) (enough : s.ahead.length < fuel)
    (enough_ : s.ahead.length < steps) :
    Settles cap (gzCodes lencode distcode fuel s) (readBlock literals distances steps s.flow) := by
  induction fuel generalizing s steps with
  | zero => exact absurd enough (Nat.not_lt_zero _)
  | succ fuel ih =>
    obtain ⟨steps, rfl⟩ := Nat.exists_eq_succ_of_ne_zero (Nat.ne_zero_of_lt enough_)
    rw [gzCodes, readBlock]
    rcases gzDecode_yields literals_ ready with ⟨next, sym, result, ready_, out, value⟩ |
      ⟨next, result, none_⟩
    · have shorter := decode_shorter value
      have capacity := ready_.outCap
      rw [result, Option.bind_some, if_neg (not_negative sym), GzState.flow, value,
        Option.bind_some]
      by_cases literal : sym < 256
      · have literal_ : (sym : Int) < 256 := by omega
        dsimp only
        rw [if_pos literal_, if_pos literal, ← out]
        by_cases full : next.outCap ≤ next.out.length
        · rw [if_pos full]
          refine Or.inr ⟨next, rfl, ?_⟩
          intro flow read
          have written := (readBlock_goes read).out
          rw [List.length_append, List.length_singleton] at written
          omega
        · rw [if_neg full, put_eq _ (by omega), Option.bind_some, BitVec.ofInt_natCast]
          refine ih (s := { next with out := next.out ++ [BitVec.ofNat 8 sym] })
            ⟨ready_.loaded, ready_.held, ready_.behind, ready_.inside, ?_, capacity⟩
            (Nat.lt_of_lt_of_le shorter (Nat.lt_succ_iff.mp enough))
            (Nat.lt_of_lt_of_le shorter (Nat.lt_succ_iff.mp enough_))
          rw [List.length_append, List.length_singleton]
          omega
      · have literal_ : ¬(sym : Int) < 256 := by omega
        dsimp only
        rw [if_neg literal_, if_neg literal]
        by_cases stop : sym = 256
        · rw [if_pos (by rw [stop]; rfl), if_pos stop, ← out]
          exact Or.inl ⟨next, rfl, ready_, rfl⟩
        · have code : ((sym : Int) - 257).toNat = sym - 257 := by omega
          have part := gzMatch_settles distances_ ready_ (sym - 257)
          rw [if_neg (by omega), if_neg stop, code, ← out]
          rw [GzState.flow] at part
          rcases part with ⟨copied, result, ready_, value⟩ | ⟨copied, result, long⟩
          · have rest := (copyPart_goes value).bits
            rw [result, Option.bind_some, if_neg (Int.lt_irrefl 0)]
            dsimp only
            rw [value, Option.bind_some]
            exact ih ready_
              (Nat.lt_of_le_of_lt rest (shorter.trans_le (Nat.lt_succ_iff.mp enough)))
              (Nat.lt_of_le_of_lt rest (shorter.trans_le (Nat.lt_succ_iff.mp enough_)))
          · rw [result]
            refine Or.inr ⟨copied, rfl, ?_⟩
            intro flow read
            obtain ⟨middle, middle_, rest⟩ := Option.bind_eq_some_iff.mp read
            exact (long middle middle_).trans_le (readBlock_goes rest).out
    · rw [result, GzState.flow, none_]
      exact Settles.stop next rfl

end Codes

end Nd100x.Gunzip
