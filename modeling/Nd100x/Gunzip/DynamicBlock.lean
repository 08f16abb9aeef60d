import Nd100x.Gunzip.Blocks

namespace Nd100x.Gunzip

open Nd100x.Library

section CodeLengths

variable {cap : Nat} {s : GzState}

/-- The last number comes after the others. -/
theorem takeNumbers_succ (width count : Nat) (bits : List Bool) :
    takeNumbers width (count + 1) bits = (takeNumbers width count bits).bind fun given =>
      (takeNumber width given.2).map fun last => (given.1 ++ [last.1], last.2) := by
  induction count generalizing bits with
  | zero =>
    rw [takeNumbers, takeNumbers, Option.bind_some]
    cases takeNumber width bits <;> rfl
  | succ count ih =>
    rw [takeNumbers, takeNumbers]
    rcases takeNumber width bits with _ | first
    · rfl
    · rw [Option.bind_some, Option.bind_some, ih]
      rcases takeNumbers width count first.2 with _ | given
      · rfl
      · rw [Option.bind_some, Option.map_some, Option.bind_some]
        cases takeNumber width given.2 <;> rfl

/-- The array has the lengths of the first symbols in their order. -/
def Ordered (table : GzLengths) (given : List Nat) (idx : Nat) : Prop :=
  ∀ place < idx, ∀ symbol : Nat, gzOrder[place]? = some symbol →
    table.get? symbol = some ((given[place]?).getD 0)

theorem order_small {place symbol : Nat} (here : gzOrder[place]? = some symbol) :
    symbol < gzMaxLitCodes + gzMaxDist := by
  have small : ∀ symbol ∈ gzOrder, symbol < gzMaxLitCodes + gzMaxDist := by decide
  exact small symbol (List.mem_of_getElem? here)

theorem order_injective {first second symbol : Nat} (first_ : gzOrder[first]? = some symbol)
    (second_ : gzOrder[second]? = some symbol) : first = second := by
  have different : gzOrder.Nodup := by decide
  obtain ⟨inside, same⟩ := List.getElem?_eq_some_iff.mp first_
  obtain ⟨inside_, same_⟩ := List.getElem?_eq_some_iff.mp second_
  exact (@List.Nodup.getElem_inj_iff _ _ different _ inside _ inside_).mp (same.trans same_.symm)

theorem Ordered.put {table : GzLengths} {given more : List Nat} {idx symbol value : Nat}
    (ordered : Ordered table given idx) (here : gzOrder[idx]? = some symbol)
    (before : ∀ place < idx, (more[place]?).getD 0 = (given[place]?).getD 0)
    (last : (more[idx]?).getD 0 = value) :
    Ordered (Function.update table ⟨symbol, order_small here⟩ value) more (idx + 1) := by
  intro place inside other there
  rw [Table.get?_eq _ rfl (order_small there)]
  rcases Nat.lt_succ_iff_lt_or_eq.mp inside with earlier | same
  · have old := ordered place earlier other there
    rw [Table.get?_eq _ rfl (order_small there)] at old
    rw [Function.update_of_ne, old, before place earlier]
    intro same
    rw [Fin.mk.injEq] at same
    rw [same] at there
    exact Nat.ne_of_lt earlier (order_injective there here)
  · subst same
    rw [here, Option.some.injEq] at there
    subst there
    rw [Function.update_self, last]

/-- The given lengths are read, and the others are zero. -/
theorem gzCodeLengths_read (ready : s.Ready cap) (ncode : Nat) (lengths : GzLengths) {idx : Nat}
    (inside : idx ≤ 19) :
    (∃ next table given, gzCodeLengths ncode idx s lengths = some (next, table, 0) ∧
      next.Ready cap ∧ next.out = s.out ∧
        takeNumbers 3 (min idx ncode) s.ahead = some (given, next.ahead) ∧
          given.length = min idx ncode ∧ (∀ value ∈ given, value ≤ gzMaxBits) ∧
            Ordered table given idx) ∨
    ∃ next table, gzCodeLengths ncode idx s lengths = some (next, table, -1) ∧
      takeNumbers 3 (min idx ncode) s.ahead = none := by
  induction idx with
  | zero =>
    rw [Nat.zero_min]
    exact Or.inl ⟨s, lengths, [], rfl, ready, rfl, rfl, rfl, nofun,
      fun place none_ => absurd none_ (Nat.not_lt_zero _)⟩
  | succ idx ih =>
    have here : gzOrder[idx]? = some gzOrder[idx] := List.getElem?_eq_getElem inside
    generalize gzOrder[idx] = symbol at here
    have small := order_small here
    rw [gzCodeLengths]
    rcases ih (Nat.le_of_succ_le inside) with
      ⟨next, table, given, read, ready_, out, numbers, length, short, ordered⟩ |
        ⟨next, table, read, none_⟩
    · rw [read, Option.bind_some, if_neg (Int.lt_irrefl 0), here, Option.bind_some]
      by_cases more : idx < ncode
      · rw [Nat.min_eq_left (Nat.le_of_lt more)] at numbers length
        rw [if_pos more, Nat.min_eq_left more, takeNumbers_succ, numbers, Option.bind_some]
        rcases gzBits_yields ready_ 3 with ⟨last, number, result, ready_, out_, value⟩ |
          ⟨last, result, none_⟩
        · rw [result, Option.bind_some, if_neg (not_negative number), value, Option.map_some,
            Int.toNat_natCast, Table.set?_eq _ _ small, Option.map_some]
          refine Or.inl ⟨last, _, _, rfl, ready_, out_.trans out, rfl, ?_, ?_,
            ordered.put here ?_ ?_⟩
          · rw [List.length_append, length, List.length_singleton]
          · intro member inside_
            rcases List.mem_append.mp inside_ with before | same
            · exact short member before
            · have limit := takeNumber_lt value
              rw [List.mem_singleton.mp same]
              exact Nat.le_of_lt (limit.trans (by decide))
          · intro place earlier
            rw [List.getElem?_append_left (length ▸ earlier)]
          · rw [List.getElem?_append_right (Nat.le_of_eq length), length, Nat.sub_self]
            rfl
        · rw [result, Option.bind_some, if_pos minus_one, none_]
          exact Or.inr ⟨last, table, rfl, rfl⟩
      · have enough : ncode ≤ idx := Nat.not_lt.mp more
        rw [Nat.min_eq_right enough] at numbers length
        rw [if_neg more, Nat.min_eq_right (Nat.le_succ_of_le enough), Table.set?_eq _ _ small,
          Option.map_some]
        refine Or.inl ⟨next, _, given, rfl, ready_, out, numbers, length, short,
          ordered.put here (fun _ _ => rfl) ?_⟩
        rw [List.getElem?_eq_none (length ▸ enough)]
        rfl
    · rw [read, Option.bind_some, if_pos minus_one]
      refine Or.inr ⟨next, table, rfl, ?_⟩
      rcases Nat.lt_or_ge idx ncode with more | enough
      · rw [Nat.min_eq_left (Nat.le_of_lt more)] at none_
        rw [Nat.min_eq_left more, takeNumbers_succ, none_]
        rfl
      · rw [Nat.min_eq_right enough] at none_
        rw [Nat.min_eq_right (Nat.le_succ_of_le enough)]
        exact none_

theorem lengthCode_describes {table : GzLengths} {given : List Nat}
    (ordered : Ordered table given 19) (short : ∀ value ∈ given, value ≤ gzMaxBits) :
    Describes (lengthCode given) table 0 where
  entry := by
    have placed : ∀ symbol < 19, codeOrder.idxOf symbol < 19 ∧
        gzOrder[codeOrder.idxOf symbol]? = some symbol := by decide
    intro symbol inside
    obtain ⟨place, here⟩ := placed symbol inside
    rw [Nat.cast_zero, Int.zero_add]
    exact ordered _ place symbol here
  short := by
    intro symbol _
    dsimp only [lengthCode]
    rcases value : given[codeOrder.idxOf symbol]? with _ | length
    · exact Nat.zero_le _
    · exact short length (List.mem_of_getElem? value)

theorem unused_of_coded {alphabet : Alphabet} (uncoded : alphabet.coded = 0) (length : Nat) :
    codesAt alphabet.lengths alphabet.count length = 0 := by
  refine unused_of_uncoded ?_ length
  have symbols := List.length_filter_le (fun symbol => decide (alphabet.lengths symbol = 0))
    (List.range alphabet.count)
  rw [List.length_range, ← symbolsOf] at symbols
  rw [Alphabet.coded] at uncoded
  omega

theorem decode_uncoded {alphabet : Alphabet} (uncoded : alphabet.coded = 0) (bits : List Bool) :
    alphabet.decode bits = none := by
  rw [Alphabet.decode, decodeSymbol, Option.map_eq_none_iff, List.find?_eq_none]
  intro symbol member first
  rw [Bool.and_eq_true, decide_eq_true_eq] at first
  have rank := rankOf_lt (List.mem_range.mp member) first.1
  rw [unused_of_coded uncoded] at rank
  exact Nat.not_lt_zero _ rank

theorem not_complete_of_uncoded {alphabet : Alphabet} (uncoded : alphabet.coded = 0) :
    ¬alphabet.Complete := by
  rintro ⟨-, full⟩
  have free := room_unused fun shorter (_ : shorter ≤ Alphabet.longestCode) =>
    unused_of_coded uncoded shorter
  rw [full] at free
  exact Int.lt_irrefl 0 free

end CodeLengths

section Lengths

variable {cap : Nat} {s : GzState}

/-- The lengths that were read stand in the array, and none of them is too long. -/
structure Holds (table : GzLengths) (read : List Nat) : Prop where
  entry : ∀ place value : Nat, read[place]? = some value → table.get? place = some value
  short : ∀ value ∈ read, value ≤ gzMaxBits

theorem Holds.put {table : GzLengths} {read : List Nat} (holds : Holds table read) {value : Nat}
    (inside : read.length < gzMaxLitCodes + gzMaxDist) (short : value ≤ gzMaxBits) :
    Holds (Function.update table ⟨read.length, inside⟩ value) (read ++ [value]) where
  entry := by
    intro place other here
    have bound := (List.getElem?_eq_some_iff.mp here).1
    rw [List.length_append, List.length_singleton] at bound
    have room_ : place < gzMaxLitCodes + gzMaxDist := by omega
    rw [Table.get?_eq _ rfl room_]
    rcases Nat.lt_succ_iff_lt_or_eq.mp bound with earlier | same
    · rw [List.getElem?_append_left earlier] at here
      have old := holds.entry place other here
      rw [Table.get?_eq _ rfl room_] at old
      rw [Function.update_of_ne, old]
      intro same
      rw [Fin.mk.injEq] at same
      omega
    · subst same
      rw [List.getElem?_append_right (Nat.le_refl _), Nat.sub_self] at here
      rw [Function.update_self]
      exact here
  short := by
    intro member inside_
    rcases List.mem_append.mp inside_ with before | same
    · exact holds.short member before
    · rw [List.mem_singleton.mp same]
      exact short

theorem gzFillLengths_holds {table : GzLengths} {read : List Nat} (holds : Holds table read)
    {prev rep : Nat} (inside : read.length + rep ≤ gzMaxLitCodes + gzMaxDist)
    (short : prev ≤ gzMaxBits) :
    ∃ filled, gzFillLengths prev rep table read.length = some filled ∧
      Holds filled (read ++ List.replicate rep prev) := by
  induction rep generalizing table read with
  | zero =>
    rw [List.replicate_zero, List.append_nil]
    exact ⟨table, rfl, holds⟩
  | succ rep ih =>
    have here : read.length < gzMaxLitCodes + gzMaxDist := by omega
    have length : (read ++ [prev]).length = read.length + 1 := List.length_append
    obtain ⟨filled, rest, holds_⟩ := ih (holds.put here short)
      (by rw [length]; omega)
    rw [length] at rest
    rw [List.append_assoc] at holds_
    rw [gzFillLengths, Table.set?_eq _ _ here, Option.bind_some]
    exact ⟨filled, rest, holds_⟩

/-- A repeat count is read as the format says, with its one exception. -/
theorem gzRepeat_read {table : GzLengths} {read : Lengths} (holds : Holds table read.lengths)
    (ready : s.Ready cap) (sym : Nat) :
    (∃ (next : GzState) (prev times : Nat) (cut : Bool),
      gzRepeat s table read.lengths.length sym = some (next, some (prev, (times : Int))) ∧
        next.Ready cap ∧ next.out = s.out ∧ prev ≤ gzMaxBits ∧ 3 ≤ times ∧
          repeatOf sym read s.ahead = some (List.replicate times prev, next.ahead, cut)) ∨
    ∃ next rep, gzRepeat s table read.lengths.length sym = some (next, rep) ∧
      (∀ prev times, rep = some (prev, times) → times < 3) ∧
        repeatOf sym read s.ahead = none := by
  rw [gzRepeat, repeatOf]
  by_cases again : sym = 16
  · rw [if_pos again, if_pos again]
    rcases List.eq_nil_or_concat read.lengths with empty | ⟨before, prev, last⟩
    · rw [empty]
      exact Or.inr ⟨s, none, rfl, nofun, rfl⟩
    rw [List.concat_eq_append] at last
    have length : read.lengths.length = before.length + 1 := by
      rw [last, List.length_append]
      rfl
    have here : read.lengths[before.length]? = some prev := by
      rw [last, List.getElem?_append_right (Nat.le_refl _), Nat.sub_self]
      rfl
    have index : (read.lengths.length : Int) - 1 = before.length := by omega
    rw [if_neg (by omega), index, holds.entry _ prev here, Option.bind_some, last,
      List.getLast?_concat, Option.bind_some]
    rcases gzBits_yields ready 2 with ⟨next, more, result, ready_, out, value⟩ |
      ⟨next, result, none_⟩
    · rw [result, value]
      exact Or.inl ⟨next, prev, more + 3, false, rfl, ready_, out,
        holds.short prev (List.mem_of_getElem? here), Nat.le_add_left 3 more, rfl⟩
    · rw [result, none_]
      refine Or.inr ⟨next, _, rfl, ?_, rfl⟩
      rintro _ _ ⟨⟩
      exact (by decide : (-1 : Int) + 3 < 3)
  rw [if_neg again, if_neg again]
  by_cases short : sym = 17
  · rw [if_pos short, if_pos short]
    rcases gzBits_yields ready 3 with ⟨next, more, result, ready_, out, value⟩ |
      ⟨next, result, none_⟩
    · rw [result, value]
      exact Or.inl ⟨next, 0, more + 3, false, rfl, ready_, out, Nat.zero_le _,
        Nat.le_add_left 3 more, rfl⟩
    · rw [result, none_]
      refine Or.inr ⟨next, _, rfl, ?_, rfl⟩
      rintro _ _ ⟨⟩
      exact (by decide : (-1 : Int) + 3 < 3)
  · rw [if_neg short, if_neg short]
    rcases gzBits_yields ready 7 with ⟨next, more, result, ready_, out, value⟩ |
      ⟨next, result, none_⟩
    · rw [result, value]
      exact Or.inl ⟨next, 0, more + 11, false, rfl, ready_, out, Nat.zero_le _, by omega, rfl⟩
    · rw [gzBits_cut ready (by decide) none_, none_]
      exact Or.inl ⟨s, 0, 10, true, rfl, ready, rfl, Nat.zero_le _, by decide, rfl⟩

/-- The code lengths are read up to their number. -/
theorem gzReadLengths_read {lencode : GzHuff} {code : Alphabet}
    (represents : Represents lencode code) {total fuel : Nat}
    (few : total ≤ gzMaxLitCodes + gzMaxDist) {table : GzLengths} {read : Lengths}
    (holds : Holds table read.lengths) (ready : s.Ready cap) (bits : read.bits = s.ahead)
    (inside : read.lengths.length ≤ total) (enough : total < read.lengths.length + fuel) :
    (∃ next filled last, gzReadLengths lencode total fuel s table read.lengths.length =
        some (next, filled, 0) ∧ next.Ready cap ∧ next.out = s.out ∧
          readLengths code total fuel read = some last ∧ last.bits = next.ahead ∧
            last.lengths.length = total ∧ Holds filled last.lengths) ∨
    ∃ next filled, gzReadLengths lencode total fuel s table read.lengths.length =
      some (next, filled, -1) ∧ readLengths code total fuel read = none := by
  induction fuel generalizing s table read with
  | zero => omega
  | succ fuel ih =>
    rw [gzReadLengths, readLengths]
    by_cases finished : total ≤ read.lengths.length
    · rw [if_neg (Nat.not_lt.mpr finished), if_pos finished]
      exact Or.inl ⟨s, table, read, rfl, ready, rfl, rfl, bits, Nat.le_antisymm inside finished,
        holds⟩
    have missing := Nat.not_le.mp finished
    rw [if_pos missing, if_neg finished, bits]
    rcases gzDecode_yields represents ready with ⟨next, sym, result, ready_, out, value⟩ |
      ⟨next, result, none_⟩
    · rw [result, Option.bind_some, if_neg (not_negative sym), value, Option.bind_some]
      dsimp only
      by_cases plain : sym < 16
      · have plain_ : (sym : Int) < 16 := by omega
        have here : read.lengths.length < gzMaxLitCodes + gzMaxDist := missing.trans_le few
        have length : (read.lengths ++ [sym]).length = read.lengths.length + 1 :=
          List.length_append
        have rest := @ih _ _
          { read with lengths := read.lengths ++ [sym], bits := next.ahead }
          (holds.put here (Nat.lt_succ_iff.mp plain)) ready_ rfl
          (by rw [length]; exact missing) (by rw [length]; omega)
        dsimp only at rest
        rw [length, out] at rest
        rw [if_pos plain_, if_pos plain, Int.toNat_natCast, Table.set?_eq _ _ here,
          Option.bind_some]
        exact rest
      · have plain_ : ¬(sym : Int) < 16 := by omega
        rw [if_neg plain_, if_neg plain, Int.toNat_natCast]
        rcases gzRepeat_read holds ready_ sym with
          ⟨last, prev, times, cut, result, ready_, out_, short, some_, value⟩ |
            ⟨last, rep, result, refused, none_⟩
        · rw [result, Option.bind_some, value, Option.bind_some]
          dsimp only
          rw [List.length_replicate]
          by_cases fits : read.lengths.length + times ≤ total
          · have length : (read.lengths ++ List.replicate times prev).length =
                read.lengths.length + times := by
              rw [List.length_append, List.length_replicate]
            obtain ⟨filled, fill, holds_⟩ := gzFillLengths_holds holds (fits.trans few) short
            have rest := @ih _ _
              ⟨read.lengths ++ List.replicate times prev, last.ahead, read.cut || cut⟩
              holds_ ready_ rfl (by rw [length]; exact fits) (by rw [length]; omega)
            dsimp only at rest
            rw [length, out_.trans out] at rest
            rw [if_neg (by omega), if_pos fits, Int.toNat_natCast, fill, Option.bind_some]
            exact rest
          · rw [if_pos (Or.inr (by omega)), if_neg fits]
            exact Or.inr ⟨last, table, rfl, rfl⟩
        · rw [result, Option.bind_some, none_]
          rcases rep with _ | ⟨prev, times⟩
          · exact Or.inr ⟨last, table, rfl, rfl⟩
          · dsimp only
            rw [if_pos (Or.inl (refused prev times rfl))]
            exact Or.inr ⟨last, table, rfl, rfl⟩
    · rw [result, Option.bind_some, if_pos minus_one, none_]
      exact Or.inr ⟨next, table, rfl, rfl⟩

end Lengths

section Shorter

theorem takeNumbers_shorter {width count : Nat} {bits rest : List Bool} {given : List Nat}
    (taken : takeNumbers width count bits = some (given, rest)) : rest.length ≤ bits.length := by
  induction count generalizing bits given with
  | zero =>
    rw [takeNumbers, Option.some.injEq, Prod.mk.injEq] at taken
    rw [taken.2]
  | succ count ih =>
    obtain ⟨⟨first, middle⟩, first_, more⟩ := Option.bind_eq_some_iff.mp taken
    obtain ⟨⟨others, last⟩, others_, same⟩ := Option.map_eq_some_iff.mp more
    obtain ⟨-, rfl⟩ := Prod.mk.inj same
    have length := takeNumber_length first_
    have later := ih others_
    dsimp only at length later ⊢
    omega

theorem repeatOf_shorter {symbol : Nat} {read : Lengths} {bits rest : List Bool}
    {lengths : List Nat} {cut : Bool}
    (repeated : repeatOf symbol read bits = some (lengths, rest, cut)) :
    rest.length ≤ bits.length := by
  rw [repeatOf] at repeated
  split_ifs at repeated with again short
  · obtain ⟨last, -, more⟩ := Option.bind_eq_some_iff.mp repeated
    obtain ⟨⟨count, after⟩, taken, same⟩ := Option.map_eq_some_iff.mp more
    obtain ⟨-, rfl, -⟩ := same
    exact Nat.le_of_add_right_le (Nat.le_of_eq (takeNumber_length taken))
  · obtain ⟨⟨count, after⟩, taken, same⟩ := Option.map_eq_some_iff.mp repeated
    obtain ⟨-, rfl, -⟩ := same
    exact Nat.le_of_add_right_le (Nat.le_of_eq (takeNumber_length taken))
  · rcases taken : takeNumber 7 bits with _ | ⟨count, after⟩
    · rw [taken] at repeated
      obtain ⟨-, rfl, -⟩ := repeated
      exact Nat.le_refl _
    · rw [taken] at repeated
      obtain ⟨-, rfl, -⟩ := repeated
      exact Nat.le_of_add_right_le (Nat.le_of_eq (takeNumber_length taken))

theorem readLengths_shorter {code : Alphabet} {total fuel : Nat} {read last : Lengths}
    (read_ : readLengths code total fuel read = some last) :
    last.bits.length ≤ read.bits.length := by
  induction fuel generalizing read with
  | zero => cases read_
  | succ fuel ih =>
    rw [readLengths] at read_
    split_ifs at read_ with finished
    · rw [Option.some.injEq] at read_
      rw [read_]
    · obtain ⟨⟨symbol, rest⟩, decoded, more⟩ := Option.bind_eq_some_iff.mp read_
      have shorter := decode_shorter decoded
      split_ifs at more with plain
      · exact (ih more).trans shorter.le
      · obtain ⟨⟨lengths, bits, cut⟩, repeated, more⟩ := Option.bind_eq_some_iff.mp more
        split_ifs at more with fits
        exact (ih more).trans ((repeatOf_shorter repeated).trans shorter.le)

theorem dynamicTables_shorter {most : Nat} {bits : List Bool} {tables : Tables}
    (read : dynamicTables most bits = some tables) : tables.bits.length ≤ bits.length := by
  obtain ⟨⟨hlit, first⟩, hlit_, more⟩ := Option.bind_eq_some_iff.mp read
  obtain ⟨⟨hdist, second⟩, hdist_, more⟩ := Option.bind_eq_some_iff.mp more
  obtain ⟨⟨hclen, third⟩, hclen_, more⟩ := Option.bind_eq_some_iff.mp more
  split_ifs at more with counted
  obtain ⟨⟨given, fourth⟩, given_, more⟩ := Option.bind_eq_some_iff.mp more
  split_ifs at more with complete
  obtain ⟨last, last_, more⟩ := Option.bind_eq_some_iff.mp more
  dsimp only at more
  split_ifs at more with usable
  rw [Option.some.injEq] at more
  have length := takeNumber_length hlit_
  have length_ := takeNumber_length hdist_
  have length__ := takeNumber_length hclen_
  have numbers := takeNumbers_shorter given_
  have lengths := readLengths_shorter last_
  rw [← more]
  dsimp only at length_ length__ numbers lengths ⊢
  omega

end Shorter

section Tables

variable {cap : Nat} {s : GzState}

/-- A part of the lengths describes an alphabet. -/
theorem Holds.describes {table : GzLengths} {read part : List Nat} (holds : Holds table read)
    {start : Nat}
    (same : ∀ place < part.length, part[place]? = read[start + place]?) :
    Describes (Alphabet.ofList part) table start where
  entry := by
    intro symbol inside
    have here : part[symbol]? = some ((Alphabet.ofList part).lengths symbol) := by
      dsimp only [Alphabet.ofList]
      rw [List.getD_eq_getElem?_getD, List.getElem?_eq_getElem inside, Option.getD_some]
    have there := holds.entry (start + symbol) _ ((same symbol inside).symm.trans here)
    rw [Nat.cast_add] at there
    exact there
  short := by
    intro symbol inside
    have here : part[symbol]? = some ((Alphabet.ofList part).lengths symbol) := by
      dsimp only [Alphabet.ofList]
      rw [List.getD_eq_getElem?_getD, List.getElem?_eq_getElem inside, Option.getD_some]
    exact holds.short _ (List.mem_of_getElem? ((same symbol inside).symm.trans here))

/-- The tables that are refused are those that the format does not allow. -/
theorem gzConstruct_usable {alphabet : Alphabet} {size start : Nat} {length : Table size}
    (described : Describes alphabet length start) (small : alphabet.count ≤ gzMaxLitCodes)
    (h : GzHuff) :
    ∃ table err, gzConstruct h length start alphabet.count = some (table, err) ∧
      (gzRefused err table alphabet.count = some false ∧ alphabet.Usable ∧
          Represents table alphabet ∨
        gzRefused err table alphabet.count = some true ∧ ¬alphabet.Usable) := by
  obtain ⟨table, err, result, count, outcome⟩ := gzConstruct_table described small h
  have symbols := List.length_filter_le (fun symbol => decide (alphabet.lengths symbol = 0))
    (List.range alphabet.count)
  rw [List.length_range, ← symbolsOf] at symbols
  have coded : (alphabet.count : Int) - (symbolsOf alphabet.lengths alphabet.count 0).length =
      alphabet.coded := by
    rw [Alphabet.coded, Nat.cast_sub symbols]
  have refused : gzRefused err table alphabet.count =
      some (decide (err < 0) || (decide (0 < err) && decide ((alphabet.coded : Int) ≠ 1))) := by
    rw [gzRefused, count, counts_get? _ Nat.cast_zero.symm (Nat.zero_le _), Option.map_some, coded]
  refine ⟨table, err, result, ?_⟩
  rw [refused]
  rcases outcome with ⟨negative, over_⟩ | ⟨allowed, represents, ⟨uncoded, same⟩ | ⟨some_, same⟩⟩
  · refine Or.inr ⟨?_, fun usable => over_ usable.1⟩
    rw [decide_eq_true negative]
    rfl
  · refine Or.inl ⟨?_, ⟨allowed, Or.inr (by omega)⟩, represents⟩
    rw [same]
    rfl
  · have free := allowed gzMaxBits (Nat.lt_succ_self _)
    rw [← same] at free
    by_cases refused_ : 0 < err ∧ (alphabet.coded : Int) ≠ 1
    · refine Or.inr ⟨?_, ?_⟩
      · rw [decide_eq_true refused_.1, decide_eq_true refused_.2, Bool.and_true, Bool.or_true]
      · rintro ⟨-, full | single⟩
        · exact absurd (same.trans full) (Int.ne_of_gt refused_.1)
        · omega
    · refine Or.inl ⟨?_, ⟨allowed, ?_⟩, represents⟩
      · rw [decide_eq_false (Int.not_lt.mpr free), ← Bool.decide_and, decide_eq_false refused_,
          Bool.or_false]
      · by_cases full : err = 0
        · exact Or.inl (same.symm.trans full)
        · exact Or.inr (by omega)

/-- The alphabets of a block are made from the lengths that were read. -/
theorem gzTables_settles {lengths : GzLengths} {read : List Nat} {nlen ndist fuel steps : Nat}
    (holds : Holds lengths read) (length : read.length = nlen + ndist) (stop : 256 < nlen)
    (few : nlen ≤ 286) (few_ : ndist ≤ gzMaxDist) (lencode distcode : GzHuff)
    (ready : s.Ready cap) (enough : s.ahead.length < fuel) (enough_ : s.ahead.length < steps) :
    Settles cap (gzTables s lengths nlen ndist lencode distcode fuel)
      (if (Alphabet.ofList (read.take nlen)).lengths 256 ≠ 0 ∧
          (Alphabet.ofList (read.take nlen)).Usable ∧
            (Alphabet.ofList (read.drop nlen)).Usable then
        readBlock (Alphabet.ofList (read.take nlen)) (Alphabet.ofList (read.drop nlen)) steps s.flow
      else none) := by
  have literals := @Holds.describes _ _ (read.take nlen) holds 0 (by
    intro place inside
    rw [List.length_take] at inside
    rw [List.getElem?_take, if_pos (by omega), Nat.zero_add])
  have distances := @Holds.describes _ _ (read.drop nlen) holds nlen (by
    intro place _
    rw [List.getElem?_drop])
  have literals_ : (Alphabet.ofList (read.take nlen)).count = nlen := by
    change (read.take nlen).length = nlen
    rw [List.length_take]
    omega
  have distances_ : (Alphabet.ofList (read.drop nlen)).count = ndist := by
    change (read.drop nlen).length = ndist
    rw [List.length_drop]
    omega
  have last : lengths.get? 256 = some ((Alphabet.ofList (read.take nlen)).lengths 256) :=
    literals.entry 256 (by omega)
  have small : gzMaxDist ≤ gzMaxLitCodes := by decide
  obtain ⟨table, err, built, outcome⟩ := gzConstruct_usable literals
    (by rw [literals_]; exact few.trans (by decide)) lencode
  obtain ⟨table_, err_, built_, outcome_⟩ := gzConstruct_usable distances
    (by rw [distances_]; exact few_.trans small) distcode
  rw [literals_] at built outcome
  rw [distances_] at built_ outcome_
  rw [gzTables, last, Option.bind_some]
  by_cases none_ : (Alphabet.ofList (read.take nlen)).lengths 256 = 0
  · rw [if_pos none_, if_neg (fun allowed => allowed.1 none_)]
    exact Settles.stop s rfl
  rw [if_neg none_]
  change Settles cap ((gzConstruct lencode lengths 0 nlen).bind _) _
  rw [built, Option.bind_some]
  rcases outcome with ⟨refused, usable, represents⟩ | ⟨refused, unusable⟩
  · rw [refused, Option.bind_some, if_neg Bool.false_ne_true, built_, Option.bind_some]
    rcases outcome_ with ⟨refused, usable_, represents_⟩ | ⟨refused, unusable⟩
    · rw [refused, Option.bind_some, if_neg Bool.false_ne_true,
        if_pos ⟨none_, usable, usable_⟩]
      exact gzCodes_settles represents represents_ ready enough enough_
    · rw [refused, Option.bind_some, if_pos rfl, if_neg (fun allowed => unusable allowed.2.2)]
      exact Settles.stop s rfl
  · rw [refused, Option.bind_some, if_pos rfl, if_neg (fun allowed => unusable allowed.2.1)]
    exact Settles.stop s rfl

/-- The lengths are read with a complete code, and the alphabets of the block are made from
them. -/
theorem gzLengths_settles {table : GzLengths} {given : List Nat} {nlen ndist fuel : Nat}
    (arrays : GzArrays) (ordered : Ordered table given 19)
    (short : ∀ value ∈ given, value ≤ gzMaxBits) (stop : 256 < nlen) (few : nlen ≤ 286)
    (few_ : ndist ≤ gzMaxDist) (ready : s.Ready cap) (enough : s.ahead.length < fuel) :
    Settles cap
      ((gzConstruct arrays.lencode table 0 19).bind fun lencode =>
        if lencode.2 ≠ 0 then some (s, -1)
        else
          (gzReadLengths lencode.1 (nlen + ndist) (nlen + ndist + 1) s table 0).bind fun read =>
            if read.2.2 < 0 then some (read.1, -1)
            else gzTables read.1 read.2.1 nlen ndist lencode.1 arrays.distcode fuel)
      (if (lengthCode given).Complete then
        (readLengths (lengthCode given) (nlen + ndist) (nlen + ndist + 1)
          ⟨[], s.ahead, false⟩).bind fun read =>
            if (Alphabet.ofList (read.lengths.take nlen)).lengths 256 ≠ 0 ∧
                (Alphabet.ofList (read.lengths.take nlen)).Usable ∧
                  (Alphabet.ofList (read.lengths.drop nlen)).Usable then
              readBlock (Alphabet.ofList (read.lengths.take nlen))
                (Alphabet.ofList (read.lengths.drop nlen)) (read.bits.length + 1) ⟨s.out, read.bits⟩
            else none
      else none) := by
  obtain ⟨lencode, err, built, -, outcome⟩ := gzConstruct_table
    (lengthCode_describes ordered short) (by decide : 19 ≤ gzMaxLitCodes) arrays.lencode
  change gzConstruct arrays.lencode table 0 19 = _ at built
  have empty : Holds table [] := ⟨nofun, nofun⟩
  have total : nlen + ndist ≤ gzMaxLitCodes + gzMaxDist :=
    Nat.add_le_add (few.trans (by decide)) few_
  rw [built, Option.bind_some]
  rcases outcome with ⟨negative, over_⟩ | ⟨allowed, represents, ⟨uncoded, same⟩ | ⟨-, same⟩⟩
  · rw [if_pos (Int.ne_of_lt negative), if_neg (fun complete => over_ complete.1)]
    exact Settles.stop s rfl
  · rw [if_neg (not_not.mpr same), if_neg (not_complete_of_uncoded uncoded)]
    have nothing : readLengths (lengthCode given) (nlen + ndist) (nlen + ndist + 1)
        ⟨[], s.ahead, false⟩ = none := by
      have some_ : ¬nlen + ndist ≤ ([] : List Nat).length := by
        rw [List.length_nil]
        omega
      rw [readLengths, if_neg some_, decode_uncoded uncoded]
      rfl
    rcases @gzReadLengths_read _ _ _ _ represents _ _ total _ ⟨[], s.ahead, false⟩ empty ready rfl
        (Nat.zero_le _) (by rw [List.length_nil, Nat.zero_add]; exact Nat.lt_succ_self _) with
      ⟨_, _, _, _, _, _, read, _⟩ | ⟨next, filled, read, -⟩
    · rw [nothing] at read
      cases read
    · change gzReadLengths _ _ _ _ _ 0 = _ at read
      rw [read, Option.bind_some, if_pos minus_one]
      exact Settles.stop next rfl
  · by_cases full : err = 0
    · have complete : (lengthCode given).Complete := ⟨allowed, same.symm.trans full⟩
      rw [if_neg (not_not.mpr full), if_pos complete]
      rcases @gzReadLengths_read _ _ _ _ represents _ _ total _ ⟨[], s.ahead, false⟩ empty ready
          rfl (Nat.zero_le _) (by rw [List.length_nil, Nat.zero_add]; exact Nat.lt_succ_self _) with
        ⟨next, filled, last, read, ready_, out, read_, bits, length, holds⟩ |
          ⟨next, filled, read, none_⟩
      · have shorter := readLengths_shorter read_
        rw [bits] at shorter
        change gzReadLengths _ _ _ _ _ 0 = _ at read
        rw [read, Option.bind_some, if_neg (Int.lt_irrefl 0), read_, Option.bind_some, bits, ← out]
        exact gzTables_settles holds length stop few few_ lencode arrays.distcode ready_
          (Nat.lt_of_le_of_lt shorter enough) (Nat.lt_succ_self _)
      · change gzReadLengths _ _ _ _ _ 0 = _ at read
        rw [read, Option.bind_some, if_pos minus_one, none_]
        exact Settles.stop next rfl
    · have incomplete : ¬(lengthCode given).Complete := fun complete =>
        full (same.trans complete.2)
      rw [if_pos full, if_neg incomplete]
      exact Settles.stop s rfl

theorem gzDynamic_settles {fuel : Nat} (arrays : GzArrays) (ready : s.Ready cap)
    (enough : s.ahead.length < fuel) :
    Settles cap (gzDynamic arrays fuel s)
      ((dynamicTables gzMaxDist s.ahead).bind fun tables =>
        readBlock tables.literals tables.distances (tables.bits.length + 1)
          ⟨s.out, tables.bits⟩) := by
  rw [gzDynamic, dynamicTables]
  rcases gzBits_short ready (by decide : 5 ≤ 8) with
    ⟨first, hlit, result, first_, out, value⟩ | ⟨result, none_⟩
  swap
  · obtain ⟨second, hdist, result_, second_⟩ := gzBits_ready ready (by decide : 5 ≤ 8)
    obtain ⟨third, hclen, result__, -⟩ := gzBits_ready second_ (by decide : 4 ≤ 8)
    rw [result, Option.bind_some, result_, Option.bind_some, result__, Option.bind_some,
      if_pos (Or.inl minus_one), none_]
    exact Settles.stop third rfl
  have shorter := takeNumber_length value
  rw [result, Option.bind_some, value, Option.bind_some]
  rcases gzBits_short first_ (by decide : 5 ≤ 8) with
    ⟨second, hdist, result, second_, out_, value⟩ | ⟨result, none_⟩
  swap
  · obtain ⟨third, hclen, result_, -⟩ := gzBits_ready first_ (by decide : 4 ≤ 8)
    rw [result, Option.bind_some, result_, Option.bind_some,
      if_pos (Or.inr (Or.inl minus_one)), none_]
    exact Settles.stop third rfl
  have shorter_ := takeNumber_length value
  rw [result, Option.bind_some, value, Option.bind_some]
  rcases gzBits_short second_ (by decide : 4 ≤ 8) with
    ⟨third, hclen, result, third_, out__, value⟩ | ⟨result, none_⟩
  swap
  · rw [result, Option.bind_some, if_pos (Or.inr (Or.inr minus_one)), none_]
    exact Settles.stop second rfl
  have shorter__ := takeNumber_length value
  have few : hclen < 16 := takeNumber_lt value
  rw [result, Option.bind_some, value, Option.bind_some]
  dsimp only
  rw [if_neg (by omega), Int.toNat_natCast, Int.toNat_natCast, Int.toNat_natCast]
  by_cases counted : hlit + 257 ≤ 286 ∧ hdist + 1 ≤ gzMaxDist
  swap
  · rw [if_pos (by omega), if_neg counted]
    exact Settles.stop third rfl
  rw [if_neg (by omega), if_pos counted]
  rcases gzCodeLengths_read third_ (hclen + 4) arrays.lengths (Nat.le_refl 19) with
    ⟨next, table, given, read, next_, out___, numbers, -, short, ordered⟩ |
      ⟨next, table, read, none_⟩
  · rw [Nat.min_eq_right (by omega)] at numbers
    have shorter___ := takeNumbers_shorter numbers
    have settled := @gzLengths_settles _ _ _ _ (hlit + 257) (hdist + 1) fuel arrays ordered short
        (by omega) counted.1 counted.2 next_ (by omega)
    rw [read, Option.bind_some, if_neg (Int.lt_irrefl 0), numbers, Option.bind_some]
    have written : next.out = s.out := out___.trans (out__.trans (out_.trans out))
    rw [written] at settled
    convert settled using 1
    by_cases complete : (lengthCode given).Complete
    · rw [if_pos complete, if_pos complete, Option.bind_assoc]
      congr 1
      funext read
      split_ifs <;> rfl
    · rw [if_neg complete, if_neg complete]
      rfl
  · rw [Nat.min_eq_right (by omega)] at none_
    rw [read, Option.bind_some, if_pos minus_one, none_]
    exact Settles.stop next rfl

end Tables

end Nd100x.Gunzip
