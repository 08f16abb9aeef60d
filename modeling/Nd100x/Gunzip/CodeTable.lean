import Nd100x.Gunzip.BitReader

namespace Nd100x.Gunzip

open Nd100x.Library

namespace Table

variable {size : Nat}

theorem get?_eq (table : Table size) {index : Int} {place : Nat} (same : index = place)
    (inside : place < size) : table.get? index = some (table ⟨place, inside⟩) := by
  subst same
  rw [get?, dif_pos ⟨Int.natCast_nonneg place, inside⟩]
  rfl

theorem set?_eq (table : Table size) {index : Nat} (value : Nat) (inside : index < size) :
    table.set? index value = some (Function.update table ⟨index, inside⟩ value) := by
  rw [set?, dif_pos inside]

end Table

/-- The lengths of the alphabet stand in an array. -/
structure Describes {size : Nat} (alphabet : Alphabet) (length : Table size) (start : Nat) :
    Prop where
  entry : ∀ symbol < alphabet.count,
    length.get? (start + symbol) = some (alphabet.lengths symbol)
  short : ∀ symbol < alphabet.count, alphabet.lengths symbol ≤ gzMaxBits

/-- The numbers of codes of the first symbols. -/
def counts (alphabet : Alphabet) (symbols : Nat) : Table (gzMaxBits + 1) := fun len =>
  (symbolsOf alphabet.lengths symbols len.val).length

def offsets (alphabet : Alphabet) (longest : Nat) : Table (gzMaxBits + 1) := fun len =>
  if len.val ≤ longest + 1 then firstPlace alphabet.lengths alphabet.count len.val else 0

/-- The places of the next symbols, after the first ones. -/
def nextPlaces (alphabet : Alphabet) (symbols : Nat) : Table (gzMaxBits + 1) := fun len =>
  firstPlace alphabet.lengths alphabet.count len.val + codesAt alphabet.lengths symbols len.val

/-- The first symbols stand in the order of their codes. -/
def Placed (alphabet : Alphabet) (symbols : Nat) (symbol : Table gzMaxLitCodes) : Prop :=
  ∀ length place value : Nat, length ≠ 0 →
    (symbolsOf alphabet.lengths symbols length)[place]? = some value →
      symbol.get? (firstPlace alphabet.lengths alphabet.count length + place) = some value

/-- A table that decodes the symbols of the alphabet. -/
structure Represents (h : GzHuff) (alphabet : Alphabet) : Prop where
  fits : Fits alphabet.lengths alphabet.count gzMaxBits
  count : h.count = counts alphabet alphabet.count
  symbol : Placed alphabet alphabet.count h.symbol

section Construction

variable {alphabet : Alphabet} {size start : Nat} {length : Table size}

theorem counts_get? (symbols : Nat) {index : Int} {len : Nat} (same : index = len)
    (inside : len ≤ gzMaxBits) : (counts alphabet symbols).get? index =
      some (symbolsOf alphabet.lengths symbols len).length :=
  Table.get?_eq _ same (Nat.lt_succ_of_le inside)

theorem counts_succ {symbol : Nat} (inside : alphabet.lengths symbol < gzMaxBits + 1) :
    Function.update (counts alphabet symbol) ⟨alphabet.lengths symbol, inside⟩
      ((symbolsOf alphabet.lengths symbol (alphabet.lengths symbol)).length + 1) =
        counts alphabet (symbol + 1) := by
  funext len
  rw [counts, symbolsOf_succ, List.length_append]
  by_cases own : len = ⟨alphabet.lengths symbol, inside⟩
  · rw [own, Function.update_self, if_pos rfl]
    rfl
  · have other : alphabet.lengths symbol ≠ len.val := fun same => own (Fin.ext same.symm)
    rw [Function.update_of_ne own, if_neg other]
    rfl

theorem gzCount_eq (described : Describes alphabet length start) {symbols : Nat}
    (inside : symbols ≤ alphabet.count) :
    gzCount length start symbols = some (counts alphabet symbols) := by
  induction symbols with
  | zero => rfl
  | succ symbol ih =>
    have short := described.short symbol inside
    rw [gzCount, ih (Nat.le_of_succ_le inside), Option.bind_some,
      described.entry symbol inside, Option.bind_some, counts_get? symbol rfl short,
      Option.bind_some, Table.set?_eq _ _ (Nat.lt_succ_of_le short), counts_succ]

theorem gzLeft_room {len : Nat} (inside : len ≤ gzMaxBits) :
    ∃ left, gzLeft (counts alphabet alphabet.count) len = some left ∧
      ((∀ shorter < len + 1, 0 ≤ room alphabet.lengths alphabet.count shorter) ∧
          left = room alphabet.lengths alphabet.count len ∨
        left < 0 ∧ ∃ shorter < len + 1, room alphabet.lengths alphabet.count shorter < 0) := by
  induction len with
  | zero =>
    refine ⟨1, rfl, Or.inl ⟨?_, rfl⟩⟩
    intro shorter less
    rw [Nat.lt_one_iff.mp less]
    exact Int.one_nonneg
  | succ len ih =>
    obtain ⟨left, before, result⟩ := ih (Nat.le_of_succ_le inside)
    rw [gzLeft, before, Option.bind_some]
    rcases result with ⟨free, same⟩ | ⟨negative, shorter, less, over_⟩
    · have next : room alphabet.lengths alphabet.count (len + 1) =
          2 * left - (symbolsOf alphabet.lengths alphabet.count (len + 1)).length := by
        rw [room, same, codesAt, if_neg len.succ_ne_zero]
      have current := free len (Nat.lt_succ_self len)
      rw [if_neg (by omega), counts_get? _ (Nat.cast_succ len).symm inside, Option.map_some, ← next]
      refine ⟨_, rfl, ?_⟩
      by_cases enough : 0 ≤ room alphabet.lengths alphabet.count (len + 1)
      · refine Or.inl ⟨?_, rfl⟩
        intro shorter less
        rcases Nat.lt_succ_iff_lt_or_eq.mp less with earlier | rfl
        · exact free shorter earlier
        · exact enough
      · exact Or.inr ⟨Int.not_le.mp enough, len + 1, Nat.lt_succ_self _, Int.not_le.mp enough⟩
    · rw [if_pos negative]
      exact ⟨left, rfl, Or.inr ⟨negative, shorter, Nat.lt_succ_of_lt less, over_⟩⟩

theorem offsets_succ {len : Nat} (inside : len + 2 < gzMaxBits + 1) :
    Function.update (offsets alphabet len) ⟨len + 2, inside⟩
      (firstPlace alphabet.lengths alphabet.count (len + 1) +
        (symbolsOf alphabet.lengths alphabet.count (len + 1)).length) =
          offsets alphabet (len + 1) := by
  funext place
  by_cases own : place = ⟨len + 2, inside⟩
  · have next : firstPlace alphabet.lengths alphabet.count (len + 2) =
        firstPlace alphabet.lengths alphabet.count (len + 1) +
          codesAt alphabet.lengths alphabet.count (len + 1) := rfl
    rw [own, Function.update_self, offsets, if_pos (Nat.le_refl _), next, codesAt,
      if_neg len.succ_ne_zero]
  · have other : place.val ≠ len + 2 := fun same => own (Fin.ext same)
    rw [Function.update_of_ne own, offsets, offsets]
    by_cases earlier : place.val ≤ len + 1
    · rw [if_pos earlier, if_pos (Nat.le_succ_of_le earlier)]
    · rw [if_neg earlier, if_neg (by omega)]

theorem offsets_zero :
    Table.set? (fun _ => 0) 1 0 = some (offsets alphabet 0) := by
  rw [Table.set?_eq _ _ (by decide)]
  congr 1
  funext len
  rw [Function.update_eq_self, offsets]
  split_ifs with short
  · rcases Nat.le_one_iff_eq_zero_or_eq_one.mp short with zero | one
    · rw [zero]
      rfl
    · rw [one]
      rfl
  · rfl

theorem gzOffsets_eq {len : Nat} (inside : len < gzMaxBits) :
    gzOffsets (counts alphabet alphabet.count) len = some (offsets alphabet len) := by
  induction len with
  | zero => exact offsets_zero
  | succ len ih =>
    have place : len + 1 ≤ gzMaxBits := Nat.le_of_lt inside
    rw [gzOffsets, ih (Nat.lt_of_succ_lt inside), Option.bind_some,
      Table.get?_eq _ (Nat.cast_succ len).symm (Nat.lt_succ_of_le place), Option.bind_some,
      counts_get? _ (Nat.cast_succ len).symm place, Option.bind_some,
      Table.set?_eq _ _ (Nat.succ_lt_succ inside), offsets, if_pos (Nat.le_refl _), offsets_succ]

theorem offsets_nextPlaces : offsets alphabet (gzMaxBits - 1) = nextPlaces alphabet 0 := by
  funext len
  have none_ : codesAt alphabet.lengths 0 len.val = 0 := by
    rw [codesAt]
    split_ifs <;> rfl
  have short : len.val ≤ gzMaxBits - 1 + 1 := Nat.lt_succ_iff.mp len.isLt
  rw [offsets, if_pos short, nextPlaces, none_]
  rfl

theorem codesAt_succ {symbol len : Nat} (some_ : len ≠ 0) :
    codesAt alphabet.lengths (symbol + 1) len =
      codesAt alphabet.lengths symbol len + if alphabet.lengths symbol = len then 1 else 0 := by
  rw [codesAt, codesAt, if_neg some_, if_neg some_, symbolsOf_succ, List.length_append]
  split_ifs <;> rfl

theorem nextPlaces_succ {symbol : Nat} (inside : alphabet.lengths symbol < gzMaxBits + 1)
    (coded : alphabet.lengths symbol ≠ 0) :
    Function.update (nextPlaces alphabet symbol) ⟨alphabet.lengths symbol, inside⟩
      (firstPlace alphabet.lengths alphabet.count (alphabet.lengths symbol) +
        codesAt alphabet.lengths symbol (alphabet.lengths symbol) + 1) =
          nextPlaces alphabet (symbol + 1) := by
  funext len
  by_cases own : len = ⟨alphabet.lengths symbol, inside⟩
  · rw [own, Function.update_self, nextPlaces, codesAt_succ coded, if_pos rfl, Nat.add_assoc]
  · have other : alphabet.lengths symbol ≠ len.val := fun same => own (Fin.ext same.symm)
    rw [Function.update_of_ne own, nextPlaces, nextPlaces]
    by_cases none_ : len.val = 0
    · rw [none_]
      rfl
    · rw [codesAt_succ none_, if_neg other]
      rfl

theorem nextPlaces_uncoded {symbol : Nat} (uncoded : alphabet.lengths symbol = 0) :
    nextPlaces alphabet (symbol + 1) = nextPlaces alphabet symbol := by
  funext len
  rw [nextPlaces, nextPlaces]
  by_cases none_ : len.val = 0
  · rw [none_]
    rfl
  · rw [codesAt_succ none_, uncoded, if_neg (Ne.symm none_)]
    rfl

/-- The place of the next symbol comes before those of the longer codes. -/
theorem place_lt {symbol : Nat} (inside : symbol < alphabet.count)
    (coded : alphabet.lengths symbol ≠ 0) :
    firstPlace alphabet.lengths alphabet.count (alphabet.lengths symbol) +
        codesAt alphabet.lengths symbol (alphabet.lengths symbol) <
      firstPlace alphabet.lengths alphabet.count (alphabet.lengths symbol + 1) := by
  have later := @codesAt_mono alphabet.lengths _ (alphabet.lengths symbol) _
      (Nat.succ_le_of_lt inside)
  rw [codesAt_succ coded, if_pos rfl] at later
  rw [firstPlace]
  omega

theorem Placed.uncoded {symbol : Nat} {table : Table gzMaxLitCodes}
    (placed : Placed alphabet symbol table) (uncoded : alphabet.lengths symbol = 0) :
    Placed alphabet (symbol + 1) table := by
  intro length place value some_ here
  rw [symbolsOf_succ, uncoded, if_neg (Ne.symm some_), List.append_nil] at here
  exact placed length place value some_ here

theorem Placed.put {symbol : Nat} {table : Table gzMaxLitCodes}
    (placed : Placed alphabet symbol table) (inside : symbol < alphabet.count)
    (coded : alphabet.lengths symbol ≠ 0) {place : Nat} (room_ : place < gzMaxLitCodes)
    (here : place = firstPlace alphabet.lengths alphabet.count (alphabet.lengths symbol) +
      codesAt alphabet.lengths symbol (alphabet.lengths symbol)) :
    Placed alphabet (symbol + 1) (Function.update table ⟨place, room_⟩ symbol) := by
  have limit := place_lt inside coded
  rw [← here] at limit
  intro length rank value some_ found
  have earlier (before : (symbolsOf alphabet.lengths symbol length)[rank]? = some value)
      (apart : firstPlace alphabet.lengths alphabet.count length + rank ≠ place) :
      Table.get? (Function.update table ⟨place, room_⟩ symbol)
        (firstPlace alphabet.lengths alphabet.count length + rank) = some value := by
    have old := placed length rank value some_ before
    rw [Table.get?] at old ⊢
    split_ifs at old ⊢ with bound
    rw [Function.update_of_ne]
    · exact old
    · intro same
      have position := congrArg Fin.val same
      dsimp only at position
      omega
  rw [symbolsOf_succ] at found
  by_cases own : alphabet.lengths symbol = length
  · subst own
    rw [if_pos rfl] at found
    have ranks : codesAt alphabet.lengths symbol (alphabet.lengths symbol) =
        (symbolsOf alphabet.lengths symbol (alphabet.lengths symbol)).length := if_neg coded
    rcases Nat.lt_or_ge rank
      (symbolsOf alphabet.lengths symbol (alphabet.lengths symbol)).length with less | more
    · rw [List.getElem?_append_left less] at found
      exact earlier found (by omega)
    · rw [List.getElem?_append_right more, List.getElem?_singleton] at found
      split_ifs at found with last
      have same : firstPlace alphabet.lengths alphabet.count (alphabet.lengths symbol) + rank =
          place := by omega
      rw [@Table.get?_eq _ _ _ place (by rw [← same, Nat.cast_add]) room_,
        Function.update_self]
      exact found
  · rw [if_neg own, List.append_nil] at found
    refine earlier found ?_
    have ranks := (List.getElem?_eq_some_iff.mp found).1
    have more := @symbolsOf_length_mono alphabet.lengths _ length _ (Nat.le_of_lt inside)
    have codes : codesAt alphabet.lengths alphabet.count length =
        (symbolsOf alphabet.lengths alphabet.count length).length := if_neg some_
    rcases Nat.lt_or_gt_of_ne own with shorter | longer
    · have after := @firstPlace_add_le alphabet.lengths alphabet.count _ _ shorter
      have next : firstPlace alphabet.lengths alphabet.count (alphabet.lengths symbol + 1) ≤
          firstPlace alphabet.lengths alphabet.count length := after
      omega
    · have before := @firstPlace_add_le alphabet.lengths alphabet.count _ _ longer
      omega

theorem gzPlace_placed (described : Describes alphabet length start)
    (small : alphabet.count ≤ gzMaxLitCodes) (symbol : Table gzMaxLitCodes) {symbols : Nat}
    (inside : symbols ≤ alphabet.count) :
    ∃ table, gzPlace length start (nextPlaces alphabet 0) symbol symbols =
        some (nextPlaces alphabet symbols, table) ∧ Placed alphabet symbols table := by
  induction symbols with
  | zero =>
    refine ⟨symbol, rfl, ?_⟩
    intro length place value _ here
    cases here
  | succ next ih =>
    obtain ⟨table, before, placed⟩ := ih (Nat.le_of_succ_le inside)
    have short := Nat.lt_succ_of_le (described.short next inside)
    rw [gzPlace, before, Option.bind_some, described.entry next inside, Option.bind_some]
    by_cases uncoded : alphabet.lengths next = 0
    · rw [if_pos uncoded, nextPlaces_uncoded uncoded]
      exact ⟨table, rfl, placed.uncoded uncoded⟩
    · have limit := place_lt inside uncoded
      have total := @firstPlace_le_count alphabet.lengths alphabet.count
          (alphabet.lengths next + 1)
      have room_ := (limit.trans_le total).trans_le small
      rw [if_neg uncoded, Table.get?_eq _ rfl short, Option.bind_some]
      change ∃ result, ((table.set? (_ + _) next).bind fun symbol =>
        ((nextPlaces alphabet next).set? (alphabet.lengths next) (_ + _ + 1)).map
          fun offs => (offs, symbol)) = _ ∧ _
      rw [Table.set?_eq _ _ room_, Option.bind_some, Table.set?_eq _ _ short, Option.map_some,
        nextPlaces_succ short uncoded]
      exact ⟨_, rfl, placed.put inside uncoded room_ rfl⟩

/-- An alphabet without codes has room everywhere. -/
theorem unused_of_uncoded
    (uncoded : (symbolsOf alphabet.lengths alphabet.count 0).length = alphabet.count)
    (longest : Nat) : codesAt alphabet.lengths alphabet.count longest = 0 := by
  have places := @firstPlace_succ_add alphabet.lengths alphabet.count longest
  have symbols := List.length_filter_le
    (fun symbol => decide (alphabet.lengths symbol < longest + 1)) (List.range alphabet.count)
  rw [List.length_range] at symbols
  rw [firstPlace] at places
  omega

theorem fits_of_allowed (described : Describes alphabet length start) (allowed : alphabet.Allowed) :
    Fits alphabet.lengths alphabet.count gzMaxBits :=
  ⟨fun length inside => allowed length (Nat.lt_succ_of_le inside), described.short⟩

/-- The table is right for an allowed alphabet, and the others are found. -/
theorem gzConstruct_table (described : Describes alphabet length start)
    (small : alphabet.count ≤ gzMaxLitCodes) (h : GzHuff) :
    ∃ table err, gzConstruct h length start alphabet.count = some (table, err) ∧
      table.count = counts alphabet alphabet.count ∧
        (err < 0 ∧ ¬alphabet.Allowed ∨
          alphabet.Allowed ∧ Represents table alphabet ∧
            (alphabet.coded = 0 ∧ err = 0 ∨
              alphabet.coded ≠ 0 ∧ err = room alphabet.lengths alphabet.count gzMaxBits)) := by
  have symbols := List.length_filter_le (fun symbol => decide (alphabet.lengths symbol = 0))
    (List.range alphabet.count)
  rw [List.length_range, ← symbolsOf] at symbols
  rw [gzConstruct, gzCount_eq described (Nat.le_refl _), Option.bind_some,
    counts_get? _ Nat.cast_zero.symm (Nat.zero_le _), Option.bind_some]
  by_cases uncoded : (symbolsOf alphabet.lengths alphabet.count 0).length = alphabet.count
  · have unused := unused_of_uncoded uncoded
    have allowed : alphabet.Allowed := fun length _ =>
      (room_unused fun shorter _ => unused shorter).le
    rw [if_pos uncoded]
    refine ⟨_, 0, rfl, rfl, Or.inr ⟨allowed, ⟨fits_of_allowed described allowed, rfl, ?_⟩,
      Or.inl ⟨by rw [Alphabet.coded]; omega, rfl⟩⟩⟩
    intro length place value some_ here
    have none_ := unused length
    rw [codesAt, if_neg some_, List.length_eq_zero_iff] at none_
    rw [none_] at here
    cases here
  · obtain ⟨left, left_, result⟩ := @gzLeft_room alphabet _ (Nat.le_refl gzMaxBits)
    rw [if_neg uncoded, left_, Option.bind_some]
    rcases result with ⟨allowed, same⟩ | ⟨negative, shorter, less, over_⟩
    · obtain ⟨table, places, placed⟩ := gzPlace_placed described small h.symbol (Nat.le_refl _)
      have free := allowed gzMaxBits (Nat.lt_succ_self _)
      rw [if_neg (by omega), gzOffsets_eq (by decide), Option.bind_some, offsets_nextPlaces,
        places, Option.map_some]
      exact ⟨_, left, rfl, rfl, Or.inr ⟨allowed, ⟨fits_of_allowed described allowed, rfl, placed⟩,
        Or.inr ⟨by rw [Alphabet.coded]; omega, same⟩⟩⟩
    · rw [if_pos negative]
      exact ⟨_, left, rfl, rfl, Or.inl ⟨negative, fun allowed =>
        absurd (allowed shorter less) (Int.not_le.mpr over_)⟩⟩

end Construction

section Decoding

variable {cap : Nat} {h : GzHuff} {alphabet : Alphabet} {bits : List Bool} {s : GzState}

theorem double_or (value : Nat) (bit : Bool) :
    2 * value ||| bit.toNat = 2 * value + bit.toNat := by
  have two : 2 * value = value <<< 1 := by rw [Nat.shiftLeft_eq, Nat.pow_one, Nat.mul_comm]
  rw [two, Nat.shiftLeft_add_eq_or_of_lt (Bool.toNat_lt bit)]

/-- A single bit is the next one, or no bit is left. -/
theorem gzBits_one (ready : s.Ready cap) :
    (∃ (next : GzState) (bit : Bool) (rest : List Bool), gzBits s 1 = some (next, (bit.toNat : Int)) ∧
      next.Ready cap ∧ next.out = s.out ∧ s.ahead = bit :: rest ∧ next.ahead = rest) ∨
    ∃ next, gzBits s 1 = some (next, -1) ∧ s.ahead = [] := by
  rcases ahead : s.ahead with _ | ⟨bit, rest⟩
  · rcases gzBits_yields ready 1 with ⟨_, _, _, _, _, value⟩ | ⟨next, result, _⟩
    · rw [ahead] at value
      cases value
    · exact Or.inr ⟨next, result, rfl⟩
  · have first := takeNumber_one bit rest
    rcases gzBits_yields ready 1 with ⟨next, number, result, ready_, out, value⟩ | ⟨_, _, value⟩
    · rw [ahead, first, Option.some.injEq, Prod.mk.injEq] at value
      rw [← value.1] at result
      exact Or.inl ⟨next, bit, rest, result, ready_, out, rfl, value.2.symm⟩
    · rw [ahead, first] at value
      cases value

/-- The lengths that were tried had no code for the bits. -/
theorem gzDecodeFrom_yields (represents : Represents h alphabet) (ready : s.Ready cap)
    {more taken : Nat} (steps : taken + more = gzMaxBits) (ahead : s.ahead = bits.drop taken)
    (above : ∀ length ≤ taken, ¬Below alphabet.lengths alphabet.count bits length) :
    Yields cap s
      (gzDecodeFrom h more s (2 * valueOf (bits.take taken))
        (firstCode alphabet.lengths alphabet.count (taken + 1))
        (firstPlace alphabet.lengths alphabet.count (taken + 1))) (alphabet.decode bits) := by
  induction more generalizing s taken with
  | zero =>
    refine Or.inr ⟨s, rfl, decodeSymbol_none represents.fits ?_⟩
    intro length inside _ _
    exact above length (by omega)
  | succ more ih =>
    rw [gzDecodeFrom]
    rcases gzBits_one ready with ⟨next, bit, rest, result, ready_, out, front, behind⟩ |
      ⟨next, result, none_⟩
    · rw [front] at ahead
      have inside : taken < bits.length := by
        by_contra outside
        rw [List.drop_eq_nil_of_le (Nat.not_lt.mp outside)] at ahead
        cases ahead
      rw [List.drop_eq_getElem_cons inside, List.cons.injEq] at ahead
      have value := valueOf_take_succ inside
      have length : gzMaxBits - more = taken + 1 := by omega
      rw [← ahead.1] at value
      have nonnegative : ¬(bit.toNat : Int) < 0 := Int.not_lt.mpr (Int.natCast_nonneg _)
      have codes : codesAt alphabet.lengths alphabet.count (taken + 1) =
          (symbolsOf alphabet.lengths alphabet.count (taken + 1)).length :=
        if_neg taken.succ_ne_zero
      rw [result, Option.bind_some]
      dsimp only
      rw [if_neg nonnegative, Int.toNat_natCast, double_or, ← value, represents.count, length,
        counts_get? _ rfl (by omega), Option.bind_some]
      by_cases below : Below alphabet.lengths alphabet.count bits (taken + 1)
      · obtain ⟨low, symbol, here, decoded⟩ := decodeSymbol_some represents.fits
          taken.succ_ne_zero inside below fun shorter less =>
            above shorter (Nat.lt_succ_iff.mp less)
        rw [Below, codes] at below
        have place : (firstPlace alphabet.lengths alphabet.count (taken + 1) : Int) +
            (valueOf (bits.take (taken + 1)) -
              firstCode alphabet.lengths alphabet.count (taken + 1)) =
            firstPlace alphabet.lengths alphabet.count (taken + 1) +
              (valueOf (bits.take (taken + 1)) -
                firstCode alphabet.lengths alphabet.count (taken + 1) : Nat) := by
          rw [Nat.cast_sub low]
        rw [if_pos (by omega), place,
          represents.symbol (taken + 1) _ symbol taken.succ_ne_zero here, Option.map_some]
        refine Or.inl ⟨next, symbol, rfl, ready_, out, ?_⟩
        rw [behind, ahead.2]
        exact decoded
      · have above_ : ∀ length ≤ taken + 1,
            ¬Below alphabet.lengths alphabet.count bits length := by
          intro length less
          rcases Nat.le_succ_iff.mp less with earlier | rfl
          · exact above length earlier
          · exact below
        rw [Below, codes] at below
        rw [if_neg (by omega), ← codes, ← firstPlace, Nat.shiftLeft_eq, Nat.shiftLeft_eq,
          Nat.pow_one, Nat.mul_comm, Nat.mul_comm _ 2, ← firstCode]
        have later := ih (s := next) ready_ (by omega) (behind.trans ahead.2)
          above_
        rw [Yields, out] at later
        exact later
    · rw [none_] at ahead
      have finished : bits.length ≤ taken := List.drop_eq_nil_iff.mp ahead.symm
      rw [result, Option.bind_some]
      refine Or.inr ⟨next, rfl, decodeSymbol_none represents.fits ?_⟩
      intro length _ _ short
      exact above length (short.trans finished)

/-- The next symbol is decoded as the format says. -/
theorem gzDecode_yields (represents : Represents h alphabet) (ready : s.Ready cap) :
    Yields cap s (gzDecode s h) (alphabet.decode s.ahead) := by
  refine @gzDecodeFrom_yields _ _ _ _ _ represents ready _ 0 rfl rfl ?_
  intro length none_ below
  rw [Nat.le_zero.mp none_] at below
  exact absurd below (Nat.lt_irrefl 0)

end Decoding

end Nd100x.Gunzip
