import Nd100x.Library.BitStream
import Mathlib.Data.List.Nodup
import Mathlib.Data.List.Range

namespace Nd100x.Library

section Code

variable (lengths : Nat → Nat) (count : Nat)

/-- The symbols below the count have code lengths, and a symbol with length zero has no code. -/
def symbolsOf (length : Nat) : List Nat :=
  (List.range count).filter fun symbol => decide (lengths symbol = length)

def codesAt (length : Nat) : Nat := if length = 0 then 0 else (symbolsOf lengths count length).length

/-- The codes of a length come after those of the shorter lengths. -/
def firstCode : Nat → Nat
  | 0 => 0
  | length + 1 => 2 * (firstCode length + codesAt lengths count length)

/-- The symbols are sorted by the lengths of their codes. -/
def firstPlace : Nat → Nat
  | 0 => 0
  | length + 1 => firstPlace length + codesAt lengths count length

/-- These codes of a length are not used, and no shorter code is in front of them. -/
def room : Nat → Int
  | 0 => 1
  | length + 1 => 2 * room length - codesAt lengths count (length + 1)

def rankOf (symbol : Nat) : Nat :=
  ((List.range symbol).filter fun other => decide (lengths other = lengths symbol)).length

/-- The codes of a length are given in the order of the symbols. -/
def codeword (symbol : Nat) : List Bool :=
  (natBits (lengths symbol) (firstCode lengths count (lengths symbol) + rankOf lengths symbol)).reverse

/-- The symbol is the one whose code comes first in the bits. -/
def decodeSymbol (bits : List Bool) : Option (Nat × List Bool) :=
  ((List.range count).find? fun symbol =>
    decide (lengths symbol ≠ 0) && (codeword lengths count symbol).isPrefixOf bits).map
      fun symbol => (symbol, bits.drop (lengths symbol))

/-- No length has more codes than it has room for. -/
structure Fits (longest : Nat) : Prop where
  room : ∀ length ≤ longest, 0 ≤ room lengths count length
  short : ∀ symbol < count, lengths symbol ≤ longest

variable {lengths count} {longest : Nat}

theorem codes_and_room (length : Nat) :
    ((firstCode lengths count length + codesAt lengths count length : Nat) : Int) +
      room lengths count length = 2 ^ length := by
  induction length with
  | zero => rfl
  | succ length ih =>
    rw [firstCode, room, pow_succ, ← ih]
    push_cast
    ring

theorem Fits.codes (fits : Fits lengths count longest) {length : Nat} (inside : length ≤ longest) :
    firstCode lengths count length + codesAt lengths count length ≤ 2 ^ length := by
  have whole := @codes_and_room lengths count length
  have free := fits.room length inside
  have power : ((2 ^ length : Nat) : Int) = 2 ^ length := by norm_cast
  omega

theorem symbolsOf_split {symbol : Nat} (inside : symbol < count) :
    ∃ later, symbolsOf lengths count (lengths symbol) =
      (List.range symbol).filter (fun other => decide (lengths other = lengths symbol)) ++
        symbol :: later := by
  obtain ⟨more, rfl⟩ := Nat.exists_eq_add_of_lt inside
  refine ⟨((List.range more).map (symbol + 1 + ·)).filter
    fun other => decide (lengths other = lengths symbol), ?_⟩
  rw [symbolsOf, Nat.add_assoc, Nat.add_comm more 1, ← Nat.add_assoc, List.range_add,
    List.filter_append, List.range_succ, List.filter_append]
  have own : [symbol].filter (fun other => decide (lengths other = lengths symbol)) = [symbol] :=
    List.filter_cons_of_pos (decide_eq_true rfl)
  rw [own, List.append_assoc]
  rfl

theorem symbolsOf_rank {symbol : Nat} (inside : symbol < count) :
    (symbolsOf lengths count (lengths symbol))[rankOf lengths symbol]? = some symbol := by
  obtain ⟨later, split⟩ := @symbolsOf_split lengths _ _ inside
  rw [split, rankOf, List.getElem?_append_right (Nat.le_refl _), Nat.sub_self]
  rfl

theorem mem_symbolsOf {symbol length : Nat} :
    symbol ∈ symbolsOf lengths count length ↔ symbol < count ∧ lengths symbol = length := by
  rw [symbolsOf, List.mem_filter, List.mem_range, decide_eq_true_eq]

theorem symbolsOf_nodup (length : Nat) : (symbolsOf lengths count length).Nodup :=
  List.nodup_range.filter _

theorem symbolsOf_succ (lengths : Nat → Nat) (count length : Nat) :
    symbolsOf lengths (count + 1) length =
      symbolsOf lengths count length ++ if lengths count = length then [count] else [] := by
  rw [symbolsOf, List.range_succ, List.filter_append, List.filter_singleton, symbolsOf]
  split_ifs with own
  · rw [decide_eq_true own]
    rfl
  · rw [decide_eq_false own]
    rfl

theorem symbolsOf_length_mono (length : Nat) {fewer : Nat} (less : fewer ≤ count) :
    (symbolsOf lengths fewer length).length ≤ (symbolsOf lengths count length).length := by
  induction count, less using Nat.le_induction with
  | base => exact Nat.le_refl _
  | succ more _ ih =>
    rw [symbolsOf_succ, List.length_append]
    exact Nat.le_add_right_of_le ih

theorem codesAt_mono (length : Nat) {fewer : Nat} (less : fewer ≤ count) :
    codesAt lengths fewer length ≤ codesAt lengths count length := by
  rw [codesAt, codesAt]
  split_ifs with none_
  · exact Nat.le_refl 0
  · exact symbolsOf_length_mono length less

theorem filter_lt_succ (lengths : Nat → Nat) (longest : Nat) (symbols : List Nat) :
    (symbols.filter fun symbol => decide (lengths symbol < longest + 1)).length =
      (symbols.filter fun symbol => decide (lengths symbol < longest)).length +
        (symbols.filter fun symbol => decide (lengths symbol = longest)).length := by
  induction symbols with
  | nil => rfl
  | cons symbol symbols ih =>
    simp only [List.filter_cons, decide_eq_true_eq]
    split_ifs <;> grind

/-- The places and the symbols without a code are as many as the shorter symbols. -/
theorem firstPlace_succ_add (length : Nat) :
    firstPlace lengths count (length + 1) + (symbolsOf lengths count 0).length =
      ((List.range count).filter fun symbol => decide (lengths symbol < length + 1)).length := by
  induction length with
  | zero =>
    have none_ : firstPlace lengths count 1 = 0 := rfl
    rw [none_, Nat.zero_add, filter_lt_succ, symbolsOf]
    have shorter : (List.range count).filter (fun symbol => decide (lengths symbol < 0)) = [] := by
      rw [List.filter_eq_nil_iff]
      intro symbol _
      rw [decide_eq_true_eq]
      exact Nat.not_lt_zero _
    rw [shorter, List.length_nil, Nat.zero_add]
  | succ length ih =>
    rw [firstPlace, filter_lt_succ, ← ih, codesAt, if_neg length.succ_ne_zero,
      symbolsOf, symbolsOf]
    omega

theorem firstPlace_le_count (length : Nat) : firstPlace lengths count length ≤ count := by
  cases length with
  | zero => exact Nat.zero_le _
  | succ length =>
    have places := @firstPlace_succ_add lengths count length
    have symbols := List.length_filter_le (fun symbol => decide (lengths symbol < length + 1))
      (List.range count)
    rw [List.length_range] at symbols
    omega

/-- The places of a length end before those of the longer ones. -/
theorem firstPlace_add_le {shorter length : Nat} (less : shorter < length) :
    firstPlace lengths count shorter + codesAt lengths count shorter ≤
      firstPlace lengths count length := by
  induction length, less using Nat.le_induction with
  | base => exact Nat.le_refl _
  | succ length _ ih =>
    rw [firstPlace]
    exact Nat.le_add_right_of_le ih

theorem room_unused {length : Nat} (unused : ∀ shorter ≤ length, codesAt lengths count shorter = 0) :
    0 < room lengths count length := by
  induction length with
  | zero => exact Int.one_pos
  | succ length ih =>
    have before := ih fun shorter less => unused shorter (less.trans length.le_succ)
    rw [room, unused _ (Nat.le_refl _)]
    omega

/-- The rank is the place among the symbols of the same length. -/
theorem rankOf_unique {symbol length place : Nat}
    (here : (symbolsOf lengths count length)[place]? = some symbol) :
    rankOf lengths symbol = place := by
  obtain ⟨inside, same⟩ := mem_symbolsOf.mp (List.mem_of_getElem? here)
  subst same
  have ranked := @symbolsOf_rank lengths _ _ inside
  obtain ⟨first, first_⟩ := List.getElem?_eq_some_iff.mp here
  obtain ⟨second, second_⟩ := List.getElem?_eq_some_iff.mp ranked
  exact (symbolsOf_nodup _).getElem_inj_iff.mp (second_.trans first_.symm)

theorem rankOf_lt {symbol : Nat} (inside : symbol < count) (coded : lengths symbol ≠ 0) :
    rankOf lengths symbol < codesAt lengths count (lengths symbol) := by
  rw [codesAt, if_neg coded]
  exact (List.getElem?_eq_some_iff.mp (symbolsOf_rank inside)).1

@[simp] theorem codeword_length (symbol : Nat) :
    (codeword lengths count symbol).length = lengths symbol := by
  rw [codeword, List.length_reverse, natBits_length]

theorem valueOf_codeword (fits : Fits lengths count longest) {symbol : Nat}
    (inside : symbol < count) (coded : lengths symbol ≠ 0) :
    valueOf (codeword lengths count symbol) =
      firstCode lengths count (lengths symbol) + rankOf lengths symbol := by
  have codes := fits.codes (fits.short symbol inside)
  have rank := rankOf_lt inside coded
  rw [codeword, valueOf_reverse, number_natBits, Nat.mod_eq_of_lt (by omega)]

/-- A code comes first when its bits have its value. -/
theorem codeword_leads (fits : Fits lengths count longest) {symbol : Nat}
    (inside : symbol < count) (coded : lengths symbol ≠ 0) {bits : List Bool} :
    codeword lengths count symbol <+: bits ↔ lengths symbol ≤ bits.length ∧
      valueOf (bits.take (lengths symbol)) =
        firstCode lengths count (lengths symbol) + rankOf lengths symbol := by
  rw [← valueOf_codeword fits inside coded, List.prefix_iff_eq_take, codeword_length]
  constructor
  · intro same
    have length := congrArg List.length same
    rw [codeword_length, List.length_take] at length
    exact ⟨by omega, congrArg valueOf same.symm⟩
  · rintro ⟨short, value⟩
    refine valueOf_injective ?_ value.symm
    rw [codeword_length, List.length_take]
    omega

/-- The bits are in front of the codes that are longer than this. -/
def Below (lengths : Nat → Nat) (count : Nat) (bits : List Bool) (length : Nat) : Prop :=
  valueOf (bits.take length) < firstCode lengths count length + codesAt lengths count length

theorem valueOf_take_succ {bits : List Bool} {length : Nat} (inside : length < bits.length) :
    valueOf (bits.take (length + 1)) = 2 * valueOf (bits.take length) + bits[length].toNat := by
  rw [List.take_add_one, List.getElem?_eq_getElem inside]
  exact valueOf_append_bit _ _

/-- Bits that are not below the codes of a length are not in front of those of the next one. -/
theorem firstCode_le_next {bits : List Bool} {length : Nat} (inside : length < bits.length)
    (above : ¬Below lengths count bits length) :
    firstCode lengths count (length + 1) ≤ valueOf (bits.take (length + 1)) := by
  rw [Below, Nat.not_lt] at above
  rw [valueOf_take_succ inside, firstCode]
  omega

theorem next_lt_firstCode {bits : List Bool} {length : Nat} (inside : length < bits.length)
    (below : Below lengths count bits length) :
    valueOf (bits.take (length + 1)) < firstCode lengths count (length + 1) := by
  rw [Below] at below
  have small : bits[length].toNat ≤ 1 := Bool.toNat_le _
  rw [valueOf_take_succ inside, firstCode]
  omega

/-- The bits stay in front of the longer codes. -/
theorem later_lt_firstCode {bits : List Bool} {length : Nat}
    (below : Below lengths count bits length) (more : Nat) (inside : length + more < bits.length) :
    valueOf (bits.take (length + more + 1)) < firstCode lengths count (length + more + 1) := by
  induction more with
  | zero => exact next_lt_firstCode inside below
  | succ more ih =>
    have before := ih (by omega)
    exact next_lt_firstCode inside (Nat.lt_add_right _ before)

/-- A symbol whose code comes first has the only length that is below its codes for the first
time. -/
theorem prefix_below (fits : Fits lengths count longest) {bits : List Bool} {symbol : Nat}
    (inside : symbol < count) (coded : lengths symbol ≠ 0)
    (first : codeword lengths count symbol <+: bits) :
    lengths symbol ≤ bits.length ∧ Below lengths count bits (lengths symbol) ∧
      firstCode lengths count (lengths symbol) ≤ valueOf (bits.take (lengths symbol)) := by
  obtain ⟨short, value⟩ := (codeword_leads fits inside coded).mp first
  have rank := rankOf_lt inside coded
  exact ⟨short, by rw [Below]; omega, by omega⟩

theorem decodeSymbol_none (fits : Fits lengths count longest) {bits : List Bool}
    (above : ∀ length ≤ longest, length ≠ 0 → length ≤ bits.length →
      ¬Below lengths count bits length) : decodeSymbol lengths count bits = none := by
  rw [decodeSymbol, Option.map_eq_none_iff, List.find?_eq_none]
  intro symbol member first
  rw [Bool.and_eq_true, decide_eq_true_eq, List.isPrefixOf_iff_prefix] at first
  have inside := List.mem_range.mp member
  obtain ⟨short, below, -⟩ := prefix_below fits inside first.1 first.2
  exact above _ (fits.short symbol inside) first.1 short below

/-- The shortest length that the bits are below tells the symbol. -/
theorem decodeSymbol_some (fits : Fits lengths count longest) {bits : List Bool} {length : Nat}
    (some_ : length ≠ 0) (short : length ≤ bits.length)
    (below : Below lengths count bits length)
    (above : ∀ shorter < length, ¬Below lengths count bits shorter) :
    firstCode lengths count length ≤ valueOf (bits.take length) ∧
      ∃ symbol, (symbolsOf lengths count length)[valueOf (bits.take length) -
          firstCode lengths count length]? = some symbol ∧
        decodeSymbol lengths count bits = some (symbol, bits.drop length) := by
  have low : firstCode lengths count length ≤ valueOf (bits.take length) := by
    obtain ⟨shorter, rfl⟩ := Nat.exists_eq_succ_of_ne_zero some_
    exact firstCode_le_next short (above shorter (Nat.lt_succ_self _))
  have place : valueOf (bits.take length) - firstCode lengths count length <
      (symbolsOf lengths count length).length := by
    rw [Below, codesAt, if_neg some_] at below
    omega
  have here := List.getElem?_eq_getElem place
  generalize (symbolsOf lengths count length)[valueOf (bits.take length) -
    firstCode lengths count length] = symbol at here
  obtain ⟨inside, same⟩ := mem_symbolsOf.mp (List.mem_of_getElem? here)
  refine ⟨low, symbol, here, ?_⟩
  have coded : lengths symbol ≠ 0 := same.symm ▸ some_
  have first : codeword lengths count symbol <+: bits := by
    refine (codeword_leads fits inside coded).mpr ?_
    rw [rankOf_unique here, same]
    omega
  have unique (other : Nat) (inside_ : other < count) (coded_ : lengths other ≠ 0)
      (first_ : codeword lengths count other <+: bits) : other = symbol := by
    obtain ⟨short_, below_, low_⟩ := prefix_below fits inside_ coded_ first_
    have lengths_ : lengths other = length := by
      rcases Nat.lt_trichotomy (lengths other) length with less | equal | more
      · exact absurd below_ (above _ less)
      · exact equal
      · obtain ⟨more_, exceeds⟩ := Nat.exists_eq_add_of_lt more
        rw [exceeds] at low_ short_
        exact absurd low_ (Nat.not_le.mpr (later_lt_firstCode below more_ (by omega)))
    have value := ((codeword_leads fits inside_ coded_).mp first_).2
    have ranked := @symbolsOf_rank lengths _ _ inside_
    rw [lengths_] at value ranked
    have rank : rankOf lengths other = valueOf (bits.take length) -
        firstCode lengths count length := by omega
    rw [rank, here, Option.some.injEq] at ranked
    exact ranked.symm
  have found : (List.range count).find? (fun symbol =>
      decide (lengths symbol ≠ 0) && (codeword lengths count symbol).isPrefixOf bits) =
        some symbol := by
    rcases result : (List.range count).find? (fun symbol =>
      decide (lengths symbol ≠ 0) && (codeword lengths count symbol).isPrefixOf bits) with _ | other
    · have none_ := List.find?_eq_none.mp result symbol (List.mem_range.mpr inside)
      rw [Bool.and_eq_true, decide_eq_true_eq, List.isPrefixOf_iff_prefix] at none_
      exact absurd ⟨coded, first⟩ none_
    · have chosen := List.find?_some result
      rw [Bool.and_eq_true, decide_eq_true_eq, List.isPrefixOf_iff_prefix] at chosen
      rw [unique other (List.mem_range.mp (List.mem_of_find?_eq_some result)) chosen.1 chosen.2]
  rw [decodeSymbol, found, Option.map_some, same]

end Code

end Nd100x.Library
