import Mathlib.Data.List.Find
import Nd100x.Machine.MemoryBanks

namespace Nd100x

open Library

variable {Pointer : Type}

namespace MemoryBank

/-- The first word of a bank, and the first word behind it. -/
def first (bank : MemoryBank Pointer) : Nat := bank.startWord.toNat

def behind (bank : MemoryBank Pointer) : Nat := bank.startWord.toNat + bank.lengthWord.toNat

/-- No word belongs to both. -/
def Apart (one other : MemoryBank Pointer) : Prop :=
  one.behind ≤ other.first ∨ other.behind ≤ one.first

/-- The words of the other bank all belong to the bank. -/
def Covers (bank other : MemoryBank Pointer) : Prop :=
  bank.first ≤ other.first ∧ other.behind ≤ bank.behind

instance (one other : MemoryBank Pointer) : Decidable (Apart one other) :=
  inferInstanceAs (Decidable (_ ∨ _))

instance (bank other : MemoryBank Pointer) : Decidable (Covers bank other) :=
  inferInstanceAs (Decidable (_ ∧ _))

/-- The range is not empty and does not wrap. -/
def Proper (bank : MemoryBank Pointer) : Prop := 0 < bank.lengthWord.toNat ∧ bank.behind < 2 ^ 32

def Holds (address : BitVec 32) (bank : MemoryBank Pointer) : Prop :=
  bank.first ≤ address.toNat ∧ address.toNat < bank.behind

variable {bank other : MemoryBank Pointer}

theorem toNat_endWord (fits : bank.Proper) : bank.endWord.toNat = bank.behind := by
  rw [endWord, BitVec.toNat_add]
  exact Nat.mod_eq_of_lt fits.2

theorem Proper.some (fits : bank.Proper) : bank.first < bank.behind := by
  have length := fits.1
  rw [first, behind]
  omega

/-- The test in 32 bits finds the banks that are not apart. -/
theorem overlaps_iff (fits : bank.Proper) (enters : other.Proper) :
    bank.overlaps other.startWord other.endWord = true ↔ ¬ Apart other bank := by
  rw [overlaps, decide_eq_true_eq, BitVec.lt_def, BitVec.lt_def, toNat_endWord fits, toNat_endWord enters]
  change other.first < bank.behind ∧ bank.first < other.behind ↔ _
  rw [Apart]
  omega

variable {request : BankRequest Pointer}

theorem overlaps_request_iff (fits : bank.Proper) (enters : request.entry.Proper) :
    bank.overlaps request.startWord request.endWord = true ↔ ¬ Apart request.entry bank :=
  overlaps_iff fits enters

end MemoryBank

namespace BankTable

open MemoryBank

/-- The banks are not empty, do not wrap, do not overlap and have their slots. -/
structure WellFormed (table : BankTable Pointer) : Prop where
  fits : ∀ bank ∈ table, bank.Proper
  separate : Separate first behind table
  slots : table.length ≤ ndMemoryBankMax

variable {table other rest : BankTable Pointer} {bank : MemoryBank Pointer}
  {request : BankRequest Pointer}

/-- No bank holds a word of the range. -/
def Free (entry : MemoryBank Pointer) (table : BankTable Pointer) : Prop :=
  ∀ bank ∈ table, Apart entry bank

theorem WellFormed.perm (well : table.WellFormed) (same : table.Perm other) : other.WellFormed where
  fits bank member := well.fits bank (same.mem_iff.mpr member)
  separate := well.separate.perm same
  slots := same.length_eq ▸ well.slots

theorem refused_iff : (request.lengthWord = 0 ∨ request.endWord < request.startWord) ↔
    ¬ request.entry.Proper := by
  have start := request.startWord.isLt
  have length := request.lengthWord.isLt
  have zero : request.lengthWord = 0 ↔ request.lengthWord.toNat = 0 :=
    ⟨fun same => by rw [same]; rfl, fun same => BitVec.eq_of_toNat_eq same⟩
  rw [zero, BankRequest.endWord, BitVec.lt_def, BitVec.toNat_add]
  change _ ↔ ¬ (0 < request.lengthWord.toNat ∧ request.startWord.toNat + request.lengthWord.toNat < 2 ^ 32)
  omega

theorem any_overlaps_iff (fits : ∀ bank ∈ table, bank.Proper) (enters : request.entry.Proper) :
    table.any (MemoryBank.overlaps request.startWord request.endWord) = true ↔
      ¬ Free request.entry table := by
  rw [List.any_eq_true, Free]
  push Not
  constructor
  · rintro ⟨bank, member, meets⟩
    exact ⟨bank, member, (overlaps_request_iff (fits bank member) enters).mp meets⟩
  · rintro ⟨bank, member, meets⟩
    exact ⟨bank, member, (overlaps_request_iff (fits bank member) enters).mpr meets⟩

/-- A plain registration needs a free range and a free slot. -/
structure Accepts (request : BankRequest Pointer) (table : BankTable Pointer) : Prop where
  fits : request.entry.Proper
  free : Free request.entry table
  slot : table.length < ndMemoryBankMax

theorem registerBacked_accepted (fits : ∀ bank ∈ table, bank.Proper) (accepts : Accepts request table) :
    table.registerBacked request = (true, table ++ [request.entry]) := by
  have range := not_or.mp fun refused => refused_iff.mp refused accepts.fits
  rw [registerBacked, if_neg range.1, if_neg (Nat.not_le.mpr accepts.slot), if_neg range.2,
    if_neg fun meets => (any_overlaps_iff fits accepts.fits).mp meets accepts.free]

theorem registerBacked_refused (fits : ∀ bank ∈ table, bank.Proper) (refuses : ¬ Accepts request table) :
    table.registerBacked request = (false, table) := by
  rw [registerBacked]
  split
  · rfl
  · next some =>
      split
      · rfl
      · next slot =>
          split
          · rfl
          · next straight =>
              have enters : request.entry.Proper := by
                by_contra refused
                exact (refused_iff.mpr refused).elim some straight
              rw [if_pos ((any_overlaps_iff fits enters).mpr fun free =>
                refuses ⟨enters, free, Nat.lt_of_not_le slot⟩)]

/- The scan for the local bank under a window. -/

section Scan

variable {before : BankTable Pointer} {i : Nat} {hit : Option Nat}

theorem overLocalHit_append (fits : ∀ bank ∈ before, bank.Proper) (enters : request.entry.Proper)
    (free : Free request.entry before) :
    overLocalHit request.startWord request.endWord (before ++ rest) i hit =
      overLocalHit request.startWord request.endWord rest (i + before.length) hit := by
  induction before generalizing i with
  | nil => rfl
  | cons bank before ih =>
    have misses : ¬ bank.overlaps request.startWord request.endWord = true := by
      rw [overlaps_request_iff (fits bank List.mem_cons_self) enters, not_not]
      exact free bank List.mem_cons_self
    rw [List.cons_append, overLocalHit, if_neg misses,
      ih (fun other member => fits other (List.mem_cons_of_mem _ member))
        fun other member => free other (List.mem_cons_of_mem _ member),
      List.length_cons, Nat.add_assoc, Nat.add_comm 1]

theorem overLocalHit_free (fits : ∀ bank ∈ table, bank.Proper) (enters : request.entry.Proper)
    (free : Free request.entry table) :
    overLocalHit request.startWord request.endWord table i hit = some hit := by
  rw [← List.append_nil table, overLocalHit_append fits enters free]
  rfl

theorem overLocalHit_meets (fits : bank.Proper) (enters : request.entry.Proper)
    (meets : ¬ Apart request.entry bank) :
    overLocalHit request.startWord request.endWord (bank :: rest) i none =
      if bank.plain = true ∧ Covers bank request.entry then
        overLocalHit request.startWord request.endWord rest (i + 1) (some i)
      else none := by
  have outside : (request.startWord < bank.startWord ∨ bank.endWord < request.endWord) ↔
      ¬ Covers bank request.entry := by
    rw [BitVec.lt_def, BitVec.lt_def, toNat_endWord fits]
    change request.entry.first < bank.first ∨ bank.behind < request.entry.endWord.toNat ↔ _
    rw [toNat_endWord enters, Covers]
    omega
  have refuses : (Option.isSome (none : Option Nat) = true ∨ (!bank.plain) = true ∨
      request.startWord < bank.startWord ∨ bank.endWord < request.endWord) ↔
      ¬ (bank.plain = true ∧ Covers bank request.entry) := by
    rw [outside]
    cases bank.plain <;> simp
  rw [overLocalHit, if_pos ((overlaps_request_iff fits enters).mpr meets)]
  by_cases split : bank.plain = true ∧ Covers bank request.entry
  · rw [if_neg fun refused => refuses.mp refused split, if_pos split]
  · rw [if_pos (refuses.mpr split), if_neg split]

/-- The first bank that the range meets. -/
theorem exists_meeting {entry : MemoryBank Pointer} (taken : ¬ Free entry table) :
    ∃ before bank rest, table = before ++ bank :: rest ∧ Free entry before ∧ ¬ Apart entry bank := by
  induction table with
  | nil => exact absurd (fun _ none => absurd none List.not_mem_nil) taken
  | cons bank rest ih =>
    by_cases apart : Apart entry bank
    · have later : ¬ Free entry rest := by
        intro free
        apply taken
        intro other member
        rcases List.mem_cons.mp member with rfl | member
        · exact apart
        · exact free other member
      obtain ⟨before, found, after, rfl, free, meets⟩ := ih later
      refine ⟨bank :: before, found, after, rfl, fun other member => ?_, meets⟩
      rcases List.mem_cons.mp member with rfl | member
      · exact apart
      · exact free other member
    · exact ⟨[], bank, rest, rfl, fun _ none => absurd none List.not_mem_nil, apart⟩

/-- The banks beside the one that covers a range leave the range free. -/
theorem free_of_covers {entry : MemoryBank Pointer} (separate : Separate first behind (bank :: rest))
    (covers : Covers bank entry) : Free entry rest := by
  intro other member
  have apart := (Separate.cons_iff.mp separate).2.1 other member
  unfold Covers at covers
  unfold Apart
  omega

end Scan

/- The pieces of a split local bank. -/

def lowPart (bank : MemoryBank Pointer) (request : BankRequest Pointer) : MemoryBank Pointer :=
  { bank with lengthWord := request.startWord - bank.startWord }

def highPart (bank : MemoryBank Pointer) (request : BankRequest Pointer) : MemoryBank Pointer :=
  (BankRequest.bare request.endWord (bank.endWord - request.endWord) .localRam).entry

/-- The low part of the bank, the window and the high part of the bank. -/
def pieces (bank : MemoryBank Pointer) (request : BankRequest Pointer) : BankTable Pointer :=
  (if bank.startWord < request.startWord then [lowPart bank request] else []) ++ [request.entry] ++
  if request.endWord < bank.endWord then [highPart bank request] else []

theorem length_pieces (covers : Covers bank request.entry) :
    ((pieces bank request).length : Int) = 1 + 1 + (if request.endWord < bank.endWord then 1 else 0) -
      if request.startWord = bank.startWord then 1 else 0 := by
  have low : bank.startWord.toNat ≤ request.startWord.toNat := covers.1
  have same : request.startWord = bank.startWord ↔ ¬ bank.startWord < request.startWord := by
    rw [BitVec.lt_def]
    exact ⟨fun same => by rw [same]; exact Nat.lt_irrefl _, fun least => BitVec.eq_of_toNat_eq (by omega)⟩
  rw [pieces]
  simp only [same]
  by_cases lower : bank.startWord < request.startWord <;>
    by_cases higher : request.endWord < bank.endWord <;> simp [lower, higher]

theorem modify_length {A : Type} (before : List A) (x : A) (rest : List A) (f : A → A) :
    (before ++ x :: rest).modify before.length f = before ++ f x :: rest := by
  induction before with
  | nil => rfl
  | cons y before ih => exact congrArg (List.cons y) ih

/-- Entries that come last may as well come before the ones that stay. -/
theorem tail_perm {A : Type} {lowered lower stay tail : List A} (same : lowered.Perm (lower ++ stay)) :
    (lowered ++ tail).Perm (lower ++ tail ++ stay) := by
  have moved : (lower ++ (stay ++ tail)).Perm (lower ++ (tail ++ stay)) :=
    List.perm_append_comm.append_left lower
  rw [List.append_assoc]
  refine (same.append_right tail).trans ?_
  rw [List.append_assoc]
  exact moved

/-- The bank gives way to its pieces. -/
theorem splitLocal_perm {before : BankTable Pointer} (covers : Covers bank request.entry)
    (room : before.length + rest.length + (pieces bank request).length ≤ ndMemoryBankMax) :
    ∃ split, (before ++ bank :: rest).splitLocal request before.length bank = (true, split) ∧
      split.Perm (pieces bank request ++ (before ++ rest)) := by
  have fits : ¬ (ndMemoryBankMax : Int) < ((before ++ bank :: rest).length : Int) +
      (1 + (if request.endWord < bank.endWord then 1 else 0) -
        if request.startWord = bank.startWord then 1 else 0) := by
    have extra := length_pieces covers
    rw [List.length_append, List.length_cons]
    push_cast
    omega
  rw [splitLocal]
  dsimp only
  rw [if_neg fits]
  refine ⟨_, rfl, ?_⟩
  rw [pieces, List.append_assoc, List.append_assoc _ [request.entry]]
  apply tail_perm
  by_cases lower : bank.startWord < request.startWord
  · rw [if_pos lower, if_pos lower, modify_length]
    exact List.perm_middle
  · rw [if_neg lower, if_neg lower, List.eraseIdx_append_of_length_le (Nat.le_refl _), Nat.sub_self]
    exact .refl _

theorem splitLocal_full {before : BankTable Pointer} (covers : Covers bank request.entry)
    (full : ndMemoryBankMax < before.length + rest.length + (pieces bank request).length) :
    (before ++ bank :: rest).splitLocal request before.length bank = (false, before ++ bank :: rest) := by
  have extra := length_pieces covers
  rw [splitLocal]
  dsimp only
  rw [if_pos]
  rw [List.length_append, List.length_cons]
  push_cast
  omega

/- What a registration over local memory does. -/

theorem registerOverLocal_unfit (unfit : ¬ request.entry.Proper) :
    table.registerOverLocal request = (false, table) := by
  rw [registerOverLocal, if_pos (refused_iff.mpr unfit)]

theorem registerOverLocal_scanned {found : Option (Option Nat)} (enters : request.entry.Proper)
    (scan : overLocalHit request.startWord request.endWord table 0 none = found) :
    table.registerOverLocal request = table.registerAt request found := by
  rw [registerOverLocal, if_neg fun refused => refused_iff.mp refused enters, scan]

theorem registerOverLocal_free (fits : ∀ bank ∈ table, bank.Proper) (enters : request.entry.Proper)
    (free : Free request.entry table) :
    table.registerOverLocal request = table.registerBacked request :=
  registerOverLocal_scanned enters (overLocalHit_free fits enters free)

/-- A window over one plain bank splits it, where there are slots for the pieces. -/
theorem registerOverLocal_covered (well : table.WellFormed) (enters : request.entry.Proper)
    (member : bank ∈ table) (plain : bank.plain = true) (covers : Covers bank request.entry) :
    ∃ rest, table.Perm (bank :: rest) ∧
      (rest.length + (pieces bank request).length ≤ ndMemoryBankMax →
        ∃ split, table.registerOverLocal request = (true, split) ∧
          split.Perm (pieces bank request ++ rest)) ∧
      (ndMemoryBankMax < rest.length + (pieces bank request).length →
        table.registerOverLocal request = (false, table)) := by
  obtain ⟨before, rest, rfl⟩ := List.append_of_mem member
  have others := free_of_covers (well.separate.perm List.perm_middle) covers
  have meets : ¬ Apart request.entry bank := by
    have some := enters.some
    unfold Covers at covers
    unfold Apart
    omega
  have scan : overLocalHit request.startWord request.endWord (before ++ bank :: rest) 0 none =
      some (some before.length) := by
    rw [overLocalHit_append (fun other inside => well.fits other (List.mem_append_left _ inside)) enters
      fun other inside => others other (List.mem_append_left _ inside),
      overLocalHit_meets (well.fits bank member) enters meets, if_pos ⟨plain, covers⟩,
      overLocalHit_free (fun other inside => well.fits other
        (List.mem_append_right before (List.mem_cons_of_mem bank inside))) enters
        fun other inside => others other (List.mem_append_right before inside), Nat.zero_add]
  have here : (before ++ bank :: rest)[before.length]? = some bank := by simp
  have ran : registerOverLocal request (before ++ bank :: rest) =
      splitLocal request before.length bank (before ++ bank :: rest) := by
    rw [registerOverLocal_scanned enters scan, registerAt, here]
    rfl
  refine ⟨before ++ rest, List.perm_middle, fun room => ?_, fun full => ?_⟩
  · rw [ran]
    exact splitLocal_perm covers (by rw [← List.length_append]; exact room)
  · rw [ran]
    exact splitLocal_full covers (by rw [← List.length_append]; exact full)

/-- A range that meets anything else is refused. -/
theorem registerOverLocal_refused (well : table.WellFormed) (enters : request.entry.Proper)
    (taken : ¬ Free request.entry table)
    (none : ∀ bank ∈ table, ¬ (bank.plain = true ∧ Covers bank request.entry)) :
    table.registerOverLocal request = (false, table) := by
  obtain ⟨before, bank, rest, rfl, free, meets⟩ := exists_meeting taken
  have member : bank ∈ before ++ bank :: rest := List.mem_append_right _ List.mem_cons_self
  have scan : overLocalHit request.startWord request.endWord (before ++ bank :: rest) 0 Option.none =
      Option.none := by
    rw [overLocalHit_append (fun other inside => well.fits other (List.mem_append_left _ inside)) enters
      free, overLocalHit_meets (well.fits bank member) enters meets, if_neg (none bank member)]
  exact registerOverLocal_scanned enters scan

section Pieces

variable (enters : request.entry.Proper) (fits : bank.Proper) (covers : Covers bank request.entry)

include enters in
theorem request_end : request.endWord.toNat = request.entry.behind := toNat_endWord enters

theorem behind_lowPart (lower : bank.startWord < request.startWord) :
    (lowPart bank request).behind = request.entry.first := by
  rw [BitVec.lt_def] at lower
  change bank.startWord.toNat + (request.startWord - bank.startWord).toNat = request.startWord.toNat
  rw [BitVec.toNat_sub_of_le (Nat.le_of_lt lower)]
  omega

include enters in
variable (bank) in
theorem first_highPart : (highPart bank request).first = request.entry.behind := request_end enters

include fits in
theorem behind_highPart (higher : request.endWord < bank.endWord) :
    (highPart bank request).behind = bank.behind := by
  rw [BitVec.lt_def] at higher
  change request.endWord.toNat + (bank.endWord - request.endWord).toNat = bank.behind
  rw [BitVec.toNat_sub_of_le (Nat.le_of_lt higher), toNat_endWord fits]
  rw [toNat_endWord fits] at higher
  omega

include enters fits in
theorem higher_iff : request.endWord < bank.endWord ↔ request.entry.behind < bank.behind := by
  rw [BitVec.lt_def, request_end enters, toNat_endWord fits]

theorem mem_pieces {piece : MemoryBank Pointer} : piece ∈ pieces bank request ↔
    (bank.startWord < request.startWord ∧ piece = lowPart bank request) ∨ piece = request.entry ∨
      (request.endWord < bank.endWord ∧ piece = highPart bank request) := by
  rw [pieces]
  by_cases lower : bank.startWord < request.startWord <;>
    by_cases higher : request.endWord < bank.endWord <;> simp [lower, higher]

include enters fits covers in
/-- Every piece is a part of the bank. -/
theorem piece_within {piece : MemoryBank Pointer} (member : piece ∈ pieces bank request) :
    piece.Proper ∧ Covers bank piece := by
  have inside := covers
  have bound := fits.2
  have some := enters.some
  unfold Covers at inside
  rcases mem_pieces.mp member with ⟨lower, rfl⟩ | rfl | ⟨higher, rfl⟩
  · have last := behind_lowPart lower
    have start : (lowPart bank request).first = bank.first := rfl
    have less : bank.first < request.entry.first := lower
    rw [Proper, Covers, last]
    unfold behind at last
    unfold first at *
    omega
  · exact ⟨enters, covers⟩
  · have start := first_highPart bank enters
    have last := behind_highPart fits higher
    have less := (higher_iff enters fits).mp higher
    rw [Proper, Covers, last]
    have length : (highPart bank request).behind =
      (highPart bank request).first + (highPart bank request).lengthWord.toNat := rfl
    omega

include enters fits covers in
theorem pieces_separate : Separate first behind (pieces bank request) := by
  refine ⟨fun piece member => (piece_within enters fits covers member).1.some, ?_⟩
  have start := first_highPart bank enters
  rw [pieces]
  by_cases lower : bank.startWord < request.startWord
  · have last := behind_lowPart lower
    have some := enters.some
    by_cases higher : request.endWord < bank.endWord
    · simp [lower, higher, last, start]
      omega
    · simp [lower, higher, last]
  · by_cases higher : request.endWord < bank.endWord <;> simp [lower, higher, start]

end Pieces

/- The calls that take a bank away. -/

theorem startsAt (startWord : BitVec 32) (table : BankTable Pointer) :
    (∀ bank ∈ table, bank.startWord ≠ startWord) ∨
      ∃ before bank rest, table = before ++ bank :: rest ∧ bank.startWord = startWord ∧
        ∀ other ∈ before, other.startWord ≠ startWord := by
  induction table with
  | nil => exact .inl fun _ none => absurd none List.not_mem_nil
  | cons bank table ih =>
    by_cases here : bank.startWord = startWord
    · exact .inr ⟨[], bank, table, rfl, here, fun _ none => absurd none List.not_mem_nil⟩
    · rcases ih with none | ⟨before, found, rest, rfl, starts, none⟩
      · refine .inl fun other member => ?_
        rcases List.mem_cons.mp member with rfl | member
        · exact here
        · exact none other member
      · refine .inr ⟨bank :: before, found, rest, rfl, starts, fun other member => ?_⟩
        rcases List.mem_cons.mp member with rfl | member
        · exact here
        · exact none other member

section Starts

variable {startWord : BitVec 32} {before : BankTable Pointer}

theorem findIdx_none (none : ∀ bank ∈ table, bank.startWord ≠ startWord) :
    table.findIdx? (fun bank => bank.startWord = startWord) = Option.none := by
  rw [List.findIdx?_eq_none_iff]
  exact fun bank member => decide_eq_false (none bank member)

theorem findIdx_found (starts : bank.startWord = startWord)
    (none : ∀ other ∈ before, other.startWord ≠ startWord) :
    (before ++ bank :: rest).findIdx? (fun bank => bank.startWord = startWord) = some before.length := by
  rw [List.findIdx?_append, findIdx_none none, List.findIdx?_cons, if_pos (decide_eq_true starts)]
  simp

theorem unregister_none (none : ∀ bank ∈ table, bank.startWord ≠ startWord) :
    table.unregister startWord = (false, table) := by
  rw [unregister, findIdx_none none]

theorem unregister_found (starts : bank.startWord = startWord)
    (none : ∀ other ∈ before, other.startWord ≠ startWord) :
    unregister startWord (before ++ bank :: rest) = (true, before ++ rest) := by
  rw [unregister, findIdx_found starts none]
  dsimp only
  rw [List.eraseIdx_append_of_length_le (Nat.le_refl _), Nat.sub_self]
  rfl

theorem unregisterOverLocal_none (ndMemsize : BitVec 32)
    (none : ∀ bank ∈ table, bank.startWord ≠ startWord) :
    table.unregisterOverLocal ndMemsize startWord = (false, table) := by
  rw [unregisterOverLocal, unregister_none none]
  rfl

theorem unregisterOverLocal_found (ndMemsize : BitVec 32) (starts : bank.startWord = startWord)
    (none : ∀ other ∈ before, other.startWord ≠ startWord) :
    unregisterOverLocal ndMemsize startWord (before ++ bank :: rest) =
      (true, giveBack ndMemsize startWord bank.lengthWord (before ++ rest)) := by
  have found : (before ++ bank :: rest).find? (fun bank => bank.startWord = startWord) = some bank := by
    rw [List.find?_eq_some_iff_append]
    exact ⟨decide_eq_true starts, before, rest, rfl, fun other member => by
      rw [decide_eq_false (none other member)]
      rfl⟩
  rw [unregisterOverLocal, found, unregister_found starts none]
  rfl

theorem setExchange_none (exchange : Option Pointer) (none : ∀ bank ∈ table, bank.startWord ≠ startWord) :
    table.setExchange startWord exchange = (false, table) := by
  rw [setExchange, findIdx_none none]

theorem setExchange_found (exchange : Option Pointer) (starts : bank.startWord = startWord)
    (none : ∀ other ∈ before, other.startWord ≠ startWord) :
    setExchange startWord exchange (before ++ bank :: rest) =
      (true, before ++ { bank with exchange := exchange } :: rest) := by
  rw [setExchange, findIdx_found starts none]
  dsimp only
  rw [modify_length]

end Starts

/- What the calls keep. -/

section WellFormed

variable {startWord : BitVec 32}

theorem WellFormed.nil : WellFormed ([] : BankTable Pointer) :=
  ⟨fun _ none => absurd none List.not_mem_nil, .nil, Nat.zero_le _⟩

theorem WellFormed.tail (well : WellFormed (bank :: rest)) : rest.WellFormed where
  fits other member := well.fits other (List.mem_cons_of_mem bank member)
  separate := (Separate.cons_iff.mp well.separate).2.2
  slots := Nat.le_of_succ_le well.slots

theorem WellFormed.cons {entry : MemoryBank Pointer} (well : rest.WellFormed) (fits : entry.Proper)
    (free : Free entry rest) (slot : rest.length < ndMemoryBankMax) : WellFormed (entry :: rest) where
  fits other member := by
    rcases List.mem_cons.mp member with rfl | member
    · exact fits
    · exact well.fits other member
  separate := Separate.cons_iff.mpr ⟨fits.some, free, well.separate⟩
  slots := slot

/-- A bank gives way to its pieces, where there are slots for them. -/
theorem WellFormed.split (well : WellFormed (bank :: rest)) (enters : request.entry.Proper)
    (covers : Covers bank request.entry)
    (room : rest.length + (pieces bank request).length ≤ ndMemoryBankMax) :
    WellFormed (pieces bank request ++ rest) where
  fits other member := by
    rcases List.mem_append.mp member with piece | member
    · exact (piece_within enters (well.fits bank List.mem_cons_self) covers piece).1
    · exact well.fits other (List.mem_cons_of_mem bank member)
  separate :=
    have fits := well.fits bank List.mem_cons_self
    well.separate.replace (pieces_separate enters fits covers) fun piece member =>
      (piece_within enters fits covers member).2
  slots := by
    rw [List.length_append]
    omega

theorem registerBacked_wellFormed (well : table.WellFormed) (request : BankRequest Pointer) :
    (table.registerBacked request).2.WellFormed := by
  by_cases accepts : Accepts request table
  · rw [registerBacked_accepted well.fits accepts]
    have moved : (request.entry :: table).Perm (table ++ [request.entry]) :=
      (List.perm_append_singleton request.entry table).symm
    exact (well.cons accepts.fits accepts.free accepts.slot).perm moved
  · rw [registerBacked_refused well.fits accepts]
    exact well

theorem registerOverLocal_wellFormed (well : table.WellFormed) (request : BankRequest Pointer) :
    (table.registerOverLocal request).2.WellFormed := by
  by_cases enters : request.entry.Proper
  · by_cases free : Free request.entry table
    · rw [registerOverLocal_free well.fits enters free]
      exact registerBacked_wellFormed well request
    · by_cases under : ∃ bank ∈ table, bank.plain = true ∧ Covers bank request.entry
      · obtain ⟨bank, member, plain, covers⟩ := under
        obtain ⟨rest, same, done, refused⟩ := registerOverLocal_covered well enters member plain covers
        rcases Nat.lt_or_ge ndMemoryBankMax (rest.length + (pieces bank request).length) with full | room
        · rw [refused full]
          exact well
        · obtain ⟨split, ran, moved⟩ := done room
          rw [ran]
          exact ((well.perm same).split enters covers room).perm moved.symm
      · rw [registerOverLocal_refused well enters free fun bank member here => under ⟨bank, member, here⟩]
        exact well
  · rw [registerOverLocal_unfit enters]
    exact well

theorem unregister_wellFormed (well : table.WellFormed) (startWord : BitVec 32) :
    (table.unregister startWord).2.WellFormed := by
  rcases startsAt startWord table with none | ⟨before, bank, rest, rfl, starts, none⟩
  · rw [unregister_none none]
    exact well
  · rw [unregister_found starts none]
    exact (well.perm List.perm_middle).tail

theorem giveBack_wellFormed (well : table.WellFormed) (ndMemsize startWord lengthWord : BitVec 32) :
    (giveBack ndMemsize startWord lengthWord table).WellFormed := by
  rw [giveBack]
  split
  · exact registerBacked_wellFormed well _
  · exact well

theorem unregisterOverLocal_wellFormed (well : table.WellFormed) (ndMemsize startWord : BitVec 32) :
    (table.unregisterOverLocal ndMemsize startWord).2.WellFormed := by
  rcases startsAt startWord table with none | ⟨before, bank, rest, rfl, starts, none⟩
  · rw [unregisterOverLocal_none ndMemsize none]
    exact well
  · rw [unregisterOverLocal_found ndMemsize starts none]
    exact giveBack_wellFormed (well.perm List.perm_middle).tail _ _ _

theorem setExchange_wellFormed (well : table.WellFormed) (startWord : BitVec 32)
    (exchange : Option Pointer) : (table.setExchange startWord exchange).2.WellFormed := by
  rcases startsAt startWord table with none | ⟨before, bank, rest, rfl, starts, none⟩
  · rw [setExchange_none exchange none]
    exact well
  · rw [setExchange_found exchange starts none]
    have moved := well.perm List.perm_middle
    obtain ⟨-, here, -⟩ := Separate.cons_iff.mp moved.separate
    have changed : WellFormed ({ bank with exchange := exchange } :: (before ++ rest)) :=
      moved.tail.cons (moved.fits bank List.mem_cons_self) here moved.slots
    exact changed.perm List.perm_middle.symm

end WellFormed

end BankTable

namespace BankCall

open BankTable

variable (ndMemsize : BitVec 32) {table : BankTable Pointer}

theorem run_wellFormed (well : table.WellFormed) (call : BankCall Pointer) :
    (call.run ndMemsize table).2.WellFormed := by
  cases call with
  | register startWord lengthWord type => exact registerBacked_wellFormed well _
  | registerBacked request => exact registerBacked_wellFormed well request
  | registerOverLocal request => exact registerOverLocal_wellFormed well request
  | unregister startWord => exact unregister_wellFormed well startWord
  | unregisterOverLocal startWord => exact unregisterOverLocal_wellFormed well ndMemsize startWord
  | setExchange startWord exchange => exact setExchange_wellFormed well startWord exchange

theorem registerBacked_false (well : table.WellFormed) {request : BankRequest Pointer}
    (refused : (table.registerBacked request).1 = false) : (table.registerBacked request).2 = table := by
  by_cases accepts : Accepts request table
  · rw [registerBacked_accepted well.fits accepts] at refused
    exact absurd refused.symm Bool.false_ne_true
  · rw [registerBacked_refused well.fits accepts]

theorem registerOverLocal_false (well : table.WellFormed) {request : BankRequest Pointer}
    (refused : (table.registerOverLocal request).1 = false) :
    (table.registerOverLocal request).2 = table := by
  by_cases enters : request.entry.Proper
  · by_cases free : Free request.entry table
    · rw [registerOverLocal_free well.fits enters free] at refused ⊢
      exact registerBacked_false well refused
    · by_cases under : ∃ bank ∈ table, bank.plain = true ∧ bank.Covers request.entry
      · obtain ⟨bank, member, plain, covers⟩ := under
        obtain ⟨rest, -, done, full⟩ := registerOverLocal_covered well enters member plain covers
        rcases Nat.lt_or_ge ndMemoryBankMax (rest.length + (pieces bank request).length) with much | room
        · rw [full much]
        · obtain ⟨split, ran, -⟩ := done room
          rw [ran] at refused
          exact absurd refused.symm Bool.false_ne_true
      · rw [registerOverLocal_refused well enters free fun bank member here => under ⟨bank, member, here⟩]
  · rw [registerOverLocal_unfit enters]

/-- A refused call changes nothing. -/
theorem run_false (well : table.WellFormed) {call : BankCall Pointer}
    (refused : (call.run ndMemsize table).1 = false) : (call.run ndMemsize table).2 = table := by
  cases call with
  | register startWord lengthWord type => exact registerBacked_false well refused
  | registerBacked request => exact registerBacked_false well refused
  | registerOverLocal request => exact registerOverLocal_false well refused
  | unregister startWord =>
    change (table.unregister startWord).1 = false at refused
    change (table.unregister startWord).2 = table
    rcases startsAt startWord table with none | ⟨before, bank, rest, rfl, starts, none⟩
    · rw [unregister_none none]
    · rw [unregister_found starts none] at refused
      exact absurd refused.symm Bool.false_ne_true
  | unregisterOverLocal startWord =>
    change (table.unregisterOverLocal ndMemsize startWord).1 = false at refused
    change (table.unregisterOverLocal ndMemsize startWord).2 = table
    rcases startsAt startWord table with none | ⟨before, bank, rest, rfl, starts, none⟩
    · rw [unregisterOverLocal_none ndMemsize none]
    · rw [unregisterOverLocal_found ndMemsize starts none] at refused
      exact absurd refused.symm Bool.false_ne_true
  | setExchange startWord exchange =>
    change (table.setExchange startWord exchange).1 = false at refused
    change (table.setExchange startWord exchange).2 = table
    rcases startsAt startWord table with none | ⟨before, bank, rest, rfl, starts, none⟩
    · rw [setExchange_none exchange none]
    · rw [setExchange_found exchange starts none] at refused
      exact absurd refused.symm Bool.false_ne_true

end BankCall

section Runs

open BankTable

variable (ndMemsize : BitVec 32)

theorem runBankCalls_wellFormed (calls : List (BankCall Pointer)) {table : BankTable Pointer}
    (well : table.WellFormed) : (runBankCalls ndMemsize calls table).WellFormed := by
  induction calls generalizing table with
  | nil => exact well
  | cons call rest ih => exact ih (call.run_wellFormed ndMemsize well)

theorem init_wellFormed : (BankTable.init ndMemsize : BankTable Pointer).WellFormed := by
  rw [BankTable.init]
  split
  · exact registerBacked_wellFormed WellFormed.nil _
  · exact WellFormed.nil

/-- The bank of a word is the only one that holds it. -/
theorem lookup_iff {table : BankTable Pointer} (well : table.WellFormed) (address : BitVec 32)
    (bank : MemoryBank Pointer) :
    table.lookup address = some bank ↔ bank ∈ table ∧ bank.Holds address := by
  have same : table.lookup address = table.find? fun bank =>
      decide (bank.first ≤ address.toNat ∧ address.toNat < bank.behind) := by
    rw [BankTable.lookup]
    apply List.find?_congr
    intro bank member
    apply decide_eq_decide.mpr
    rw [BitVec.le_def, BitVec.lt_def, MemoryBank.toNat_endWord (well.fits bank member)]
    rfl
  rw [same, well.separate.find_iff]
  rfl

/-- After every sequence of calls the banks are not empty, do not wrap, do not overlap and have
their slots, a lookup finds the one bank that holds the word, and a refused call changes nothing. -/
theorem memoryBanks_wellFormed (calls : List (BankCall Pointer)) :
    let table := runBankCalls ndMemsize calls (BankTable.init ndMemsize)
    (∀ bank ∈ table, 0 < bank.lengthWord.toNat ∧ bank.startWord.toNat + bank.lengthWord.toNat < 2 ^ 32) ∧
      table.Pairwise MemoryBank.Apart ∧
      table.length ≤ ndMemoryBankMax ∧
      (∀ address bank, table.lookup address = some bank ↔ bank ∈ table ∧ bank.Holds address) ∧
      (∀ address, ∀ bank ∈ table, ∀ other ∈ table, bank.Holds address → other.Holds address → bank = other) ∧
      ∀ call : BankCall Pointer, (call.run ndMemsize table).1 = false → (call.run ndMemsize table).2 = table := by
  intro table
  have well : table.WellFormed := runBankCalls_wellFormed ndMemsize calls (init_wellFormed ndMemsize)
  refine ⟨well.fits, well.separate.apart, well.slots, lookup_iff well, ?_, fun call refused =>
    call.run_false ndMemsize well refused⟩
  intro address bank member other inside first second
  exact well.separate.eq_of_meet member inside (Nat.lt_of_le_of_lt first.1 second.2)
    (Nat.lt_of_le_of_lt second.1 first.2)

end Runs

end Nd100x
