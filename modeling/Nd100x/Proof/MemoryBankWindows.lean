import Nd100x.Proof.MemoryBanks

namespace Nd100x

open Library

variable {Pointer : Type}

namespace MemoryBank

/-- Without accessors the backing is the local memory, whatever the other pointers are. -/
def backing (bank : MemoryBank Pointer) :
    Option (Option Pointer × Option Pointer × Option Pointer × Option Pointer) :=
  if bank.read.isNone ∧ bank.write.isNone then none
  else some (bank.read, bank.write, bank.ctx, bank.exchange)

/-- What a word of the bank is. -/
def kind (bank : MemoryBank Pointer) :
    NdMemoryType × Option (Option Pointer × Option Pointer × Option Pointer × Option Pointer) :=
  (bank.type, bank.backing)

/-- What a later call can see of a bank. -/
def shape (bank : MemoryBank Pointer) : BitVec 32 × BitVec 32 × NdMemoryType × Bool × Bool :=
  (bank.startWord, bank.lengthWord, bank.type, bank.read.isNone, bank.write.isNone)

theorem kind_plain {bank : MemoryBank Pointer} (plain : bank.plain = true) :
    bank.kind = (.localRam, none) := by
  rw [MemoryBank.plain, decide_eq_true_eq] at plain
  rw [kind, backing, if_pos plain.2, plain.1]

end MemoryBank

namespace BankTable

open MemoryBank

/-- The two tables give every word the same type and backing. -/
def SameMap (table other : BankTable Pointer) : Prop :=
  ∀ address, (table.lookup address).map kind = (other.lookup address).map kind

/-- Every later sequence of calls is answered alike. -/
def SameAnswers (ndMemsize : BitVec 32) (table other : BankTable Pointer) : Prop :=
  ∀ calls, bankAnswers ndMemsize calls table = bankAnswers ndMemsize calls other

/-- The tables have the same banks in any order, as far as a call can see. -/
def Alike (table other : BankTable Pointer) : Prop := (table.map shape).Perm (other.map shape)

variable {table other rest mapped : BankTable Pointer} {bank : MemoryBank Pointer}
  {request : BankRequest Pointer}

/-- The kind of a word is the kind of any bank that holds it. -/
theorem kindAt_iff (well : table.WellFormed) (address : BitVec 32)
    (kind' : NdMemoryType × Option (Option Pointer × Option Pointer × Option Pointer × Option Pointer)) :
    (table.lookup address).map kind = some kind' ↔
      ∃ bank ∈ table, bank.Holds address ∧ bank.kind = kind' := by
  rw [Option.map_eq_some_iff]
  constructor
  · rintro ⟨bank, found, same⟩
    obtain ⟨member, holds⟩ := (lookup_iff well address bank).mp found
    exact ⟨bank, member, holds, same⟩
  · rintro ⟨bank, member, holds, same⟩
    exact ⟨bank, (lookup_iff well address bank).mpr ⟨member, holds⟩, same⟩

theorem kindAt_none (well : table.WellFormed) {address : BitVec 32}
    (none : ∀ bank ∈ table, ¬ bank.Holds address) : (table.lookup address).map kind = Option.none := by
  rw [Option.map_eq_none_iff, Option.eq_none_iff_forall_ne_some]
  intro bank found
  obtain ⟨member, holds⟩ := (lookup_iff well address bank).mp found
  exact none bank member holds

/-- A free range is a range of unmapped words. -/
theorem free_iff (well : table.WellFormed) {entry : MemoryBank Pointer} (enters : entry.Proper) :
    Free entry table ↔ ∀ address, entry.Holds address → (table.lookup address).map kind = none := by
  constructor
  · intro free address inside
    apply kindAt_none well
    intro bank member holds
    have apart := free bank member
    unfold Holds at inside holds
    unfold Apart at apart
    omega
  · intro unmapped bank member
    by_contra meets
    have fits := well.fits bank member
    have bound := fits.2
    have one := fits.some
    have two := enters.some
    have low : bank.first ≤ max entry.first bank.first := Nat.le_max_right _ _
    unfold Apart at meets
    have value : (BitVec.ofNat 32 (max entry.first bank.first)).toNat = max entry.first bank.first := by
      rw [BitVec.toNat_ofNat, Nat.mod_eq_of_lt (by omega)]
    generalize BitVec.ofNat 32 (max entry.first bank.first) = address at value
    have none := unmapped address ⟨by omega, by omega⟩
    rw [(kindAt_iff well address _).mpr ⟨bank, member, ⟨by omega, by omega⟩, rfl⟩] at none
    exact absurd none (Option.some_ne_none _)

/-- Two tables agree on a word that banks of the same kind hold. -/
theorem kindAt_congr (well : table.WellFormed) (also : other.WellFormed) {address : BitVec 32}
    (into : ∀ bank ∈ table, bank.Holds address → ∃ bank' ∈ other, bank'.Holds address ∧ bank'.kind = bank.kind)
    (back : ∀ bank ∈ other, bank.Holds address → ∃ bank' ∈ table, bank'.Holds address ∧ bank'.kind = bank.kind) :
    (table.lookup address).map kind = (other.lookup address).map kind := by
  apply Option.ext
  intro kind'
  rw [kindAt_iff well, kindAt_iff also]
  constructor
  · rintro ⟨bank, member, holds, rfl⟩
    exact into bank member holds
  · rintro ⟨bank, member, holds, rfl⟩
    exact back bank member holds

/- Tables that later calls cannot tell apart. -/

section Alike

theorem Alike.refl (table : BankTable Pointer) : Alike table table := List.Perm.refl _

theorem Alike.symm (alike : Alike table other) : Alike other table := List.Perm.symm alike

theorem Alike.of_perm (same : table.Perm other) : Alike table other := same.map shape

theorem Alike.trans {third : BankTable Pointer} (alike : Alike table other) (next : Alike other third) :
    Alike table third := List.Perm.trans alike next

theorem Alike.length_eq (alike : Alike table other) : table.length = other.length := by
  have lengths := List.Perm.length_eq alike
  rwa [List.length_map, List.length_map] at lengths

theorem Alike.append {third fourth : BankTable Pointer} (alike : Alike table other)
    (also : Alike third fourth) : Alike (table ++ third) (other ++ fourth) := by
  rw [Alike, List.map_append, List.map_append]
  exact List.Perm.append alike also

/-- A bank of one table has its counterpart in the other. -/
theorem Alike.counterpart (alike : Alike table other) (same : table.Perm (bank :: rest)) :
    ∃ bank' rest', other.Perm (bank' :: rest') ∧ bank'.shape = bank.shape ∧ Alike rest rest' := by
  have moved : ((bank :: rest).map shape).Perm (other.map shape) := (same.map shape).symm.trans alike
  have member : bank.shape ∈ other.map shape := moved.mem_iff.mp List.mem_cons_self
  obtain ⟨bank', inside, shape'⟩ := List.mem_map.mp member
  obtain ⟨rest', split⟩ := Separate.exists_rest inside
  refine ⟨bank', rest', split, shape', ?_⟩
  have whole := moved.trans (split.map shape)
  rw [List.map_cons, List.map_cons, shape'] at whole
  exact whole.cons_inv

theorem Alike.mem (alike : Alike table other) (member : bank ∈ table) :
    ∃ bank' ∈ other, bank'.shape = bank.shape := by
  obtain ⟨rest, split⟩ := Separate.exists_rest member
  obtain ⟨bank', rest', split', same, -⟩ := alike.counterpart split
  exact ⟨bank', split'.mem_iff.mpr List.mem_cons_self, same⟩

/-- The counterpart has the same words and is plain together with the bank. -/
theorem shape_eq {bank' : MemoryBank Pointer} (same : bank'.shape = bank.shape) :
    bank'.startWord = bank.startWord ∧ bank'.lengthWord = bank.lengthWord ∧ bank'.first = bank.first ∧
      bank'.behind = bank.behind ∧ bank'.plain = bank.plain := by
  obtain ⟨start, rest⟩ := Prod.mk.inj same
  obtain ⟨length, rest⟩ := Prod.mk.inj rest
  obtain ⟨type, rest⟩ := Prod.mk.inj rest
  obtain ⟨read, write⟩ := Prod.mk.inj rest
  refine ⟨start, length, ?_, ?_, ?_⟩
  · rw [first, first, start]
  · rw [behind, behind, start, length]
  · rw [plain, plain, type, read, write]

theorem Alike.free (alike : Alike table other) {entry : MemoryBank Pointer} (free : Free entry table) :
    Free entry other := by
  intro bank member
  obtain ⟨bank', inside, same⟩ := alike.symm.mem member
  obtain ⟨-, -, start, last, -⟩ := shape_eq same
  have apart := free bank' inside
  rw [Apart, start, last] at apart
  exact apart

theorem Alike.accepts (alike : Alike table other) (accepts : Accepts request table) :
    Accepts request other :=
  ⟨accepts.fits, alike.free accepts.free, alike.length_eq ▸ accepts.slot⟩

end Alike

/- The calls on a bank, wherever it stands in the table. -/

section Starts

variable {startWord : BitVec 32}

theorem eq_of_start (well : table.WellFormed) {bank' : MemoryBank Pointer} (member : bank ∈ table)
    (inside : bank' ∈ table) (same : bank.startWord = bank'.startWord) : bank = bank' := by
  have one := (well.fits bank member).some
  have two := (well.fits bank' inside).some
  have start : bank.first = bank'.first := congrArg BitVec.toNat same
  exact well.separate.eq_of_meet member inside (by omega) (by omega)

/-- The bank that starts there, at its place. -/
theorem placed (well : table.WellFormed) (same : table.Perm (bank :: rest)) :
    ∃ before after, table = before ++ bank :: after ∧ (before ++ after).Perm rest ∧
      ∀ other ∈ before, other.startWord ≠ bank.startWord := by
  have member : bank ∈ table := same.mem_iff.mpr List.mem_cons_self
  rcases startsAt bank.startWord table with none | ⟨before, bank', after, rfl, starts, none⟩
  · exact absurd rfl (none bank member)
  · have inside : bank' ∈ before ++ bank' :: after := List.mem_append_right _ List.mem_cons_self
    obtain rfl := eq_of_start well member inside starts.symm
    exact ⟨before, after, rfl, (List.perm_middle.symm.trans same).cons_inv, none⟩

theorem unregister_perm (well : table.WellFormed) (same : table.Perm (bank :: rest)) :
    ∃ rest', table.unregister bank.startWord = (true, rest') ∧ rest'.Perm rest := by
  obtain ⟨before, after, rfl, stay, none⟩ := placed well same
  exact ⟨_, unregister_found rfl none, stay⟩

theorem unregisterOverLocal_perm (well : table.WellFormed) (ndMemsize : BitVec 32)
    (same : table.Perm (bank :: rest)) :
    ∃ rest', table.unregisterOverLocal ndMemsize bank.startWord =
      (true, giveBack ndMemsize bank.startWord bank.lengthWord rest') ∧ rest'.Perm rest := by
  obtain ⟨before, after, rfl, stay, none⟩ := placed well same
  exact ⟨_, unregisterOverLocal_found ndMemsize rfl none, stay⟩

theorem setExchange_perm (well : table.WellFormed) (exchange : Option Pointer)
    (same : table.Perm (bank :: rest)) :
    ∃ changed, table.setExchange bank.startWord exchange = (true, changed) ∧ Alike changed table := by
  obtain ⟨before, after, rfl, -, none⟩ := placed well same
  refine ⟨_, setExchange_found exchange rfl none, ?_⟩
  rw [Alike, List.map_append, List.map_append, List.map_cons, List.map_cons]
  exact List.Perm.refl _

end Starts

/- Alike tables answer alike. -/

section Answers

variable (well : table.WellFormed) (also : other.WellFormed) (alike : Alike table other)

include well also alike

theorem Alike.registerBacked (request : BankRequest Pointer) :
    (table.registerBacked request).1 = (other.registerBacked request).1 ∧
      Alike (table.registerBacked request).2 (other.registerBacked request).2 := by
  by_cases accepts : Accepts request table
  · rw [registerBacked_accepted well.fits accepts,
      registerBacked_accepted also.fits (alike.accepts accepts)]
    exact ⟨rfl, alike.append (Alike.refl _)⟩
  · rw [registerBacked_refused well.fits accepts,
      registerBacked_refused also.fits fun accepted => accepts (alike.symm.accepts accepted)]
    exact ⟨rfl, alike⟩

omit well also alike in
theorem pieces_alike {bank' : MemoryBank Pointer} (same : bank'.shape = bank.shape)
    (request : BankRequest Pointer) : Alike (pieces bank request) (pieces bank' request) := by
  obtain ⟨start, length, -⟩ := shape_eq same
  obtain ⟨-, others⟩ := Prod.mk.inj same
  obtain ⟨-, others⟩ := Prod.mk.inj others
  have last : bank'.endWord = bank.endWord := by rw [endWord, endWord, start, length]
  have low : (lowPart bank' request).shape = (lowPart bank request).shape := by
    rw [shape, shape]
    refine Prod.ext start (Prod.ext ?_ others)
    change request.startWord - bank'.startWord = request.startWord - bank.startWord
    rw [start]
  have high : highPart bank' request = highPart bank request := by rw [highPart, highPart, last]
  have shapes : (pieces bank' request).map shape = (pieces bank request).map shape := by
    rw [pieces, pieces, start, last, high]
    split <;> simp [low]
  rw [Alike, shapes]

theorem Alike.registerOverLocal (request : BankRequest Pointer) :
    (table.registerOverLocal request).1 = (other.registerOverLocal request).1 ∧
      Alike (table.registerOverLocal request).2 (other.registerOverLocal request).2 := by
  by_cases enters : request.entry.Proper
  · by_cases free : Free request.entry table
    · rw [registerOverLocal_free well.fits enters free,
        registerOverLocal_free also.fits enters (alike.free free)]
      exact alike.registerBacked well also request
    · by_cases under : ∃ bank ∈ table, bank.plain = true ∧ Covers bank request.entry
      · obtain ⟨bank, member, plain, covers⟩ := under
        obtain ⟨rest, split, done, full⟩ := registerOverLocal_covered well enters member plain covers
        obtain ⟨bank', rest', split', same, stay⟩ := alike.counterpart split
        obtain ⟨-, -, start, last, plain'⟩ := shape_eq same
        have covers' : Covers bank' request.entry := by
          rw [Covers, start, last]
          exact covers
        obtain ⟨rest'', moved, done', full'⟩ := registerOverLocal_covered also enters
          (split'.mem_iff.mpr List.mem_cons_self) (plain'.trans plain) covers'
        have stays : Alike rest rest'' := stay.trans (Alike.of_perm (split'.symm.trans moved).cons_inv)
        have parts := pieces_alike same request
        have lengths := stays.length_eq
        have partLengths := parts.length_eq
        rcases Nat.lt_or_ge ndMemoryBankMax (rest.length + (pieces bank request).length) with much | room
        · rw [full much, full' (by omega)]
          exact ⟨rfl, alike⟩
        · obtain ⟨one, ran, first⟩ := done room
          obtain ⟨two, ran', second⟩ := done' (by omega)
          rw [ran, ran']
          exact ⟨rfl, ((Alike.of_perm first).trans (parts.append stays)).trans (Alike.of_perm second).symm⟩
      · have none : ¬ ∃ bank ∈ other, bank.plain = true ∧ Covers bank request.entry := by
          rintro ⟨bank, member, plain, covers⟩
          obtain ⟨bank', inside, same⟩ := alike.symm.mem member
          obtain ⟨-, -, start, last, plain'⟩ := shape_eq same
          refine under ⟨bank', inside, plain'.trans plain, ?_⟩
          rw [Covers, start, last]
          exact covers
        rw [registerOverLocal_refused well enters free fun bank member here => under ⟨bank, member, here⟩,
          registerOverLocal_refused also enters (fun found => free (alike.symm.free found))
            fun bank member here => none ⟨bank, member, here⟩]
        exact ⟨rfl, alike⟩
  · rw [registerOverLocal_unfit enters, registerOverLocal_unfit enters]
    exact ⟨rfl, alike⟩

omit well also in
/-- A bank that starts there is in both tables, or there is none. -/
theorem Alike.starts (startWord : BitVec 32) :
    ((∀ bank ∈ table, bank.startWord ≠ startWord) ∧ ∀ bank ∈ other, bank.startWord ≠ startWord) ∨
      ∃ bank bank' rest rest', table.Perm (bank :: rest) ∧ other.Perm (bank' :: rest') ∧
        bank.startWord = startWord ∧ bank'.startWord = startWord ∧ bank'.lengthWord = bank.lengthWord ∧
        Alike rest rest' := by
  by_cases found : ∃ bank ∈ table, bank.startWord = startWord
  · obtain ⟨bank, member, starts⟩ := found
    obtain ⟨rest, split⟩ := Separate.exists_rest member
    obtain ⟨bank', rest', split', same, stay⟩ := alike.counterpart split
    obtain ⟨start, length, -⟩ := shape_eq same
    exact .inr ⟨bank, bank', rest, rest', split, split', starts, start.trans starts, length, stay⟩
  · refine .inl ⟨fun bank member starts => found ⟨bank, member, starts⟩, fun bank member starts => ?_⟩
    obtain ⟨bank', inside, same⟩ := alike.symm.mem member
    exact found ⟨bank', inside, (shape_eq same).1.trans starts⟩

omit well also in
theorem Alike.giveBack (one : table.WellFormed) (two : other.WellFormed)
    (ndMemsize startWord lengthWord : BitVec 32) :
    Alike (BankTable.giveBack ndMemsize startWord lengthWord table)
      (BankTable.giveBack ndMemsize startWord lengthWord other) := by
  rw [BankTable.giveBack, BankTable.giveBack]
  split
  · exact (alike.registerBacked one two _).2
  · exact alike

theorem Alike.run (ndMemsize : BitVec 32) (call : BankCall Pointer) :
    (call.run ndMemsize table).1 = (call.run ndMemsize other).1 ∧
      Alike (call.run ndMemsize table).2 (call.run ndMemsize other).2 := by
  cases call with
  | register startWord lengthWord type => exact alike.registerBacked well also _
  | registerBacked request => exact alike.registerBacked well also request
  | registerOverLocal request => exact alike.registerOverLocal well also request
  | unregister startWord =>
    change (table.unregister startWord).1 = (other.unregister startWord).1 ∧
      Alike (table.unregister startWord).2 (other.unregister startWord).2
    rcases alike.starts startWord with ⟨none, none'⟩ |
      ⟨bank, bank', rest, rest', split, split', rfl, starts, -, stay⟩
    · rw [unregister_none none, unregister_none none']
      exact ⟨rfl, alike⟩
    · obtain ⟨left, ran, first⟩ := unregister_perm well split
      obtain ⟨right, ran', second⟩ := unregister_perm also split'
      rw [starts] at ran'
      rw [ran, ran']
      exact ⟨rfl, ((Alike.of_perm first).trans stay).trans (Alike.of_perm second).symm⟩
  | unregisterOverLocal startWord =>
    change (table.unregisterOverLocal ndMemsize startWord).1 =
        (other.unregisterOverLocal ndMemsize startWord).1 ∧
      Alike (table.unregisterOverLocal ndMemsize startWord).2
        (other.unregisterOverLocal ndMemsize startWord).2
    rcases alike.starts startWord with ⟨none, none'⟩ |
      ⟨bank, bank', rest, rest', split, split', rfl, starts, length, stay⟩
    · rw [unregisterOverLocal_none ndMemsize none, unregisterOverLocal_none ndMemsize none']
      exact ⟨rfl, alike⟩
    · obtain ⟨left, ran, first⟩ := unregisterOverLocal_perm well ndMemsize split
      obtain ⟨right, ran', second⟩ := unregisterOverLocal_perm also ndMemsize split'
      rw [starts, length] at ran'
      rw [ran, ran']
      have stays := ((Alike.of_perm first).trans stay).trans (Alike.of_perm second).symm
      exact ⟨rfl, stays.giveBack ((well.perm split).tail.perm first.symm)
        ((also.perm split').tail.perm second.symm) _ _ _⟩
  | setExchange startWord exchange =>
    change (table.setExchange startWord exchange).1 = (other.setExchange startWord exchange).1 ∧
      Alike (table.setExchange startWord exchange).2 (other.setExchange startWord exchange).2
    rcases alike.starts startWord with ⟨none, none'⟩ |
      ⟨bank, bank', rest, rest', split, split', rfl, starts, -, -⟩
    · rw [setExchange_none exchange none, setExchange_none exchange none']
      exact ⟨rfl, alike⟩
    · obtain ⟨left, ran, first⟩ := setExchange_perm well exchange split
      obtain ⟨right, ran', second⟩ := setExchange_perm also exchange split'
      rw [starts] at ran'
      rw [ran, ran']
      exact ⟨rfl, (first.trans alike).trans second.symm⟩

omit well also alike in
/-- Alike tables answer every sequence of calls alike. -/
theorem Alike.sameAnswers (ndMemsize : BitVec 32) (well : table.WellFormed) (also : other.WellFormed)
    (alike : Alike table other) : SameAnswers ndMemsize table other := by
  intro calls
  induction calls generalizing table other with
  | nil => rfl
  | cons call calls ih =>
    obtain ⟨answer, next⟩ := alike.run well also ndMemsize call
    rw [bankAnswers, bankAnswers, answer, ih (call.run_wellFormed ndMemsize well)
      (call.run_wellFormed ndMemsize also) next]

end Answers

/- A window that comes and goes. -/

/-- The parts of the local bank beside the window. -/
def beside (bank : MemoryBank Pointer) (request : BankRequest Pointer) : BankTable Pointer :=
  (if bank.startWord < request.startWord then [lowPart bank request] else []) ++
  if request.endWord < bank.endWord then [highPart bank request] else []

/-- The local memory that takes the place of the window. -/
def back (ndMemsize : BitVec 32) (request : BankRequest Pointer) : BankTable Pointer :=
  if request.startWord < ndMemsize then
    [(BankRequest.bare request.startWord
      ((if ndMemsize < request.endWord then ndMemsize else request.endWord) - request.startWord)
      .localRam).entry]
  else []

theorem pieces_perm (bank : MemoryBank Pointer) (request : BankRequest Pointer) :
    (pieces bank request).Perm (request.entry :: beside bank request) := by
  rw [pieces, beside, List.append_assoc]
  exact List.perm_middle

/-- The local memory that comes back lies in the window, below the installed size. -/
theorem mem_back {ndMemsize : BitVec 32} (enters : request.entry.Proper)
    (member : bank ∈ back ndMemsize request) :
    request.entry.first < ndMemsize.toNat ∧ bank.Proper ∧ bank.first = request.entry.first ∧
      bank.behind = min request.entry.behind ndMemsize.toNat ∧ bank.plain = true := by
  have last := request_end enters
  have some := enters.some
  have inside := enters.2
  unfold back at member
  split at member
  · next below =>
      rw [BitVec.lt_def] at below
      obtain rfl := List.mem_singleton.mp member
      have ends : (if ndMemsize < request.endWord then ndMemsize else request.endWord).toNat =
          min request.entry.behind ndMemsize.toNat := by
        split
        · next large =>
            rw [BitVec.lt_def] at large
            omega
        · next under =>
            rw [BitVec.lt_def] at under
            omega
      generalize (if ndMemsize < request.endWord then ndMemsize else request.endWord) = sum at ends ⊢
      have start : request.entry.first = request.startWord.toNat := rfl
      have order : request.startWord ≤ sum := by
        rw [BitVec.le_def]
        omega
      have length : (sum - request.startWord).toNat = sum.toNat - request.startWord.toNat :=
        BitVec.toNat_sub_of_le order
      have behind' : (BankRequest.bare request.startWord (sum - request.startWord) .localRam :
          BankRequest Pointer).entry.behind = min request.entry.behind ndMemsize.toNat := by
        change request.startWord.toNat + (sum - request.startWord).toNat = _
        omega
      refine ⟨below, ⟨?_, ?_⟩, rfl, behind', rfl⟩
      · change 0 < (sum - request.startWord).toNat
        omega
      · rw [behind']
        omega
  · exact absurd member List.not_mem_nil

theorem giveBack_free (well : table.WellFormed) (enters : request.entry.Proper)
    (free : Free request.entry table) (slot : table.length < ndMemoryBankMax) (ndMemsize : BitVec 32) :
    giveBack ndMemsize request.startWord request.lengthWord table = table ++ back ndMemsize request := by
  rw [giveBack, back]
  by_cases below : request.startWord < ndMemsize
  · rw [if_pos below, if_pos below]
    change (table.registerBacked _).2 = _
    rw [registerBacked_accepted well.fits]
    · rfl
    · have here : (BankRequest.bare request.startWord
          ((if ndMemsize < request.endWord then ndMemsize else request.endWord) - request.startWord)
          .localRam : BankRequest Pointer).entry ∈ back ndMemsize request := by
        rw [back, if_pos below]
        exact List.mem_singleton_self _
      obtain ⟨-, fits, start, last, -⟩ := mem_back enters here
      refine ⟨fits, fun other member => ?_, slot⟩
      have apart := free other member
      unfold Apart at apart ⊢
      rw [BankRequest.endWord] at start last
      omega
  · rw [if_neg below, if_neg below, List.append_nil]

/-- The table after a window has gone: what stood beside it, and the local memory in its place. -/
structure Undone (ndMemsize : BitVec 32) (request : BankRequest Pointer)
    (table restored stay : BankTable Pointer) : Prop where
  enters : request.entry.Proper
  well : restored.WellFormed
  same : restored.Perm (back ndMemsize request ++ stay)
  free : Free request.entry stay
  came : (Free request.entry table ∧ stay.Perm table) ∨
    ∃ bank rest, bank.plain = true ∧ Covers bank request.entry ∧ table.Perm (bank :: rest) ∧
      stay.Perm (beside bank request ++ rest)

theorem undone_of_stay {stay : BankTable Pointer} (ndMemsize : BitVec 32) (enters : request.entry.Proper)
    (well : mapped.WellFormed) (same : mapped.Perm (request.entry :: stay))
    (came : (Free request.entry table ∧ stay.Perm table) ∨
      ∃ bank rest, bank.plain = true ∧ Covers bank request.entry ∧ table.Perm (bank :: rest) ∧
        stay.Perm (beside bank request ++ rest)) :
    ∃ restored, mapped.unregisterOverLocal ndMemsize request.startWord = (true, restored) ∧
      Undone ndMemsize request table restored stay := by
  obtain ⟨rest, ran, moved⟩ := unregisterOverLocal_perm well ndMemsize same
  have split := well.perm same
  have free := (Separate.cons_iff.mp split.separate).2.1
  have others : Free request.entry rest := fun bank member => free bank (moved.mem_iff.mp member)
  have tail := split.tail.perm moved.symm
  have slot : rest.length < ndMemoryBankMax := by
    have slots := split.slots
    rw [List.length_cons, ← moved.length_eq] at slots
    exact slots
  have given := giveBack_free tail enters others slot ndMemsize
  have kept : (giveBack ndMemsize request.startWord request.lengthWord rest).WellFormed :=
    giveBack_wellFormed tail _ _ _
  rw [given] at kept
  refine ⟨rest ++ back ndMemsize request, ?_, enters, kept, ?_, free, came⟩
  · rw [← given]
    exact ran
  · exact List.perm_append_comm.trans (moved.append_left _)

/-- Every window that was granted can be taken away. -/
theorem undone (well : table.WellFormed) (granted : (table.registerOverLocal request).1 = true)
    (ndMemsize : BitVec 32) :
    ∃ restored stay, (table.registerOverLocal request).2.unregisterOverLocal ndMemsize
        request.startWord = (true, restored) ∧ Undone ndMemsize request table restored stay := by
  have mapped := registerOverLocal_wellFormed well request
  by_cases enters : request.entry.Proper
  · by_cases free : Free request.entry table
    · rw [registerOverLocal_free well.fits enters free] at granted mapped ⊢
      by_cases accepts : Accepts request table
      · rw [registerBacked_accepted well.fits accepts] at mapped ⊢
        have same : (table ++ [request.entry]).Perm (request.entry :: table) :=
          List.perm_append_singleton request.entry table
        obtain ⟨restored, ran, gone⟩ := undone_of_stay ndMemsize enters mapped same
          (.inl ⟨free, .refl _⟩)
        exact ⟨restored, table, ran, gone⟩
      · rw [registerBacked_refused well.fits accepts] at granted
        exact absurd granted Bool.false_ne_true
    · by_cases under : ∃ bank ∈ table, bank.plain = true ∧ Covers bank request.entry
      · obtain ⟨bank, member, plain, covers⟩ := under
        obtain ⟨rest, split, done, full⟩ := registerOverLocal_covered well enters member plain covers
        rcases Nat.lt_or_ge ndMemoryBankMax (rest.length + (pieces bank request).length) with much | room
        · rw [full much] at granted
          exact absurd granted Bool.false_ne_true
        · obtain ⟨one, ran, moved⟩ := done room
          rw [ran] at mapped ⊢
          have same : one.Perm (request.entry :: (beside bank request ++ rest)) :=
            moved.trans ((pieces_perm bank request).append_right rest)
          obtain ⟨restored, gone, left⟩ := undone_of_stay ndMemsize enters mapped same
            (.inr ⟨bank, rest, plain, covers, split, .refl _⟩)
          exact ⟨restored, _, gone, left⟩
      · rw [registerOverLocal_refused well enters free fun bank member here => under ⟨bank, member, here⟩]
          at granted
        exact absurd granted Bool.false_ne_true
  · rw [registerOverLocal_unfit enters] at granted
    exact absurd granted Bool.false_ne_true

section Words

variable {piece : MemoryBank Pointer} {address : BitVec 32}

theorem mem_beside : piece ∈ beside bank request ↔
    (bank.startWord < request.startWord ∧ piece = lowPart bank request) ∨
      (request.endWord < bank.endWord ∧ piece = highPart bank request) := by
  rw [beside]
  by_cases lower : bank.startWord < request.startWord <;>
    by_cases higher : request.endWord < bank.endWord <;> simp [lower, higher]

variable (enters : request.entry.Proper) (fits : bank.Proper)

include enters fits in
/-- A word beside the window keeps its bank. -/
theorem holds_beside (covers : Covers bank request.entry) (outside : ¬ request.entry.Holds address) :
    bank.Holds address ↔ ∃ piece ∈ beside bank request, piece.Holds address := by
  unfold Covers at covers
  unfold Holds at outside
  constructor
  · intro holds
    unfold Holds at holds
    by_cases before : address.toNat < request.entry.first
    · have lower : bank.startWord < request.startWord := by
        rw [BitVec.lt_def]
        exact Nat.lt_of_le_of_lt holds.1 before
      refine ⟨lowPart bank request, mem_beside.mpr (.inl ⟨lower, rfl⟩), holds.1, ?_⟩
      rw [behind_lowPart lower]
      exact before
    · have higher : request.endWord < bank.endWord := by
        rw [higher_iff enters fits]
        omega
      refine ⟨highPart bank request, mem_beside.mpr (.inr ⟨higher, rfl⟩), ?_, ?_⟩
      · rw [first_highPart _ enters]
        omega
      · rw [behind_highPart fits higher]
        exact holds.2
  · rintro ⟨piece, member, low, high⟩
    have some := enters.some
    rcases mem_beside.mp member with ⟨lower, rfl⟩ | ⟨higher, rfl⟩
    · rw [behind_lowPart lower] at high
      exact ⟨low, by omega⟩
    · rw [first_highPart _ enters] at low
      rw [behind_highPart fits higher] at high
      exact ⟨by omega, high⟩

theorem plain_beside (plain : bank.plain = true) (member : piece ∈ beside bank request) :
    piece.plain = true := by
  rcases mem_beside.mp member with ⟨-, rfl⟩ | ⟨-, rfl⟩
  · exact plain
  · rfl

end Words

namespace Undone

variable {ndMemsize : BitVec 32} {restored stay : BankTable Pointer} {address : BitVec 32}

theorem mem (gone : Undone ndMemsize request table restored stay) :
    bank ∈ restored ↔ bank ∈ back ndMemsize request ∨ bank ∈ stay := by
  rw [gone.same.mem_iff, List.mem_append]

/-- No bank that stays holds a word of the window. -/
theorem not_stay (gone : Undone ndMemsize request table restored stay)
    (inside : request.entry.Holds address) (member : bank ∈ stay) : ¬ bank.Holds address := by
  intro holds
  have apart := gone.free bank member
  unfold Holds at inside holds
  unfold Apart at apart
  omega

/-- A word of the window is local memory below the installed size, and nothing from there on. -/
theorem kindAt_inside (gone : Undone ndMemsize request table restored stay)
    (inside : request.entry.Holds address) :
    (restored.lookup address).map kind = if address < ndMemsize then some (.localRam, none) else none := by
  have enters := gone.enters
  by_cases below : address < ndMemsize
  · rw [if_pos below, kindAt_iff gone.well]
    rw [BitVec.lt_def] at below
    have start : request.startWord < ndMemsize := by
      rw [BitVec.lt_def]
      exact Nat.lt_of_le_of_lt inside.1 below
    have some : ∃ bank, bank ∈ back ndMemsize request := by
      rw [back, if_pos start]
      exact ⟨_, List.mem_singleton_self _⟩
    obtain ⟨bank, member⟩ := some
    obtain ⟨-, -, low, high, plain⟩ := mem_back enters member
    refine ⟨bank, gone.mem.mpr (.inl member), ?_, kind_plain plain⟩
    rw [Holds, low, high]
    exact ⟨inside.1, by have := inside.2; omega⟩
  · rw [if_neg below]
    rw [BitVec.lt_def] at below
    apply kindAt_none gone.well
    intro bank member holds
    rcases gone.mem.mp member with member | member
    · obtain ⟨-, -, -, high, -⟩ := mem_back enters member
      have last := holds.2
      omega
    · exact gone.not_stay inside member holds

/-- A word outside the window keeps its type and its backing. -/
theorem kindAt_outside (gone : Undone ndMemsize request table restored stay) (well : table.WellFormed)
    (outside : ¬ request.entry.Holds address) :
    (restored.lookup address).map kind = (table.lookup address).map kind := by
  have enters := gone.enters
  have notBack {bank : MemoryBank Pointer} (member : bank ∈ back ndMemsize request) :
      ¬ bank.Holds address := by
    intro holds
    obtain ⟨-, -, low, high, -⟩ := mem_back enters member
    unfold Holds at outside holds
    omega
  apply kindAt_congr gone.well well
  · intro bank member holds
    rcases gone.mem.mp member with member | member
    · exact absurd holds (notBack member)
    · rcases gone.came with ⟨-, same⟩ | ⟨local', rest, plain, covers, split, same⟩
      · exact ⟨bank, same.mem_iff.mp member, holds, rfl⟩
      · rcases List.mem_append.mp (same.mem_iff.mp member) with piece | member
        · have fits := well.fits local' (split.mem_iff.mpr List.mem_cons_self)
          refine ⟨local', split.mem_iff.mpr List.mem_cons_self,
            (holds_beside enters fits covers outside).mpr ⟨bank, piece, holds⟩, ?_⟩
          rw [kind_plain plain, kind_plain (plain_beside plain piece)]
        · exact ⟨bank, split.mem_iff.mpr (List.mem_cons_of_mem _ member), holds, rfl⟩
  · intro bank member holds
    rcases gone.came with ⟨-, same⟩ | ⟨local', rest, plain, covers, split, same⟩
    · exact ⟨bank, gone.mem.mpr (.inr (same.mem_iff.mpr member)), holds, rfl⟩
    · rcases List.mem_cons.mp (split.mem_iff.mp member) with rfl | member
      · obtain ⟨piece, part, holds'⟩ :=
          (holds_beside enters (well.fits bank member) covers outside).mp holds
        refine ⟨piece, gone.mem.mpr (.inr (same.mem_iff.mpr (List.mem_append_left _ part))), holds', ?_⟩
        rw [kind_plain plain, kind_plain (plain_beside plain part)]
      · exact ⟨bank, gone.mem.mpr (.inr (same.mem_iff.mpr (List.mem_append_right _ member))), holds, rfl⟩

end Undone

/-- The window lay over no bank and above the installed memory, or it was one whole local bank. -/
def Restorable (ndMemsize : BitVec 32) (request : BankRequest Pointer) (table : BankTable Pointer) : Prop :=
  (Free request.entry table ∧ ndMemsize ≤ request.startWord) ∨
    ∃ bank ∈ table, bank.plain = true ∧ bank.startWord = request.startWord ∧
      bank.lengthWord = request.lengthWord ∧ bank.endWord ≤ ndMemsize

/-- The request for exactly the words of a bank. -/
def whole (bank : MemoryBank Pointer) : BankRequest Pointer :=
  .bare bank.startWord bank.lengthWord .localRam

namespace Undone

variable {ndMemsize : BitVec 32} {restored stay : BankTable Pointer}
  (gone : Undone ndMemsize request table restored stay) (well : table.WellFormed)

include gone

/-- A free window came over no bank. -/
theorem of_free (free : Free request.entry table) : stay.Perm table := by
  rcases gone.came with ⟨-, same⟩ | ⟨bank, rest, -, covers, split, -⟩
  · exact same
  · have apart := free bank (split.mem_iff.mpr List.mem_cons_self)
    have some := gone.enters.some
    unfold Covers at covers
    unfold Apart at apart
    omega

include well in
/-- A window that was a whole bank left nothing beside it. -/
theorem of_whole (member : bank ∈ table) (start : bank.startWord = request.startWord)
    (length : bank.lengthWord = request.lengthWord) :
    ∃ rest, table.Perm (bank :: rest) ∧ stay.Perm rest := by
  have some := gone.enters.some
  have first' : bank.first = request.entry.first := congrArg BitVec.toNat start
  have behind' : bank.behind = request.entry.behind := by
    rw [behind, start, length]
    rfl
  rcases gone.came with ⟨free, -⟩ | ⟨bank', rest, -, covers, split, same⟩
  · have apart := free bank member
    unfold Apart at apart
    omega
  · have inside : bank' ∈ table := split.mem_iff.mpr List.mem_cons_self
    unfold Covers at covers
    obtain rfl := well.separate.eq_of_meet member inside (by omega) (by omega)
    have last : bank.endWord = request.endWord := by rw [endWord, start, length, BankRequest.endWord]
    have none : beside bank request = [] := by
      rw [beside, start, last, if_neg (BitVec.lt_irrefl _), if_neg (BitVec.lt_irrefl _)]
      rfl
    rw [none] at same
    exact ⟨rest, split, same⟩

include well in
theorem alike (restorable : Restorable ndMemsize request table) : Alike restored table := by
  have same := Alike.of_perm gone.same
  rcases restorable with ⟨free, above⟩ | ⟨bank, member, plain, start, length, inside⟩
  · have none : back ndMemsize request = [] := by
      rw [back, if_neg (BitVec.not_lt.mpr above)]
    rw [none] at same
    exact same.trans (Alike.of_perm (gone.of_free free))
  · obtain ⟨rest, split, kept⟩ := gone.of_whole well member start length
    have fits := well.fits bank member
    have last : bank.endWord = request.endWord := by rw [endWord, start, length, BankRequest.endWord]
    rw [last] at inside
    have below : request.startWord < ndMemsize := by
      rw [BitVec.le_def, request_end gone.enters] at inside
      rw [BitVec.lt_def]
      exact Nat.lt_of_lt_of_le gone.enters.some inside
    have whole' : request.endWord - request.startWord = bank.lengthWord := by
      rw [← last, endWord, start, BitVec.add_comm, BitVec.add_sub_cancel]
    have given : back ndMemsize request = [(whole bank).entry] := by
      rw [back, if_pos below, if_neg (BitVec.not_lt.mpr inside), whole', whole, start]
    have shapes : (whole bank).entry.shape = bank.shape := by
      rw [MemoryBank.plain, decide_eq_true_eq] at plain
      rw [shape, shape, plain.1, plain.2.1, plain.2.2]
      rfl
    rw [given] at same
    refine same.trans ?_
    refine Alike.trans ?_ (Alike.of_perm split).symm
    rw [Alike, List.singleton_append, List.map_cons, List.map_cons, shapes]
    exact (kept.map shape).cons _

include well in
theorem sameMap (restorable : Restorable ndMemsize request table) : SameMap table restored := by
  intro address
  by_cases inside : request.entry.Holds address
  · rw [gone.kindAt_inside inside]
    rcases restorable with ⟨free, above⟩ | ⟨bank, member, plain, start, length, ends⟩
    · rw [kindAt_none well, if_neg]
      · rw [BitVec.le_def] at above
        rw [BitVec.lt_def]
        exact Nat.not_lt.mpr (Nat.le_trans above inside.1)
      · intro bank member holds
        exact gone.not_stay inside ((gone.of_free free).mem_iff.mpr member) holds
    · have fits := well.fits bank member
      have holds : bank.Holds address := by
        rw [Holds, first, behind, start, length]
        exact inside
      rw [BitVec.le_def, toNat_endWord fits] at ends
      rw [if_pos (by rw [BitVec.lt_def]; exact Nat.lt_of_lt_of_le holds.2 ends), kindAt_iff well]
      exact ⟨bank, member, holds, kind_plain plain⟩
  · exact (gone.kindAt_outside well inside).symm

include well in
/-- A window that left the map alone was inside the installed memory, or above it. -/
theorem inside_of_sameMap (same : SameMap table restored) :
    (Free request.entry table ∧ ndMemsize ≤ request.startWord) ∨
      ∃ bank rest, bank.plain = true ∧ Covers bank request.entry ∧ table.Perm (bank :: rest) ∧
        stay.Perm (beside bank request ++ rest) ∧ request.entry.behind ≤ ndMemsize.toNat := by
  have some := gone.enters.some
  rcases gone.came with ⟨free, -⟩ | ⟨bank, rest, plain, covers, split, kept⟩
  · refine .inl ⟨free, ?_⟩
    by_contra below
    rw [BitVec.not_le] at below
    have holds : request.entry.Holds request.startWord := ⟨Nat.le_refl _, some⟩
    have here := same request.startWord
    rw [gone.kindAt_inside holds, if_pos below, kindAt_none well] at here
    · exact absurd here.symm (Option.some_ne_none _)
    · intro bank member taken
      exact gone.not_stay holds ((gone.of_free free).mem_iff.mpr member) taken
  · refine .inr ⟨bank, rest, plain, covers, split, kept, ?_⟩
    by_contra above
    have bound := gone.enters.2
    have value : (BitVec.ofNat 32 (request.entry.behind - 1)).toNat = request.entry.behind - 1 := by
      rw [BitVec.toNat_ofNat, Nat.mod_eq_of_lt (by omega)]
    generalize BitVec.ofNat 32 (request.entry.behind - 1) = address at value
    have holds : request.entry.Holds address := ⟨by omega, by omega⟩
    have member : bank ∈ table := split.mem_iff.mpr List.mem_cons_self
    have here := same address
    rw [gone.kindAt_inside holds, if_neg (by rw [BitVec.lt_def]; omega), (kindAt_iff well address _).mpr
      ⟨bank, member, ⟨Nat.le_trans covers.1 holds.1, Nat.lt_of_lt_of_le holds.2 covers.2⟩, rfl⟩] at here
    exact absurd here (Option.some_ne_none _)

omit gone in
/-- A local bank can be covered whole. -/
theorem whole_granted (well : table.WellFormed) (member : bank ∈ table) (plain : bank.plain = true) :
    (table.registerOverLocal (whole bank)).1 = true := by
  have covers : Covers bank (whole bank).entry := ⟨Nat.le_refl _, Nat.le_refl _⟩
  have enters : (whole bank).entry.Proper := well.fits bank member
  obtain ⟨rest, split, done, -⟩ := registerOverLocal_covered well enters member plain covers
  have one : pieces bank (whole bank) = [(whole bank).entry] := by
    rw [pieces]
    change (if bank.startWord < bank.startWord then _ else _) ++ _ ++
      (if bank.endWord < bank.endWord then _ else _) = _
    rw [if_neg (BitVec.lt_irrefl _), if_neg (BitVec.lt_irrefl _)]
    rfl
  have slots := (well.perm split).slots
  rw [List.length_cons] at slots
  obtain ⟨mapped, ran, -⟩ := done (by rw [one, List.length_singleton]; exact slots)
  rw [ran]

include well in
/-- A bank in several pieces cannot be covered whole. -/
theorem whole_refused {rest : BankTable Pointer} (covers : Covers bank request.entry)
    (split : table.Perm (bank :: rest)) (kept : stay.Perm (beside bank request ++ rest))
    (part : ∃ piece, piece ∈ beside bank request) :
    (restored.registerOverLocal (whole bank)).1 = false := by
  have member : bank ∈ table := split.mem_iff.mpr List.mem_cons_self
  have fits := well.fits bank member
  have enters := gone.enters
  have some := enters.some
  have within := covers
  unfold Covers at within
  have pieceWithin {piece : MemoryBank Pointer} (inside : piece ∈ beside bank request) :
      piece.Proper ∧ Covers bank piece := by
    refine piece_within enters fits covers ?_
    rw [(pieces_perm bank request).mem_iff]
    exact List.mem_cons_of_mem _ inside
  have smaller {piece : MemoryBank Pointer} (inside : piece ∈ beside bank request) :
      bank.first < piece.first ∨ piece.behind < bank.behind := by
    rcases mem_beside.mp inside with ⟨lower, rfl⟩ | ⟨higher, rfl⟩
    · rw [behind_lowPart lower]
      omega
    · rw [first_highPart _ enters]
      omega
  have partial' : bank.first < request.entry.first ∨ request.entry.behind < bank.behind := by
    obtain ⟨piece, inside⟩ := part
    rcases mem_beside.mp inside with ⟨lower, -⟩ | ⟨higher, -⟩
    · rw [BitVec.lt_def] at lower
      exact .inl lower
    · exact .inr ((higher_iff enters fits).mp higher)
  have taken : ¬ Free (whole bank).entry restored := by
    intro free
    obtain ⟨piece, inside⟩ := part
    have apart := free piece (gone.mem.mpr (.inr (kept.mem_iff.mpr (List.mem_append_left _ inside))))
    obtain ⟨pieceFits, low, high⟩ := pieceWithin inside
    have pieceSome := pieceFits.some
    change bank.behind ≤ piece.first ∨ piece.behind ≤ bank.first at apart
    omega
  have wholeFits : (whole bank).entry.Proper := fits
  rw [registerOverLocal_refused gone.well wholeFits taken]
  rintro other inside ⟨-, covers'⟩
  change other.first ≤ bank.first ∧ bank.behind ≤ other.behind at covers'
  rcases gone.mem.mp inside with inside | inside
  · obtain ⟨-, -, low, high, -⟩ := mem_back enters inside
    omega
  · rcases List.mem_append.mp (kept.mem_iff.mp inside) with inside | inside
    · have less := smaller inside
      omega
    · have apart := (Separate.cons_iff.mp (well.perm split).separate).2.1 other inside
      have bankSome := fits.some
      omega

include well in
/-- What a window changes is exactly what its place does not allow to restore. -/
theorem restored_iff : SameMap table restored ∧ SameAnswers ndMemsize table restored ↔
    Restorable ndMemsize request table := by
  constructor
  · rintro ⟨map, answers⟩
    rcases gone.inside_of_sameMap well map with free | ⟨bank, rest, plain, covers, split, kept, below⟩
    · exact .inl free
    · have member : bank ∈ table := split.mem_iff.mpr List.mem_cons_self
      have fits := well.fits bank member
      have none : ¬ ∃ piece, piece ∈ beside bank request := by
        intro part
        have answer := List.cons.inj (answers [.registerOverLocal (whole bank)])
        have granted := whole_granted well member plain
        have refused := gone.whole_refused well covers split kept part
        change (table.registerOverLocal (whole bank)).1 = (restored.registerOverLocal (whole bank)).1 ∧ _
          at answer
        rw [granted, refused] at answer
        exact absurd answer.1 Bool.noConfusion
      have low : ¬ bank.startWord < request.startWord := fun lower =>
        none ⟨_, mem_beside.mpr (.inl ⟨lower, rfl⟩)⟩
      have high : ¬ request.endWord < bank.endWord := fun higher =>
        none ⟨_, mem_beside.mpr (.inr ⟨higher, rfl⟩)⟩
      rw [higher_iff gone.enters fits] at high
      rw [BitVec.lt_def] at low
      have start : bank.startWord.toNat = request.startWord.toNat := by
        have first' := covers.1
        change bank.startWord.toNat ≤ request.startWord.toNat at first'
        omega
      have last : bank.behind = request.entry.behind := by
        have behind' := covers.2
        omega
      refine .inr ⟨bank, member, plain, BitVec.eq_of_toNat_eq start, BitVec.eq_of_toNat_eq ?_, ?_⟩
      · change bank.startWord.toNat + bank.lengthWord.toNat =
          request.startWord.toNat + request.lengthWord.toNat at last
        omega
      · rw [BitVec.le_def, toNat_endWord fits, last]
        exact below
  · intro restorable
    have answers := (gone.alike well restorable).sameAnswers ndMemsize gone.well well
    exact ⟨gone.sameMap well restorable, fun calls => (answers calls).symm⟩

include well in
/-- A restored map leaves every plain registration as it was, where a slot is left. -/
theorem registerBacked_same (same : SameMap table restored) (slot : restored.length < ndMemoryBankMax)
    (later : BankRequest Pointer) :
    (restored.registerBacked later).1 = (table.registerBacked later).1 := by
  have slots : table.length < ndMemoryBankMax := by
    have length := gone.same.length_eq
    rw [List.length_append] at length
    rcases gone.inside_of_sameMap well same with ⟨free, -⟩ | ⟨bank, rest, -, -, split, kept, below⟩
    · rw [(gone.of_free free).length_eq] at length
      omega
    · have one : (back ndMemsize request).length = 1 := by
        have start : request.startWord < ndMemsize := by
          rw [BitVec.lt_def]
          exact Nat.lt_of_lt_of_le gone.enters.some below
        rw [back, if_pos start, List.length_singleton]
      rw [split.length_eq, List.length_cons]
      rw [kept.length_eq, List.length_append, one] at length
      omega
  have free (enters : later.entry.Proper) : Free later.entry table ↔ Free later.entry restored := by
    rw [free_iff well enters, free_iff gone.well enters]
    exact forall_congr' fun address => by rw [same address]
  by_cases accepts : Accepts later table
  · rw [registerBacked_accepted well.fits accepts, registerBacked_accepted gone.well.fits
      ⟨accepts.fits, (free accepts.fits).mp accepts.free, slot⟩]
  · rw [registerBacked_refused well.fits accepts, registerBacked_refused gone.well.fits fun accepted =>
      accepts ⟨accepted.fits, (free accepted.fits).mpr accepted.free, slots⟩]

end Undone

end BankTable

section Runs

open BankTable

variable (ndMemsize : BitVec 32)

/-- A granted window over local memory can always be taken away. The words outside keep their type
and their backing, a word of the window is local memory below the installed size and nothing from
there on. A restored map answers every plain registration as before, while a slot is left, and the
map and all later answers come back exactly for a window above the installed memory and for a
window that was a whole local bank. -/
theorem overLocal_undone (calls : List (BankCall Pointer)) (request : BankRequest Pointer) :
    let table := runBankCalls ndMemsize calls (BankTable.init ndMemsize)
    (table.registerOverLocal request).1 = true →
      ∃ restored, (table.registerOverLocal request).2.unregisterOverLocal ndMemsize request.startWord =
          (true, restored) ∧
        (∀ address, ¬ request.entry.Holds address →
          (restored.lookup address).map MemoryBank.kind = (table.lookup address).map MemoryBank.kind) ∧
        (∀ address, request.entry.Holds address → (restored.lookup address).map MemoryBank.kind =
          if address < ndMemsize then some (.localRam, none) else none) ∧
        (SameMap table restored → restored.length < ndMemoryBankMax →
          ∀ later, (restored.registerBacked later).1 = (table.registerBacked later).1) ∧
        (SameMap table restored ∧ SameAnswers ndMemsize table restored ↔
          Restorable ndMemsize request table) := by
  intro table granted
  have well : table.WellFormed := runBankCalls_wellFormed ndMemsize calls (init_wellFormed ndMemsize)
  obtain ⟨restored, stay, ran, gone⟩ := undone well granted ndMemsize
  exact ⟨restored, ran, fun address outside => gone.kindAt_outside well outside,
    fun address inside => gone.kindAt_inside inside, gone.registerBacked_same well,
    gone.restored_iff well⟩

/-- A window of ten words in a hundred words of local memory. -/
def innerWindow : BankRequest Unit := ⟨10, 10, .pioc, some (), some (), none⟩

theorem overLocal_undone_inner :
    ∃ restored, (registerOverLocal innerWindow (BankTable.init 100)).2.unregisterOverLocal 100 10 =
        (true, restored) ∧
      ∀ address, innerWindow.entry.Holds address → (restored.lookup address).map MemoryBank.kind =
        if address < 100 then some (.localRam, none) else none := by
  obtain ⟨restored, ran, -, inside, -⟩ := overLocal_undone 100 [] innerWindow (by decide)
  exact ⟨restored, ran, inside⟩

/-- The local memory comes back in three banks, and no later window covers it whole. -/
theorem innerWindow_visible :
    let table : BankTable Unit := BankTable.init 100
    ∃ mapped restored, table.registerOverLocal innerWindow = (true, mapped) ∧
      mapped.unregisterOverLocal 100 10 = (true, restored) ∧
      bankAnswers 100 [.registerOverLocal (.bare 0 100 .pioc)] table = [true] ∧
      bankAnswers 100 [.registerOverLocal (.bare 0 100 .pioc)] restored = [false] :=
  ⟨_, _, rfl, rfl, by decide, by decide⟩

end Runs

end Nd100x
