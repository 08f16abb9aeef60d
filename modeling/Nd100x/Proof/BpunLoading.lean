import Nd100x.Machine.Bpun
import Mathlib.Data.BitVec
import Mathlib.Tactic.SplitIfs

namespace Nd100x

open Nd100x.Library (joinHalves joinHalves_halves)

section Purpose

/-- The word behind a physical address is in the shadow memory, in a bank or in local memory. -/
def CpuState.physicalWord {World : Type} (config : Config World) (s : CpuState World)
    (address : Nat) : Word :=
  if s.mmsIsAddressShadowMemory config.mmsType address false then s.mmsRead config.mmsType address
  else if (mmsMemoryBankLookup s.banks address).any (·.write) then s.window address
  else s.memory address

/-- The high byte of a word comes first. -/
def wordBytes (word : Word) : List (BitVec 8) := [(word >>> 8).setWidth 8, word.setWidth 8]

/-- A file with a preamble, an exclamation mark and a program. -/
structure BpunImage where
  preamble : List (BitVec 8)
  mark : BitVec 8
  address : Word
  count : Word
  data : List Word
  checksum : Word
  action : Word
  plain : ∀ byte ∈ preamble, asciiOf byte ≠ 0x21
  marked : asciiOf mark = 0x21
  counted : data.length = count.toNat
  positive : 0 < count.toNat

namespace BpunImage

def head (image : BpunImage) : List (BitVec 8) :=
  image.preamble ++ image.mark :: (wordBytes image.address ++ wordBytes image.count)

def bytes (image : BpunImage) : List (BitVec 8) :=
  image.head ++ (image.data.flatMap wordBytes ++ (wordBytes image.checksum ++ wordBytes image.action))

/-- Words stand at consecutive addresses of 16 bits, and every other word is kept. -/
def Stored {World : Type} (config : Config World) (base : Word) (words : List Word)
    (s t : CpuState World) : Prop :=
  (∀ place (below : place < words.length),
    t.physicalWord config ((base.toNat + place) % 2 ^ 16) = words[place]) ∧
  ∀ address, (∀ place < words.length, address ≠ (base.toNat + place) % 2 ^ 16) →
    t.physicalWord config address = s.physicalWord config address

/-- The program is in memory, and the header and the result report it. -/
def Exact (image : BpunImage) : Prop :=
  ∀ (World : Type) (config : Config World) (lastHeader : Option BpunHeader) (s : CpuState World),
    0xFFFF < config.ndMemsize →
    ∃ t header code,
      bpunLoad config lastHeader (some image.bytes) s = .ok (code, some header) t ∧
      0 ≤ code ∧
      header.address = image.address ∧ header.count = image.count ∧
      header.action = image.action ∧ header.calculatedChecksum = image.data.sum ∧
      Stored config image.address image.data s t

end BpunImage

/-- The result is negative after a failure. -/
def ReportsFailure (stream : Option (List (BitVec 8))) : Prop :=
  ∀ (World : Type) (config : Config World) (lastHeader : Option BpunHeader) (s : CpuState World),
    0xFFFF < config.ndMemsize →
    ∃ t after code, bpunLoad config lastHeader stream s = .ok (code, after) t ∧ code < 0

namespace BpunImage

/-- The bytes of data that the counter of 16 bits lets through. -/
def dataTaken (image : BpunImage) : Nat :=
  if image.count.toNat % 0x8000 = 0 then 1 else 2 * (image.count.toNat % 0x8000)

/-- The bytes that are read up to the action. -/
def taken (image : BpunImage) : Nat := image.head.length + image.dataTaken + 4

end BpunImage

end Purpose

section Memory

variable {World : Type} {config : Config World} {s : CpuState World} {address other : Nat}
  {value : Word}

/-- A hidden address is in the range of the shadow memory. -/
theorem shadow_range
    (hidden : s.mmsIsAddressShadowMemory config.mmsType address false = true) :
    shadowRamAddress config.mmsType ≤ address ∧ address ≤ 0xFFFF := by
  unfold CpuState.mmsIsAddressShadowMemory at hidden
  have lowest : shadowRamAddress config.mmsType ≤ 0xFE00 := by
    cases config.mmsType <;> decide
  split_ifs at hidden with dma above sees extended larger
  · have start : shadowRamAddress config.mmsType = 0xF800 := by rw [larger.1]; rfl
    have inside := of_decide_eq_true hidden
    omega
  · have inside := of_decide_eq_true hidden
    omega
  · have inside := of_decide_eq_true hidden
    omega

theorem mmsRead_write (inside : shadowRamAddress config.mmsType ≤ address ∧ address ≤ 0xFFFF)
    (otherInside : shadowRamAddress config.mmsType ≤ other ∧ other ≤ 0xFFFF) :
    (s.mmsWrite config.mmsType address value).mmsRead config.mmsType other =
      if other = address then value else s.mmsRead config.mmsType other := by
  have stored : s.mmsWrite config.mmsType address value =
      s.putShadowRam (Function.update s.shadowRam (address - shadowRamAddress config.mmsType)
        value) := by
    rw [CpuState.mmsWrite, if_neg (by omega)]
  have seen : ¬(other < shadowRamAddress config.mmsType ∨ 0xFFFF < other) := by omega
  rw [stored, CpuState.mmsRead, CpuState.mmsRead, if_neg seen, if_neg seen,
    CpuState.putShadowRam_shadowRam]
  by_cases same : other = address
  · rw [if_pos same, same, Function.update_self]
  · rw [if_neg same, Function.update_of_ne (by omega)]

theorem ndEccWriteLatch_latches (ndMemsize : Nat) :
    ∃ latch, s.ndEccWriteLatch ndMemsize address = s.putEccLatch latch := by
  unfold CpuState.ndEccWriteLatch
  dsimp only
  split_ifs
  · exact ⟨s.eccLatch, rfl⟩
  · exact ⟨s.eccLatch, rfl⟩
  · exact ⟨s.eccLatch, rfl⟩
  · exact ⟨_, rfl⟩

/-- A write changes only its own word. -/
theorem writeBpunWord_stores (inside : address < config.ndMemsize) :
    ∃ t, writeBpunWord config address value s = .ok () t ∧
      ∀ other, t.physicalWord config other =
        if other = address then value else s.physicalWord config other := by
  unfold writeBpunWord mmsWritePhysicalMemoryWm
  simp only [Cpu.bind_apply, Cpu.get_apply]
  cases hidden : s.mmsIsAddressShadowMemory config.mmsType address false with
  | true =>
    have range := shadow_range hidden
    refine ⟨s.mmsWrite config.mmsType address value, rfl, fun other => ?_⟩
    obtain ⟨ram, changed⟩ : ∃ ram, s.mmsWrite config.mmsType address value = s.putShadowRam ram := by
      rw [CpuState.mmsWrite, if_neg (by omega)]
      exact ⟨_, rfl⟩
    have view : (s.mmsWrite config.mmsType address value).mmsIsAddressShadowMemory config.mmsType
        other false = s.mmsIsAddressShadowMemory config.mmsType other false := by
      rw [changed]
      rfl
    rw [CpuState.physicalWord, view, CpuState.physicalWord]
    cases seen : s.mmsIsAddressShadowMemory config.mmsType other false with
    | true =>
      rw [if_pos rfl, if_pos rfl]
      exact mmsRead_write range (shadow_range seen)
    | false =>
      have apart : other ≠ address := by
        rintro rfl
        exact absurd (hidden.symm.trans seen) (by decide)
      rw [if_neg Bool.false_ne_true, if_neg Bool.false_ne_true, if_neg apart, changed]
      rfl
  | false =>
    have local_ : ((mmsMemoryBankLookup s.banks address).any (·.write)) = false →
        ∃ t, mmsWritePhysicalMemoryWm.writeLocal config address value .word s = .ok () t ∧
          ∀ other, t.physicalWord config other =
            if other = address then value else s.physicalWord config other := by
      intro plain
      obtain ⟨latch, latched⟩ := @ndEccWriteLatch_latches World s address config.ndMemsize
      unfold mmsWritePhysicalMemoryWm.writeLocal
      rw [if_neg (Nat.not_le.mpr inside), Cpu.modify_apply, latched]
      refine ⟨_, rfl, fun other => ?_⟩
      change (if s.mmsIsAddressShadowMemory config.mmsType other false = true then
          s.mmsRead config.mmsType other
        else if (mmsMemoryBankLookup s.banks other).any (·.write) = true then s.window other
        else Function.update s.memory address value other) = _
      rw [CpuState.physicalWord]
      by_cases same : other = address
      · rw [if_pos same, same, hidden, plain, if_neg Bool.false_ne_true,
          if_neg Bool.false_ne_true, Function.update_self]
      · rw [if_neg same, Function.update_of_ne same]
    rw [if_neg Bool.false_ne_true]
    cases found : mmsMemoryBankLookup s.banks address with
    | none =>
      exact local_ (by rw [found]; rfl)
    | some bank =>
      dsimp only
      cases backed : bank.write with
      | false =>
        rw [if_neg Bool.false_ne_true]
        exact local_ (by rw [found]; exact backed)
      | true =>
        rw [if_pos rfl, Cpu.modify_apply]
        refine ⟨_, rfl, fun other => ?_⟩
        have stored : (s.writeWindow bank address value .word).physicalWord config other =
            (s.putWindow (Function.update s.window address value)).physicalWord config
              other := by
          unfold CpuState.writeWindow
          dsimp only
          split_ifs <;> rfl
        rw [stored]
        change (if s.mmsIsAddressShadowMemory config.mmsType other false = true then
            s.mmsRead config.mmsType other
          else if (mmsMemoryBankLookup s.banks other).any (·.write) = true then
            Function.update s.window address value other
          else s.memory other) = _
        rw [CpuState.physicalWord]
        by_cases same : other = address
        · have answers : (mmsMemoryBankLookup s.banks address).any (·.write) = true := by
            rw [found]
            exact backed
          rw [if_pos same, same, hidden, answers, if_neg Bool.false_ne_true, if_pos rfl,
            Function.update_self]
        · rw [if_neg same, Function.update_of_ne same]

end Memory

section Stream

variable {World : Type} {config : Config World} {s : CpuState World} {loader : BpunLoader}

/-- The stream ends too early. -/
def RefusesBpun (config : Config World) (loader : BpunLoader) (stream : List (BitVec 8))
    (s : CpuState World) : Prop :=
  ∃ t, loadBpunStream config loader stream s = .ok none t

theorem refused_nil : RefusesBpun config loader [] s :=
  ⟨s, loadBpunStream_nil config loader s⟩

/-- A character of the preamble is no exclamation mark. -/
theorem preambleByte_state {byte : BitVec 8} (plain : asciiOf byte ≠ 0x21) :
    (loader.preambleByte byte).loadState = loader.loadState ∧
      (loader.preambleByte byte).header.calculatedChecksum = loader.header.calculatedChecksum := by
  rw [BpunLoader.preambleByte, if_neg plain]
  split_ifs
  · rw [BpunLoader.slash]
    cases loader.number <;> exact ⟨rfl, rfl⟩
  · exact ⟨rfl, rfl⟩
  · exact ⟨rfl, rfl⟩
  · exact ⟨rfl, rfl⟩
  · exact ⟨rfl, rfl⟩

theorem preambleByte_mark {byte : BitVec 8} (marked : asciiOf byte = 0x21) :
    loader.preambleByte byte = loader.mark := by
  rw [BpunLoader.preambleByte, if_pos marked]

theorem stream_preamble (state : loader.loadState = .preamble) (byte : BitVec 8)
    (rest : List (BitVec 8)) :
    loadBpunStream config loader (byte :: rest) =
      loadBpunStream config (loader.preambleByte byte) rest := by
  rw [loadBpunStream.eq_def]
  dsimp only
  rw [state]

theorem stream_address (state : loader.loadState = .address) (high low : BitVec 8)
    (rest : List (BitVec 8)) :
    loadBpunStream config loader (high :: low :: rest) =
      loadBpunStream config (loader.takeAddress high low) rest := by
  rw [loadBpunStream.eq_def]
  dsimp only
  rw [state]

theorem stream_count (state : loader.loadState = .count) (high low : BitVec 8)
    (rest : List (BitVec 8)) :
    loadBpunStream config loader (high :: low :: rest) =
      loadBpunStream config (loader.takeCount high low) rest := by
  rw [loadBpunStream.eq_def]
  dsimp only
  rw [state]

/-- One byte is no word. -/
theorem refused_single (state : loader.loadState ∈
      [LoadState.address, .count, .checksum, .action]) (byte : BitVec 8) :
    RefusesBpun config loader [byte] s := by
  refine ⟨s, ?_⟩
  simp only [List.mem_cons, List.not_mem_nil, or_false] at state
  rw [loadBpunStream]
  rcases state with state | state | state | state <;> rw [state] <;> rfl

/-- The preamble leads to the address. -/
theorem stream_mark {preamble : List (BitVec 8)} {mark : BitVec 8} {rest : List (BitVec 8)}
    (state : loader.loadState = .preamble) (plain : ∀ byte ∈ preamble, asciiOf byte ≠ 0x21)
    (marked : asciiOf mark = 0x21) :
    ∃ found : BpunLoader, found.loadState = .address ∧
      found.header.calculatedChecksum = loader.header.calculatedChecksum ∧
      loadBpunStream config loader (preamble ++ mark :: rest) =
        loadBpunStream config found rest := by
  induction preamble generalizing loader with
  | nil =>
    refine ⟨loader.mark, rfl, rfl, ?_⟩
    rw [List.nil_append, stream_preamble state, preambleByte_mark marked]
  | cons byte preamble ih =>
    have kept := @preambleByte_state loader byte (plain byte List.mem_cons_self)
    obtain ⟨found, address, sum, run⟩ := ih (kept.1.trans state)
      fun other inside => plain other (List.mem_cons_of_mem _ inside)
    refine ⟨found, address, sum.trans kept.2, ?_⟩
    rw [List.cons_append, stream_preamble state, run]

/-- A preamble that is cut off is refused. -/
theorem refused_preamble {preamble : List (BitVec 8)} (state : loader.loadState = .preamble)
    (plain : ∀ byte ∈ preamble, asciiOf byte ≠ 0x21) : RefusesBpun config loader preamble s := by
  induction preamble generalizing loader with
  | nil => exact refused_nil
  | cons byte preamble ih =>
    have kept := @preambleByte_state loader byte (plain byte List.mem_cons_self)
    obtain ⟨t, run⟩ := ih (kept.1.trans state)
      fun other inside => plain other (List.mem_cons_of_mem _ inside)
    exact ⟨t, by rw [stream_preamble state, run]⟩

theorem joinHalves_wordBytes (word : Word) :
    joinHalves ((word >>> 8).setWidth 8) (word.setWidth 8) = word := joinHalves_halves word

/-- The head leads to the data. -/
theorem stream_head (image : BpunImage) (rest : List (BitVec 8))
    (state : loader.loadState = .preamble) :
    ∃ found : BpunLoader, found.loadState = .data ∧
      found.header.calculatedChecksum = loader.header.calculatedChecksum ∧
      found.header.address = image.address ∧ found.header.count = image.count ∧
      found.dataLoadAddress = image.address ∧ found.dataCounter = image.count * 2 ∧
      loadBpunStream config loader (image.head ++ rest) = loadBpunStream config found rest := by
  obtain ⟨marked, address, sum, run⟩ := @stream_mark World config loader image.preamble image.mark
    (wordBytes image.address ++ (wordBytes image.count ++ rest)) state image.plain image.marked
  have addressed := @stream_address World config marked address
    ((image.address >>> 8).setWidth 8) (image.address.setWidth 8) (wordBytes image.count ++ rest)
  have counts := @stream_count World config
    (marked.takeAddress ((image.address >>> 8).setWidth 8) (image.address.setWidth 8)) rfl
    ((image.count >>> 8).setWidth 8) (image.count.setWidth 8) rest
  refine ⟨(marked.takeAddress ((image.address >>> 8).setWidth 8)
    (image.address.setWidth 8)).takeCount ((image.count >>> 8).setWidth 8) (image.count.setWidth 8),
    rfl, sum, joinHalves_wordBytes _, joinHalves_wordBytes _, joinHalves_wordBytes _,
    congrArg (· * 2) (joinHalves_wordBytes _), Eq.trans ?_ counts⟩
  have shape : image.head ++ rest = image.preamble ++ image.mark ::
      (wordBytes image.address ++ (wordBytes image.count ++ rest)) := by
    rw [BpunImage.head, List.append_assoc, List.cons_append, List.append_assoc]
  rw [shape, run]
  exact addressed

/-- A head that is cut off is refused. -/
theorem refused_head (image : BpunImage) {length : Nat} (short : length < image.head.length)
    (state : loader.loadState = .preamble) :
    RefusesBpun config loader (image.head.take length) s := by
  rw [BpunImage.head] at short ⊢
  rcases Nat.lt_or_ge image.preamble.length length with past | inside
  · obtain ⟨more, equal⟩ : ∃ more, length = image.preamble.length + (more + 1) :=
      ⟨length - image.preamble.length - 1, by omega⟩
    have below : more < 4 := by
      rw [List.length_append, List.length_cons, List.length_append] at short
      have bytes : (wordBytes image.address).length + (wordBytes image.count).length = 4 := rfl
      omega
    rw [equal, List.take_length_add_append, List.take_succ_cons]
    obtain ⟨marked, address, _, run⟩ := @stream_mark World config loader image.preamble image.mark
      ((wordBytes image.address ++ wordBytes image.count).take more) state image.plain image.marked
    have cut : RefusesBpun config marked
        ((wordBytes image.address ++ wordBytes image.count).take more) s := by
      match more, below with
      | 0, _ => exact refused_nil
      | 1, _ => exact refused_single (by rw [address]; decide) _
      | 2, _ =>
        exact ⟨s, (congrFun (stream_address address _ _ []) s).trans rfl⟩
      | 3, _ =>
        obtain ⟨t, refused⟩ := @refused_single World config s
          (marked.takeAddress ((image.address >>> 8).setWidth 8) (image.address.setWidth 8))
          (List.mem_cons_of_mem _ List.mem_cons_self) ((image.count >>> 8).setWidth 8)
        exact ⟨t, (congrFun (stream_address address _ _ _) s).trans refused⟩
    obtain ⟨t, refused⟩ := cut
    exact ⟨t, by rw [run]; exact refused⟩
  · rw [List.take_append_of_le_length inside]
    exact refused_preamble state fun byte member =>
      image.plain byte (List.mem_of_mem_take member)

end Stream

section Data

variable {World : Type} {config : Config World} {s : CpuState World} {loader : BpunLoader}

theorem stream_word (state : loader.loadState = .data) (enough : 2 ≤ loader.dataCounter.toNat)
    (high low : BitVec 8) (rest : List (BitVec 8)) :
    loadBpunStream config loader (high :: low :: rest) = (do
      writeBpunWord config loader.dataLoadAddress.toNat (joinHalves high low)
      loadBpunStream config
        (loader.stored (joinHalves high low) (loader.dataCounter - 1 - 1)) rest) := by
  have some : 0 < loader.dataCounter := by
    rw [BitVec.lt_def]
    exact Nat.lt_of_lt_of_le (by decide) enough
  have more : 0 < loader.dataCounter - 1 := by
    rw [BitVec.lt_def]
    bv_omega
  rw [loadBpunStream.eq_def]
  dsimp only
  rw [state]
  dsimp only
  rw [if_pos some, if_pos some, if_pos more]

/-- A cut in the middle of a word is refused. -/
theorem refused_half (state : loader.loadState = .data) (enough : 2 ≤ loader.dataCounter.toNat)
    (high : BitVec 8) : RefusesBpun config loader [high] s := by
  have some : 0 < loader.dataCounter := by
    rw [BitVec.lt_def]
    exact Nat.lt_of_lt_of_le (by decide) enough
  have more : 0 < loader.dataCounter - 1 := by
    rw [BitVec.lt_def]
    bv_omega
  refine ⟨s, ?_⟩
  rw [loadBpunStream.eq_def]
  dsimp only
  rw [state]
  dsimp only
  rw [if_pos some, if_pos some, if_pos more]
  rfl

/-- With a counter of zero one byte is taken, and a word of zero is stored. -/
theorem stream_zero (state : loader.loadState = .data) (none : loader.dataCounter = 0)
    (byte : BitVec 8) (rest : List (BitVec 8)) :
    loadBpunStream config loader (byte :: rest) = (do
      writeBpunWord config loader.dataLoadAddress.toNat 0
      loadBpunStream config (loader.stored 0 0) rest) := by
  rw [loadBpunStream.eq_def]
  dsimp only
  rw [state, none]
  have empty : joinHalves 0 0 = 0 := by decide
  have idle : ¬((0 : Word) < 0) := by decide
  dsimp only
  rw [if_neg idle, if_neg idle, if_neg idle, empty]

/-- A word before the others. -/
theorem stored_cons {base word : Word} {words : List Word} {m t : CpuState World}
    (short : words.length < 0xFFFF)
    (first : ∀ other, m.physicalWord config other =
      if other = base.toNat then word else s.physicalWord config other)
    (others : BpunImage.Stored config (base + 1) words m t) :
    BpunImage.Stored config base (word :: words) s t := by
  have next (place : Nat) : ((base + 1).toNat + place) % 2 ^ 16 = (base.toNat + (place + 1)) % 2 ^ 16 := by
    have step : (base + 1).toNat = (base.toNat + 1) % 2 ^ 16 := by
      rw [BitVec.toNat_add]
      rfl
    rw [step, Nat.mod_add_mod, Nat.add_assoc, Nat.add_comm 1]
  refine ⟨fun place below => ?_, fun address apart => ?_⟩
  · cases place with
    | zero =>
      have base_ : (base.toNat + 0) % 2 ^ 16 = base.toNat := Nat.mod_eq_of_lt base.isLt
      have kept : t.physicalWord config base.toNat = m.physicalWord config base.toNat := by
        refine others.2 base.toNat fun place below same => ?_
        rw [next] at same
        have small := base.isLt
        omega
      rw [base_, kept, first, if_pos rfl]
      rfl
    | succ place =>
      have later := others.1 place (Nat.lt_of_succ_lt_succ below)
      rw [next] at later
      exact later
  · have kept := others.2 address fun place below => by
      rw [next]
      exact apart (place + 1) (Nat.succ_lt_succ below)
    have outside : address ≠ base.toNat := by
      have own := apart 0 (Nat.succ_pos _)
      rwa [Nat.add_zero, Nat.mod_eq_of_lt base.isLt] at own
    rw [kept, first, if_neg outside]

theorem stored_nil {base : Word} : BpunImage.Stored config base [] s s :=
  ⟨fun _ below => absurd below (Nat.not_lt_zero _), fun _ _ => rfl⟩

/-- The words of the data are stored one after another. -/
theorem stream_data (installed : 0xFFFF < config.ndMemsize) {words : List Word}
    (some : words ≠ []) (rest : List (BitVec 8)) (state : loader.loadState = .data)
    (counter : loader.dataCounter.toNat = 2 * words.length) :
    ∃ t after, after.loadState = .checksum ∧
      after.header = { loader.header with
        calculatedChecksum := loader.header.calculatedChecksum + words.sum } ∧
      loadBpunStream config loader (words.flatMap wordBytes ++ rest) s =
        loadBpunStream config after rest t ∧
      BpunImage.Stored config loader.dataLoadAddress words s t := by
  induction words generalizing loader s with
  | nil => exact absurd rfl some
  | cons word words ih =>
    have small := loader.dataCounter.isLt
    have place : loader.dataLoadAddress.toNat < config.ndMemsize :=
      Nat.lt_of_le_of_lt (Nat.le_of_lt_succ loader.dataLoadAddress.isLt) installed
    rw [List.length_cons] at counter
    obtain ⟨m, wrote, first⟩ := @writeBpunWord_stores World config s _ word place
    have left : (loader.dataCounter - 1 - 1).toNat = 2 * words.length := by
      have enough : 2 ≤ loader.dataCounter.toNat := by omega
      bv_omega
    have run : loadBpunStream config loader ((word :: words).flatMap wordBytes ++ rest) s =
        loadBpunStream config (loader.stored word (loader.dataCounter - 1 - 1))
          (words.flatMap wordBytes ++ rest) m := by
      have halves := @stream_word World config loader state (by omega) ((word >>> 8).setWidth 8)
        (word.setWidth 8) (words.flatMap wordBytes ++ rest)
      rw [joinHalves_wordBytes] at halves
      exact (congrFun halves s).trans (Cpu.bind_ok wrote)
    rcases Decidable.em (words = []) with none | others
    · subst none
      have zero : loader.dataCounter - 1 - 1 = 0 := BitVec.eq_of_toNat_eq left
      refine ⟨m, loader.stored word (loader.dataCounter - 1 - 1), ?_, ?_, run, ?_⟩
      · rw [zero]
        rfl
      · have sum : loader.header.calculatedChecksum + word =
            loader.header.calculatedChecksum + [word].sum :=
          congrArg (_ + ·) (BitVec.add_zero word).symm
        exact congrArg (fun sum => { loader.header with calculatedChecksum := sum }) sum
      · exact stored_cons (by decide) first stored_nil
    · have length : 0 < words.length := List.length_pos_iff.mpr others
      have notZero : loader.dataCounter - 1 - 1 ≠ 0 := by
        intro zero
        rw [zero] at left
        have both : 0 = 2 * words.length := left
        omega
      obtain ⟨t, after, checksum, header, later, stored⟩ := @ih m
        (loader.stored word (loader.dataCounter - 1 - 1)) others (if_neg notZero) left
      refine ⟨t, after, checksum, header.trans ?_, run.trans later,
        stored_cons (by omega) first stored⟩
      have sum : loader.header.calculatedChecksum + word + words.sum =
          loader.header.calculatedChecksum + (word :: words).sum := BitVec.add_assoc _ _ _
      exact congrArg (fun sum => { loader.header with calculatedChecksum := sum }) sum

/-- The checksum and the action end the file. -/
theorem stream_tail (state : loader.loadState = .checksum) (counted : loader.header.count ≠ 0)
    (first second third fourth : BitVec 8) (rest : List (BitVec 8)) :
    loadBpunStream config loader (first :: second :: third :: fourth :: rest) s =
      .ok (some { loader.header with
        checksum := joinHalves first second
        action := joinHalves third fourth }) s := by
  have next : (loader.takeChecksum first second).loadState = .action := if_neg fun all => counted all.2.1
  rw [loadBpunStream.eq_def]
  dsimp only
  rw [state]
  dsimp only
  rw [loadBpunStream.eq_def]
  dsimp only
  rw [next]
  rfl

theorem refused_tail (state : loader.loadState = .checksum) (counted : loader.header.count ≠ 0)
    {stream : List (BitVec 8)} (short : stream.length < 4) : RefusesBpun config loader stream s := by
  have next (first second : BitVec 8) : (loader.takeChecksum first second).loadState = .action :=
    if_neg fun all => counted all.2.1
  have takes (first second : BitVec 8) (rest : List (BitVec 8)) :
      loadBpunStream config loader (first :: second :: rest) =
        loadBpunStream config (loader.takeChecksum first second) rest := by
    rw [loadBpunStream.eq_def]
    dsimp only
    rw [state]
  rcases stream with _ | ⟨first, _ | ⟨second, _ | ⟨third, _ | ⟨fourth, rest⟩⟩⟩⟩
  · exact refused_nil
  · exact refused_single (by rw [state]; decide) first
  · exact ⟨s, by rw [takes]; rfl⟩
  · obtain ⟨t, refused⟩ := @refused_single World config s (loader.takeChecksum first second)
        (by rw [next]; decide) third
    exact ⟨t, by rw [takes]; exact refused⟩
  · rw [List.length_cons, List.length_cons, List.length_cons, List.length_cons] at short
    omega

/-- Data that are cut off are refused. -/
theorem refused_data (installed : 0xFFFF < config.ndMemsize) {words : Nat} (some : 0 < words)
    {stream : List (BitVec 8)} (short : stream.length < 2 * words + 4)
    (state : loader.loadState = .data) (counted : loader.header.count ≠ 0)
    (counter : loader.dataCounter.toNat = 2 * words) : RefusesBpun config loader stream s := by
  induction words generalizing loader s stream with
  | zero => exact absurd some (Nat.lt_irrefl 0)
  | succ words ih =>
    have small := loader.dataCounter.isLt
    have place : loader.dataLoadAddress.toNat < config.ndMemsize :=
      Nat.lt_of_le_of_lt (Nat.le_of_lt_succ loader.dataLoadAddress.isLt) installed
    have left : (loader.dataCounter - 1 - 1).toNat = 2 * words := by
      have enough : 2 ≤ loader.dataCounter.toNat := by omega
      bv_omega
    match stream, short with
    | [], _ => exact refused_nil
    | [byte], _ => exact refused_half state (by omega) byte
    | high :: low :: rest, short =>
      obtain ⟨m, wrote, _⟩ := @writeBpunWord_stores World config s _ (joinHalves high low) place
      have run := (congrFun (@stream_word World config loader state (by omega) high low rest) s).trans
        (Cpu.bind_ok wrote)
      have length : rest.length < 2 * words + 4 := by
        rw [List.length_cons, List.length_cons] at short
        omega
      have cut : RefusesBpun config
          (loader.stored (joinHalves high low) (loader.dataCounter - 1 - 1)) rest m := by
        rcases Nat.eq_zero_or_pos words with none | more
        · have zero : loader.dataCounter - 1 - 1 = 0 :=
            BitVec.eq_of_toNat_eq (left.trans (by rw [none]; rfl))
          exact @refused_tail World config m
            (loader.stored (joinHalves high low) (loader.dataCounter - 1 - 1)) (if_pos zero)
            counted rest (by omega)
        · have notZero : loader.dataCounter - 1 - 1 ≠ 0 := by
            intro zero
            rw [zero] at left
            have both : 0 = 2 * words := left
            omega
          exact ih more length (if_neg notZero) counted left
      obtain ⟨t, refused⟩ := cut
      exact ⟨t, run.trans refused⟩

end Data

section Files

variable {World : Type} {config : Config World} {s : CpuState World} {loader : BpunLoader}
  {image : BpunImage}

theorem wordBytes_joinHalves (high low : BitVec 8) : wordBytes (joinHalves high low) = [high, low] := by
  have joined (bit : Nat) (below : bit < 16) : (joinHalves high low).getLsbD bit =
      if bit < 8 then low.getLsbD bit else high.getLsbD (bit - 8) := by
    rw [joinHalves, BitVec.getLsbD_or, BitVec.getLsbD_shiftLeft, BitVec.getLsbD_setWidth,
      BitVec.getLsbD_setWidth]
    by_cases small : bit < 8
    · simp [small, below]
    · have outside : low.getLsbD bit = false := BitVec.getLsbD_of_ge low bit (by omega)
      simp [small, below, outside]
      intro inside
      omega
  rw [wordBytes]
  congr 1
  · apply BitVec.eq_of_getLsbD_eq
    intro bit below
    rw [BitVec.getLsbD_setWidth, BitVec.getLsbD_ushiftRight, joined (8 + bit) (by omega),
      if_neg (by omega), Nat.add_sub_cancel_left, decide_eq_true below, Bool.true_and]
  · congr 1
    apply BitVec.eq_of_getLsbD_eq
    intro bit below
    rw [BitVec.getLsbD_setWidth, joined bit (by omega), if_pos below, decide_eq_true below,
      Bool.true_and]

/-- Bytes in pairs are words. -/
theorem pairs_are_words (words : Nat) {stream : List (BitVec 8)} (enough : 2 * words ≤ stream.length) :
    ∃ (values : List Word) (rest : List (BitVec 8)), values.length = words ∧
      stream = values.flatMap wordBytes ++ rest := by
  induction words generalizing stream with
  | zero => exact ⟨[], stream, rfl, rfl⟩
  | succ words ih =>
    match stream, enough with
    | high :: low :: stream, enough =>
      rw [List.length_cons, List.length_cons] at enough
      obtain ⟨values, rest, length, equal⟩ := @ih stream (by omega)
      refine ⟨joinHalves high low :: values, rest, congrArg (· + 1) length, ?_⟩
      rw [List.flatMap_cons, wordBytes_joinHalves, equal]
      rfl

theorem wordBytes_length (words : List Word) : (words.flatMap wordBytes).length = 2 * words.length := by
  induction words with
  | nil => rfl
  | cons word words ih =>
    rw [List.flatMap_cons, List.length_append, ih, List.length_cons]
    have two : (wordBytes word).length = 2 := rfl
    omega

/-- The counter of bytes has 16 bits. -/
theorem counter_eq (count : Word) : (count * 2).toNat = 2 * (count.toNat % 0x8000) := by
  rw [BitVec.toNat_mul]
  change count.toNat * 2 % 65536 = _
  omega

/-- The words that are stored, and the header that they give. -/
structure Loads (config : Config World) (loader : BpunLoader) (stream : List (BitVec 8))
    (words : List Word) (s : CpuState World) : Prop where
  run : ∃ t header, loadBpunStream config loader stream s = .ok (some header) t ∧
    header.address = loader.header.address ∧ header.count = loader.header.count ∧
    header.calculatedChecksum = loader.header.calculatedChecksum + words.sum ∧
    (∀ checksum action : Word, stream = words.flatMap wordBytes ++
      (wordBytes checksum ++ wordBytes action) → header.action = action) ∧
    BpunImage.Stored config loader.dataLoadAddress words s t

theorem loads_words (installed : 0xFFFF < config.ndMemsize) {words : List Word} (some : words ≠ [])
    {rest : List (BitVec 8)} (enough : 4 ≤ rest.length) (state : loader.loadState = .data)
    (counted : loader.header.count ≠ 0) (counter : loader.dataCounter.toNat = 2 * words.length) :
    Loads config loader (words.flatMap wordBytes ++ rest) words s := by
  obtain ⟨t, after, checksum, header, run, stored⟩ :=
    @stream_data World config s loader installed words some rest state counter
  match rest, enough with
  | first :: second :: third :: fourth :: rest, _ =>
    have tail := @stream_tail World config t after checksum (by rw [header]; exact counted) first
      second third fourth rest
    refine ⟨t, _, run.trans tail, ?_, ?_, ?_, fun sum action same => ?_, stored⟩
    · rw [header]
    · rw [header]
    · rw [header]
    · have ends := List.append_cancel_left same
      simp only [wordBytes, List.cons_append, List.nil_append, List.cons.injEq] at ends
      rw [ends.2.2.1, ends.2.2.2.1]
      exact joinHalves_wordBytes action

/-- The loader at the data of an image. -/
structure AtData (image : BpunImage) (loader : BpunLoader) : Prop where
  state : loader.loadState = .data
  address : loader.header.address = image.address
  count : loader.header.count = image.count
  sum : loader.header.calculatedChecksum = 0
  place : loader.dataLoadAddress = image.address
  counter : loader.dataCounter.toNat = 2 * (image.count.toNat % 0x8000)

theorem AtData.counted (atData : AtData image loader) : loader.header.count ≠ 0 := by
  intro none
  have positive := image.positive
  rw [← atData.count, none] at positive
  exact absurd positive (by decide)

/-- The head leads to the data of the image. -/
theorem stream_atData (config : Config World) (image : BpunImage) (rest : List (BitVec 8)) :
    ∃ found, AtData image found ∧
      loadBpunStream config .initial (image.head ++ rest) = loadBpunStream config found rest := by
  obtain ⟨found, state, sum, address, count, place, counter, run⟩ :=
    @stream_head World config .initial image rest rfl
  exact ⟨found, ⟨state, address, count, sum, place, by rw [counter, counter_eq]⟩, run⟩

/-- The file ends before the action. -/
theorem AtData.refused (atData : AtData image loader) (installed : 0xFFFF < config.ndMemsize)
    {stream : List (BitVec 8)} (short : stream.length < image.dataTaken + 4) :
    RefusesBpun config loader stream s := by
  rw [BpunImage.dataTaken] at short
  split_ifs at short with none
  · have zero : loader.dataCounter = 0 :=
      BitVec.eq_of_toNat_eq (atData.counter.trans (by rw [none]; rfl))
    match stream, short with
    | [], _ => exact refused_nil
    | byte :: rest, short =>
      have place : loader.dataLoadAddress.toNat < config.ndMemsize :=
        Nat.lt_of_le_of_lt (Nat.le_of_lt_succ loader.dataLoadAddress.isLt) installed
      obtain ⟨m, wrote, _⟩ := @writeBpunWord_stores World config s _ 0 place
      obtain ⟨t, refused⟩ := @refused_tail World config m (loader.stored 0 0) rfl atData.counted
        rest (Nat.lt_of_succ_lt_succ (by rw [List.length_cons] at short; omega))
      exact ⟨t, (congrFun (stream_zero atData.state zero byte rest) s).trans
        ((Cpu.bind_ok wrote).trans refused)⟩
  · exact refused_data installed (Nat.pos_of_ne_zero none) short atData.state atData.counted
      atData.counter

/-- At most 32767 words are stored. -/
theorem AtData.ends (atData : AtData image loader) (installed : 0xFFFF < config.ndMemsize)
    {stream : List (BitVec 8)} (enough : image.dataTaken + 4 ≤ stream.length) :
    ∃ words t header, words.length < 0x8000 ∧ words.length ≤ max 1 (image.count.toNat % 0x8000) ∧
      loadBpunStream config loader stream s = .ok (some header) t ∧
      BpunImage.Stored config image.address words s t := by
  rw [BpunImage.dataTaken] at enough
  split_ifs at enough with none
  · have zero : loader.dataCounter = 0 :=
      BitVec.eq_of_toNat_eq (atData.counter.trans (by rw [none]; rfl))
    match stream, enough with
    | byte :: first :: second :: third :: fourth :: _, _ =>
      have place : loader.dataLoadAddress.toNat < config.ndMemsize :=
        Nat.lt_of_le_of_lt (Nat.le_of_lt_succ loader.dataLoadAddress.isLt) installed
      obtain ⟨m, wrote, word⟩ := @writeBpunWord_stores World config s _ 0 place
      have tail := @stream_tail World config m (loader.stored 0 0) rfl atData.counted first second
        third fourth
      have stored : BpunImage.Stored config image.address [0] s m := by
        rw [← atData.place]
        exact stored_cons (by decide) word stored_nil
      exact ⟨[0], m, _, by decide, Nat.le_max_left _ _,
        (congrFun (stream_zero atData.state zero byte _) s).trans
          ((Cpu.bind_ok wrote).trans (tail _)), stored⟩
  · obtain ⟨words, rest, length, equal⟩ :=
      @pairs_are_words (image.count.toNat % 0x8000) stream (by omega)
    have some : words ≠ [] := by
      rw [← List.length_pos_iff, length]
      exact Nat.pos_of_ne_zero none
    have left : 4 ≤ rest.length := by
      rw [equal, List.length_append, wordBytes_length, length] at enough
      omega
    obtain ⟨⟨t, header, run, _, _, _, _, stored⟩⟩ := @loads_words World config s loader installed
      words some rest left atData.state atData.counted (by rw [atData.counter, length])
    rw [atData.place] at stored
    refine ⟨words, t, header, ?_, ?_, by rw [equal]; exact run, stored⟩
    · rw [length]
      exact Nat.mod_lt _ (by decide)
    · rw [length]
      exact Nat.le_max_right _ _

theorem bpunLoad_read {stream : List (BitVec 8)} {header : BpunHeader} {t : CpuState World}
    (lastHeader : Option BpunHeader)
    (run : loadBpunStream config .initial stream s = .ok (some header) t) :
    bpunLoad config lastHeader (some stream) s = .ok (header.boot.toNat, some header) t := by
  rw [bpunLoad, Cpu.bind_ok run]
  rfl

theorem bpunLoad_refused {stream : List (BitVec 8)} (lastHeader : Option BpunHeader)
    (refused : RefusesBpun config .initial stream s) :
    ∃ t, bpunLoad config lastHeader (some stream) s = .ok (-1, lastHeader) t := by
  obtain ⟨t, run⟩ := refused
  refine ⟨t, ?_⟩
  rw [bpunLoad, Cpu.bind_ok run]
  rfl

/-- An image whose count has fifteen bits is loaded. -/
theorem exact_of_small (small : image.count.toNat < 0x8000) : image.Exact := by
  intro World config lastHeader s installed
  obtain ⟨found, atData, head⟩ := stream_atData config image
    (image.data.flatMap wordBytes ++ (wordBytes image.checksum ++ wordBytes image.action))
  have length := image.counted
  have some : image.data ≠ [] := by
    rw [← List.length_pos_iff, length]
    exact image.positive
  have counter : found.dataCounter.toNat = 2 * image.data.length := by
    rw [atData.counter, length, Nat.mod_eq_of_lt small]
  obtain ⟨⟨t, header, run, address, count, sum, action, stored⟩⟩ := @loads_words World config s found
    installed image.data some (wordBytes image.checksum ++ wordBytes image.action) (Nat.le_refl 4)
    atData.state atData.counted counter
  refine ⟨t, header, header.boot.toNat, bpunLoad_read lastHeader ((congrFun head s).trans run),
    Int.natCast_nonneg _, address.trans atData.address, count.trans atData.count,
    action image.checksum image.action rfl, ?_, ?_⟩
  · rw [sum, atData.sum]
    exact BitVec.zero_add _
  · rw [← atData.place]
    exact stored

/-- A memory in which every word is the same. -/
def filledMachine (word : Word) : CpuState Unit :=
  { cpuInit bareMachine () with
    memory := fun _ => word
    shadowRam := fun _ => word }

theorem filledMachine_word (word : Word) (address : Nat) :
    (filledMachine word).physicalWord bareMachine address = word := by
  rw [CpuState.physicalWord]
  cases hidden : (filledMachine word).mmsIsAddressShadowMemory bareMachine.mmsType address false with
  | true =>
    have range := shadow_range hidden
    rw [if_pos rfl, CpuState.mmsRead, if_neg (by omega)]
    rfl
  | false =>
    have plain : (mmsMemoryBankLookup (filledMachine word).banks address).any (·.write) = false := by
      cases found : mmsMemoryBankLookup (filledMachine word).banks address with
      | none => rfl
      | some bank =>
        have inside := List.mem_of_find?_eq_some found
        have only : bank ∈ [(⟨0, 2097152, .localRam, false, false, false⟩ : NdMemoryBank)] := inside
        rw [List.mem_singleton.mp only]
        rfl
    rw [if_neg Bool.false_ne_true, plain, if_neg Bool.false_ne_true]
    rfl

/-- The counter loses the high bit of the count, and the last word is not stored. -/
theorem not_exact_of_large (large : 0x8000 ≤ image.count.toNat) : ¬image.Exact := by
  intro exactly
  have length := image.counted
  have below := image.count.isLt
  have last : image.count.toNat - 1 < image.data.length := by omega
  obtain ⟨t, header, code, run, _, _, _, _, _, all⟩ :=
    exactly Unit bareMachine none (filledMachine (~~~image.data[image.count.toNat - 1])) (by decide)
  obtain ⟨found, atData, head⟩ := stream_atData bareMachine image
    (image.data.flatMap wordBytes ++ (wordBytes image.checksum ++ wordBytes image.action))
  have enough : image.dataTaken + 4 ≤
      (image.data.flatMap wordBytes ++ (wordBytes image.checksum ++ wordBytes image.action)).length := by
    have tail : (wordBytes image.checksum ++ wordBytes image.action).length = 4 := rfl
    rw [List.length_append, wordBytes_length, tail, length, BpunImage.dataTaken]
    split_ifs <;> omega
  obtain ⟨words, m, other, short, _, loaded, stored⟩ := @AtData.ends Unit bareMachine
    (filledMachine (~~~image.data[image.count.toNat - 1])) found image atData (by decide) _ enough
  have same : bpunLoad bareMachine none (some image.bytes)
      (filledMachine (~~~image.data[image.count.toNat - 1])) = .ok (other.boot.toNat, some other) m :=
    bpunLoad_read none ((congrFun head _).trans loaded)
  have states : t = m := by
    have both := run.symm.trans same
    injection both
  have kept := stored.2 ((image.address.toNat + (image.count.toNat - 1)) % 2 ^ 16)
    fun place inside equal => by
      have small := image.address.isLt
      omega
  have written := all.1 (image.count.toNat - 1) last
  rw [states, kept, filledMachine_word] at written
  have flips := congrArg (fun word : Word => word.getLsbD 0) written
  rw [BitVec.getLsbD_not] at flips
  cases first : (image.data[image.count.toNat - 1]).getLsbD 0 <;> rw [first] at flips <;>
    exact absurd flips (by decide)

/-- A cut is refused exactly when it ends before the bytes that are read. -/
theorem cut_reports (image : BpunImage) (length : Nat) :
    ReportsFailure (some (image.bytes.take length)) ↔ length < image.taken := by
  have body : (image.data.flatMap wordBytes ++
      (wordBytes image.checksum ++ wordBytes image.action)).length = 2 * image.count.toNat + 4 := by
    have tail : (wordBytes image.checksum ++ wordBytes image.action).length = 4 := rfl
    rw [List.length_append, wordBytes_length, tail, image.counted]
  have dataTaken : image.dataTaken ≤ 2 * image.count.toNat := by
    have positive := image.positive
    rw [BpunImage.dataTaken]
    split_ifs <;> omega
  constructor
  · intro reports
    by_contra long
    rw [BpunImage.taken, Nat.not_lt] at long
    obtain ⟨t, after, code, run, negative⟩ :=
      reports Unit bareMachine none (cpuInit bareMachine ()) (by decide)
    have split : image.bytes.take length = image.head ++
        (image.data.flatMap wordBytes ++ (wordBytes image.checksum ++ wordBytes image.action)).take
          (length - image.head.length) := by
      rw [BpunImage.bytes, List.take_append, List.take_of_length_le (by omega)]
    obtain ⟨found, atData, head⟩ := stream_atData bareMachine image
      ((image.data.flatMap wordBytes ++ (wordBytes image.checksum ++ wordBytes image.action)).take
        (length - image.head.length))
    obtain ⟨words, m, header, _, _, loaded, _⟩ := @AtData.ends Unit bareMachine
      (cpuInit bareMachine ()) found image atData (by decide)
      ((image.data.flatMap wordBytes ++ (wordBytes image.checksum ++ wordBytes image.action)).take
        (length - image.head.length)) (by rw [List.length_take, body]; omega)
    rw [split, bpunLoad_read none ((congrFun head _).trans loaded)] at run
    injection run with value
    injection value with boot
    omega
  · intro short World config lastHeader s installed
    suffices refused : RefusesBpun config .initial (image.bytes.take length) s by
      obtain ⟨t, run⟩ := bpunLoad_refused lastHeader refused
      exact ⟨t, lastHeader, -1, run, by decide⟩
    rcases Nat.lt_or_ge length image.head.length with inHead | past
    · have cut : image.bytes.take length = image.head.take length := by
        rw [BpunImage.bytes, List.take_append_of_le_length (by omega)]
      rw [cut]
      exact refused_head image inHead rfl
    · have split : image.bytes.take length = image.head ++
          (image.data.flatMap wordBytes ++ (wordBytes image.checksum ++ wordBytes image.action)).take
            (length - image.head.length) := by
        rw [BpunImage.bytes, List.take_append, List.take_of_length_le past]
      obtain ⟨found, atData, head⟩ := stream_atData config image
        ((image.data.flatMap wordBytes ++ (wordBytes image.checksum ++ wordBytes image.action)).take
          (length - image.head.length))
      rw [BpunImage.taken] at short
      obtain ⟨t, run⟩ := @AtData.refused World config s found image atData installed
        ((image.data.flatMap wordBytes ++ (wordBytes image.checksum ++ wordBytes image.action)).take
          (length - image.head.length)) (by rw [List.length_take]; omega)
      exact ⟨t, by rw [split, head]; exact run⟩

/-- The result for a missing file is zero, which is a boot address. -/
theorem missing_reports : ¬ReportsFailure none := by
  intro reports
  obtain ⟨t, after, code, run, negative⟩ :=
    reports Unit bareMachine none (cpuInit bareMachine ()) (by decide)
  have value : (0 : Int) = code := by
    have both : EStateM.Result.ok ((0 : Int), (none : Option BpunHeader))
        (cpuInit bareMachine ()) = .ok (code, after) t := run
    injection both with pair
    injection pair
  omega

end Files

section Claims

/-- An image is loaded exactly when its count has fifteen bits, a cut of it is refused exactly when
it ends before the bytes that are read, and a missing file is never reported. -/
theorem bpun_load_exact (image : BpunImage) :
    (image.Exact ↔ image.count.toNat < 0x8000) ∧
      (∀ length, ReportsFailure (some (image.bytes.take length)) ↔ length < image.taken) ∧
      ¬ReportsFailure none := by
  refine ⟨⟨fun exactly => ?_, exact_of_small⟩, cut_reports image, missing_reports⟩
  by_contra large
  exact not_exact_of_large (Nat.not_lt.mp large) exactly

/-- The last word of 32768 equal words is not loaded. -/
def longImage : BpunImage where
  preamble := []
  mark := 0x21
  address := 0
  count := 0x8000
  data := List.replicate 0x8000 1
  checksum := 0x8000
  action := 0
  plain := fun _ inside => absurd inside List.not_mem_nil
  marked := by decide
  counted := by rw [List.length_replicate]; rfl
  positive := by decide

theorem bpun_load_fails : ¬longImage.Exact ∧ ¬ReportsFailure none :=
  ⟨not_exact_of_large (Nat.le_refl _), missing_reports⟩

end Claims

end Nd100x
