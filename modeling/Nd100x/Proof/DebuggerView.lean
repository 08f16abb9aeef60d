import Nd100x.Machine.Physical
import Nd100x.Machine.Reset
import Nd100x.Proof.Translation

namespace Nd100x

variable {World : Type}

/-- The value that a completed run returns. -/
def answer {A : Type} : Outcome World A → Option A
  | .ok value _ => some value
  | .error _ _ => none

section View

variable (config : Config World) (s : CpuState World)

/-- The access raises no trap: it is translated, and the shadow memory, a bank or the installed
memory answers at its address. -/
structure ReachesWord (virtualAddress : Word) (am : AccessMode) (useApt : Bool)
    (physicalAddress : Nat) (t : CpuState World) : Prop where
  mapped : mmsMapVirtualToPhysical config.mmsType virtualAddress am useApt s =
    .ok (some physicalAddress) t
  answers : t.mmsIsAddressShadowMemory config.mmsType physicalAddress false = true ∨
    (mmsMemoryBankLookup t.banks physicalAddress).any (·.read) = true ∨
      physicalAddress < config.ndMemsize

/-- The word is in the installed memory, not in the shadow memory and not behind a bank of another
card. -/
def IsLocal (t : CpuState World) (physicalAddress : Nat) : Prop :=
  t.mmsIsAddressShadowMemory config.mmsType physicalAddress false = false ∧
    (mmsMemoryBankLookup t.banks physicalAddress).any (·.read) = false

/-- The debugger reads and writes the word of an access of the processor. -/
structure Shows (virtualAddress : Word) (am : AccessMode) (useApt : Bool) : Prop where
  read : ∀ {physicalAddress t word u},
    ReachesWord config s virtualAddress am useApt physicalAddress t →
    mmsReadVirtual config am virtualAddress useApt s = .ok word u →
    s.dbgReadVirtualMemoryPil config virtualAddress useApt CpuState.currentPil = word.toNat
  write : ∀ {physicalAddress t value u},
    ReachesWord config s virtualAddress am useApt physicalAddress t →
    s.dbgWriteVirtualMemoryPil config virtualAddress value useApt CpuState.currentPil = (0, u) →
    answer (mmsReadVirtual config am virtualAddress useApt u) = some value ∧
      ∀ other privileged, other ≠ physicalAddress →
        answer (mmsReadPhysicalMemory config other privileged u) =
          answer (mmsReadPhysicalMemory config other privileged s)

/-- Every access of the processor that raises no trap is to a local word. -/
def ReachesLocal (virtualAddress : Word) (am : AccessMode) (useApt : Bool) : Prop :=
  ∀ physicalAddress t, ReachesWord config s virtualAddress am useApt physicalAddress t →
    IsLocal config t physicalAddress

end View

section Frame

variable {config : Config World} {s t : CpuState World} {virtualAddress : Word} {am : AccessMode}
  {useApt : Bool} {physicalAddress : Nat} {memory : Nat → Word}

/-- An access without translation. -/
def CpuState.Direct (s : CpuState World) (mmsType : MmsType) (virtualAddress : Word) : Prop :=
  (s.ring = 3 ∧ s.mmsIsAddressShadowMemory mmsType virtualAddress.toNat false = true) ∨
    s.pagingOn = false

theorem map_direct (direct : s.Direct config.mmsType virtualAddress) :
    mmsMapVirtualToPhysical config.mmsType virtualAddress am useApt s =
      .ok (some virtualAddress.toNat) s := by
  rw [mmsMapVirtualToPhysical, Cpu.bind_ok (Cpu.get_apply s)]
  by_cases shadow : s.ring = 3 ∧
      s.mmsIsAddressShadowMemory config.mmsType virtualAddress.toNat false = true
  · rw [if_pos shadow]
    rfl
  · rcases direct with here | paging
    · exact absurd here shadow
    · rw [if_neg shadow, if_pos (by rw [paging]; exact Bool.false_ne_true)]
      rfl

theorem paged (direct : ¬ s.Direct config.mmsType virtualAddress) :
    s.pagingOn = true ∧
      s.mmsIsAddressShadowMemory config.mmsType virtualAddress.toNat false = false := by
  have paging : s.pagingOn = true := by
    by_contra off
    exact direct (.inr (Bool.eq_false_iff.mpr off))
  refine ⟨paging, ?_⟩
  by_cases ring : s.ring = 3
  · exact Bool.eq_false_iff.mpr fun shadow => direct (.inl ⟨ring, shadow⟩)
  · have closed : ¬ (s.ring = 3 ∨ ¬ s.pagingOn = true ∨ false = true) := by
      rintro (here | off | privileged)
      · exact ring here
      · exact off paging
      · exact Bool.false_ne_true privileged
    rw [CpuState.mmsIsAddressShadowMemory, if_neg closed, ite_self, ite_self]

theorem map_paged (direct : ¬ s.Direct config.mmsType virtualAddress) :
    mmsMapVirtualToPhysical config.mmsType virtualAddress am useApt s =
      translated s config.mmsType virtualAddress am useApt :=
  mmsMapVirtualToPhysical_run s config.mmsType virtualAddress am useApt (paged direct).1
    (paged direct).2

/-- A translation that returns an address found it on a mapped page. -/
theorem translated_some
    (mapped : translated s config.mmsType virtualAddress am useApt = .ok (some physicalAddress) t) :
    s.translationOutcome config.mmsType virtualAddress useApt am = .mapped ∧
      physicalAddress = s.translatedAddress config.mmsType virtualAddress useApt ∧
      t = s.mapped config.mmsType virtualAddress useApt am := by
  rw [translated] at mapped
  split at mapped
  · cases mapped
  · cases mapped
  · cases mapped
  · cases mapped
  · next outcome =>
      cases mapped
      exact ⟨outcome, rfl, rfl⟩

theorem mmsDegrade_putMemory (pageTableRing : BitVec 2) :
    (s.putMemory memory).mmsDegrade am pageTableRing =
      (s.mmsDegrade am pageTableRing).putMemory memory := by
  rw [CpuState.mmsDegrade, CpuState.mmsDegrade]
  change (if mmsDegrades am pageTableRing s.ring = true then _ else _) = _
  split_ifs <;> rfl

theorem mapped_putMemory :
    (s.putMemory memory).mapped config.mmsType virtualAddress useApt am =
      (s.mapped config.mmsType virtualAddress useApt am).putMemory memory := by
  rw [CpuState.mapped, mmsDegrade_putMemory]
  rfl

/-- The translation does not look at the words of the memory. -/
theorem map_putMemory
    (mapped : mmsMapVirtualToPhysical config.mmsType virtualAddress am useApt s =
      .ok (some physicalAddress) t) (memory : Nat → Word) :
    mmsMapVirtualToPhysical config.mmsType virtualAddress am useApt (s.putMemory memory) =
      .ok (some physicalAddress) (t.putMemory memory) := by
  by_cases direct : s.Direct config.mmsType virtualAddress
  · rw [map_direct direct] at mapped
    obtain ⟨same, rfl⟩ := EStateM.Result.ok.inj mapped
    have still : (s.putMemory memory).Direct config.mmsType virtualAddress := direct
    rw [map_direct still, same]
  · rw [map_paged direct] at mapped
    obtain ⟨outcome, rfl, rfl⟩ := translated_some mapped
    have still : ¬ (s.putMemory memory).Direct config.mmsType virtualAddress := direct
    have outcome' : (s.putMemory memory).translationOutcome config.mmsType virtualAddress useApt
        am = .mapped := outcome
    rw [map_paged still, translated, outcome', ← mapped_putMemory]
    rfl

theorem map_memory
    (mapped : mmsMapVirtualToPhysical config.mmsType virtualAddress am useApt s =
      .ok (some physicalAddress) t) : t.memory = s.memory := by
  by_cases direct : s.Direct config.mmsType virtualAddress
  · rw [map_direct direct] at mapped
    obtain ⟨-, rfl⟩ := EStateM.Result.ok.inj mapped
    rfl
  · rw [map_paged direct] at mapped
    obtain ⟨-, -, rfl⟩ := translated_some mapped
    rw [CpuState.mapped, CpuState.mmsDegrade]
    split_ifs <;> rfl

/-- The error bits report and never jump. -/
theorem ndEccReadDetect_ok (ndMemsize address : Nat) (s : CpuState World) :
    ∃ u, ndEccReadDetect ndMemsize address s = .ok () u ∧ u.memory = s.memory := by
  have consumed : ∀ u : CpuState World, (u.consumeLatch address).memory = u.memory := by
    intro u
    rw [CpuState.consumeLatch]
    split_ifs <;> rfl
  rw [ndEccReadDetect, Cpu.bind_ok (Cpu.get_apply s)]
  split_ifs
  · exact ⟨s, rfl, rfl⟩
  · exact ⟨s, rfl, rfl⟩
  · exact ⟨s, rfl, rfl⟩
  · exact ⟨s, rfl, rfl⟩
  · exact ⟨s, rfl, rfl⟩
  · exact ⟨s.consumeLatch address, rfl, consumed s⟩
  · exact ⟨_, rfl, consumed _⟩
  · exact ⟨_, rfl, consumed _⟩

/-- What a physical access of the processor finds. -/
theorem mmsReadPhysicalMemory_answer (privileged : Bool) :
    answer (mmsReadPhysicalMemory config physicalAddress privileged s) =
      some (if s.mmsIsAddressShadowMemory config.mmsType physicalAddress privileged = true then
          s.mmsRead config.mmsType physicalAddress
        else if (mmsMemoryBankLookup s.banks physicalAddress).any (·.read) = true then
          s.window physicalAddress
        else if config.ndMemsize ≤ physicalAddress then 0
        else s.memory physicalAddress) := by
  rw [mmsReadPhysicalMemory, Cpu.bind_ok (Cpu.get_apply s)]
  split_ifs
  · rfl
  · rfl
  · rfl
  · obtain ⟨u, done, -⟩ := ndEccReadDetect_ok config.ndMemsize physicalAddress s
    rw [Cpu.bind_ok done]
    rfl

theorem mmsReadVirtual_answer
    (mapped : mmsMapVirtualToPhysical config.mmsType virtualAddress am useApt s =
      .ok (some physicalAddress) t) :
    answer (mmsReadVirtual config am virtualAddress useApt s) =
      answer (mmsReadPhysicalMemory config physicalAddress false t) := by
  rw [mmsReadVirtual, Cpu.bind_ok mapped]

theorem currentPil_level (pil : Level) :
    (if 0 ≤ CpuState.currentPil.toInt ∧ CpuState.currentPil.toInt ≤ 15 then
      CpuState.currentPil.setWidth 4 else pil) = pil :=
  if_neg (by decide)

/-- The debugger reads the same page. -/
theorem dbgMap_paged (space : (s.pageTableMode && useApt) = useApt)
    (direct : ¬ s.Direct config.mmsType virtualAddress) :
    s.dbgMapVirtualToPhysical config virtualAddress useApt CpuState.currentPil =
      if (s.selectedPage config.mmsType virtualAddress useApt).present = false then none
      else if config.ndMemsize ≤ s.translatedAddress config.mmsType virtualAddress useApt then none
      else some (s.translatedAddress config.mmsType virtualAddress useApt) := by
  obtain ⟨paging, plain⟩ := paged direct
  have reads := selectedPage_reads s config.mmsType virtualAddress useApt
  have table : selectPageTable config.mmsType (s.pcr s.pil) useApt =
      s.selectedTable config.mmsType useApt := by
    rw [CpuState.selectedTable, space]
  have inside : virtualAddress.toNat % 2 ^ 10 < 2 ^ 10 := Nat.mod_lt _ (by decide)
  have shadow : ¬ ((s.pcr s.pil).setWidth 2 = (3 : BitVec 2) ∧
      s.mmsIsAddressShadowMemory config.mmsType virtualAddress.toNat false = true) := by
    rw [plain]
    exact fun here => Bool.false_ne_true here.2
  have on : ¬ ¬ s.pagingOn = true := fun off => off paging
  rw [CpuState.dbgMapVirtualToPhysical, currentPil_level]
  dsimp only
  rw [if_neg shadow, if_neg on, table, virtualPageNumber, displacement_toNat]
  change (if _ &&& pfMask = 0 then none else _) = _
  rw [reads.frame, physicalAddress_eq _ _ inside]
  by_cases present : (s.selectedPage config.mmsType virtualAddress useApt).present = false
  · rw [if_pos present, if_pos (reads.present.mpr present)]
  · rw [if_neg present, if_neg (mt reads.present.mp present)]
    rfl

/-- Where the debugger looks for an address that the processor reaches. -/
theorem dbgMap_some (space : (s.pageTableMode && useApt) = useApt)
    (mapped : mmsMapVirtualToPhysical config.mmsType virtualAddress am useApt s =
      .ok (some physicalAddress) t)
    (installed : physicalAddress < config.ndMemsize) :
    s.dbgMapVirtualToPhysical config virtualAddress useApt CpuState.currentPil =
      some physicalAddress := by
  by_cases direct : s.Direct config.mmsType virtualAddress
  · rw [map_direct direct] at mapped
    have same := Option.some.inj (EStateM.Result.ok.inj mapped).1
    rw [CpuState.dbgMapVirtualToPhysical, currentPil_level, ← same]
    by_cases shadow : s.ring = 3 ∧
        s.mmsIsAddressShadowMemory config.mmsType virtualAddress.toNat false = true
    · exact if_pos shadow
    · rcases direct with here | off
      · exact absurd here shadow
      · refine (if_neg shadow).trans (if_pos ?_)
        rw [off]
        exact Bool.false_ne_true
  · rw [map_paged direct] at mapped
    obtain ⟨outcome, address, -⟩ := translated_some mapped
    have present : ¬ (s.selectedPage config.mmsType virtualAddress useApt).present = false := by
      rw [((PageEntry.outcome_mapped _ _ _ _).mp outcome).1]
      exact Bool.false_ne_true.symm
    rw [dbgMap_paged space direct, if_neg present, ← address, if_neg (Nat.not_le.mpr installed)]

/-- A local word that answers is installed. -/
theorem ReachesWord.installed
    (reaches : ReachesWord config s virtualAddress am useApt physicalAddress t)
    (local_ : IsLocal config t physicalAddress) : physicalAddress < config.ndMemsize := by
  rcases reaches.answers with shadow | backed | here
  · exact absurd (local_.1.symm.trans shadow) Bool.false_ne_true
  · exact absurd (local_.2.symm.trans backed) Bool.false_ne_true
  · exact here

theorem IsLocal.answer (local_ : IsLocal config s physicalAddress)
    (installed : physicalAddress < config.ndMemsize) :
    answer (mmsReadPhysicalMemory config physicalAddress false s) =
      some (s.memory physicalAddress) := by
  rw [mmsReadPhysicalMemory_answer, local_.1, local_.2, if_neg Bool.false_ne_true,
    if_neg Bool.false_ne_true, if_neg (Nat.not_le.mpr installed)]

/-- The debugger finds the word of an access that reaches a local word. -/
theorem shows_of_local (space : (s.pageTableMode && useApt) = useApt)
    (reachesLocal : ReachesLocal config s virtualAddress am useApt) :
    Shows config s virtualAddress am useApt where
  read := by
    intro physicalAddress t word u reaches found
    have local_ := reachesLocal physicalAddress t reaches
    have installed := reaches.installed local_
    have answers := mmsReadVirtual_answer reaches.mapped
    rw [found, local_.answer installed, map_memory reaches.mapped] at answers
    rw [CpuState.dbgReadVirtualMemoryPil, dbgMap_some space reaches.mapped installed]
    change (if config.ndMemsize ≤ physicalAddress then -1 else _) = _
    rw [if_neg (Nat.not_le.mpr installed), Option.some.inj answers]
  write := by
    intro physicalAddress t value u reaches stored
    have local_ := reachesLocal physicalAddress t reaches
    have installed := reaches.installed local_
    rw [CpuState.dbgWriteVirtualMemoryPil, dbgMap_some space reaches.mapped installed] at stored
    change (if config.ndMemsize ≤ physicalAddress then _ else _) = _ at stored
    rw [if_neg (Nat.not_le.mpr installed)] at stored
    rw [← (Prod.mk.inj stored).2]
    constructor
    · rw [mmsReadVirtual_answer (map_putMemory reaches.mapped _)]
      have still : IsLocal config (t.putMemory (Function.update s.memory physicalAddress value))
        physicalAddress := local_
      rw [still.answer installed]
      exact congrArg some (Function.update_self ..)
    · intro other privileged different
      rw [mmsReadPhysicalMemory_answer, mmsReadPhysicalMemory_answer]
      change some (if s.mmsIsAddressShadowMemory config.mmsType other privileged = true then
        s.mmsRead config.mmsType other else if _ then s.window other else if _ then 0 else
          Function.update s.memory physicalAddress value other) = _
      rw [Function.update_of_ne different]
      rfl

/-- A word of the shadow memory or of a card does not depend on the installed memory. -/
theorem foreign_answer (foreign : ¬ IsLocal config s physicalAddress) :
    ∃ word, ∀ memory,
      answer (mmsReadPhysicalMemory config physicalAddress false (s.putMemory memory)) =
        some word := by
  by_cases shadow : s.mmsIsAddressShadowMemory config.mmsType physicalAddress false = true
  · refine ⟨s.mmsRead config.mmsType physicalAddress, fun memory => ?_⟩
    rw [mmsReadPhysicalMemory_answer]
    exact congrArg some (if_pos shadow)
  · have backed : (mmsMemoryBankLookup s.banks physicalAddress).any (·.read) = true := by
      by_contra none_
      exact foreign ⟨Bool.eq_false_iff.mpr shadow, Bool.eq_false_iff.mpr none_⟩
    refine ⟨s.window physicalAddress, fun memory => ?_⟩
    rw [mmsReadPhysicalMemory_answer]
    exact congrArg some ((if_neg shadow).trans (if_pos backed))

theorem answer_ok {A : Type} {outcome : Outcome World A} {value : A}
    (answers : answer outcome = some value) : ∃ u, outcome = .ok value u := by
  cases outcome with
  | ok found u =>
    cases answers
    exact ⟨u, rfl⟩
  | error stop u => exact absurd answers (Option.some_ne_none value).symm

/-- What the debugger reads it also writes. -/
theorem dbgWrite_of_read {word : Word} (value : Word)
    (found : s.dbgReadVirtualMemoryPil config virtualAddress useApt CpuState.currentPil =
      word.toNat) :
    ∃ memory, s.dbgWriteVirtualMemoryPil config virtualAddress value useApt CpuState.currentPil =
      (0, s.putMemory memory) := by
  have positive : (-1 : Int) ≠ word.toNat := by omega
  rw [CpuState.dbgReadVirtualMemoryPil] at found
  rw [CpuState.dbgWriteVirtualMemoryPil]
  rcases mapped : s.dbgMapVirtualToPhysical config virtualAddress useApt CpuState.currentPil with
    - | address
  · rw [mapped] at found
    exact absurd found positive
  · rw [mapped] at found
    change (if config.ndMemsize ≤ address then -1 else _) = _ at found
    change ∃ memory, (if config.ndMemsize ≤ address then _ else _) = _
    by_cases beyond : config.ndMemsize ≤ address
    · rw [if_pos beyond] at found
      exact absurd found positive
    · rw [if_neg beyond]
      exact ⟨_, rfl⟩

/-- A write of the debugger would be seen, which no word elsewhere does. -/
theorem local_of_shows (shows : Shows config s virtualAddress am useApt) :
    ReachesLocal config s virtualAddress am useApt := by
  intro physicalAddress t reaches
  by_contra foreign
  obtain ⟨word, answers⟩ := foreign_answer foreign
  have found : answer (mmsReadVirtual config am virtualAddress useApt s) = some word := by
    rw [mmsReadVirtual_answer reaches.mapped]
    exact answers t.memory
  obtain ⟨u, ran⟩ := answer_ok found
  obtain ⟨memory, stored⟩ := dbgWrite_of_read (word + 1) (shows.read reaches ran)
  have seen := (shows.write reaches stored).1
  rw [mmsReadVirtual_answer (map_putMemory reaches.mapped memory), answers memory] at seen
  have same : word = word + 1 := Option.some.inj seen
  have apart : word ≠ word + 1 := by bv_omega
  exact apart same

end Frame

/-- The entry of the page in the table of a space. -/
def CpuState.dbgEntry (s : CpuState World) (mmsType : MmsType) (virtualAddress : Word)
    (useApt : Bool) : BitVec 32 :=
  mmsGetPageTableEntry mmsType s.extendedAddressing s.shadowRam
    (selectPageTable mmsType (s.pcr s.pil) useApt).1 ((virtualAddress >>> 10) &&& 0x3F).toNat
    (selectPageTable mmsType (s.pcr s.pil) useApt).2

/-- The two spaces are shown, an absent page gives -1, and the registers and the page tables stay
as they are. -/
structure SeesWhatTheCpuSees (config : Config World) (s : CpuState World) (virtualAddress : Word) :
    Prop where
  iSpace : Shows config s virtualAddress .fetch false
  dSpace : s.pageTableMode = true → Shows config s virtualAddress .read true
  absent : ∀ useApt, ¬ s.Direct config.mmsType virtualAddress →
    s.dbgEntry config.mmsType virtualAddress useApt &&& pfMask = 0 →
    s.dbgReadVirtualMemoryPil config virtualAddress useApt CpuState.currentPil = -1 ∧
      ∀ value, s.dbgWriteVirtualMemoryPil config virtualAddress value useApt CpuState.currentPil =
        (-1, s)
  quiet : ∀ useApt value, ∃ memory,
    (s.dbgWriteVirtualMemoryPil config virtualAddress value useApt CpuState.currentPil).2 =
      s.putMemory memory

/-- The accesses of both spaces that raise no trap are to local words. -/
def BothLocal (config : Config World) (s : CpuState World) (virtualAddress : Word) : Prop :=
  ReachesLocal config s virtualAddress .fetch false ∧
    (s.pageTableMode = true → ReachesLocal config s virtualAddress .read true)

section Sees

variable {config : Config World} {s : CpuState World} {virtualAddress : Word}

theorem dbgMap_absent (useApt : Bool) (direct : ¬ s.Direct config.mmsType virtualAddress)
    (absent : s.dbgEntry config.mmsType virtualAddress useApt &&& pfMask = 0) :
    s.dbgMapVirtualToPhysical config virtualAddress useApt CpuState.currentPil = none := by
  have shadow : ¬ ((s.pcr s.pil).setWidth 2 = (3 : BitVec 2) ∧
      s.mmsIsAddressShadowMemory config.mmsType virtualAddress.toNat false = true) :=
    fun here => direct (.inl here)
  have on : ¬ ¬ s.pagingOn = true := fun off => off (paged direct).1
  rw [CpuState.dbgMapVirtualToPhysical, currentPil_level]
  dsimp only
  rw [if_neg shadow, if_neg on]
  exact if_pos absent

theorem dbgWrite_quiet (value : Word) (useApt : Bool) :
    ∃ memory,
      (s.dbgWriteVirtualMemoryPil config virtualAddress value useApt CpuState.currentPil).2 =
        s.putMemory memory := by
  rw [CpuState.dbgWriteVirtualMemoryPil]
  split
  · exact ⟨s.memory, rfl⟩
  · rw [CpuState.dbgWritePhysicalMemory]
    split_ifs
    · exact ⟨s.memory, rfl⟩
    · exact ⟨_, rfl⟩

end Sees

/-- The debugger sees what the processor sees exactly where the processor reaches local words. -/
theorem debugger_sees_iff (config : Config World) (s : CpuState World) (virtualAddress : Word) :
    SeesWhatTheCpuSees config s virtualAddress ↔ BothLocal config s virtualAddress := by
  constructor
  · intro sees
    exact ⟨local_of_shows sees.iSpace, fun on => local_of_shows (sees.dSpace on)⟩
  · intro both
    refine ⟨?_, fun on => ?_, fun useApt direct absent => ?_, fun useApt value =>
      dbgWrite_quiet value useApt⟩
    · exact shows_of_local (Bool.and_false _) both.1
    · exact shows_of_local (by rw [on]; rfl) (both.2 on)
    · have unmapped := dbgMap_absent useApt direct absent
      constructor
      · rw [CpuState.dbgReadVirtualMemoryPil, unmapped]
      · intro value
        rw [CpuState.dbgWriteVirtualMemoryPil, unmapped]

/-- Without paging the processor reads the shadow memory, which the debugger does not look at. -/
theorem shadow_word_not_shown :
    ¬ SeesWhatTheCpuSees bareMachine
      ((cpuInit bareMachine ()).putShadowRam fun _ => 7) 0xFF00 := by
  intro sees
  have reaches : ReachesWord bareMachine ((cpuInit bareMachine ()).putShadowRam fun _ => 7) 0xFF00
      .fetch false 0xFF00 _ := ⟨rfl, .inl rfl⟩
  have read := sees.iSpace.read reaches rfl
  exact absurd read (by decide)

end Nd100x
