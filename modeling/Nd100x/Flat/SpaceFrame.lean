import Nd100x.Flat.Space

namespace Nd100x

variable {World : Type}

/-- The marks of an access are the bits 11 and 12. -/
theorem accessMarks_getLsbD (am : AccessMode) (bit : Nat) (other : bit ≠ 11 ∧ bit ≠ 12) :
    (accessMarks am).getLsbD bit = false := by
  unfold accessMarks
  split
  · rw [BitVec.getLsbD_or, Library.getLsbD_single, Library.getLsbD_single]
    simp [other]
  · rw [Library.getLsbD_single]
    simp [other]

theorem marked_getLsbD (word : Word) (am : AccessMode) (bit : Nat) (other : bit ≠ 11 ∧ bit ≠ 12) :
    (word ||| accessMarks am).getLsbD bit = word.getLsbD bit := by
  rw [BitVec.getLsbD_or, accessMarks_getLsbD am bit other, Bool.or_false]

theorem marked_mod (word : Word) (am : AccessMode) :
    (word ||| accessMarks am).toNat % 2 ^ 9 = word.toNat % 2 ^ 9 := by
  apply Nat.eq_of_testBit_eq
  intro bit
  rw [Nat.testBit_mod_two_pow, Nat.testBit_mod_two_pow]
  by_cases low : bit < 9
  · have same := marked_getLsbD word am bit (by omega)
    rw [BitVec.getLsbD, BitVec.getLsbD] at same
    rw [same]
  · simp [low]

theorem marked_ring (word : Word) (am : AccessMode) :
    (word ||| accessMarks am).extractLsb' 9 2 = word.extractLsb' 9 2 := by
  apply BitVec.eq_of_getLsbD_eq
  intro bit inside
  rw [BitVec.getLsbD_extractLsb', BitVec.getLsbD_extractLsb', marked_getLsbD word am _ (by omega)]

/-- The marks of the first word are no part of a page. -/
theorem decode_marked (extended : Bool) (first second : Word) (am : AccessMode) :
    PageEntry.decode extended (first ||| accessMarks am) second =
      PageEntry.decode extended first second := by
  unfold PageEntry.decode
  rw [marked_getLsbD first am 14 (by decide), marked_getLsbD first am 15 (by decide),
    marked_getLsbD first am 13 (by decide), marked_ring, marked_mod]

/-- The first words of the double entries lie at even places. -/
theorem entryIndex_even (mmsType : MmsType) (pageTable vpn : Nat) (ptm : PageTableMode) :
    entryIndex mmsType true pageTable vpn ptm % 2 = 0 := by
  unfold entryIndex
  simp only [if_true]
  split <;> omega

theorem pageEntry_marked (mmsType : MmsType) (extended : Bool) (shadowRam : Nat → Word)
    (am : AccessMode) (table vpn : Nat) (ptm : PageTableMode) (pageTable page : Nat)
    (mode : PageTableMode) :
    pageEntry extended
        (Function.update shadowRam (entryIndex mmsType extended table vpn ptm)
          (shadowRam (entryIndex mmsType extended table vpn ptm) ||| accessMarks am))
        pageTable (entryIndex mmsType extended pageTable page mode) =
      pageEntry extended shadowRam pageTable (entryIndex mmsType extended pageTable page mode) := by
  unfold pageEntry
  split
  · generalize place : entryIndex mmsType extended table vpn ptm = marked
    generalize read : entryIndex mmsType extended pageTable page mode = index
    by_cases same : index = marked
    · subst same
      rw [Function.update_self, Function.update_of_ne (by omega), decode_marked]
    · rw [Function.update_of_ne same]
      cases extended
      · rfl
      · have even := entryIndex_even mmsType table vpn ptm
        have even' := entryIndex_even mmsType pageTable page mode
        rw [place] at even
        rw [read] at even'
        rw [Function.update_of_ne (by omega)]
  · rfl

/-- The ring of a control register is no part of its tables. -/
theorem lowered_shift (pcr : Word) (ring : BitVec 2) (bit : Nat) (above : 2 ≤ bit) :
    ((pcr &&& 0xFFFC) ||| ring.setWidth 16) >>> bit = pcr >>> bit := by
  have mask : ∀ place < 16, (0xFFFC : Word).getLsbD place = decide (2 ≤ place) := by decide
  apply BitVec.eq_of_getLsbD_eq
  intro place inside
  rw [BitVec.getLsbD_ushiftRight, BitVec.getLsbD_ushiftRight, BitVec.getLsbD_or, BitVec.getLsbD_and,
    BitVec.getLsbD_setWidth, BitVec.getLsbD_of_ge ring (bit + place) (by omega)]
  by_cases reached : bit + place < 16
  · rw [mask _ reached]
    have : 2 ≤ bit + place := by omega
    simp [this]
  · rw [BitVec.getLsbD_of_ge pcr _ (by omega)]
    simp

theorem getLsbD_two (pcr pcr' : Word) (same : pcr' >>> 2 = pcr >>> 2) :
    pcr'.getLsbD 2 = pcr.getLsbD 2 := by
  have bit := congrArg (fun word : Word => word.getLsbD 0) same
  simpa [-BitVec.getLsbD_eq_getElem, BitVec.getLsbD_ushiftRight] using bit

theorem selectPageTable_lowered (mmsType : MmsType) (pcr : Word) (ring : BitVec 2)
    (alternative : Bool) :
    selectPageTable mmsType ((pcr &&& 0xFFFC) ||| ring.setWidth 16) alternative =
      selectPageTable mmsType pcr alternative := by
  unfold selectPageTable
  rw [getLsbD_two _ _ (lowered_shift pcr ring 2 (by decide)),
    lowered_shift pcr ring _ (by split <;> decide), lowered_shift pcr ring _ (by split <;> decide)]

/-- Everything but the ring that an address space depends on. -/
structure SameTables (s t : CpuState World) (mmsType : MmsType) : Prop where
  sts : t.sts = s.sts
  banks : t.banks = s.banks
  dmaAccess : t.dmaAccess = s.dmaAccess
  tables : ∀ alternative,
    selectPageTable mmsType (t.pcr t.pil) alternative = selectPageTable mmsType (s.pcr s.pil) alternative
  larger : (t.pcr t.pil).getLsbD 2 = (s.pcr s.pil).getLsbD 2
  pages : ∀ alternative address,
    t.pageOf mmsType alternative address = s.pageOf mmsType alternative address

namespace SameTables

variable {s t u : CpuState World} {config : Config World}

theorem refl (s : CpuState World) (mmsType : MmsType) : SameTables s s mmsType :=
  ⟨rfl, rfl, rfl, fun _ => rfl, rfl, fun _ _ => rfl⟩

theorem shadowAt (same : SameTables s t config.mmsType) :
    t.shadowAt config.mmsType = s.shadowAt config.mmsType := by
  funext ring address privileged
  unfold CpuState.shadowAt CpuState.pagingOn CpuState.extendedAddressing
  rw [same.sts, same.dmaAccess, same.larger]

theorem physicalTarget (same : SameTables s t config.mmsType) :
    t.physicalTarget config = s.physicalTarget config := by
  funext ring physical privileged
  unfold CpuState.physicalTarget
  rw [same.shadowAt, same.banks]

theorem space (same : SameTables s t config.mmsType) : t.space config = s.space config := by
  have paging : t.pagingOn = s.pagingOn := by
    unfold CpuState.pagingOn
    rw [same.sts]
  have pil : t.pil = s.pil := by
    unfold CpuState.pil
    rw [same.sts]
  have target : t.virtualTarget config = s.virtualTarget config := by
    funext ring alternative am address
    unfold CpuState.virtualTarget
    rw [same.shadowAt, paging, same.physicalTarget, same.pages, same.banks]
  have lowered : t.loweredRing config = s.loweredRing config := by
    funext ring alternative address
    unfold CpuState.loweredRing
    rw [same.pages, paging]
  unfold CpuState.space
  rw [pil, paging, target, lowered, same.shadowAt, same.banks]

end SameTables

theorem mmsDegrade_sts (s : CpuState World) (am : AccessMode) (pageRing : BitVec 2) :
    (s.mmsDegrade am pageRing).sts = s.sts := by
  unfold CpuState.mmsDegrade
  split <;> rfl

theorem mmsDegrade_pil (s : CpuState World) (am : AccessMode) (pageRing : BitVec 2) :
    (s.mmsDegrade am pageRing).pil = s.pil := by
  unfold CpuState.pil
  rw [mmsDegrade_sts]

/-- Lowering the ring and marking a page keep the address space. -/
theorem mapped_sameTables (s : CpuState World) (mmsType : MmsType) (virtualAddress : Word)
    (useApt : Bool) (am : AccessMode) :
    SameTables s (s.mapped mmsType virtualAddress useApt am) mmsType := by
  have tables : ∀ alternative,
      selectPageTable mmsType ((s.mapped mmsType virtualAddress useApt am).pcr s.pil) alternative =
        selectPageTable mmsType (s.pcr s.pil) alternative := by
    intro alternative
    unfold CpuState.mapped CpuState.mmsDegrade
    split
    · simp only [CpuState.putShadowRam_pcr, CpuState.putPcr_pcr, Function.update_self]
      exact selectPageTable_lowered mmsType _ _ alternative
    · rfl
  have pil : (s.mapped mmsType virtualAddress useApt am).pil = s.pil := mmsDegrade_pil s am _
  have extended : (s.mapped mmsType virtualAddress useApt am).extendedAddressing =
      s.extendedAddressing := by
    unfold CpuState.extendedAddressing
    exact congrArg (·.getLsbD Sts.extendedAddressing) (mmsDegrade_sts s am _)
  refine ⟨mmsDegrade_sts s am _, ?_, ?_, fun alternative => by rw [pil]; exact tables alternative, ?_, ?_⟩
  · unfold CpuState.mapped CpuState.mmsDegrade
    split <;> rfl
  · unfold CpuState.mapped CpuState.mmsDegrade
    split <;> rfl
  · rw [pil]
    unfold CpuState.mapped CpuState.mmsDegrade
    split
    · simp only [CpuState.putShadowRam_pcr, CpuState.putPcr_pcr, Function.update_self]
      exact getLsbD_two _ _ (lowered_shift _ _ 2 (by decide))
    · rfl
  · intro alternative address
    unfold CpuState.pageOf
    simp only [pil, tables, extended]
    exact pageEntry_marked mmsType s.extendedAddressing s.shadowRam am _ _ _ _ _ _

/-- Lowering the ring alone keeps the address space. -/
theorem mmsDegrade_sameTables (s : CpuState World) (mmsType : MmsType) (am : AccessMode)
    (pageRing : BitVec 2) : SameTables s (s.mmsDegrade am pageRing) mmsType := by
  unfold CpuState.mmsDegrade
  split
  · have pil : (s.putPcr (Function.update s.pcr s.pil
        ((s.pcr s.pil &&& 0xFFFC) ||| pageRing.setWidth 16))).pil = s.pil := rfl
    refine ⟨rfl, rfl, rfl, fun alternative => ?_, ?_, fun alternative address => ?_⟩
    · simp only [pil, CpuState.putPcr_pcr, Function.update_self]
      exact selectPageTable_lowered mmsType _ _ alternative
    · simp only [pil, CpuState.putPcr_pcr, Function.update_self]
      exact getLsbD_two _ _ (lowered_shift _ _ 2 (by decide))
    · unfold CpuState.pageOf
      simp only [pil, CpuState.putPcr_pcr, Function.update_self, selectPageTable_lowered]
      rfl
  · exact SameTables.refl s mmsType

/-- The ring after a granted access. -/
theorem mmsDegrade_ring (s : CpuState World) (am : AccessMode) (pageRing : BitVec 2) :
    (s.mmsDegrade am pageRing).ring = if mmsDegrades am pageRing s.ring then pageRing else s.ring := by
  have pil := mmsDegrade_pil s am pageRing
  unfold CpuState.ring
  rw [pil]
  unfold CpuState.mmsDegrade CpuState.ring
  by_cases degrades : mmsDegrades am pageRing ((s.pcr s.pil).setWidth 2) = true
  · rw [if_pos degrades, if_pos degrades]
    simp only [CpuState.putPcr_pcr, Function.update_self]
    have mask : ∀ place < 2, (0xFFFC : Word).getLsbD place = false := by decide
    apply BitVec.eq_of_getLsbD_eq
    intro bit inside
    rw [BitVec.getLsbD_setWidth, BitVec.getLsbD_or, BitVec.getLsbD_and, mask bit inside,
      BitVec.getLsbD_setWidth]
    have small : bit < 16 := by omega
    simp [inside, small]
  · rw [if_neg degrades, if_neg degrades]

end Nd100x
