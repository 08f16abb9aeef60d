import Nd100x.Proof.PageEntry

namespace Nd100x

variable {World : Type}

/-- A trap records the interrupt, gives the test-and-set lock back and jumps. -/
def CpuState.trapped (s : CpuState World) (sub : Word) : CpuState World :=
  (s.raiseInterrupt 14 sub).mmsTsetLockEnd

theorem mmsHandleMpv_apply (s : CpuState World) :
    mmsHandleMpv s = .error .longjmp (s.trapped ((1 : Word) <<< 2)) := rfl

/-- An access outside the memory reports its address and returns. -/
def CpuState.outOfRange (s : CpuState World) (address : Nat) : CpuState World :=
  ((s.cpuSetPea (BitVec.ofNat 16 address)).cpuSetPes
    (BitVec.ofNat 16 ((address >>> 16) &&& 0xFF))).raiseInterrupt 14 ((1 : Word) <<< 9)

theorem mmsHandleMemoryOutOfRange_apply (s : CpuState World) (address : Nat) :
    mmsHandleMemoryOutOfRange address s = .ok () (s.outOfRange address) := rfl

/-- The possible results of a translation, in the order in which they are decided. -/
inductive PageOutcome where
  | pageFault
  | permitViolation
  | ringViolation
  | outOfRange
  | mapped
  deriving DecidableEq

def PageEntry.outcome (page : PageEntry) (am : AccessMode) (ring : BitVec 2)
    (claimed : Bool) : PageOutcome :=
  if page.present = false then .pageFault
  else if page.permits am = false then .permitViolation
  else if ring < page.ring then .ringViolation
  else if claimed = false then .outOfRange
  else .mapped

/-- An access is granted when all four tests succeed. -/
theorem PageEntry.outcome_mapped (page : PageEntry) (am : AccessMode) (ring : BitVec 2) (claimed : Bool) :
    page.outcome am ring claimed = .mapped ↔
      page.present = true ∧ page.permits am = true ∧ page.ring ≤ ring ∧ claimed = true := by
  unfold PageEntry.outcome
  rw [← BitVec.not_lt]
  by_cases lower : ring < page.ring <;>
    cases page.present <;> cases page.permits am <;> cases claimed <;> simp [lower]

/-- The physical address joins the frame and the displacement on a bus of 24 bits. -/
def PageEntry.address (page : PageEntry) (virtualAddress : Word) : Nat :=
  (page.frame * 2 ^ 10 + virtualAddress.toNat % 2 ^ 10) % 2 ^ 24

/-- An access sets the used flag, and a write sets the written flag too. -/
def accessMarks (am : AccessMode) : Word :=
  if am = .write then ((1 : Word) <<< 11) ||| ((1 : Word) <<< 12) else (1 : Word) <<< 11

namespace CpuState

variable (s : CpuState World) (mmsType : MmsType) (virtualAddress : Word) (useApt : Bool)

/-- The alternative table is used for data when the page table mode is on. -/
def selectedTable : Nat × PageTableMode :=
  selectPageTable mmsType (s.pcr s.pil) (s.pageTableMode && useApt)

def selectedIndex : Nat :=
  entryIndex mmsType s.extendedAddressing (s.selectedTable mmsType useApt).1
    (virtualAddress.toNat / 2 ^ 10) (s.selectedTable mmsType useApt).2

def selectedPage : PageEntry :=
  pageEntry s.extendedAddressing s.shadowRam (s.selectedTable mmsType useApt).1
    (s.selectedIndex mmsType virtualAddress useApt)

def translatedAddress : Nat :=
  (s.selectedPage mmsType virtualAddress useApt).address virtualAddress

def translationOutcome (am : AccessMode) : PageOutcome :=
  (s.selectedPage mmsType virtualAddress useApt).outcome am s.ring
    (mmsMemoryBankLookup s.banks (s.translatedAddress mmsType virtualAddress useApt)).isSome

/-- The word with the flags of the selected page gains the marks of the access. -/
def markedShadowRam (am : AccessMode) : Nat → Word :=
  let index := s.selectedIndex mmsType virtualAddress useApt
  Function.update s.shadowRam index (s.shadowRam index ||| accessMarks am)

/-- A granted access lowers the ring where it must and marks the page. -/
def mapped (am : AccessMode) : CpuState World :=
  (s.mmsDegrade am (s.selectedPage mmsType virtualAddress useApt).ring).putShadowRam
    (s.markedShadowRam mmsType virtualAddress useApt am)

/-- The page status of a fault names the selected table and the page. -/
def faultStatus (am : AccessMode) (permitViolation : Bool) : CpuState World :=
  s.mmsUpdatePgs (s.selectedTable mmsType useApt).1 (virtualAddress.toNat / 2 ^ 10) am
    permitViolation

end CpuState

/-- The virtual page number is the quotient by the page size. -/
theorem virtualPageNumber (virtualAddress : Word) :
    ((virtualAddress >>> 10) &&& 0x3F).toNat = virtualAddress.toNat / 2 ^ 10 := by
  have bound := virtualAddress.isLt
  rw [BitVec.toNat_and, BitVec.toNat_ushiftRight, Nat.shiftRight_eq_div_pow]
  change _ &&& (2 ^ 6 - 1) = _
  rw [Nat.and_two_pow_sub_one_eq_mod]
  omega

theorem displacement_toNat (virtualAddress : Word) :
    (virtualAddress &&& 0x3FF).toNat = virtualAddress.toNat % 2 ^ 10 := by
  rw [BitVec.toNat_and]
  change _ &&& (2 ^ 10 - 1) = _
  rw [Nat.and_two_pow_sub_one_eq_mod]

theorem physicalAddress_eq (frame displacement : Nat) (fits : displacement < 2 ^ 10) :
    ((frame <<< 10) ||| displacement) &&& 0xFFFFFF = (frame * 2 ^ 10 + displacement) % 2 ^ 24 := by
  rw [Library.shiftLeft_or_eq_add frame displacement 10 fits]
  change _ &&& (2 ^ 24 - 1) = _
  rw [Nat.and_two_pow_sub_one_eq_mod]

theorem mmsCheckPageProtection_run (s : CpuState World) (vpn pageTable : Nat) (pte : BitVec 32)
    (am : AccessMode) :
    mmsCheckPageProtection vpn pageTable pte am s =
      if pte &&& pfMask = 0 then
        .error .longjmp ((s.mmsUpdatePgs pageTable vpn am true).trapped ((1 : Word) <<< 3))
      else if pte &&& accessBits am = 0 then
        .error .longjmp ((s.mmsUpdatePgs pageTable vpn am true).trapped ((1 : Word) <<< 2))
      else .ok true s := by
  unfold mmsCheckPageProtection
  by_cases absent : pte &&& pfMask = 0
  · simp only [absent, if_true]
    rfl
  · by_cases refused : pte &&& accessBits am = 0
    · simp only [absent, refused, if_true, if_false]
      rfl
    · simp only [absent, refused, if_false]
      rfl

section Run

variable (s : CpuState World) (mmsType : MmsType) (virtualAddress : Word) (useApt : Bool)

/-- The entry that the code reads is the selected page. -/
theorem selectedPage_stored :
    mmsGetPageTableEntry mmsType s.extendedAddressing s.shadowRam (s.selectedTable mmsType useApt).1
        (virtualAddress.toNat / 2 ^ 10) (s.selectedTable mmsType useApt).2 =
      if s.extendedAddressing ∨ (s.selectedTable mmsType useApt).1 < 4 then
        storedPte s.extendedAddressing
          (s.shadowRam (s.selectedIndex mmsType virtualAddress useApt))
          (s.shadowRam (s.selectedIndex mmsType virtualAddress useApt + 1))
      else 0 := by
  have bound := virtualAddress.isLt
  exact mmsGetPageTableEntry_stored mmsType s.extendedAddressing s.shadowRam _ _ _
    (selectPageTable_bound mmsType _ _) (by omega) (selectPageTable_sixteen mmsType _ _)

/-- The four tests of the code read the fields of the selected page. -/
structure ReadsPage (pte : BitVec 32) (page : PageEntry) (extended : Bool) : Prop where
  present : pte &&& pfMask = 0 ↔ page.present = false
  permits : ∀ am, pte &&& accessBits am = 0 ↔ page.permits am = false
  ring : (pte >>> 25).setWidth 2 = page.ring
  frame : (if extended then pte &&& 0x3FFF else pte &&& 0x1FF).toNat = page.frame

theorem ReadsPage.stored (extended : Bool) (first second : Word) :
    ReadsPage (storedPte extended first second) (PageEntry.decode extended first second) extended where
  present := storedPte_present extended first second
  permits := storedPte_permits extended first second
  ring := storedPte_ring extended first second
  frame := storedPte_frame extended first second

theorem ReadsPage.absent (extended : Bool) : ReadsPage 0 PageEntry.absent extended where
  present := by simp [PageEntry.present, PageEntry.absent]
  permits am := by cases am <;> simp [PageEntry.permits, PageEntry.absent]
  ring := by decide
  frame := by cases extended <;> rfl

theorem selectedPage_reads :
    ReadsPage
      (mmsGetPageTableEntry mmsType s.extendedAddressing s.shadowRam
        (s.selectedTable mmsType useApt).1 (virtualAddress.toNat / 2 ^ 10)
        (s.selectedTable mmsType useApt).2)
      (s.selectedPage mmsType virtualAddress useApt) s.extendedAddressing := by
  rw [selectedPage_stored]
  unfold CpuState.selectedPage pageEntry
  split
  · exact ReadsPage.stored _ _ _
  · exact ReadsPage.absent _

end Run

section Marks

variable (t : CpuState World) (mmsType : MmsType) (pageTable vpn : Nat) (ptm : PageTableMode)
  (table : pageTable < 16) (page : vpn < 64) (installed : ptm = .sixteen → mmsType = .mms2)

include table page installed

theorem mmsSetPageUsed_stored (index : Nat)
    (selected : index = entryIndex mmsType t.extendedAddressing pageTable vpn ptm) :
    t.mmsSetPageUsed mmsType pageTable vpn ptm
        (storedPte t.extendedAddressing (t.shadowRam index) (t.shadowRam (index + 1))) =
      let first := t.shadowRam index ||| ((1 : Word) <<< 11)
      (t.putShadowRam (Function.update t.shadowRam index first),
        storedPte t.extendedAddressing first (t.shadowRam (index + 1))) := by
  subst selected
  unfold CpuState.mmsSetPageUsed
  have clear := storedPte_clear t.extendedAddressing
    (t.shadowRam (entryIndex mmsType t.extendedAddressing pageTable vpn ptm))
    (t.shadowRam (entryIndex mmsType t.extendedAddressing pageTable vpn ptm + 1)) 11
    (by decide) (by decide)
  have added := storedPte_mark t.extendedAddressing
    (t.shadowRam (entryIndex mmsType t.extendedAddressing pageTable vpn ptm))
    (t.shadowRam (entryIndex mmsType t.extendedAddressing pageTable vpn ptm + 1)) 11
    (by decide) (by decide)
  change _ &&& pguFlag = 0 ↔ _ at clear
  change _ ||| pguFlag = _ at added
  split
  next unused =>
    simp only [added]
    rw [mmsUpdatePageTableEntry_mark mmsType t.extendedAddressing t.shadowRam pageTable vpn ptm
      table page installed _ _ rfl]
  next used =>
    have set : (t.shadowRam (entryIndex mmsType t.extendedAddressing pageTable vpn ptm)).getLsbD 11 =
        true := by simpa using mt clear.mpr used
    simp only [Library.or_single_eq_self _ 11 set, Function.update_eq_self,
      CpuState.putShadowRam_self]

theorem mmsSetPageWritten_stored (index : Nat)
    (selected : index = entryIndex mmsType t.extendedAddressing pageTable vpn ptm) :
    (t.mmsSetPageWritten mmsType pageTable vpn ptm
        (storedPte t.extendedAddressing (t.shadowRam index) (t.shadowRam (index + 1)))).1 =
      t.putShadowRam
        (Function.update t.shadowRam index (t.shadowRam index ||| ((1 : Word) <<< 12))) := by
  subst selected
  unfold CpuState.mmsSetPageWritten
  have clear := storedPte_clear t.extendedAddressing
    (t.shadowRam (entryIndex mmsType t.extendedAddressing pageTable vpn ptm))
    (t.shadowRam (entryIndex mmsType t.extendedAddressing pageTable vpn ptm + 1)) 12
    (by decide) (by decide)
  have added := storedPte_mark t.extendedAddressing
    (t.shadowRam (entryIndex mmsType t.extendedAddressing pageTable vpn ptm))
    (t.shadowRam (entryIndex mmsType t.extendedAddressing pageTable vpn ptm + 1)) 12
    (by decide) (by decide)
  change _ &&& wipFlag = 0 ↔ _ at clear
  change _ ||| wipFlag = _ at added
  split
  next unwritten =>
    simp only [added]
    rw [mmsUpdatePageTableEntry_mark mmsType t.extendedAddressing t.shadowRam pageTable vpn ptm
      table page installed _ _ rfl]
  next written =>
    have set : (t.shadowRam (entryIndex mmsType t.extendedAddressing pageTable vpn ptm)).getLsbD 12 =
        true := by simpa using mt clear.mpr (fun unset => written ⟨table, unset⟩)
    simp only [Library.or_single_eq_self _ 12 set, Function.update_eq_self,
      CpuState.putShadowRam_self]

/-- The two marking steps together write one word. -/
theorem mmsMark_stored (am : AccessMode) (index : Nat)
    (selected : index = entryIndex mmsType t.extendedAddressing pageTable vpn ptm) :
    t.mmsMark mmsType pageTable vpn ptm
        (storedPte t.extendedAddressing (t.shadowRam index) (t.shadowRam (index + 1))) am =
      t.putShadowRam
        (Function.update t.shadowRam index (t.shadowRam index ||| accessMarks am)) := by
  unfold CpuState.mmsMark
  rw [mmsSetPageUsed_stored t mmsType pageTable vpn ptm table page installed index selected]
  by_cases write : am = .write
  · have written := mmsSetPageWritten_stored
      (t.putShadowRam (Function.update t.shadowRam index (t.shadowRam index ||| ((1 : Word) <<< 11))))
      mmsType pageTable vpn ptm table page installed index selected
    change (_ : CpuState World × BitVec 32).1 = _ at written
    simp only [CpuState.putShadowRam_shadowRam, Function.update_self, CpuState.putShadowRam_putShadowRam,
      Function.update_of_ne (Nat.succ_ne_self index), Function.update_idem, BitVec.or_assoc] at written
    simp only [if_pos write, accessMarks]
    exact written
  · simp only [if_neg write, accessMarks]

end Marks

/-- A granted page belongs to a table that the addressing mode can reach. -/
theorem selectedPage_reachable (s : CpuState World) (mmsType : MmsType) (virtualAddress : Word)
    (useApt : Bool)
    (present : (s.selectedPage mmsType virtualAddress useApt).present = true) :
    s.extendedAddressing = true ∨ (s.selectedTable mmsType useApt).1 < 4 := by
  unfold CpuState.selectedPage pageEntry at present
  split at present
  next reachable => simpa using reachable
  next => simp [PageEntry.absent, PageEntry.present] at present

section Map

variable (s : CpuState World) (mmsType : MmsType) (virtualAddress : Word) (am : AccessMode)
  (useApt : Bool)

/-- The code decides the outcome of a mapped address on the selected page. -/
def translated : Outcome World (Option Nat) :=
  let page := s.selectedPage mmsType virtualAddress useApt
  let address := s.translatedAddress mmsType virtualAddress useApt
  match s.translationOutcome mmsType virtualAddress useApt am with
  | .pageFault =>
    .error .longjmp ((s.faultStatus mmsType virtualAddress useApt am true).trapped ((1 : Word) <<< 3))
  | .permitViolation =>
    .error .longjmp ((s.faultStatus mmsType virtualAddress useApt am true).trapped ((1 : Word) <<< 2))
  | .ringViolation =>
    .error .longjmp ((s.faultStatus mmsType virtualAddress useApt am false).trapped ((1 : Word) <<< 2))
  | .outOfRange =>
    .ok none (((s.mmsDegrade am page.ring).mmsUpdatePgs (s.selectedTable mmsType useApt).1
      (virtualAddress.toNat / 2 ^ 10) am false).outOfRange address)
  | .mapped => .ok (some address) (s.mapped mmsType virtualAddress useApt am)

/-- A degraded fetch never violates the ring of its page. -/
theorem mmsDegrades_ring (pageTableRing ring : BitVec 2) :
    (if mmsDegrades am pageTableRing ring then pageTableRing else ring) < pageTableRing ↔
      ring < pageTableRing := by
  unfold mmsDegrades
  split
  next degrades =>
    have lower : pageTableRing < ring := by simp at degrades; exact degrades.1.2
    simp only [BitVec.lt_irrefl, false_iff]
    exact BitVec.not_lt.mpr (BitVec.le_of_lt lower)
  next => rfl

/-- The code decides a mapped address on the fields of its page. -/
theorem mmsMapThroughEntry_run (pageTable vpn dip : Nat) (ptm : PageTableMode) (pte : BitVec 32)
    (page : PageEntry) (reads : ReadsPage pte page s.extendedAddressing) (inside : dip < 2 ^ 10) :
    mmsMapThroughEntry mmsType pageTable vpn dip ptm pte am s =
      let address := (page.frame * 2 ^ 10 + dip) % 2 ^ 24
      match page.outcome am s.ring (mmsMemoryBankLookup s.banks address).isSome with
      | .pageFault =>
        .error .longjmp ((s.mmsUpdatePgs pageTable vpn am true).trapped ((1 : Word) <<< 3))
      | .permitViolation =>
        .error .longjmp ((s.mmsUpdatePgs pageTable vpn am true).trapped ((1 : Word) <<< 2))
      | .ringViolation =>
        .error .longjmp ((s.mmsUpdatePgs pageTable vpn am false).trapped ((1 : Word) <<< 2))
      | .outOfRange =>
        .ok none (((s.mmsDegrade am page.ring).mmsUpdatePgs pageTable vpn am false).outOfRange address)
      | .mapped =>
        .ok (some address) ((s.mmsDegrade am page.ring).mmsMark mmsType pageTable vpn ptm pte am) := by
  have check := mmsCheckPageProtection_run s vpn pageTable pte am
  unfold mmsMapThroughEntry PageEntry.outcome
  cases present : page.present
  · rw [if_pos (reads.present.mpr present)] at check
    simp only [Cpu.bind_error check, if_true]
  rw [if_neg (mt reads.present.mp (by simp [present]))] at check
  cases permitted : page.permits am
  · rw [if_pos ((reads.permits am).mpr permitted)] at check
    simp only [Cpu.bind_error check, Bool.true_eq_false, if_false, if_true]
  rw [if_neg (mt (reads.permits am).mp (by simp [permitted]))] at check
  simp only [Cpu.bind_ok check, Bool.true_eq_false, if_false, Bool.not_true, Bool.false_eq_true]
  simp only [Cpu.bind_apply, Cpu.get_apply, Cpu.modify_apply, reads.ring, mmsDegrades_ring, reads.frame,
    physicalAddress_eq _ _ inside]
  by_cases ring : s.ring < page.ring
  · have kept : s.mmsDegrade am page.ring = s := by
      unfold CpuState.mmsDegrade mmsDegrades
      have higher : ¬ page.ring < s.ring := BitVec.not_lt.mpr (BitVec.le_of_lt ring)
      simp [higher]
    simp only [ring, if_true, kept, Cpu.bind_apply, Cpu.modify_apply, mmsHandleMpv_apply]
  simp only [ring, if_false]
  cases claimed : mmsMemoryBankLookup s.banks ((page.frame * 2 ^ 10 + dip) % 2 ^ 24)
  · simp only [Option.isNone_none, Option.isSome_none, if_true, Cpu.bind_apply, Cpu.modify_apply,
      mmsHandleMemoryOutOfRange_apply, Cpu.pure_apply]
  · simp only [Option.isNone_some, Option.isSome_some, Bool.false_eq_true, Bool.true_eq_false, if_false,
      Cpu.bind_apply, Cpu.modify_apply, Cpu.pure_apply]

/-- Lowering the ring keeps the table and the words of the selected page. -/
theorem mmsDegrade_mark (pageRing : BitVec 2)
    (reachable : s.extendedAddressing = true ∨ (s.selectedTable mmsType useApt).1 < 4) :
    (s.mmsDegrade am pageRing).mmsMark mmsType (s.selectedTable mmsType useApt).1
        (virtualAddress.toNat / 2 ^ 10) (s.selectedTable mmsType useApt).2
        (mmsGetPageTableEntry mmsType s.extendedAddressing s.shadowRam (s.selectedTable mmsType useApt).1
          (virtualAddress.toNat / 2 ^ 10) (s.selectedTable mmsType useApt).2) am =
      (s.mmsDegrade am pageRing).putShadowRam (s.markedShadowRam mmsType virtualAddress useApt am) := by
  have bound := virtualAddress.isLt
  have extended : (s.mmsDegrade am pageRing).extendedAddressing = s.extendedAddressing := by
    unfold CpuState.mmsDegrade
    split <;> rfl
  have shadowRam : (s.mmsDegrade am pageRing).shadowRam = s.shadowRam := by
    unfold CpuState.mmsDegrade
    split <;> rfl
  have marked := mmsMark_stored (s.mmsDegrade am pageRing) mmsType (s.selectedTable mmsType useApt).1
    (virtualAddress.toNat / 2 ^ 10) (s.selectedTable mmsType useApt).2 (selectPageTable_bound mmsType _ _)
    (by omega) (selectPageTable_sixteen mmsType _ _) am (s.selectedIndex mmsType virtualAddress useApt)
    (by rw [extended]; rfl)
  rw [extended, shadowRam] at marked
  rw [selectedPage_stored, if_pos reachable, marked]
  rfl

/-- Every translation through the page tables has the outcome of its page. -/
theorem mmsMapVirtualToPhysical_run (paging : s.pagingOn = true)
    (plain : s.mmsIsAddressShadowMemory mmsType virtualAddress.toNat false = false) :
    mmsMapVirtualToPhysical mmsType virtualAddress am useApt s =
      translated s mmsType virtualAddress am useApt := by
  have reads := selectedPage_reads s mmsType virtualAddress useApt
  unfold mmsMapVirtualToPhysical
  simp only [Cpu.bind_apply, Cpu.get_apply, plain, paging, Bool.false_eq_true, and_false, not_true,
    if_false, virtualPageNumber, displacement_toNat]
  change mmsMapThroughEntry mmsType (s.selectedTable mmsType useApt).1 _ _
    (s.selectedTable mmsType useApt).2 (mmsGetPageTableEntry mmsType s.extendedAddressing s.shadowRam
      (s.selectedTable mmsType useApt).1 (virtualAddress.toNat / 2 ^ 10)
      (s.selectedTable mmsType useApt).2) am s = _
  rw [mmsMapThroughEntry_run s mmsType am _ _ _ _ _ _ reads (Nat.mod_lt _ (by decide))]
  unfold translated CpuState.translationOutcome CpuState.translatedAddress PageEntry.address
  cases outcome : PageEntry.outcome (s.selectedPage mmsType virtualAddress useApt) am s.ring _ with
  | mapped =>
    have present : (s.selectedPage mmsType virtualAddress useApt).present = true :=
      ((PageEntry.outcome_mapped _ _ _ _).mp outcome).1
    have reachable := selectedPage_reachable s mmsType virtualAddress useApt present
    simp only [outcome, CpuState.mapped]
    rw [mmsDegrade_mark s mmsType virtualAddress am useApt _ reachable]
  | _ => simp only [outcome, CpuState.faultStatus]

end Map

end Nd100x
