import Nd100x.Library.WordBits
import Nd100x.Machine.Mms

namespace Nd100x

variable {World : Type}

/-- A page is described by its permissions, its ring and its physical frame. -/
structure PageEntry where
  readPermit : Bool
  writePermit : Bool
  fetchPermit : Bool
  ring : BitVec 2
  frame : Nat

namespace PageEntry

/-- A page without any permission is not in memory. -/
def present (page : PageEntry) : Bool := page.readPermit || page.writePermit || page.fetchPermit

/-- An indirect read is granted by the read or the fetch permission. -/
def permits (page : PageEntry) : AccessMode → Bool
  | .read => page.readPermit
  | .write => page.writePermit
  | .fetch => page.fetchPermit
  | .readFetch => page.readPermit || page.fetchPermit

def absent : PageEntry := ⟨false, false, false, 0, 0⟩

/-- The first word of an entry carries the flags in both formats. -/
def decode (extended : Bool) (first second : Word) : PageEntry where
  readPermit := first.getLsbD 14
  writePermit := first.getLsbD 15
  fetchPermit := first.getLsbD 13
  ring := first.extractLsb' 9 2
  frame := if extended then second.toNat % 2 ^ 14 else first.toNat % 2 ^ 9

end PageEntry

/-- An entry takes two words in the extended mode and one word otherwise. -/
def entryIndex (mmsType : MmsType) (extended : Bool) (pageTable vpn : Nat)
    (ptm : PageTableMode) : Nat :=
  if extended then
    2 * (64 * pageTable + vpn) + (if mmsType = .mms2 ∧ ptm = .four then 1536 else 0)
  else 64 * pageTable + vpn + (if mmsType = .mms2 then 1792 else 256)

/-- The entry of a page table beyond the fourth is absent outside the extended mode. -/
def pageEntry (extended : Bool) (shadowRam : Nat → Word) (pageTable index : Nat) : PageEntry :=
  if extended ∨ pageTable < 4 then
    PageEntry.decode extended (shadowRam index) (shadowRam (index + 1))
  else PageEntry.absent

theorem selectPageTable_bound (mmsType : MmsType) (pcr : Word) (alternative : Bool) :
    (selectPageTable mmsType pcr alternative).1 < 16 := by
  unfold selectPageTable
  split
  · exact Nat.lt_of_le_of_lt (by simpa using Nat.and_le_right) (by decide : 15 < 16)
  · exact Nat.lt_of_le_of_lt (by simpa using Nat.and_le_right) (by decide : 3 < 16)

/-- Sixteen tables are selected only on the larger memory management system. -/
theorem selectPageTable_sixteen (mmsType : MmsType) (pcr : Word) (alternative : Bool)
    (sixteen : (selectPageTable mmsType pcr alternative).2 = .sixteen) : mmsType = .mms2 := by
  unfold selectPageTable at sixteen
  split at sixteen
  next enabled => exact enabled.2
  next => exact absurd sixteen (by simp)

theorem mmsGetPtShadowAddress_entryIndex (mmsType : MmsType) (extended : Bool)
    (pageTable vpn : Nat) (ptm : PageTableMode) (table : pageTable < 16) (page : vpn < 64)
    (installed : ptm = .sixteen → mmsType = .mms2) :
    mmsGetPtShadowAddress mmsType extended pageTable vpn ptm =
      entryIndex mmsType extended pageTable vpn ptm := by
  unfold mmsGetPtShadowAddress entryIndex
  rw [Library.shiftLeft_or_eq_add pageTable vpn 6 page]
  cases extended <;> cases ptm <;> cases mmsType <;>
    simp_all [shadowRamAddress, Nat.shiftLeft_eq] <;> omega

/-- The 32-bit entry joins two words, or spreads one word. -/
def storedPte (extended : Bool) (first second : Word) : BitVec 32 :=
  if extended then (first.setWidth 32 <<< 16) ||| second.setWidth 32 else convertFrom16BitPte first

/-- The stored entry is read at the entry index. -/
theorem mmsGetPageTableEntry_stored (mmsType : MmsType) (extended : Bool) (shadowRam : Nat → Word)
    (pageTable vpn : Nat) (ptm : PageTableMode) (table : pageTable < 16) (page : vpn < 64)
    (installed : ptm = .sixteen → mmsType = .mms2) :
    mmsGetPageTableEntry mmsType extended shadowRam pageTable vpn ptm =
      let index := entryIndex mmsType extended pageTable vpn ptm
      if extended ∨ pageTable < 4 then storedPte extended (shadowRam index) (shadowRam (index + 1))
      else 0 := by
  unfold mmsGetPageTableEntry storedPte
  rw [if_neg (by omega), mmsGetPtShadowAddress_entryIndex mmsType extended pageTable vpn ptm
    table page installed]
  cases extended <;> simp [Nat.lt_succ_iff]

section Formats

variable (extended : Bool) (first second : Word)

/-- The flags of both formats are the seven highest bits of the first word. -/
theorem storedPte_flag (bit : Nat) (lower : 9 ≤ bit) (inside : bit < 16) :
    (storedPte extended first second).getLsbD (bit + 16) = first.getLsbD bit := by
  cases extended <;> interval_cases bit <;> simp [storedPte, convertFrom16BitPte]

theorem storedPte_frame :
    (if extended then storedPte extended first second &&& 0x3FFF
      else storedPte extended first second &&& 0x1FF).toNat =
      (PageEntry.decode extended first second).frame := by
  cases extended
  · have low : storedPte false first second &&& 0x1FF = (first.setWidth 9).setWidth 32 := by
      apply BitVec.eq_of_getLsbD_eq
      intro bit inside
      interval_cases bit <;> simp [storedPte, convertFrom16BitPte]
    simp only [Bool.false_eq_true, if_false, low, PageEntry.decode, BitVec.toNat_setWidth]
    omega
  · have low : storedPte true first second &&& 0x3FFF = (second.setWidth 14).setWidth 32 := by
      apply BitVec.eq_of_getLsbD_eq
      intro bit inside
      interval_cases bit <;> simp [storedPte]
    simp only [if_true, low, PageEntry.decode, BitVec.toNat_setWidth]
    omega

theorem storedPte_ring :
    (storedPte extended first second >>> 25).setWidth 2 =
      (PageEntry.decode extended first second).ring := by
  apply BitVec.eq_of_getLsbD_eq
  intro bit inside
  have flag := storedPte_flag extended first second (bit + 9) (by omega) (by omega)
  interval_cases bit <;> simpa [PageEntry.decode] using flag

/-- The entry is absent exactly when its three permissions are clear. -/
theorem storedPte_present :
    storedPte extended first second &&& pfMask = 0 ↔
      (PageEntry.decode extended first second).present = false := by
  have read := storedPte_flag extended first second 14 (by decide) (by decide)
  have write := storedPte_flag extended first second 15 (by decide) (by decide)
  have fetch := storedPte_flag extended first second 13 (by decide) (by decide)
  have masked : ∀ bit, pfMask.getLsbD bit = true ↔ bit = 29 ∨ bit = 30 ∨ bit = 31 := by
    intro bit
    by_cases inside : bit < 32
    · interval_cases bit <;> decide
    · rw [BitVec.getLsbD_of_ge pfMask bit (by omega)]
      simp
      omega
  rw [Library.and_eq_zero_iff]
  simp only [masked, PageEntry.present, PageEntry.decode, Bool.or_eq_false_iff, ← read, ← write, ← fetch]
  constructor
  · intro clear
    exact ⟨⟨clear 30 (by decide), clear 31 (by decide)⟩, clear 29 (by decide)⟩
  · rintro ⟨⟨clear30, clear31⟩, clear29⟩ bit (rfl | rfl | rfl)
    · exact clear29
    · exact clear30
    · exact clear31

theorem accessBits_getLsbD (am : AccessMode) (bit : Nat) :
    (accessBits am).getLsbD bit = true ↔
      (bit = 30 ∧ am.bits.getLsbD 0) ∨ (bit = 31 ∧ am.bits.getLsbD 1) ∨
        (bit = 29 ∧ am.bits.getLsbD 2) := by
  by_cases inside : bit < 32
  · cases am <;> interval_cases bit <;> decide
  · rw [BitVec.getLsbD_of_ge (accessBits am) bit (by omega)]
    simp
    omega

/-- The access is refused exactly when no requested permission is granted. -/
theorem storedPte_permits (am : AccessMode) :
    storedPte extended first second &&& accessBits am = 0 ↔
      (PageEntry.decode extended first second).permits am = false := by
  have read := storedPte_flag extended first second 14 (by decide) (by decide)
  have write := storedPte_flag extended first second 15 (by decide) (by decide)
  have fetch := storedPte_flag extended first second 13 (by decide) (by decide)
  simp only [Nat.reduceAdd] at read write fetch
  rw [Library.and_eq_zero_iff]
  simp only [accessBits_getLsbD]
  cases am <;>
    simp [-BitVec.getLsbD_eq_getElem, PageEntry.permits, PageEntry.decode, AccessMode.bits,
      read, write, fetch, or_imp, forall_and]

/-- A flag of the entry is added in its first word. -/
theorem storedPte_mark (bit : Nat) (lower : 9 ≤ bit) (inside : bit < 16) :
    storedPte extended first second ||| ((1 : BitVec 32) <<< (bit + 16)) =
      storedPte extended (first ||| ((1 : Word) <<< bit)) second := by
  have wide : (((1 : Word) <<< bit).setWidth 32 : BitVec 32) <<< 16 = (1 : BitVec 32) <<< (bit + 16) := by
    interval_cases bit <;> decide
  cases extended
  · have upper : ((1 : Word) <<< bit) &&& 0xFE00 = (1 : Word) <<< bit := by
      interval_cases bit <;> decide
    have none : (((1 : Word) <<< bit) &&& 0x01FF).setWidth 32 = 0#32 := by
      interval_cases bit <;> decide
    simp only [storedPte, convertFrom16BitPte, Bool.false_eq_true, if_false, BitVec.and_or_distrib_right,
      upper, none, BitVec.setWidth_or, BitVec.shiftLeft_or_distrib, wide, BitVec.or_zero]
    exact Library.or_right_comm _ _ _
  · simp only [storedPte, if_true, BitVec.setWidth_or, BitVec.shiftLeft_or_distrib, wide]
    exact Library.or_right_comm _ _ _

/-- A stored entry is written back to the words it was read from. -/
theorem mmsUpdatePageTableEntry_stored (mmsType : MmsType) (shadowRam : Nat → Word)
    (pageTable vpn : Nat) (ptm : PageTableMode) (table : pageTable < 16) (page : vpn < 64)
    (installed : ptm = .sixteen → mmsType = .mms2) :
    mmsUpdatePageTableEntry mmsType extended shadowRam pageTable vpn ptm
        (storedPte extended first second) =
      let index := entryIndex mmsType extended pageTable vpn ptm
      if extended then Function.update (Function.update shadowRam index first) (index + 1) second
      else Function.update shadowRam index first := by
  unfold mmsUpdatePageTableEntry
  rw [if_neg (by omega), mmsGetPtShadowAddress_entryIndex mmsType extended pageTable vpn ptm
    table page installed]
  have high : (storedPte true first second >>> 16).setWidth 16 = first := by
    apply Library.word_eq_of_bits
    intro bit inside
    interval_cases bit <;> simp [storedPte]
  have low : (storedPte true first second).setWidth 16 = second := by
    apply Library.word_eq_of_bits
    intro bit inside
    interval_cases bit <;> simp [storedPte]
  have narrow : convertTo16BitPte (storedPte false first second) = first := by
    apply Library.word_eq_of_bits
    intro bit inside
    interval_cases bit <;> simp [storedPte, convertFrom16BitPte, convertTo16BitPte]
  cases extended <;> simp [high, low, narrow]

/-- A single flag of the entry is tested in its first word. -/
theorem storedPte_clear (bit : Nat) (lower : 9 ≤ bit) (inside : bit < 16) :
    storedPte extended first second &&& ((1 : BitVec 32) <<< (bit + 16)) = 0 ↔
      first.getLsbD bit = false := by
  rw [Library.and_eq_zero_iff, ← storedPte_flag extended first second bit lower inside]
  simp only [Library.getLsbD_single, decide_eq_true_eq, and_imp, forall_eq]
  exact ⟨fun clear => clear (by omega), fun clear _ => clear⟩

end Formats

/-- Adding a flag to the first word writes one word of the shadow memory. -/
theorem mmsUpdatePageTableEntry_mark (mmsType : MmsType) (extended : Bool) (shadowRam : Nat → Word)
    (pageTable vpn : Nat) (ptm : PageTableMode) (table : pageTable < 16) (page : vpn < 64)
    (installed : ptm = .sixteen → mmsType = .mms2) (first second : Word)
    (stored : second = shadowRam (entryIndex mmsType extended pageTable vpn ptm + 1)) :
    mmsUpdatePageTableEntry mmsType extended shadowRam pageTable vpn ptm
        (storedPte extended first second) =
      Function.update shadowRam (entryIndex mmsType extended pageTable vpn ptm) first := by
  rw [mmsUpdatePageTableEntry_stored extended first second mmsType shadowRam pageTable vpn ptm
    table page installed]
  cases extended
  · simp
  · simp only [if_true]
    rw [Function.update_comm (by omega), stored, Function.update_eq_self]

end Nd100x
