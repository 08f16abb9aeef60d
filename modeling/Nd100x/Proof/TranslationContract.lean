import Nd100x.Machine.Reset
import Nd100x.Proof.Translation

namespace Nd100x

variable {World : Type}

/-- A raised interrupt changes the interrupt registers only. -/
theorem raiseInterrupt_putIrq (s : CpuState World) (lvl : Level) (sub : Word) :
    s.raiseInterrupt lvl sub =
      s.putIrq ((s.irq.request lvl sub).recalcInternalInterruptBits
        (s.cpuGetbit RegNum.sts Sts.errorIndicator)) := rfl

theorem request_iid (irq : InterruptRegs) (sub : Word) :
    (irq.request 14 sub).iid = irq.iid ||| sub := by
  unfold InterruptRegs.request
  simp only [if_true]
  split <;> rfl

theorem recalcInternalInterruptBits_iid (irq : InterruptRegs) (errorIndicator : Bool) :
    (irq.recalcInternalInterruptBits errorIndicator).iid =
      irq.iid ||| (if errorIndicator then (1 : Word) <<< 5 else 0) := by
  unfold InterruptRegs.recalcInternalInterruptBits
  cases errorIndicator <;> simp only [Bool.false_eq_true, if_true, if_false] <;> split <;> simp

/-- The detected bits of an internal interrupt are its own bits and the error indicator. -/
def detectedBits (s : CpuState World) (sub : Word) : Word :=
  s.irq.iid ||| sub ||| (if s.cpuGetbit RegNum.sts Sts.errorIndicator then (1 : Word) <<< 5 else 0)

theorem raiseInterrupt_iid (s : CpuState World) (sub : Word) :
    (s.raiseInterrupt 14 sub).irq.iid = detectedBits s sub := by
  rw [raiseInterrupt_putIrq, CpuState.putIrq_irq, recalcInternalInterruptBits_iid, request_iid]
  rfl

/-- The number of the internal interrupt that a refused access raises. -/
def refusalCode (page : PageEntry) (am : AccessMode) (ring : BitVec 2) : Nat :=
  if page.present = false then 3
  else if page.permits am = false ∨ ring < page.ring then 2
  else 9

/-- A refused access raises its interrupt and keeps the page tables and the memory. -/
structure Refused (s t : CpuState World) (code : Nat) : Prop where
  detected : t.irq.iid = detectedBits s ((1 : Word) <<< code)
  shadowRam : t.shadowRam = s.shadowRam
  memory : t.memory = s.memory
  window : t.window = s.window
  reg : t.reg = s.reg

/-- A granted access marks its page and changes no other word and no interrupt register. -/
structure Granted (s t : CpuState World) (index : Nat) (am : AccessMode) : Prop where
  marked : t.shadowRam index = s.shadowRam index ||| accessMarks am
  others : ∀ other, other ≠ index → t.shadowRam other = s.shadowRam other
  irq : t.irq = s.irq
  memory : t.memory = s.memory
  window : t.window = s.window
  reg : t.reg = s.reg

/-- Every fault report keeps what the refusal keeps. -/
theorem refused_of_report (s t : CpuState World) (code : Nat)
    (irq : t.irq = s.irq) (reg : t.reg = s.reg) (sts : t.sts = s.sts)
    (shadowRam : t.shadowRam = s.shadowRam) (memory : t.memory = s.memory)
    (window : t.window = s.window) :
    Refused s (t.raiseInterrupt 14 ((1 : Word) <<< code)) code where
  detected := by
    have bits := raiseInterrupt_iid t ((1 : Word) <<< code)
    simpa [detectedBits, CpuState.cpuGetbit, CpuState.stsWord, CpuState.getReg, CpuState.pil, irq, reg,
      sts] using bits
  shadowRam := shadowRam
  memory := memory
  window := window
  reg := reg

/-- Giving the test-and-set lock back does not undo a refusal. -/
theorem Refused.unlocked {s t : CpuState World} {code : Nat} (refused : Refused s t code) :
    Refused s t.mmsTsetLockEnd code :=
  ⟨refused.detected, refused.shadowRam, refused.memory, refused.window, refused.reg⟩

section Contract

variable (s : CpuState World) (mmsType : MmsType) (virtualAddress : Word) (am : AccessMode)
  (useApt : Bool)

theorem mapped_granted :
    Granted s (s.mapped mmsType virtualAddress useApt am)
      (s.selectedIndex mmsType virtualAddress useApt) am where
  marked := by simp [CpuState.mapped, CpuState.markedShadowRam]
  others other distinct := by simp [CpuState.mapped, CpuState.markedShadowRam, distinct]
  irq := by unfold CpuState.mapped CpuState.mmsDegrade; split <;> rfl
  memory := by unfold CpuState.mapped CpuState.mmsDegrade; split <;> rfl
  window := by unfold CpuState.mapped CpuState.mmsDegrade; split <;> rfl
  reg := by unfold CpuState.mapped CpuState.mmsDegrade; split <;> rfl

/-- A page that is not granted decides between the three interrupts in their order. -/
theorem outcome_refusalCode (page : PageEntry) (ring : BitVec 2) (claimed : Bool)
    (refused : page.outcome am ring claimed ≠ .mapped) :
    refusalCode page am ring =
      match page.outcome am ring claimed with
      | .pageFault => 3
      | .permitViolation | .ringViolation => 2
      | .outOfRange | .mapped => 9 := by
  revert refused
  unfold refusalCode PageEntry.outcome
  by_cases lower : ring < page.ring <;>
    cases page.present <;> cases page.permits am <;> cases claimed <;> simp [lower]

/-- Every outcome other than a mapped page is refused with its interrupt. -/
theorem translated_refused
    (refused : s.translationOutcome mmsType virtualAddress useApt am ≠ .mapped) :
    let code := refusalCode (s.selectedPage mmsType virtualAddress useApt) am s.ring
    ∃ t, Refused s t code ∧
      translated s mmsType virtualAddress am useApt =
        if code = 9 then .ok none t else .error .longjmp t := by
  intro code
  have numbered : code = _ := outcome_refusalCode am _ s.ring _ refused
  change s.translationOutcome mmsType virtualAddress useApt am ≠ .mapped at refused
  unfold translated
  generalize decided : s.translationOutcome mmsType virtualAddress useApt am = outcome at refused
  change PageEntry.outcome _ am s.ring _ = outcome at decided
  rw [decided] at numbered
  cases outcome with
  | pageFault =>
    rw [numbered]
    exact ⟨_, (refused_of_report s (s.faultStatus mmsType virtualAddress useApt am true) 3
      rfl rfl rfl rfl rfl rfl).unlocked, rfl⟩
  | permitViolation =>
    rw [numbered]
    exact ⟨_, (refused_of_report s (s.faultStatus mmsType virtualAddress useApt am true) 2
      rfl rfl rfl rfl rfl rfl).unlocked, rfl⟩
  | ringViolation =>
    rw [numbered]
    exact ⟨_, (refused_of_report s (s.faultStatus mmsType virtualAddress useApt am false) 2
      rfl rfl rfl rfl rfl rfl).unlocked, rfl⟩
  | outOfRange =>
    rw [numbered]
    have kept : ∀ pageRing, ∃ pcr, s.mmsDegrade am pageRing = s.putPcr pcr := by
      intro pageRing
      unfold CpuState.mmsDegrade
      split
      · exact ⟨_, rfl⟩
      · exact ⟨s.pcr, rfl⟩
    obtain ⟨pcr, lowered⟩ := kept (s.selectedPage mmsType virtualAddress useApt).ring
    simp only [lowered]
    exact ⟨_, refused_of_report s (((s.putPcr pcr).mmsUpdatePgs _ _ am false).cpuSetPea _ |>.cpuSetPes _) 9
      rfl rfl rfl rfl rfl rfl, rfl⟩
  | mapped => exact absurd rfl refused

/-- A translation returns an address exactly for a granted page and otherwise raises one interrupt. -/
theorem mmsMapVirtualToPhysical_contract (paging : s.pagingOn = true)
    (plain : s.mmsIsAddressShadowMemory mmsType virtualAddress.toNat false = false) :
    let page := s.selectedPage mmsType virtualAddress useApt
    let address := page.address virtualAddress
    let result := mmsMapVirtualToPhysical mmsType virtualAddress am useApt s
    let granted := page.present = true ∧ page.permits am = true ∧ page.ring ≤ s.ring ∧
      (mmsMemoryBankLookup s.banks address).isSome = true
    ((∃ physical t, result = .ok (some physical) t) ↔ granted) ∧
    (∀ physical t, result = .ok (some physical) t →
      physical = address ∧ Granted s t (s.selectedIndex mmsType virtualAddress useApt) am) ∧
    (¬ granted → ∃ t, Refused s t (refusalCode page am s.ring) ∧
      result = if refusalCode page am s.ring = 9 then .ok none t else .error .longjmp t) := by
  intro page address result granted
  have run : result = translated s mmsType virtualAddress am useApt :=
    mmsMapVirtualToPhysical_run s mmsType virtualAddress am useApt paging plain
  have decided : s.translationOutcome mmsType virtualAddress useApt am = .mapped ↔ granted :=
    PageEntry.outcome_mapped page am s.ring _
  by_cases mapped : s.translationOutcome mmsType virtualAddress useApt am = .mapped
  · have done : result = .ok (some address) (s.mapped mmsType virtualAddress useApt am) := by
      rw [run, translated, mapped]
      rfl
    refine ⟨⟨fun _ => decided.mp mapped, fun _ => ⟨_, _, done⟩⟩, ?_, fun refused => absurd (decided.mp mapped) refused⟩
    intro physical t returned
    rw [done] at returned
    cases returned
    exact ⟨rfl, mapped_granted s mmsType virtualAddress am useApt⟩
  · obtain ⟨t, refused, stopped⟩ := translated_refused s mmsType virtualAddress am useApt mapped
    have none : ∀ physical u, result ≠ .ok (some physical) u := by
      intro physical u returned
      rw [run, stopped] at returned
      split at returned <;> cases returned
    refine ⟨⟨fun ⟨physical, u, returned⟩ => absurd returned (none physical u),
      fun held => absurd (decided.mpr held) mapped⟩, ?_, fun _ => ⟨t, refused, run.trans stopped⟩⟩
    exact fun physical u returned => absurd returned (none physical u)

end Contract

/-- Paging is on, and the first page of the first table is the second frame. -/
def onePageState : CpuState Unit :=
  ((cpuInit bareMachine ()).putSts 0x5000).putShadowRam (Function.update (fun _ => 0) 1792 0xE001)

/-- A read of the fifth word of the only page is granted and marks the page. -/
theorem mmsMapVirtualToPhysical_contract_onePage :
    ∃ t, mmsMapVirtualToPhysical .mms2 5 .read false onePageState = .ok (some 1029) t ∧
      t.shadowRam 1792 = 0xE801 := by
  have contract := mmsMapVirtualToPhysical_contract onePageState .mms2 5 .read false
    (by decide) (by decide)
  obtain ⟨physical, t, done⟩ := contract.1.mpr (by decide)
  obtain ⟨address, granted⟩ := contract.2.1 physical t done
  have index : onePageState.selectedIndex .mms2 5 false = 1792 := by decide
  have marked := granted.marked
  rw [index] at marked
  refine ⟨t, ?_, marked⟩
  rw [done, address]
  rfl

end Nd100x
