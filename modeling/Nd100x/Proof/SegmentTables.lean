import Nd100x.Flat.PageLists
import Nd100x.Library.WriteLog
import Nd100x.Machine.PageLists
import Nd100x.Proof.PageTableView

namespace Nd100x

open Library Instr

variable {World : Type}

/-- The entry of a segment word in the shadow memory. -/
def entrySlot (mmsType : MmsType) (word1 : Word) : Nat :=
  (entryAddress word1).toNat - shadowRamAddress mmsType

/-- The links of a core-map chain run to a null link. -/
def MapChain (memory : Nat → Word) (cmbuk : Word) : Word → List Word → Prop
  | x, [] => x = 0
  | x, node :: rest =>
    x = node ∧ node ≠ 0 ∧ MapChain memory cmbuk (memory (bankAddress cmbuk node)) rest

theorem MapChain.congr {memory memory' : Nat → Word} {cmbuk x : Word} {nodes : List Word}
    (chain : MapChain memory cmbuk x nodes)
    (links : ∀ node ∈ nodes, memory' (bankAddress cmbuk node) = memory (bankAddress cmbuk node)) :
    MapChain memory' cmbuk x nodes := by
  induction nodes generalizing x with
  | nil => exact chain
  | cons node rest ih =>
    obtain ⟨here, some, later⟩ := chain
    refine ⟨here, some, ?_⟩
    rw [links node List.mem_cons_self]
    exact ih later fun other member => links other (List.mem_cons_of_mem node member)

/-- The words of a node answer, and its entry is visible. -/
structure NodeWords (config : Config World) (s : CpuState World) (cmbuk node word1 : Word) : Prop where
  link : (s.space config).physical (bankAddress cmbuk node) = .word (bankAddress cmbuk node)
  first : (s.space config).physical (bankAddress cmbuk (node + 2)) = .word (bankAddress cmbuk (node + 2))
  second : (s.space config).physical (bankAddress cmbuk (node + 3)) = .word (bankAddress cmbuk (node + 3))
  visible : s.mmsIsAddressShadowMemory config.mmsType (entryAddress word1).toNat false = true

section Entry

variable {config : Config World} {s t : CpuState World}

/-- An entry address is even. -/
theorem entryAddress_even (word1 : Word) : (entryAddress word1).toNat % 2 = 0 := by
  rw [entryAddress, BitVec.toNat_shiftLeft, Nat.shiftLeft_eq]
  omega

theorem entryAddress_next (word1 : Word) :
    (entryAddress word1 + 1).toNat = (entryAddress word1).toNat + 1 := by
  have even := entryAddress_even word1
  have bound := (entryAddress word1).isLt
  rw [BitVec.toNat_add]
  change (_ + 1) % _ = _
  omega

/-- The shadow memory is visible from its start on. -/
theorem visible_above {low high : Nat} (above : low ≤ high) (bound : high ≤ 0xFFFF)
    (visible : s.mmsIsAddressShadowMemory config.mmsType low false = true) :
    s.mmsIsAddressShadowMemory config.mmsType high false = true := by
  have lowBound : ¬ 0xFFFF < low := by omega
  have highBound : ¬ 0xFFFF < high := by omega
  have later {start : Nat} (reached : decide (start ≤ low) = true) : decide (start ≤ high) = true :=
    decide_eq_true ((of_decide_eq_true reached).trans above)
  unfold CpuState.mmsIsAddressShadowMemory at visible ⊢
  rw [if_neg lowBound] at visible
  rw [if_neg highBound]
  by_cases dma : s.dmaAccess = true
  · rw [if_pos dma] at visible
    cases visible
  rw [if_neg dma] at visible ⊢
  by_cases sees : s.ring = 3 ∨ ¬ s.pagingOn = true ∨ false = true
  · rw [if_pos sees] at visible ⊢
    by_cases extended : s.extendedAddressing = true
    · rw [if_pos extended] at visible ⊢
      by_cases larger : config.mmsType = .mms2 ∧ (s.pcr s.pil).getLsbD 2 = true
      · rw [if_pos larger] at visible ⊢
        exact later visible
      · rw [if_neg larger] at visible ⊢
        exact later visible
    · rw [if_neg extended] at visible ⊢
      exact later visible
  · rw [if_neg sees] at visible
    cases visible

/-- The second word of a visible entry is visible. -/
theorem visible_next {word1 : Word}
    (visible : s.mmsIsAddressShadowMemory config.mmsType (entryAddress word1).toNat false = true) :
    s.mmsIsAddressShadowMemory config.mmsType (entryAddress word1 + 1).toNat false = true := by
  have bound := (entryAddress word1 + 1).isLt
  refine visible_above ?_ (by omega) visible
  rw [entryAddress_next]
  exact Nat.le_succ _

theorem entrySlot_next {word1 : Word}
    (visible : s.mmsIsAddressShadowMemory config.mmsType (entryAddress word1).toNat false = true) :
    (entryAddress word1 + 1).toNat - shadowRamAddress config.mmsType =
      entrySlot config.mmsType word1 + 1 := by
  have above := (visible_range visible).2
  rw [entryAddress_next, entrySlot]
  omega

end Entry

section Walks

variable {config : Config World} {s t : CpuState World} {view : TableView} {cmbuk : Word}
  {word1 : Word → Word} {nodes : List Word}

/-- The two words of each entry that `ENPT` writes. -/
def enterWrites (mmsType : MmsType) (word1 entry : Word → Word) (nodes : List Word) :
    List (Nat × Word) :=
  nodes.flatMap fun node => [(entrySlot mmsType (word1 node), entry node),
    (entrySlot mmsType (word1 node) + 1, node >>> 2)]

/-- One turn of `ENPT` enters a node. -/
theorem exec_enter_turn (viewed : Viewed config s view t) (mask : Word) {node : Word} (fuel : Nat)
    (here : view.reg RegNum.x = node) (some : node ≠ 0)
    (words : NodeWords config s cmbuk node (view.core (bankAddress cmbuk (node + 3)))) :
    ∃ u view', exec config (nd110EnterPageTable cmbuk mask (fuel + 1)) t =
        exec config (nd110EnterPageTable cmbuk mask fuel) u ∧ Viewed config s view' u ∧
      view'.core = view.core ∧
      view'.shadowRam = applyWrites (enterWrites config.mmsType
        (fun node => view.core (bankAddress cmbuk (node + 3)))
        (fun node => view.core (bankAddress cmbuk (node + 2)) &&& mask) [node]) view.shadowRam ∧
      view'.reg RegNum.x = view.core (bankAddress cmbuk node) := by
  obtain ⟨t₁, first, viewed₁⟩ := viewed.run_physRead words.first
  obtain ⟨t₂, loaded, viewed₂⟩ := viewed₁.run_setReg GenReg.a
    (view.core (bankAddress cmbuk (node + 2)) &&& mask)
  obtain ⟨t₃, second, viewed₃⟩ : ∃ u, exec config (physRead (bankAddress cmbuk (node + 3))) t₂ =
      .ok (view.core (bankAddress cmbuk (node + 3))) u ∧ Viewed config s _ u :=
    viewed₂.run_physRead words.second
  obtain ⟨t₄, based, viewed₄⟩ := viewed₃.run_setReg GenReg.b
    (entryAddress (view.core (bankAddress cmbuk (node + 3))))
  obtain ⟨t₅, entered, viewed₅⟩ := viewed₄.run_shadowWrite
    (view.core (bankAddress cmbuk (node + 2)) &&& mask) true words.visible
  obtain ⟨t₆, framed, viewed₆⟩ := viewed₅.run_shadowWrite (node >>> 2) true (visible_next words.visible)
  obtain ⟨t₇, linked, viewed₇⟩ := viewed₆.run_physRead words.link
  obtain ⟨t₈, advanced, viewed₈⟩ := viewed₇.run_setReg GenReg.x (view.core (bankAddress cmbuk node))
  rw [entrySlot_next words.visible] at viewed₈
  refine ⟨t₈, _, ?_, viewed₈, rfl, rfl, TableView.putReg_same _ RegNum.x _⟩
  rw [nd110EnterPageTable, exec_bind, Cpu.bind_ok (viewed.run_getReg RegNum.x), here, if_neg some,
    exec_bind, Cpu.bind_ok first, exec_bind, Cpu.bind_ok loaded, exec_bind, Cpu.bind_ok second,
    exec_bind, Cpu.bind_ok based, exec_bind, Cpu.bind_ok (viewed₄.run_getReg RegNum.a)]
  have masked : ((view.putReg GenReg.a.num (view.core (bankAddress cmbuk (node + 2)) &&& mask)).putReg
      GenReg.b.num (entryAddress (view.core (bankAddress cmbuk (node + 3))))).reg RegNum.a =
        view.core (bankAddress cmbuk (node + 2)) &&& mask :=
    (TableView.putReg_other _ _ (by decide)).trans (TableView.putReg_same _ RegNum.a _)
  rw [masked, exec_bind, Cpu.bind_ok entered, exec_bind, Cpu.bind_ok framed, exec_bind,
    Cpu.bind_ok (by exact linked), exec_bind, Cpu.bind_ok (by exact advanced)]

/-- `ENPT` enters the nodes of a chain and changes no other word of the memory. -/
theorem exec_enter (viewed : Viewed config s view t) (mask : Word) {fuel : Nat}
    (chain : MapChain view.core cmbuk (view.reg RegNum.x) nodes)
    (words : ∀ node ∈ nodes,
      NodeWords config s cmbuk node (view.core (bankAddress cmbuk (node + 3))))
    (enough : nodes.length < fuel) :
    ∃ u view', exec config (nd110EnterPageTable cmbuk mask fuel) t = .ok true u ∧
      Viewed config s view' u ∧ view'.core = view.core ∧
      view'.shadowRam = applyWrites (enterWrites config.mmsType
        (fun node => view.core (bankAddress cmbuk (node + 3)))
        (fun node => view.core (bankAddress cmbuk (node + 2)) &&& mask) nodes) view.shadowRam ∧
      view'.reg RegNum.x = 0 := by
  induction nodes generalizing t view fuel with
  | nil =>
    obtain ⟨fuel, rfl⟩ := Nat.exists_eq_add_one.mpr enough
    refine ⟨t, view, ?_, viewed, rfl, rfl, chain⟩
    have empty : view.reg RegNum.x = 0 := chain
    rw [nd110EnterPageTable, exec_bind, Cpu.bind_ok (viewed.run_getReg RegNum.x), if_pos empty]
    rfl
  | cons node rest ih =>
    obtain ⟨fuel, rfl⟩ := Nat.exists_eq_add_one.mpr (lt_of_le_of_lt (Nat.zero_le _) enough)
    obtain ⟨here, some, later⟩ := chain
    obtain ⟨t', view', turned, viewed', core, shadow, next⟩ := exec_enter_turn viewed mask fuel here some
      (words node List.mem_cons_self)
    rw [← next, ← core] at later
    obtain ⟨u, final, done, seen, core', shadow', ended⟩ := ih viewed' later
      (by
        rw [core]
        exact fun other member => words other (List.mem_cons_of_mem node member))
      (Nat.lt_of_succ_lt_succ enough)
    refine ⟨u, final, turned.trans done, seen, core'.trans core, ?_, ended⟩
    rw [shadow', shadow, core, ← applyWrites_append]
    rfl

/-- The entries that are not zero are saved in the second words of their nodes. -/
def saveWrites (cmbuk : Word) (value : Word → Word) (nodes : List Word) : List (Nat × Word) :=
  (nodes.filter fun node => value node ≠ 0).map fun node => (bankAddress cmbuk (node + 2), value node)

/-- Every entry is cleared. -/
def clearWrites (mmsType : MmsType) (word1 : Word → Word) (nodes : List Word) : List (Nat × Word) :=
  nodes.map fun node => (entrySlot mmsType (word1 node), 0)

/-- An entry is saved and cleared, and a zero entry is left alone. -/
theorem exec_clptSave (viewed : Viewed config s view t) {node : Word} {value : Word → Word}
    (words : NodeWords config s cmbuk node (word1 node)) (zero : view.reg RegNum.a = 0)
    (read : view.shadowRam (entrySlot config.mmsType (word1 node)) = value node) :
    ∃ u view', exec config (clptSave cmbuk node (entryAddress (word1 node))) t = .ok () u ∧
      Viewed config s view' u ∧ view'.core = applyWrites (saveWrites cmbuk value [node]) view.core ∧
      view'.shadowRam = applyWrites (clearWrites config.mmsType word1 [node]) view.shadowRam ∧
      view'.reg = view.reg := by
  have seen : exec config (memRead (entryAddress (word1 node)) true) t = .ok (value node) t :=
    (viewed.run_shadowRead true words.visible).trans (congrArg (EStateM.Result.ok · t) read)
  unfold clptSave
  rw [exec_bind, Cpu.bind_ok seen]
  by_cases empty : value node = 0
  · have none : saveWrites cmbuk value [node] = [] := by
      rw [saveWrites, List.filter_cons_of_neg (by simpa using empty)]
      rfl
    rw [if_neg (not_not.mpr empty), none]
    refine ⟨t, view, rfl, viewed, rfl, ?_, rfl⟩
    change _ = Function.update view.shadowRam (entrySlot config.mmsType (word1 node)) 0
    rw [← empty, ← read]
    exact (Function.update_eq_self _ _).symm
  · have one : saveWrites cmbuk value [node] = [(bankAddress cmbuk (node + 2), value node)] := by
      rw [saveWrites, List.filter_cons_of_pos (by simpa using empty)]
      rfl
    obtain ⟨t₁, saved, viewed₁⟩ := viewed.run_physWrite (value node) words.first
    obtain ⟨t₂, cleared, viewed₂⟩ := viewed₁.run_shadowWrite 0 true words.visible
    rw [if_pos empty, one, exec_bind, Cpu.bind_ok saved, exec_bind,
      Cpu.bind_ok (viewed₁.run_getReg RegNum.a), if_pos (by exact zero), cleared]
    exact ⟨t₂, _, rfl, viewed₂, rfl, rfl, rfl⟩

/-- One turn of `CLPT` in the save mode. -/
theorem exec_clpt_turn (viewed : Viewed config s view t) {node : Word} {value : Word → Word}
    (fuel : Nat) (here : view.reg RegNum.x = node) (some : node ≠ 0)
    (words : NodeWords config s cmbuk node (word1 node))
    (entry : view.core (bankAddress cmbuk (node + 3)) = word1 node)
    (zero : view.reg RegNum.a = 0)
    (read : view.shadowRam (entrySlot config.mmsType (word1 node)) = value node)
    (apart : bankAddress cmbuk (node + 2) ≠ bankAddress cmbuk node) :
    ∃ u view', exec config (clptWalk cmbuk false (fuel + 1)) t =
        exec config (clptWalk cmbuk false fuel) u ∧ Viewed config s view' u ∧
      view'.core = applyWrites (saveWrites cmbuk value [node]) view.core ∧
      view'.shadowRam = applyWrites (clearWrites config.mmsType word1 [node]) view.shadowRam ∧
      view'.reg RegNum.x = view.core (bankAddress cmbuk node) ∧ view'.reg RegNum.a = 0 := by
  obtain ⟨t₁, second, viewed₁⟩ := viewed.run_physRead words.second
  rw [entry] at second
  obtain ⟨t₂, based, viewed₂⟩ := viewed₁.run_setReg GenReg.b (entryAddress (word1 node))
  have kept {r : RegNum} (other : r ≠ RegNum.b) :
      (view.putReg GenReg.b.num (entryAddress (word1 node))).reg r = view.reg r :=
    TableView.putReg_other _ _ other
  obtain ⟨t₃, view₃, saved, viewed₃, core, shadow, reg⟩ := exec_clptSave viewed₂ words
    ((kept (by decide)).trans zero) (by exact read)
  have link : view₃.core (bankAddress cmbuk node) = view.core (bankAddress cmbuk node) := by
    rw [core]
    refine applyWrites_other fun write member => ?_
    obtain ⟨other, inside, rfl⟩ := List.mem_map.mp member
    obtain rfl : other = node := List.mem_singleton.mp (List.mem_of_mem_filter inside)
    exact apart.symm
  obtain ⟨t₄, linked, viewed₄⟩ := viewed₃.run_physRead words.link
  rw [link] at linked
  obtain ⟨t₅, advanced, viewed₅⟩ := viewed₄.run_setReg GenReg.x (view.core (bankAddress cmbuk node))
  refine ⟨t₅, _, ?_, viewed₅, core, shadow, TableView.putReg_same _ RegNum.x _, ?_⟩
  · rw [clptWalk, exec_bind, Cpu.bind_ok (viewed.run_getReg RegNum.x), here, if_neg some, exec_bind,
      Cpu.bind_ok second, exec_bind, Cpu.bind_ok based, if_neg Bool.false_ne_true, exec_bind,
      Cpu.bind_ok saved, exec_bind, Cpu.bind_ok linked, exec_bind, Cpu.bind_ok advanced]
  · rw [TableView.putReg_other _ _ (by decide), reg, kept (by decide), zero]

theorem saveWrites_cons (cmbuk : Word) (value : Word → Word) (node : Word) (rest : List Word) :
    saveWrites cmbuk value (node :: rest) =
      saveWrites cmbuk value [node] ++ saveWrites cmbuk value rest := by
  have split : (node :: rest).filter (fun node => value node ≠ 0) =
      [node].filter (fun node => value node ≠ 0) ++ rest.filter fun node => value node ≠ 0 :=
    List.filter_append [node] rest
  unfold saveWrites
  rw [split, List.map_append]

theorem mem_saveWrites {value : Word → Word} {write : Nat × Word} :
    write ∈ saveWrites cmbuk value nodes ↔
      ∃ node ∈ nodes, value node ≠ 0 ∧ write = (bankAddress cmbuk (node + 2), value node) := by
  unfold saveWrites
  simp only [List.mem_map, List.mem_filter, decide_eq_true_eq]
  constructor
  · rintro ⟨node, ⟨member, some⟩, rfl⟩
    exact ⟨node, member, some, rfl⟩
  · rintro ⟨node, member, some, rfl⟩
    exact ⟨node, ⟨member, some⟩, rfl⟩

/-- The saved words are apart from the links and the segment words. -/
def SavesApart (cmbuk : Word) (nodes : List Word) : Prop :=
  ∀ one ∈ nodes, ∀ two ∈ nodes, bankAddress cmbuk (one + 2) ≠ bankAddress cmbuk two ∧
    bankAddress cmbuk (one + 2) ≠ bankAddress cmbuk (two + 3)

/-- `CLPT` with a zero A saves the entries of a chain and clears them. -/
theorem exec_clpt (viewed : Viewed config s view t) {value : Word → Word} {fuel : Nat}
    (chain : MapChain view.core cmbuk (view.reg RegNum.x) nodes)
    (words : ∀ node ∈ nodes, NodeWords config s cmbuk node (word1 node))
    (entries : ∀ node ∈ nodes, view.core (bankAddress cmbuk (node + 3)) = word1 node)
    (zero : view.reg RegNum.a = 0)
    (reads : ∀ node ∈ nodes,
      view.shadowRam (entrySlot config.mmsType (word1 node)) = value node)
    (distinct : (nodes.map fun node => entrySlot config.mmsType (word1 node)).Nodup)
    (apart : SavesApart cmbuk nodes) (enough : nodes.length < fuel) :
    ∃ u view', exec config (clptWalk cmbuk false fuel) t = .ok true u ∧ Viewed config s view' u ∧
      view'.core = applyWrites (saveWrites cmbuk value nodes) view.core ∧
      view'.shadowRam = applyWrites (clearWrites config.mmsType word1 nodes) view.shadowRam ∧
      view'.reg RegNum.x = 0 := by
  induction nodes generalizing t view fuel with
  | nil =>
    obtain ⟨fuel, rfl⟩ := Nat.exists_eq_add_one.mpr enough
    refine ⟨t, view, ?_, viewed, rfl, rfl, chain⟩
    have empty : view.reg RegNum.x = 0 := chain
    rw [clptWalk, exec_bind, Cpu.bind_ok (viewed.run_getReg RegNum.x), if_pos empty]
    rfl
  | cons node rest ih =>
    obtain ⟨fuel, rfl⟩ := Nat.exists_eq_add_one.mpr (lt_of_le_of_lt (Nat.zero_le _) enough)
    obtain ⟨here, some, later⟩ := chain
    have own : node ∈ node :: rest := List.mem_cons_self
    have inside {other : Word} (member : other ∈ rest) : other ∈ node :: rest :=
      List.mem_cons_of_mem node member
    obtain ⟨fresh, others⟩ := List.nodup_cons.mp distinct
    obtain ⟨t', view', turned, viewed', core, shadow, next, zero'⟩ := exec_clpt_turn viewed fuel here
      some (words node own) (entries node own) zero (reads node own) (apart node own node own).1
    have kept {cell : Nat} (different : bankAddress cmbuk (node + 2) ≠ cell) :
        view'.core cell = view.core cell := by
      rw [core]
      refine applyWrites_other fun write member => ?_
      obtain ⟨other, single, -, rfl⟩ := mem_saveWrites.mp member
      obtain rfl : other = node := List.mem_singleton.mp single
      exact different.symm
    have unread {other : Word} (member : other ∈ rest) :
        view'.shadowRam (entrySlot config.mmsType (word1 other)) =
          view.shadowRam (entrySlot config.mmsType (word1 other)) := by
      rw [shadow]
      exact Function.update_of_ne
        (fun same => fresh (List.mem_map.mpr ⟨other, member, same⟩)) _ _
    obtain ⟨u, final, done, seen, core', shadow', ended⟩ := ih viewed'
      (by
        rw [next]
        exact later.congr fun other member => kept (apart node own other (inside member)).1)
      (fun other member => words other (inside member))
      (fun other member =>
        (kept (apart node own other (inside member)).2).trans (entries other (inside member)))
      zero' (fun other member => (unread member).trans (reads other (inside member))) others
      (fun one first two second => apart one (inside first) two (inside second))
      (Nat.lt_of_succ_lt_succ enough)
    refine ⟨u, final, turned.trans done, seen, ?_, ?_, ended⟩
    · rw [core', core, saveWrites_cons cmbuk value node rest, applyWrites_append]
    · rw [shadow', shadow]
      rfl

end Walks

section Together

variable {config : Config World} {s : CpuState World} {nodes : List Word}

/-- `CLPT` starts again at the first node, with a zero A. -/
def enterThenClear (config : Config World) (fuel : Nat) : Cpu World Bool := do
  let x := (← get).getReg RegNum.x
  let entered ← exec config (opcodeEnptEnterSegmentInPageTables fuel)
  modify fun s => (s.setReg RegNum.a 0).setReg RegNum.x x
  let cleared ← exec config (opcodeClptClearSegmentFromPageTables fuel)
  return entered && cleared

namespace CpuState

variable (s)

/-- The words of a core-map entry: its link, its descriptor and its place in the tables. -/
def mapWord (node offset : Word) : Word := s.core (bankAddress s.system.cmbuk (node + offset))

/-- The descriptor without its `PGU` bit. -/
def enteredWord (node : Word) : Word := s.mapWord node 2 &&& 0xF7FF

def nodeSlot (mmsType : MmsType) (node : Word) : Nat := entrySlot mmsType (s.mapWord node 3)

end CpuState

/-- A core-map chain from X, whose nodes select different visible entries. -/
structure SegmentChain (config : Config World) (s : CpuState World) (nodes : List Word) : Prop where
  chain : MapChain s.core s.system.cmbuk (s.getReg RegNum.x) nodes
  words : ∀ node ∈ nodes, NodeWords config s s.system.cmbuk node (s.mapWord node 3)
  distinct : (nodes.map (s.nodeSlot config.mmsType)).Nodup
  apart : SavesApart s.system.cmbuk nodes

/-- The chain is back with the entered descriptors, the first words of its entries are cleared,
and the rest of the memory is as before. -/
structure ChainBack (config : Config World) (s u : CpuState World) (nodes : List Word) : Prop where
  chain : MapChain u.core s.system.cmbuk (s.getReg RegNum.x) nodes
  descriptors : ∀ node ∈ nodes, u.core (bankAddress s.system.cmbuk (node + 2)) =
    if s.enteredWord node ≠ 0 then s.enteredWord node else s.mapWord node 2
  core : ∀ cell, (∀ node ∈ nodes, cell ≠ bankAddress s.system.cmbuk (node + 2)) →
    u.core cell = s.core cell
  first : ∀ node ∈ nodes, u.shadowRam (s.nodeSlot config.mmsType node) = 0
  x : u.getReg RegNum.x = 0

/-- The second words of the entries keep the page frames, and no other entry has changed. -/
structure GivenBack (config : Config World) (s u : CpuState World) (nodes : List Word) : Prop
    extends ChainBack config s u nodes where
  second : ∀ node ∈ nodes, u.shadowRam (s.nodeSlot config.mmsType node + 1) = node >>> 2
  shadow : ∀ index, (∀ node ∈ nodes, index ≠ s.nodeSlot config.mmsType node ∧
    index ≠ s.nodeSlot config.mmsType node + 1) → u.shadowRam index = s.shadowRam index

/-- A visible entry starts at an even place. -/
theorem entrySlot_even {word1 : Word}
    (visible : s.mmsIsAddressShadowMemory config.mmsType (entryAddress word1).toNat false = true) :
    entrySlot config.mmsType word1 % 2 = 0 := by
  have even := entryAddress_even word1
  have above := (visible_range visible).2
  have start : shadowRamAddress config.mmsType % 2 = 0 := by
    cases config.mmsType <;> rfl
  rw [entrySlot]
  omega

/-- The entered words are all at different places. -/
theorem enterWrites_distinct (segment : SegmentChain config s nodes) :
    ((enterWrites config.mmsType (s.mapWord · 3) s.enteredWord nodes).map Prod.fst).Nodup := by
  have even {node : Word} (member : node ∈ nodes) : s.nodeSlot config.mmsType node % 2 = 0 :=
    entrySlot_even (segment.words node member).visible
  unfold enterWrites
  rw [List.map_flatMap, List.nodup_flatMap]
  constructor
  · intro node member
    simp
  · refine (List.pairwise_map.mp segment.distinct).imp_of_mem ?_
    intro one two first second apart
    have left := even first
    have right := even second
    have places : ∀ node : Word, s.nodeSlot config.mmsType node =
      entrySlot config.mmsType (s.mapWord node 3) := fun node => rfl
    rw [places] at left right apart
    rw [places] at apart
    simp only [Function.onFun, List.map_cons, List.map_nil, List.disjoint_cons_left,
      List.mem_cons, List.not_mem_nil, or_false, List.disjoint_nil_left, and_true]
    omega

/-- The two instructions make the writes of both walks. -/
theorem exec_enterThenClear {fuel : Nat} (privileged : (s.space config).privileged s.ring = true)
    (segment : SegmentChain config s nodes) (enough : nodes.length < fuel) :
    ∃ u, enterThenClear config fuel s = .ok true u ∧ u.getReg RegNum.x = 0 ∧
      u.core = applyWrites (saveWrites s.system.cmbuk s.enteredWord nodes) s.core ∧
      u.shadowRam = applyWrites (clearWrites config.mmsType (s.mapWord · 3) nodes)
        (applyWrites (enterWrites config.mmsType (s.mapWord · 3) s.enteredWord nodes)
          s.shadowRam) := by
  have viewed := Viewed.refl config s
  obtain ⟨t, view, entered, viewed', core, shadow, -⟩ :=
    exec_enter viewed 0xF7FF segment.chain segment.words enough
  have enpt : exec config (opcodeEnptEnterSegmentInPageTables fuel) s = .ok true t := by
    rw [opcodeEnptEnterSegmentInPageTables, exec_bind, Cpu.bind_ok (viewed.run_checkPriv privileged),
      if_neg (by decide), exec_bind, Cpu.bind_ok viewed.run_getSystem]
    exact entered
  have loaded := (viewed'.setReg RegNum.a 0).setReg RegNum.x (s.getReg RegNum.x)
  have zero : ((view.putReg RegNum.a 0).putReg RegNum.x (s.getReg RegNum.x)).reg RegNum.a = 0 :=
    (TableView.putReg_other _ _ (by decide)).trans (TableView.putReg_same _ RegNum.a _)
  have head : ((view.putReg RegNum.a 0).putReg RegNum.x (s.getReg RegNum.x)).reg RegNum.x =
      s.getReg RegNum.x := TableView.putReg_same _ RegNum.x _
  have reads : ∀ node ∈ nodes, view.shadowRam (entrySlot config.mmsType (s.mapWord node 3)) =
      s.enteredWord node := by
    intro node member
    rw [shadow]
    refine applyWrites_same (enterWrites_distinct segment) ?_
    exact List.mem_flatMap.mpr ⟨node, member, List.mem_cons_self⟩
  obtain ⟨u, final, cleared, viewed'', core', shadow', ended⟩ := exec_clpt loaded
    (by
      rw [head]
      exact segment.chain.congr fun node member => congrFun core _)
    segment.words (fun node member => congrFun core _) zero reads segment.distinct segment.apart enough
  have clpt : exec config (opcodeClptClearSegmentFromPageTables fuel)
      ((t.setReg RegNum.a 0).setReg RegNum.x (s.getReg RegNum.x)) = .ok true u := by
    rw [opcodeClptClearSegmentFromPageTables, exec_bind, Cpu.bind_ok (loaded.run_checkPriv privileged),
      if_neg (by decide), exec_bind, Cpu.bind_ok loaded.run_getSystem, exec_bind,
      Cpu.bind_ok (loaded.run_getReg RegNum.a), zero]
    exact cleared
  have result := viewed''.view
  refine ⟨u, ?_, ?_, ?_, ?_⟩
  · rw [enterThenClear, Cpu.bind_ok (Cpu.get_apply s), Cpu.bind_ok enpt,
      Cpu.bind_ok (Cpu.modify_apply _ _), Cpu.bind_ok clpt]
    rfl
  · exact (congrFun (congrArg TableView.reg result) RegNum.x).trans ended
  · refine (congrArg TableView.core result).trans (core'.trans ?_)
    exact congrArg _ core
  · refine (congrArg TableView.shadowRam result).trans (shadow'.trans ?_)
    exact congrArg _ shadow

theorem SegmentChain.nodup (segment : SegmentChain config s nodes) : nodes.Nodup :=
  segment.distinct.of_map _

theorem descriptor_inj {cmbuk one two : Word}
    (same : bankAddress cmbuk (one + 2) = bankAddress cmbuk (two + 2)) : one = two := by
  have offsets := bankAddress_inj same
  exact (BitVec.add_left_inj _).mp offsets

theorem saveWrites_distinct {cmbuk : Word} {value : Word → Word} (distinct : nodes.Nodup) :
    ((saveWrites cmbuk value nodes).map Prod.fst).Nodup := by
  unfold saveWrites
  rw [List.map_map]
  exact (distinct.filter _).map fun one two same => descriptor_inj same

/-- What the writes of both walks leave. -/
theorem givenBack_of_writes {u : CpuState World} (segment : SegmentChain config s nodes)
    (x : u.getReg RegNum.x = 0)
    (core : u.core = applyWrites (saveWrites s.system.cmbuk s.enteredWord nodes) s.core)
    (shadow : u.shadowRam = applyWrites (clearWrites config.mmsType (s.mapWord · 3) nodes)
      (applyWrites (enterWrites config.mmsType (s.mapWord · 3) s.enteredWord nodes) s.shadowRam)) :
    GivenBack config s u nodes := by
  have outside : ∀ cell, (∀ node ∈ nodes, cell ≠ bankAddress s.system.cmbuk (node + 2)) →
      u.core cell = s.core cell := by
    intro cell others
    rw [core]
    refine applyWrites_other fun write member => ?_
    obtain ⟨node, inside, -, rfl⟩ := mem_saveWrites.mp member
    exact others node inside
  have even {node : Word} (member : node ∈ nodes) : s.nodeSlot config.mmsType node % 2 = 0 :=
    entrySlot_even (segment.words node member).visible
  have uncleared {index : Nat} (others : ∀ node ∈ nodes, index ≠ s.nodeSlot config.mmsType node) :
      u.shadowRam index = applyWrites (enterWrites config.mmsType (s.mapWord · 3) s.enteredWord nodes)
        s.shadowRam index := by
    rw [shadow]
    refine applyWrites_other fun write member => ?_
    obtain ⟨node, inside, rfl⟩ := List.mem_map.mp member
    exact others node inside
  refine ⟨⟨?_, fun node member => ?_, outside, fun node member => ?_, x⟩, fun node member => ?_,
    fun index others => ?_⟩
  · refine segment.chain.congr fun node member => outside _ fun other inside => ?_
    exact ((segment.apart other inside node member).1).symm
  · by_cases empty : s.enteredWord node = 0
    · rw [if_neg (not_not.mpr empty), core]
      refine applyWrites_other fun write inside same => ?_
      obtain ⟨other, -, some, rfl⟩ := mem_saveWrites.mp inside
      rw [← descriptor_inj same] at some
      exact some empty
    · rw [if_pos empty, core]
      exact applyWrites_same (saveWrites_distinct segment.nodup)
        (mem_saveWrites.mpr ⟨node, member, empty, rfl⟩)
  · rw [shadow]
    refine applyWrites_same ?_ (List.mem_map.mpr ⟨node, member, rfl⟩)
    unfold clearWrites
    rw [List.map_map]
    exact segment.distinct
  · rw [uncleared]
    · refine applyWrites_same (enterWrites_distinct segment) (List.mem_flatMap.mpr ⟨node, member, ?_⟩)
      exact List.mem_cons_of_mem _ List.mem_cons_self
    · intro other inside
      have left := even member
      have right := even inside
      omega
  · rw [uncleared fun node member => (others node member).1]
    refine applyWrites_other fun write inside => ?_
    obtain ⟨node, member, pair⟩ := List.mem_flatMap.mp inside
    simp only [List.mem_cons, List.not_mem_nil, or_false] at pair
    rcases pair with rfl | rfl
    · exact (others node member).1
    · exact (others node member).2

end Together

/-- One node in bank 1 selects the last entry of the shadow memory. -/
def oneNode : CpuState Unit :=
  (((cpuInit bareMachine ()).putSystem ⟨0, 0, 0, 1, 0, false⟩).putMemory
    (Function.update (Function.update (fun _ => 0) 0x10006 0x8800) 0x10007 0x03FF)).setReg RegNum.x 4

theorem oneNode_core (address : Nat) : oneNode.core address =
    Function.update (Function.update (fun _ => (0 : Word)) 0x10006 0x8800) 0x10007 0x03FF address :=
  @core_installed Unit bareMachine oneNode rfl address

theorem oneNode_physical {address : Nat} (above : 0xFFFF < address) (below : address < 2097152) :
    (oneNode.space bareMachine).physical address = .word address :=
  physical_installed rfl above below

theorem oneNode_entry : oneNode.mapWord 4 3 = 0x03FF := by
  rw [CpuState.mapWord, oneNode_core]
  decide

theorem oneNode_chain : SegmentChain bareMachine oneNode [4] where
  chain := by
    refine ⟨CpuState.getReg_setReg _ _ _, by decide, ?_⟩
    change oneNode.core _ = 0
    rw [oneNode_core]
    decide
  words node member := by
    obtain rfl := List.mem_singleton.mp member
    rw [oneNode_entry]
    exact ⟨oneNode_physical (by decide) (by decide), oneNode_physical (by decide) (by decide),
      oneNode_physical (by decide) (by decide), by decide⟩
  distinct := List.nodup_singleton _
  apart one first two second := by
    obtain rfl := List.mem_singleton.mp first
    obtain rfl := List.mem_singleton.mp second
    exact ⟨by decide, by decide⟩

end Nd100x
