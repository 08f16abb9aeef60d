import Nd100x.Flat.Decimal
import Nd100x.Flat.PageLists
import Nd100x.Library.LinkedChain
import Nd100x.Machine.PageLists

namespace Nd100x

open Library

/-- The status word of a node. -/
abbrev statusAddress (progT node : Word) : Nat := bankAddress progT (node + 2)

abbrev Wip (progT : Word) (memory : Nat → Word) (node : Word) : Prop :=
  (memory (statusAddress progT node)).getLsbD nd110WipBit = true

/-- The head slot is in the bank of D, and the links are in the bank of T. -/
abbrev PageChain (progT : Word) (memory : Nat → Word) (place : Word × Word) (nodes : List Word) :
    Prop :=
  Chained (bankAddress progT) 0 memory (bankAddress place.1 place.2) nodes

/-- The bank and the offset of the slot that names the node behind a front part. -/
def placeBehind (progT : Word) : Word × Word → List Word → Word × Word
  | place, [] => place
  | _, node :: rest => placeBehind progT (progT, node) rest

theorem placeBehind_address (progT : Word) (place : Word × Word) (before : List Word) :
    bankAddress (placeBehind progT place before).1 (placeBehind progT place before).2 =
      slotBehind (bankAddress progT) (bankAddress place.1 place.2) before := by
  induction before generalizing place with
  | nil => rfl
  | cons node rest ih =>
    rw [placeBehind, slotBehind, ih]

/-- The words of a chain answer privileged accesses. -/
structure ChainWords (space : Space) (progT : Word) (place : Word × Word) (nodes : List Word) :
    Prop where
  slot : space.physical (bankAddress place.1 place.2) = .word (bankAddress place.1 place.2)
  link : ∀ node ∈ nodes, space.physical (bankAddress progT node) = .word (bankAddress progT node)
  status : ∀ node ∈ nodes,
    space.physical (statusAddress progT node) = .word (statusAddress progT node)

theorem ChainWords.tail {space : Space} {progT node : Word} {place : Word × Word} {rest : List Word}
    (words : ChainWords space progT place (node :: rest)) :
    ChainWords space progT (progT, node) rest where
  slot := words.link node List.mem_cons_self
  link other member := words.link other (List.mem_cons_of_mem node member)
  status other member := words.status other (List.mem_cons_of_mem node member)

/-- The state after a removal: the slot has the successor, and the registers name slot and node. -/
def unlinked (space : Space) (place : Word × Word) (node successor : Word) (f : FlatState) :
    FlatState :=
  (((space.store (bankAddress place.1 place.2) successor .word f).setRegAt space.pil RegNum.d
    place.1).setRegAt space.pil RegNum.a place.2).setRegAt space.pil RegNum.x node

section Run

variable {space : Space} {f : FlatState} {progT : Word} {place : Word × Word}
  {nodes before after : List Word} {fuel : Nat}

/-- A scan of a chain without a marked node takes the skip return. -/
theorem run_chreentScan_none (chained : PageChain progT f.memory place nodes)
    (words : ChainWords space progT place nodes) (unmarked : ∀ node ∈ nodes, ¬ Wip progT f.memory node)
    (enough : nodes.length < fuel) :
    space.run (chreentScan progT fuel place place) f =
      .ok true (f.setRegAt space.pil RegNum.p (f.reg space.pil RegNum.p + 1)) := by
  induction nodes generalizing place fuel with
  | nil =>
    obtain ⟨fuel, rfl⟩ := Nat.exists_eq_add_one.mpr enough
    have empty : f.memory (bankAddress place.1 place.2) = 0 := chained
    rw [chreentScan, Space.run_bind_ok (run_physRead words.slot), if_pos empty,
      Space.run_bind_ok Space.run_skipReturn, Space.run_pure]
  | cons node rest ih =>
    obtain ⟨fuel, rfl⟩ := Nat.exists_eq_add_one.mpr (lt_of_le_of_lt (Nat.zero_le _) enough)
    obtain ⟨here, some, later⟩ := chained
    rw [chreentScan, Space.run_bind_ok (run_physRead words.slot), here, if_neg some,
      Space.run_bind_ok (run_physRead (words.status node List.mem_cons_self)),
      if_neg (unmarked node List.mem_cons_self)]
    exact ih later words.tail
      (fun other member => unmarked other (List.mem_cons_of_mem node member))
      (Nat.lt_of_succ_lt_succ enough)

/-- A scan removes the first marked node. -/
theorem run_chreentScan_found {node : Word}
    (chained : PageChain progT f.memory place (before ++ node :: after))
    (words : ChainWords space progT place (before ++ node :: after))
    (unmarked : ∀ other ∈ before, ¬ Wip progT f.memory other) (marked : Wip progT f.memory node)
    (enough : before.length < fuel) :
    space.run (chreentScan progT fuel place place) f =
      .ok true (unlinked space (placeBehind progT place before) node (after.headD 0) f) := by
  induction before generalizing place fuel with
  | nil =>
    obtain ⟨fuel, rfl⟩ := Nat.exists_eq_add_one.mpr enough
    obtain ⟨here, some, later⟩ := chained
    rw [chreentScan, Space.run_bind_ok (run_physRead words.slot), here, if_neg some,
      Space.run_bind_ok (run_physRead (words.status node List.mem_cons_self)), if_pos marked,
      Space.run_bind_ok (run_physRead (words.link node List.mem_cons_self)),
      Space.run_bind_ok (run_physWrite _ words.slot), Chained.slot_eq later]
    rfl
  | cons other rest ih =>
    obtain ⟨fuel, rfl⟩ := Nat.exists_eq_add_one.mpr (lt_of_le_of_lt (Nat.zero_le _) enough)
    obtain ⟨here, some, later⟩ := chained
    rw [chreentScan, Space.run_bind_ok (run_physRead words.slot), here, if_neg some,
      Space.run_bind_ok (run_physRead (words.status other List.mem_cons_self)),
      if_neg (unmarked other List.mem_cons_self)]
    exact ih later words.tail
      (fun another member => unmarked another (List.mem_cons_of_mem other member))
      (Nat.lt_of_succ_lt_succ enough)

variable (fuel) in
theorem run_opcodeChreentPages (privileged : space.privileged f.ring = true) :
    space.run (opcodeChreentPages fuel) f =
      space.run (chreentScan (f.reg space.pil RegNum.t) fuel
        (f.reg space.pil RegNum.d, f.reg space.pil RegNum.x)
        (f.reg space.pil RegNum.d, f.reg space.pil RegNum.x)) f := by
  unfold opcodeChreentPages
  rw [Space.run_bind_ok (run_checkPriv privileged), if_neg (by decide),
    Space.run_bind_ok (Space.run_getReg space f _), Space.run_bind_ok (Space.run_getReg space f _),
    Space.run_bind_ok (Space.run_getReg space f _)]

theorem unlinked_memory (node successor : Word) : (unlinked space place node successor f).memory =
    Function.update f.memory (bankAddress place.1 place.2) successor :=
  store_word_memory _ _

/-- A removal sets the three registers of its result. -/
theorem unlinked_reg (node successor : Word) (level : Level) (r : RegNum) :
    (unlinked space place node successor f).reg level r =
      if level = space.pil then
        if r = RegNum.x then node else if r = RegNum.a then place.2
        else if r = RegNum.d then place.1 else f.reg level r
      else f.reg level r := by
  unfold unlinked
  by_cases running : level = space.pil
  · rw [if_pos running, running, FlatState.reg_setRegAt, FlatState.reg_setRegAt,
      FlatState.reg_setRegAt, Space.store_reg]
  · rw [if_neg running]
    unfold FlatState.setRegAt
    rw [FlatState.putReg_reg, Function.update_of_ne running, FlatState.putReg_reg,
      Function.update_of_ne running, FlatState.putReg_reg, Function.update_of_ne running,
      Space.store_reg]

end Run

section Machine

variable {World : Type} {config : Config World} {s : CpuState World} {nodes before after : List Word}
  {fuel : Nat}

/-- The head slot that D and X name. -/
def CpuState.headPlace (s : CpuState World) : Word × Word := (s.getReg RegNum.d, s.getReg RegNum.x)

/-- Only the program counter of the running level changes, by the skip. -/
structure ChreentSkipped (s t : CpuState World) : Prop where
  core : t.core = s.core
  counter : t.getReg RegNum.p = s.getReg RegNum.p + 1
  others : ∀ level r, ¬ (level = s.pil ∧ r = RegNum.p) → t.reg level r = s.reg level r

/-- The node leaves the chain, and its slot is in D and A. -/
structure ChreentRemoved (s t : CpuState World) (before : List Word) (node : Word)
    (after : List Word) : Prop where
  core : t.core = Function.update s.core
    (slotBehind (bankAddress (s.getReg RegNum.t)) (bankAddress s.headPlace.1 s.headPlace.2) before)
    (after.headD 0)
  chain : PageChain (s.getReg RegNum.t) t.core s.headPlace (before ++ after)
  slot : (t.getReg RegNum.d, t.getReg RegNum.a) =
    placeBehind (s.getReg RegNum.t) s.headPlace before
  node : t.getReg RegNum.x = node
  others : ∀ level r, ¬ (level = s.pil ∧ r ∈ [RegNum.d, RegNum.a, RegNum.x]) →
    t.reg level r = s.reg level r

theorem exec_chreent_none (privileged : (s.space config).privileged s.ring = true)
    (chained : PageChain (s.getReg RegNum.t) s.core s.headPlace nodes)
    (words : ChainWords (s.space config) (s.getReg RegNum.t) s.headPlace nodes)
    (unmarked : ∀ node ∈ nodes, ¬ Wip (s.getReg RegNum.t) s.core node)
    (enough : nodes.length < fuel) :
    ∃ t, exec config (opcodeChreentPages fuel) s = .ok true t ∧ ChreentSkipped s t := by
  have ran : (s.space config).run (opcodeChreentPages fuel) s.flat =
      .ok true (s.flat.setRegAt s.pil RegNum.p (s.getReg RegNum.p + 1)) := by
    rw [run_opcodeChreentPages fuel privileged]
    exact run_chreentScan_none chained words unmarked enough
  have follows := exec_follows config (opcodeChreentPages fuel) s
  rw [ran] at follows
  obtain ⟨t, done, flat, space⟩ := follows.ok
  have pil : t.pil = s.pil := congrArg Space.pil space
  have reg (level : Level) (r : RegNum) : t.reg level r = (s.flat.setRegAt s.pil RegNum.p
      (s.getReg RegNum.p + 1)).reg level r := congrArg (fun f : FlatState => f.reg level r) flat
  refine ⟨t, done, congrArg FlatState.memory flat, ?_, fun level r other => ?_⟩
  · rw [CpuState.getReg, pil, reg]
    exact FlatState.reg_setRegAt_self _ _ _ _
  · rw [reg]
    by_cases running : level = s.pil
    · rw [running]
      exact FlatState.reg_setRegAt_other _ fun same => other ⟨running, same⟩
    · unfold FlatState.setRegAt
      rw [FlatState.putReg_reg, Function.update_of_ne running]
      rfl

theorem exec_chreent_found {node : Word} (privileged : (s.space config).privileged s.ring = true)
    (chained : PageChain (s.getReg RegNum.t) s.core s.headPlace (before ++ node :: after))
    (words : ChainWords (s.space config) (s.getReg RegNum.t) s.headPlace (before ++ node :: after))
    (distinct : (before ++ node :: after).Nodup)
    (unmarked : ∀ other ∈ before, ¬ Wip (s.getReg RegNum.t) s.core other)
    (marked : Wip (s.getReg RegNum.t) s.core node) (enough : before.length < fuel) :
    ∃ t, exec config (opcodeChreentPages fuel) s = .ok true t ∧
      ChreentRemoved s t before node after ∧ SameTranslation config s t := by
  have ran : (s.space config).run (opcodeChreentPages fuel) s.flat =
      .ok true (unlinked (s.space config) (placeBehind (s.getReg RegNum.t) s.headPlace before) node
        (after.headD 0) s.flat) := by
    rw [run_opcodeChreentPages fuel privileged]
    exact run_chreentScan_found chained words unmarked marked enough
  have follows := exec_follows config (opcodeChreentPages fuel) s
  rw [ran] at follows
  obtain ⟨t, done, flat, space⟩ := follows.ok
  have pil : t.pil = s.pil := congrArg Space.pil space
  have core : t.core = Function.update s.core (slotBehind (bankAddress (s.getReg RegNum.t))
      (bankAddress s.headPlace.1 s.headPlace.2) before) (after.headD 0) := by
    refine (congrArg FlatState.memory flat).trans ((unlinked_memory _ _).trans ?_)
    rw [placeBehind_address]
    rfl
  have reg (level : Level) (r : RegNum) := (congrArg (fun f : FlatState => f.reg level r) flat).trans
    (unlinked_reg _ _ level r)
  have here (r : RegNum) := (reg s.pil r).trans (if_pos rfl)
  have named : ∀ r, t.getReg r = t.flat.reg s.pil r := by
    intro r
    rw [CpuState.getReg, pil]
    rfl
  refine ⟨t, done, ⟨core, ?_, ?_, ?_, fun level r other => ?_⟩, space, ?_, ?_⟩
  · rw [core]
    exact chained.remove distinct
  · rw [named, named, here, here]
    rfl
  · rw [named, here]
    rfl
  · refine (reg level r).trans ?_
    by_cases running : level = s.pil
    · have apart : r ∉ [RegNum.d, RegNum.a, RegNum.x] := fun member => other ⟨running, member⟩
      simp only [List.mem_cons, List.not_mem_nil, or_false, not_or] at apart
      refine (if_pos running).trans ?_
      rw [if_neg apart.2.2, if_neg apart.2.1, if_neg apart.1]
      rfl
    · exact if_neg running
  · exact (congrArg FlatState.ring flat).trans (Space.store_ring _ _ _ _ _)
  · exact (congrArg FlatState.system flat).trans (Space.store_system _ _ _ _ _)

/-- The status words of the nodes are apart from the slots of the chain. -/
structure StatusApart (progT : Word) (place : Word × Word) (nodes : List Word) : Prop where
  slot : ∀ node ∈ nodes, statusAddress progT node ≠ bankAddress place.1 place.2
  link : ∀ node ∈ nodes, ∀ other ∈ nodes, statusAddress progT node ≠ bankAddress progT other

/-- A chain has a first marked node or none. -/
theorem firstMarked (marked : Word → Prop) [DecidablePred marked] (nodes : List Word) :
    (∀ node ∈ nodes, ¬ marked node) ∨ ∃ before node after, nodes = before ++ node :: after ∧
      (∀ other ∈ before, ¬ marked other) ∧ marked node := by
  cases found : nodes.find? fun node => marked node with
  | none =>
    refine .inl fun node member => ?_
    simpa using List.find?_eq_none.mp found node member
  | some node =>
    obtain ⟨here, before, after, nodes, unmarked⟩ := List.find?_eq_some_iff_append.mp found
    refine .inr ⟨before, node, after, nodes, fun other member => ?_, by simpa using here⟩
    simpa using unmarked other member

section Load

variable (s) (place : Word × Word)

/-- The head slot is loaded into D and X. -/
def CpuState.loadPlace : CpuState World := (s.setReg RegNum.d place.1).setReg RegNum.x place.2

theorem loadPlace_getReg {r : RegNum} (apart : r ≠ RegNum.d ∧ r ≠ RegNum.x) :
    (s.loadPlace place).getReg r = s.getReg r := by
  rw [CpuState.loadPlace, CpuState.getReg_setReg_of_ne _ _ apart.2,
    CpuState.getReg_setReg_of_ne _ _ apart.1]

theorem loadPlace_headPlace : (s.loadPlace place).headPlace = place := by
  unfold CpuState.headPlace CpuState.loadPlace
  rw [CpuState.getReg_setReg_of_ne _ _ (by decide), CpuState.getReg_setReg, CpuState.getReg_setReg]

theorem loadPlace_translation : SameTranslation config s (s.loadPlace place) := ⟨rfl, rfl, rfl⟩

end Load

/-- The caller loads the head slot again before every instruction, until one skips. -/
def repeatChreent (config : Config World) (fuel : Nat) (place : Word × Word) : Nat → Cpu World Bool
  | 0 => pure false
  | rounds + 1 => do
      modify fun s => s.loadPlace place
      let counter := (← get).getReg RegNum.p
      let finished ← exec config (opcodeChreentPages fuel)
      let ended ← get
      if ended.getReg RegNum.p = counter + 1 then return finished
      else repeatChreent config fuel place rounds

/-- Another status word is kept by the removal of a node. -/
theorem ChreentRemoved.wip {t : CpuState World} {place : Word × Word} {node other : Word}
    (removed : ChreentRemoved s t before node after) (head : s.headPlace = place)
    (apart : StatusApart (s.getReg RegNum.t) place (before ++ node :: after))
    (member : other ∈ before ++ node :: after) :
    Wip (s.getReg RegNum.t) t.core other ↔ Wip (s.getReg RegNum.t) s.core other := by
  have different : statusAddress (s.getReg RegNum.t) other ≠
      slotBehind (bankAddress (s.getReg RegNum.t)) (bankAddress s.headPlace.1 s.headPlace.2) before := by
    rw [head]
    rcases slotBehind_cases (bankAddress (s.getReg RegNum.t)) (bankAddress place.1 place.2) before with
      ⟨-, same⟩ | ⟨front, inside, same⟩
    · rw [same]
      exact apart.slot other member
    · rw [same]
      exact apart.link other member front (List.mem_append_left _ inside)
  unfold Wip
  rw [removed.core, Function.update_of_ne different]

/-- The chain without its marked nodes, and the marked nodes that are left to remove. -/
def unmarkedNodes (progT : Word) (memory : Nat → Word) (nodes : List Word) : List Word :=
  nodes.filter fun node => ¬ Wip progT memory node

theorem unmarkedNodes_none {progT : Word} {memory : Nat → Word}
    (none : ∀ node ∈ nodes, ¬ Wip progT memory node) : unmarkedNodes progT memory nodes = nodes :=
  List.filter_eq_self.mpr fun node member => decide_eq_true (none node member)

/-- A removed node was marked, and the other nodes are as before. -/
theorem unmarkedNodes_removed {progT node : Word} {memory memory' : Nat → Word}
    (marked : Wip progT memory node)
    (same : ∀ other ∈ before ++ node :: after, Wip progT memory' other ↔ Wip progT memory other) :
    unmarkedNodes progT memory' (before ++ after) =
      unmarkedNodes progT memory (before ++ node :: after) := by
  have kept (part : List Word) (inside : ∀ other ∈ part, other ∈ before ++ node :: after) :
      unmarkedNodes progT memory' part = unmarkedNodes progT memory part :=
    List.filter_congr fun other member =>
      decide_eq_decide.mpr (not_congr (same other (inside other member)))
  rw [kept _ fun other member => by simp at member ⊢; tauto]
  unfold unmarkedNodes
  rw [List.filter_append, List.filter_append, List.filter_cons_of_neg]
  simpa using marked

/-- A round of the caller either ends the run or leaves a shorter chain. -/
theorem repeatChreent_removes {progT : Word} {place : Word × Word} (rounds : Nat)
    (register : s.getReg RegNum.t = progT)
    (privileged : (s.space config).privileged s.ring = true)
    (chained : PageChain progT s.core place nodes)
    (words : ChainWords (s.space config) progT place nodes) (distinct : nodes.Nodup)
    (apart : StatusApart progT place nodes) (enough : nodes.length < fuel)
    (often : nodes.length < rounds) :
    ∃ t, repeatChreent config fuel place rounds s = .ok true t ∧
      PageChain progT t.core place (unmarkedNodes progT s.core nodes) := by
  induction rounds generalizing s nodes with
  | zero => exact absurd often (Nat.not_lt_zero _)
  | succ rounds ih =>
    have head := loadPlace_headPlace s place
    have bank : (s.loadPlace place).getReg RegNum.t = progT :=
      (loadPlace_getReg s place (by decide)).trans register
    have loaded : SameTranslation config s (s.loadPlace place) := loadPlace_translation s place
    subst register
    rcases firstMarked (Wip (s.getReg RegNum.t) s.core) nodes with
      none | ⟨before, node, after, rfl, unmarked, marked⟩
    · obtain ⟨t, done, skipped⟩ := exec_chreent_none (s := s.loadPlace place) privileged
        (by rw [bank, head]; exact chained) (by rw [bank, head]; exact words)
        (by rw [bank]; exact none) enough
      refine ⟨t, ?_, ?_⟩
      · rw [repeatChreent, Cpu.bind_ok (Cpu.modify_apply _ _), Cpu.bind_ok (Cpu.get_apply _),
          Cpu.bind_ok done, Cpu.bind_ok (Cpu.get_apply _), if_pos skipped.counter]
        rfl
      · rw [unmarkedNodes_none none, skipped.core]
        exact chained
    · have shorter : (before ++ after).length < (before ++ node :: after).length := by simp
      have inside {other : Word} (member : other ∈ before ++ after) :
          other ∈ before ++ node :: after := by
        simp at member ⊢
        tauto
      obtain ⟨t, done, removed, kept⟩ := exec_chreent_found (s := s.loadPlace place) privileged
        (by rw [bank, head]; exact chained) (by rw [bank, head]; exact words) distinct
        (by rw [bank]; exact unmarked) (by rw [bank]; exact marked)
        (lt_of_le_of_lt (by simp) enough)
      have same (other : Word) (member : other ∈ before ++ node :: after) :=
        removed.wip head (by rw [bank]; exact apart) member
      have chain := removed.chain
      rw [bank] at same chain
      rw [head] at chain
      have pil : t.pil = s.pil := congrArg Space.pil (kept.space.trans loaded.space)
      have stays {r : RegNum} (other : r ∉ [RegNum.d, RegNum.a, RegNum.x]) :
          t.getReg r = (s.loadPlace place).getReg r := by
        rw [CpuState.getReg, pil]
        exact removed.others s.pil r fun changed => other changed.2
      have again : t.getReg RegNum.t = s.getReg RegNum.t := (stays (by decide)).trans bank
      have space := kept.space.trans loaded.space
      obtain ⟨u, finished, final⟩ := ih again
        (by rw [space, kept.ring]; exact privileged) chain
        (by
          rw [space]
          exact ⟨words.slot, fun other member => words.link other (inside member),
            fun other member => words.status other (inside member)⟩)
        (distinct.sublist (by simp))
        ⟨fun other member => apart.slot other (inside member),
          fun other member another second => apart.link other (inside member) another (inside second)⟩
        (shorter.trans enough) (by omega)
      refine ⟨u, ?_, ?_⟩
      · rw [repeatChreent, Cpu.bind_ok (Cpu.modify_apply _ _), Cpu.bind_ok (Cpu.get_apply _),
          Cpu.bind_ok done, Cpu.bind_ok (Cpu.get_apply _), if_neg, finished]
        rw [stays (by decide)]
        bv_omega
      · rw [unmarkedNodes_removed marked same] at final
        exact final

end Machine

/-- A head slot in bank 1 and two nodes in bank 2, of which the first one is marked. -/
def markedPair : CpuState Unit :=
  ((((cpuInit bareMachine ()).putMemory (Function.update (Function.update (Function.update (fun _ => 0)
    0x10010 0x0100) 0x20100 0x0200) 0x20102 0x1000)).setReg RegNum.d 1).setReg RegNum.x 0x0010).setReg
      RegNum.t 2

theorem markedPair_bank : markedPair.getReg RegNum.t = 2 := CpuState.getReg_setReg _ _ _

theorem markedPair_head : markedPair.headPlace = (1, 0x0010) := by
  unfold CpuState.headPlace markedPair
  rw [CpuState.getReg_setReg_of_ne _ _ (by decide), CpuState.getReg_setReg_of_ne _ _ (by decide),
    CpuState.getReg_setReg, CpuState.getReg_setReg_of_ne _ _ (by decide), CpuState.getReg_setReg]

theorem markedPair_physical {address : Nat} (above : 0xFFFF < address) (below : address < 2097152) :
    (markedPair.space bareMachine).physical address = .word address :=
  physical_installed rfl above below

theorem markedPair_core (address : Nat) : markedPair.core address =
    Function.update (Function.update (Function.update (fun _ => (0 : Word)) 0x10010 0x0100) 0x20100
      0x0200) 0x20102 0x1000 address :=
  @core_installed Unit bareMachine markedPair rfl address

theorem markedPair_chain : PageChain 2 markedPair.core (1, 0x0010) [0x0100, 0x0200] := by
  refine ⟨?_, by decide, ?_, by decide, ?_⟩
  · rw [markedPair_core]
    decide
  · rw [markedPair_core]
    decide
  · change markedPair.core _ = _
    rw [markedPair_core]
    decide

theorem markedPair_nodes {node : Word} (member : node ∈ ([0x0100, 0x0200] : List Word)) :
    node = 0x0100 ∨ node = 0x0200 := by simpa using member

theorem markedPair_words :
    ChainWords (markedPair.space bareMachine) 2 (1, 0x0010) [0x0100, 0x0200] where
  slot := markedPair_physical (by decide) (by decide)
  link node member := by
    rcases markedPair_nodes member with rfl | rfl
    all_goals exact markedPair_physical (by decide) (by decide)
  status node member := by
    rcases markedPair_nodes member with rfl | rfl
    all_goals exact markedPair_physical (by decide) (by decide)

theorem markedPair_apart : StatusApart 2 (1, 0x0010) [0x0100, 0x0200] where
  slot node member := by
    rcases markedPair_nodes member with rfl | rfl
    all_goals decide
  link node member other second := by
    rcases markedPair_nodes member with rfl | rfl
    all_goals
      rcases markedPair_nodes second with rfl | rfl
      all_goals decide

theorem markedPair_left : unmarkedNodes 2 markedPair.core [0x0100, 0x0200] = [0x0200] := by
  unfold unmarkedNodes Wip
  rw [funext markedPair_core]
  decide

end Nd100x
