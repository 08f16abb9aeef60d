import Mathlib.Data.List.Nodup
import Mathlib.Logic.Function.Basic

namespace Nd100x.Library

variable {Node Slot : Type}

section Chain

variable (link : Node → Slot) (nil : Node)

/-- A slot names the first node, the link of each node names the next one, and the last link is
empty. -/
def Chained (memory : Slot → Node) : Slot → List Node → Prop
  | slot, [] => memory slot = nil
  | slot, x :: rest => memory slot = x ∧ x ≠ nil ∧ Chained memory (link x) rest

/-- The slot that names the node behind a front part. -/
def slotBehind : Slot → List Node → Slot
  | slot, [] => slot
  | _, x :: rest => slotBehind (link x) rest

end Chain

variable {link : Node → Slot} {nil : Node} {memory memory' : Slot → Node} {slot : Slot}
  {nodes before after : List Node}

theorem slotBehind_concat (x : Node) : slotBehind link slot (before ++ [x]) = link x := by
  induction before generalizing slot with
  | nil => rfl
  | cons y rest ih => exact ih

variable (link) in
/-- The slot is the first one, or the link of a node of the front part. -/
theorem slotBehind_cases (slot : Slot) (before : List Node) :
    (before = [] ∧ slotBehind link slot before = slot) ∨
      ∃ x ∈ before, slotBehind link slot before = link x := by
  rcases List.eq_nil_or_concat' before with rfl | ⟨front, x, rfl⟩
  · exact .inl ⟨rfl, rfl⟩
  · exact .inr ⟨x, by simp, slotBehind_concat x⟩

namespace Chained

/-- The chain depends on its slots only. -/
theorem congr (chained : Chained link nil memory slot nodes) (first : memory' slot = memory slot)
    (links : ∀ x ∈ nodes, memory' (link x) = memory (link x)) :
    Chained link nil memory' slot nodes := by
  induction nodes generalizing slot with
  | nil => exact first.trans chained
  | cons x rest ih =>
    obtain ⟨here, some, later⟩ := chained
    refine ⟨first.trans here, some, ih later (links x List.mem_cons_self) ?_⟩
    exact fun y member => links y (List.mem_cons_of_mem x member)

theorem slot_eq (chained : Chained link nil memory slot nodes) : memory slot = nodes.headD nil := by
  cases nodes with
  | nil => exact chained
  | cons x rest => exact chained.1

theorem ne_nil (chained : Chained link nil memory slot nodes) {x : Node} (member : x ∈ nodes) :
    x ≠ nil := by
  induction nodes generalizing slot with
  | nil => exact absurd member List.not_mem_nil
  | cons y rest ih =>
    obtain ⟨-, some, later⟩ := chained
    rcases List.mem_cons.mp member with rfl | member
    · exact some
    · exact ih later member

/-- The rest of a chain starts in the slot behind the front part. -/
theorem behind (chained : Chained link nil memory slot (before ++ after)) :
    Chained link nil memory (slotBehind link slot before) after := by
  induction before generalizing slot with
  | nil => exact chained
  | cons x rest ih => exact ih chained.2.2

/-- The link of a node names the node behind it. -/
theorem link_eq {x : Node} (chained : Chained link nil memory slot (before ++ x :: after)) :
    memory (link x) = after.headD nil := by
  exact chained.behind.2.2.slot_eq

/-- The first slot of a chain of distinct nodes is not the link of one of them. -/
theorem slot_ne (chained : Chained link nil memory slot nodes) (distinct : nodes.Nodup) {x : Node}
    (member : x ∈ nodes) : slot ≠ link x := by
  rintro rfl
  obtain ⟨before, after, rfl⟩ := List.append_of_mem member
  have first := chained.slot_eq
  have behind := chained.link_eq
  cases after with
  | nil =>
    rw [behind] at first
    cases before with
    | nil => exact chained.ne_nil member first.symm
    | cons y rest => exact chained.ne_nil (by simp) first.symm
  | cons z rest =>
    rw [behind] at first
    cases before with
    | nil =>
      obtain rfl : z = x := first
      exact (List.nodup_cons.mp distinct).1 List.mem_cons_self
    | cons y front =>
      obtain rfl : z = y := first
      exact (List.nodup_cons.mp distinct).1 (by simp)

/-- The slot of a node takes over its link, and the node leaves the chain. -/
theorem remove [DecidableEq Slot] {x : Node}
    (chained : Chained link nil memory slot (before ++ x :: after))
    (distinct : (before ++ x :: after).Nodup) :
    Chained link nil
      (Function.update memory (slotBehind link slot before) (after.headD nil)) slot
      (before ++ after) := by
  induction before generalizing slot with
  | nil =>
    have later : Chained link nil memory (link x) after := chained.2.2
    have outside {y : Node} (member : y ∈ after) : link y ≠ slot :=
      (chained.slot_ne distinct (List.mem_cons_of_mem x member)).symm
    cases after with
    | nil => exact Function.update_self _ _ _
    | cons y rest =>
      refine ⟨Function.update_self _ _ _, later.2.1, later.2.2.congr ?_ fun z member => ?_⟩
      · exact Function.update_of_ne (outside List.mem_cons_self) _ _
      · exact Function.update_of_ne (outside (List.mem_cons_of_mem y member)) _ _
  | cons y front ih =>
    obtain ⟨here, some, later⟩ := chained
    have apart : slot ≠ slotBehind link (link y) front := by
      have first : Chained link nil memory slot (y :: (front ++ x :: after)) := ⟨here, some, later⟩
      rcases slotBehind_cases link (link y) front with ⟨-, same⟩ | ⟨z, member, same⟩
      · rw [same]
        exact first.slot_ne distinct List.mem_cons_self
      · rw [same]
        exact first.slot_ne distinct (by simp [member])
    refine ⟨?_, some, ih later (List.nodup_cons.mp distinct).2⟩
    exact (Function.update_of_ne apart _ _).trans here

end Chained

variable {Node : Type}

/-- Forward links run to the next node, and back links run to the node before. The back
link of the first node is the anchor. -/
def Linked (next prev : Node → Node) (nil : Node) : Node → List Node → Prop
  | _, [] => True
  | back, x :: rest => prev x = back ∧ next x = rest.headD nil ∧ Linked next prev nil x rest

namespace Linked

variable {next prev next' prev' : Node → Node} {nil back : Node}

theorem congr {nodes : List Node} (linked : Linked next prev nil back nodes)
    (forward : ∀ z ∈ nodes, next' z = next z) (backward : ∀ z ∈ nodes, prev' z = prev z) :
    Linked next' prev' nil back nodes := by
  induction nodes generalizing back with
  | nil => trivial
  | cons x rest ih =>
    obtain ⟨link, forth, behind⟩ := linked
    refine ⟨(backward x (by simp)).trans link, (forward x (by simp)).trans forth, ?_⟩
    exact ih behind (fun z member => forward z (List.mem_cons_of_mem _ member))
      fun z member => backward z (List.mem_cons_of_mem _ member)

/-- The links of a node name its neighbours. -/
theorem neighbours {before after : List Node} {x : Node}
    (linked : Linked next prev nil back (before ++ x :: after)) :
    prev x = before.getLastD back ∧ next x = after.headD nil := by
  induction before generalizing back with
  | nil => exact ⟨linked.1, linked.2.1⟩
  | cons y rest ih =>
    obtain ⟨link, forth⟩ := ih linked.2.2
    exact ⟨by rw [link, List.getLastD_cons], forth⟩

/-- A node is put in front of the list and takes over the anchor. -/
theorem insert {nodes : List Node} {x : Node} (linked : Linked next prev nil back nodes)
    (forth : next' x = nodes.headD nil) (anchor : prev' x = back)
    (forward : ∀ z ∈ nodes, next' z = next z)
    (first : ∀ z, nodes.head? = some z → prev' z = x)
    (others : ∀ z ∈ nodes, nodes.head? ≠ some z → prev' z = prev z) (distinct : nodes.Nodup) :
    Linked next' prev' nil back (x :: nodes) := by
  refine ⟨anchor, forth, ?_⟩
  cases nodes with
  | nil => trivial
  | cons y rest =>
    obtain ⟨-, step, behind⟩ := linked
    have apart := (List.nodup_cons.mp distinct).1
    refine ⟨first y rfl, (forward y (by simp)).trans step, ?_⟩
    refine behind.congr (fun z member => forward z (List.mem_cons_of_mem _ member)) fun z member => ?_
    refine others z (List.mem_cons_of_mem _ member) fun same => ?_
    obtain rfl : y = z := Option.some.inj same
    exact apart member

/-- A node is taken out where its neighbours are linked with each other. -/
theorem remove {before after : List Node} {x : Node}
    (linked : Linked next prev nil back (before ++ x :: after))
    (distinct : (before ++ x :: after).Nodup)
    (last : ∀ z, before.getLast? = some z → next' z = after.headD nil)
    (forward : ∀ z ∈ before ++ after, before.getLast? ≠ some z → next' z = next z)
    (first : ∀ z, after.head? = some z → prev' z = before.getLastD back)
    (backward : ∀ z ∈ before ++ after, after.head? ≠ some z → prev' z = prev z) :
    Linked next' prev' nil back (before ++ after) := by
  induction before generalizing back with
  | nil =>
    obtain ⟨-, -, behind⟩ := linked
    cases after with
    | nil => trivial
    | cons y rest =>
      have apart := (List.nodup_cons.mp (List.nodup_cons.mp distinct).2).1
      refine ⟨first y rfl, (forward y (by simp) (by simp)).trans behind.2.1, ?_⟩
      refine behind.2.2.congr (fun z member => forward z (by simp [member]) (by simp)) fun z member => ?_
      refine backward z (by simp [member]) fun same => ?_
      obtain rfl : y = z := Option.some.inj same
      exact apart member
  | cons y rest ih =>
    obtain ⟨link, forth, behind⟩ := linked
    obtain ⟨apart, unique⟩ := List.nodup_cons.mp distinct
    have notFirst : after.head? ≠ some y := by
      intro same
      have member := List.mem_of_mem_head? same
      exact apart (by simp [member])
    refine ⟨(backward y (by simp) notFirst).trans link, ?_, ?_⟩
    · cases rest with
      | nil => exact last y rfl
      | cons z others =>
        have inner : (y :: z :: others).getLast? ≠ some y := by
          rw [List.getLast?_cons_cons]
          intro same
          exact apart (List.mem_append_left _ (List.mem_of_getLast? same))
        exact (forward y (by simp) inner).trans forth
    · refine ih behind unique (fun z final => ?_) (fun z member final => ?_)
        (fun z head => ?_) fun z member head => backward z (by simp_all) head
      · refine last z ?_
        cases rest with
        | nil => cases final
        | cons w others => rwa [List.getLast?_cons_cons]
      · refine forward z (by simp_all) fun same => ?_
        cases rest with
        | nil =>
          obtain rfl : y = z := by simpa using same
          exact apart (by simp_all)
        | cons w others =>
          rw [List.getLast?_cons_cons] at same
          exact final same
      · rw [first z head, List.getLastD_cons]

end Linked

end Nd100x.Library
