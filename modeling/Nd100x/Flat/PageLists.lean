import Nd100x.Flat.Resident
import Nd100x.Library.LinkedChain
import Nd100x.Machine.PageLists
import Nd100x.Machine.Reset

namespace Nd100x

open Library

/-- The head slot of a segment and the words of a page. -/
def slotAddress (system : SystemRegs) (b : Word) : Nat := bankAddress system.stbnk (b + 7)

def cellAddress (system : SystemRegs) (x : Word) (k : Word) : Nat :=
  bankAddress system.cmbuk (x + k)

section Address

theorem bankAddress_eq (bank offset : Word) :
    bankAddress bank offset = (bank &&& 0xFF).toNat * 2 ^ 16 + offset.toNat :=
  shiftLeft_or_eq_add _ _ 16 offset.isLt

/-- Offsets in one bank are different addresses. -/
theorem bankAddress_inj {bank first second : Word}
    (same : bankAddress bank first = bankAddress bank second) : first = second := by
  rw [bankAddress_eq, bankAddress_eq] at same
  exact BitVec.eq_of_toNat_eq (by omega)

theorem aligned_four (x : Word) (aligned : x.toNat % 4 = 0) (k : Word) (small : k.toNat < 4) :
    (x + k).toNat = x.toNat + k.toNat := by
  have := x.isLt
  rw [BitVec.toNat_add]
  omega

/-- The words of two pages coincide only at one page and one place. -/
theorem cellAddress_inj {system : SystemRegs} {x y k j : Word} (first : x.toNat % 4 = 0)
    (second : y.toNat % 4 = 0) (left : k.toNat < 4) (right : j.toNat < 4)
    (same : cellAddress system x k = cellAddress system y j) : x = y ∧ k = j := by
  have offsets := congrArg BitVec.toNat (bankAddress_inj same)
  rw [aligned_four x first k left, aligned_four y second j right] at offsets
  exact ⟨BitVec.eq_of_toNat_eq (by omega), BitVec.eq_of_toNat_eq (by omega)⟩

theorem slotAddress_inj {system : SystemRegs} {b c : Word}
    (same : slotAddress system b = slotAddress system c) : b = c := by
  have offsets := bankAddress_inj same
  bv_omega

/-- A page offset has no low bit, and a marker has both. -/
theorem aligned_low (x : Word) (aligned : x.toNat % 4 = 0) : x &&& 3 = 0 := by
  apply BitVec.eq_of_toNat_eq
  rw [BitVec.toNat_and]
  change x.toNat &&& (2 ^ 2 - 1) = 0
  rw [Nat.and_two_pow_sub_one_eq_mod, aligned]

theorem anchorMarker_low (stsrt b : Word) : anchorMarker stsrt b &&& 3 = 3 := by
  apply BitVec.eq_of_getLsbD_eq
  intro bit inside
  rw [anchorMarker, BitVec.getLsbD_and, BitVec.getLsbD_or]
  cases (3 : Word).getLsbD bit <;> simp

/-- A low field fills the clear bits of an aligned word. -/
theorem toNat_or_low (x : Word) (low : Nat) (bits : Nat) (small : low < 2 ^ bits) (width : bits < 16)
    (aligned : x.toNat % 2 ^ bits = 0) : (x ||| BitVec.ofNat 16 low).toNat = x.toNat + low := by
  obtain ⟨q, multiple⟩ : ∃ q, x.toNat = 2 ^ bits * q := Nat.dvd_of_mod_eq_zero aligned
  have fits : low % 2 ^ 16 = low := by
    refine Nat.mod_eq_of_lt (lt_of_lt_of_le small ?_)
    exact Nat.pow_le_pow_right (by decide) (by omega)
  rw [BitVec.toNat_or, BitVec.toNat_ofNat, fits, multiple, Nat.two_pow_add_eq_or_of_lt small]

/-- The marker of an aligned segment leads back to its head slot. -/
theorem markerSlot_anchorMarker {stsrt b : Word} (start : stsrt.toNat % 8 = 0)
    (segment : b.toNat % 8 = 0) : markerSlot stsrt (anchorMarker stsrt b) = b + 7 := by
  have startBound := stsrt.isLt
  have segmentBound := b.isLt
  have distance : (b - stsrt).toNat % 8 = 0 := by
    rw [BitVec.toNat_sub]
    omega
  have half : ((b - stsrt) >>> 1).toNat = (b - stsrt).toNat / 2 := by
    rw [BitVec.toNat_ushiftRight, Nat.shiftRight_eq_div_pow]
  have marker : (anchorMarker stsrt b).toNat = (b - stsrt).toNat / 2 + 3 := by
    rw [← half]
    exact toNat_or_low _ 3 2 (by decide) (by decide) (by omega)
  have slot : stsrt + 2 * anchorMarker stsrt b = b ||| BitVec.ofNat 16 6 := by
    apply BitVec.eq_of_toNat_eq
    rw [toNat_or_low b 6 3 (by decide) (by decide) segment, BitVec.toNat_add, BitVec.toNat_mul,
      marker, BitVec.toNat_sub]
    change (stsrt.toNat + 2 * _ % _) % _ = _
    rw [BitVec.toNat_sub] at distance
    omega
  have six : (BitVec.ofNat 16 6 ||| 7 : Word) = 7 := by decide
  apply BitVec.eq_of_toNat_eq
  rw [markerSlot, slot, BitVec.or_assoc, six]
  refine (toNat_or_low b 7 3 (by decide) (by decide) segment).trans ?_
  rw [BitVec.toNat_add]
  change _ = (b.toNat + 7) % 2 ^ 16
  omega

end Address

/-- The forward link of a page is its first word, and the back link is its second word. -/
def forward (system : SystemRegs) (memory : Nat → Word) (x : Word) : Word :=
  memory (cellAddress system x 0)

def backward (system : SystemRegs) (memory : Nat → Word) (x : Word) : Word :=
  memory (cellAddress system x 1)

/-- The segment entries and the core-map entries do not overlap. -/
structure PageTables (system : SystemRegs) (segment page : Word → Prop) : Prop where
  start : system.stsrt.toNat % 8 = 0
  aligned : ∀ b, segment b → b.toNat % 8 = 0
  nonzero : ∀ x, page x → x ≠ 0
  offset : ∀ x, page x → x.toNat % 4 = 0
  apart : ∀ b x k, segment b → page x → k.toNat < 4 → slotAddress system b ≠ cellAddress system x k

/-- Every segment heads its own doubly linked list of pages. -/
structure PageLists (system : SystemRegs) (segment page : Word → Prop) (lists : Word → List Word)
    (memory : Nat → Word) : Prop where
  head : ∀ b, segment b → memory (slotAddress system b) = (lists b).headD 0
  linked : ∀ b, segment b → Linked (forward system memory) (backward system memory) 0
    (anchorMarker system.stsrt b) (lists b)
  pages : ∀ b, segment b → ∀ x ∈ lists b, page x
  distinct : ∀ b, segment b → (lists b).Nodup
  owner : ∀ b c x, segment b → segment c → x ∈ lists b → x ∈ lists c → b = c

/-- The writes of `INSPL`, in their order. -/
def insplMemory (system : SystemRegs) (b x t : Word) (memory : Nat → Word) : Nat → Word :=
  let oldHead := memory (slotAddress system b)
  let headed := Function.update (Function.update memory (slotAddress system b) x)
    (cellAddress system x 0) oldHead
  let marker :=
    if oldHead = 0 then anchorMarker system.stsrt b else headed (cellAddress system oldHead 1)
  let linked := if oldHead = 0 then headed
    else Function.update headed (cellAddress system oldHead 1) x
  Function.update (Function.update linked (cellAddress system x 1) marker) (cellAddress system x 3) t

/-- The successor takes over the back link, and the links of the page are cleared. -/
def detachMemory (system : SystemRegs) (x r1 r2 : Word) (bypassed : Nat → Word) : Nat → Word :=
  let linked := if r1 ≠ 0 then Function.update bypassed (cellAddress system r1 1) r2 else bypassed
  Function.update (Function.update linked (cellAddress system x 0) 0) (cellAddress system x 1) 0

/-- The slot or the predecessor takes over the successor. -/
def bypassMemory (system : SystemRegs) (r1 r2 : Word) (memory : Nat → Word) : Nat → Word :=
  if r2 &&& 3 ≠ 0 then
    Function.update memory (bankAddress system.stbnk (markerSlot system.stsrt r2)) r1
  else Function.update memory (cellAddress system r2 0) r1

/-- The writes of `REMPL`, in their order. -/
def remplMemory (system : SystemRegs) (x : Word) (memory : Nat → Word) : Nat → Word :=
  let r1 := memory (cellAddress system x 0)
  let r2 := memory (cellAddress system x 1)
  detachMemory system x r1 r2 (bypassMemory system r1 r2 memory)

section Memory

variable {system : SystemRegs} {segment page : Word → Prop} {lists : Word → List Word}
  {memory : Nat → Word}

/-- Two words of pages are apart unless they are one word of one page. -/
theorem PageTables.cell_ne (tables : PageTables system segment page) {x y k j : Word}
    (first : page x) (second : page y) (left : k.toNat < 4) (right : j.toNat < 4)
    (apart : x ≠ y ∨ k ≠ j) : cellAddress system x k ≠ cellAddress system y j := by
  intro same
  obtain ⟨one, two⟩ := cellAddress_inj (tables.offset x first) (tables.offset y second) left right same
  exact apart.elim (· one) (· two)

/-- The old head is a page with the anchor in its back link, or there is none. -/
theorem PageLists.oldHead (tables : PageTables system segment page)
    (holds : PageLists system segment page lists memory) {b : Word} (entry : segment b) :
    (memory (slotAddress system b) = 0 ∧ lists b = []) ∨
      ∃ rest, lists b = memory (slotAddress system b) :: rest ∧
        memory (slotAddress system b) ≠ 0 ∧ page (memory (slotAddress system b)) ∧
        backward system memory (memory (slotAddress system b)) = anchorMarker system.stsrt b := by
  have head := holds.head b entry
  have linked := holds.linked b entry
  have pages := holds.pages b entry
  cases nodes : lists b with
  | nil =>
    rw [nodes] at head
    exact .inl ⟨head, rfl⟩
  | cons y rest =>
    rw [nodes] at head linked pages
    have here : memory (slotAddress system b) = y := head
    rw [here]
    have member := pages y (by simp)
    exact .inr ⟨rest, rfl, tables.nonzero y member, member, linked.1⟩

/-- The words that `INSPL` writes: the slot, the page and the back link of the old head. -/
structure InsplWrites (system : SystemRegs) (segment page : Word → Prop) (b x : Word)
    (memory memory' : Nat → Word) : Prop where
  slot : memory' (slotAddress system b) = x
  slots : ∀ c, segment c → c ≠ b → memory' (slotAddress system c) = memory (slotAddress system c)
  forth : forward system memory' x = memory (slotAddress system b)
  forward : ∀ z, page z → z ≠ x → forward system memory' z = forward system memory z
  anchor : backward system memory' x = anchorMarker system.stsrt b
  first : memory (slotAddress system b) ≠ 0 →
    backward system memory' (memory (slotAddress system b)) = x
  backward : ∀ z, page z → z ≠ x → z ≠ memory (slotAddress system b) →
    backward system memory' z = backward system memory z

theorem PageTables.cell_iff (tables : PageTables system segment page) {x y k j : Word}
    (first : page x) (second : page y) (left : k.toNat < 4) (right : j.toNat < 4) :
    cellAddress system x k = cellAddress system y j ↔ x = y ∧ k = j := by
  constructor
  · exact cellAddress_inj (tables.offset x first) (tables.offset y second) left right
  · rintro ⟨rfl, rfl⟩
    rfl

theorem PageTables.cell_slot (tables : PageTables system segment page) {b x k : Word}
    (entry : segment b) (node : page x) (small : k.toNat < 4) :
    ¬ cellAddress system x k = slotAddress system b :=
  (tables.apart b x k entry node small).symm

theorem slot_iff {b c : Word} : slotAddress system b = slotAddress system c ↔ b = c :=
  ⟨slotAddress_inj, fun same => congrArg _ same⟩

theorem insplMemory_writes (tables : PageTables system segment page)
    (holds : PageLists system segment page lists memory) {b x : Word} (t : Word)
    (entry : segment b) (node : page x) (fresh : ∀ c, segment c → x ∉ lists c) :
    InsplWrites system segment page b x memory (insplMemory system b x t memory) := by
  have slot {c y k : Word} (other : segment c) (member : page y) (small : k.toNat < 4) :
      ¬ slotAddress system c = cellAddress system y k := tables.apart c y k other member small
  have cell {z y k j : Word} (other : page z) (member : page y) (left : k.toNat < 4)
    (right : j.toNat < 4) := tables.cell_iff other member left right
  unfold insplMemory
  rcases holds.oldHead tables entry with ⟨none, -⟩ | ⟨rest, nodes, some, member, anchor⟩
  · simp only [none, if_true]
    constructor
    · simp [slot entry node]
    · intro c other apart
      simp [slot other node, slot_iff, apart]
    · simp [forward, cell node node, none]
    · intro z other apart
      simp [forward, cell other node, tables.cell_slot entry other, apart]
    · simp [backward, cell node node]
    · exact fun some => absurd none some
    · intro z other apart _
      simp [backward, cell other node, tables.cell_slot entry other, apart]
  · have apart : x ≠ memory (slotAddress system b) := by
      intro same
      apply fresh b entry
      rw [nodes, same]
      simp
    simp only [some, if_false]
    constructor
    · simp [slot entry node, slot entry member]
    · intro c other apart
      simp [slot other node, slot other member, slot_iff, apart]
    · simp [forward, cell node node, cell node member]
    · intro z other apart
      simp [forward, Function.update_apply, cell other node, cell other member,
        tables.cell_slot entry other, apart]
    · simp [backward, cell node node, cell member node, tables.cell_slot entry member, apart.symm]
      exact anchor
    · intro _
      simp [backward, cell member node, apart.symm]
    · intro z other apart old
      simp [backward, Function.update_apply, cell other node, cell other member,
        tables.cell_slot entry other, apart, old]

/-- `INSPL` puts the page in front of the list of its segment. -/
theorem PageLists.inspl (tables : PageTables system segment page)
    (holds : PageLists system segment page lists memory) {b x : Word} (t : Word)
    (entry : segment b) (node : page x) (fresh : ∀ c, segment c → x ∉ lists c) :
    PageLists system segment page (Function.update lists b (x :: lists b))
      (insplMemory system b x t memory) := by
  have writes := insplMemory_writes tables holds t entry node fresh
  have head := holds.head b entry
  have different {c z : Word} (other : segment c) (member : z ∈ lists c) : z ≠ x :=
    fun same => fresh c other (same ▸ member)
  refine ⟨fun c other => ?_, fun c other => ?_, fun c other z => ?_, fun c other => ?_,
    fun c d z first second => ?_⟩
  · by_cases same : c = b
    · rw [same, Function.update_self, writes.slot]
      rfl
    · rw [Function.update_of_ne same, writes.slots c other same, holds.head c other]
  · by_cases same : c = b
    · rw [same, Function.update_self]
      have isHead {z : Word} (first : (lists b).head? = some z) :
          memory (slotAddress system b) = z := by
        rw [head, List.headD_eq_head?_getD, first]
        rfl
      refine (holds.linked b entry).insert (writes.forth.trans head) writes.anchor ?_ ?_ ?_
        (holds.distinct b entry)
      · exact fun z member =>
          writes.forward z (holds.pages b entry z member) (different entry member)
      · intro z first
        rw [← isHead first]
        refine writes.first ?_
        rw [isHead first]
        exact tables.nonzero z (holds.pages b entry z (List.mem_of_mem_head? first))
      · intro z member inner
        refine writes.backward z (holds.pages b entry z member) (different entry member) fun old => ?_
        apply inner
        rw [old, head]
        cases nodes : lists b with
        | nil =>
          rw [nodes] at member
          cases member
        | cons y rest => rfl
    · rw [Function.update_of_ne same]
      refine (holds.linked c other).congr (fun z member => ?_) fun z member => ?_
      · exact writes.forward z (holds.pages c other z member) (different other member)
      · refine writes.backward z (holds.pages c other z member) (different other member) fun old => ?_
        rcases holds.oldHead tables entry with ⟨none, -⟩ | ⟨rest, nodes, -⟩
        · exact tables.nonzero z (holds.pages c other z member) (old.trans none)
        · exact same (holds.owner c b z other entry member (by rw [nodes, old]; simp))
  · intro member
    by_cases same : c = b
    · rw [same, Function.update_self] at member
      rcases List.mem_cons.mp member with rfl | member
      · exact node
      · exact holds.pages b entry z member
    · rw [Function.update_of_ne same] at member
      exact holds.pages c other z member
  · by_cases same : c = b
    · rw [same, Function.update_self]
      exact List.nodup_cons.mpr ⟨fresh b entry, holds.distinct b entry⟩
    · rw [Function.update_of_ne same]
      exact holds.distinct c other
  · intro left right
    by_cases one : c = b
    · by_cases two : d = b
      · rw [one, two]
      · rw [one, Function.update_self] at left
        rw [Function.update_of_ne two] at right
        rcases List.mem_cons.mp left with rfl | left
        · exact absurd right (fresh d second)
        · rw [one]
          exact holds.owner b d z entry second left right
    · rw [Function.update_of_ne one] at left
      by_cases two : d = b
      · rw [two, Function.update_self] at right
        rcases List.mem_cons.mp right with rfl | right
        · exact absurd left (fresh c first)
        · rw [two]
          exact holds.owner c b z first entry left right
      · rw [Function.update_of_ne two] at right
        exact holds.owner c d z first second left right

/-- The words that `REMPL` writes between the neighbours of a page. -/
structure RemplWrites (system : SystemRegs) (segment page : Word → Prop) (b x : Word)
    (before after : List Word) (memory memory' : Nat → Word) : Prop where
  slot : memory' (slotAddress system b) = (before ++ after).headD 0
  slots : ∀ c, segment c → c ≠ b → memory' (slotAddress system c) = memory (slotAddress system c)
  last : ∀ z, before.getLast? = some z → forward system memory' z = after.headD 0
  forward : ∀ z, page z → z ≠ x → before.getLast? ≠ some z →
    forward system memory' z = forward system memory z
  first : ∀ z, after.head? = some z →
    backward system memory' z = before.getLastD (anchorMarker system.stsrt b)
  backward : ∀ z, page z → z ≠ x → after.head? ≠ some z →
    backward system memory' z = backward system memory z

section Detach

variable (tables : PageTables system segment page) {x r1 r2 : Word} (bypassed : Nat → Word)

include tables

theorem detachMemory_slot (node : page x) (successor : r1 ≠ 0 → page r1) {c : Word}
    (entry : segment c) :
    detachMemory system x r1 r2 bypassed (slotAddress system c) = bypassed (slotAddress system c) := by
  have slot {y k : Word} (member : page y) (small : k.toNat < 4) :=
    tables.apart c y k entry member small
  unfold detachMemory
  by_cases more : r1 ≠ 0
  · rw [if_pos more]
    simp [slot node, slot (successor more)]
  · rw [if_neg more]
    simp [slot node]

theorem detachMemory_forward (node : page x) (successor : r1 ≠ 0 → page r1) {z : Word}
    (other : page z) (apart : z ≠ x) :
    forward system (detachMemory system x r1 r2 bypassed) z = forward system bypassed z := by
  unfold detachMemory forward
  by_cases more : r1 ≠ 0
  · rw [if_pos more]
    simp [tables.cell_iff other node, tables.cell_iff other (successor more), apart]
  · rw [if_neg more]
    simp [tables.cell_iff other node, apart]

theorem detachMemory_backward (node : page x) (successor : r1 ≠ 0 → page r1) {z : Word}
    (other : page z) (apart : z ≠ x) :
    backward system (detachMemory system x r1 r2 bypassed) z =
      if r1 ≠ 0 ∧ z = r1 then r2 else backward system bypassed z := by
  unfold detachMemory backward
  by_cases more : r1 ≠ 0
  · rw [if_pos more, if_congr (and_iff_right more) rfl rfl]
    simp [Function.update_apply, tables.cell_iff other node,
      tables.cell_iff other (successor more), apart]
  · rw [if_neg more, if_neg fun found => more found.1]
    simp [tables.cell_iff other node, apart]

end Detach

/-- The slot or the predecessor takes over the successor of the page. -/
structure Bypasses (system : SystemRegs) (segment page : Word → Prop) (b : Word)
    (before after : List Word) (memory bypassed : Nat → Word) : Prop where
  slot : bypassed (slotAddress system b) = (before ++ after).headD 0
  slots : ∀ c, segment c → c ≠ b → bypassed (slotAddress system c) = memory (slotAddress system c)
  last : ∀ z, before.getLast? = some z → forward system bypassed z = after.headD 0
  forward : ∀ z, page z → before.getLast? ≠ some z →
    forward system bypassed z = forward system memory z
  backward : ∀ z, page z → backward system bypassed z = backward system memory z

theorem bypasses (tables : PageTables system segment page)
    (holds : PageLists system segment page lists memory) {b x : Word} {before after : List Word}
    (entry : segment b) (nodes : lists b = before ++ x :: after) :
    Bypasses system segment page b before after memory
      (bypassMemory system (after.headD 0) (before.getLastD (anchorMarker system.stsrt b)) memory) := by
  have pages := holds.pages b entry
  have head := holds.head b entry
  rw [nodes] at pages head
  rcases List.eq_nil_or_concat' before with rfl | ⟨front, p, rfl⟩
  · -- The first page has the anchor in its back link.
    have low := anchorMarker_low system.stsrt b
    have tail : anchorMarker system.stsrt b &&& 3 ≠ 0 := by
      rw [low]
      decide
    rw [bypassMemory, List.getLastD_nil, if_pos tail,
      markerSlot_anchorMarker tables.start (tables.aligned b entry)]
    change Bypasses system segment page b [] after memory
      (Function.update memory (slotAddress system b) _)
    constructor
    · rw [Function.update_self, List.nil_append]
    · intro c _ apart
      exact Function.update_of_ne (fun same => apart (slotAddress_inj same)) _ _
    · exact fun z none => nomatch none
    · exact fun z node _ => Function.update_of_ne (tables.cell_slot entry node (by decide)) _ _
    · exact fun z node => Function.update_of_ne (tables.cell_slot entry node (by decide)) _ _
  · -- An inner page has its predecessor there.
    have node : page p := pages p (by simp)
    have inner : ¬ p &&& 3 ≠ 0 := fun low => low (aligned_low p (tables.offset p node))
    rw [bypassMemory, List.getLastD_concat, if_neg inner]
    constructor
    · rw [Function.update_of_ne (tables.apart b p 0 entry node (by decide)), head]
      cases front <;> rfl
    · intro c other _
      exact Function.update_of_ne (tables.apart c p 0 other node (by decide)) _ _
    · intro z final
      obtain rfl : p = z := by simpa using final
      exact Function.update_self _ _ _
    · intro z other final
      refine Function.update_of_ne (tables.cell_ne other node (by decide) (by decide) (.inl ?_)) _ _
      rintro rfl
      exact final (by simp)
    · intro z other
      exact Function.update_of_ne
        (tables.cell_ne other node (by decide) (by decide) (.inr (by decide))) _ _

theorem remplMemory_writes (tables : PageTables system segment page)
    (holds : PageLists system segment page lists memory) {b x : Word} {before after : List Word}
    (entry : segment b) (nodes : lists b = before ++ x :: after) :
    RemplWrites system segment page b x before after memory (remplMemory system x memory) := by
  have pages := holds.pages b entry
  have distinct := holds.distinct b entry
  have linked := holds.linked b entry
  have bypass := bypasses tables holds entry nodes
  rw [nodes] at pages distinct linked
  obtain ⟨back, forth⟩ := linked.neighbours
  have node : page x := pages x (by simp)
  have single : x ∉ before ++ after := fun member => (List.nodup_middle.mp distinct).notMem member
  have successor : after.headD 0 ≠ 0 → page (after.headD 0) := by
    cases after with
    | nil => exact fun none => absurd rfl none
    | cons y rest => exact fun _ => pages y (by simp)
  have run : remplMemory system x memory =
      detachMemory system x (after.headD 0) (before.getLastD (anchorMarker system.stsrt b))
        (bypassMemory system (after.headD 0) (before.getLastD (anchorMarker system.stsrt b))
          memory) := by
    unfold remplMemory
    change memory (cellAddress system x 1) = _ at back
    change memory (cellAddress system x 0) = _ at forth
    rw [back, forth]
  rw [run]
  have inside {z : Word} (member : z ∈ before ++ after) : page z ∧ z ≠ x :=
    ⟨pages z (by simp at member ⊢; tauto), fun same => single (same ▸ member)⟩
  refine ⟨?_, fun c other apart => ?_, fun z final => ?_, fun z other apart final => ?_,
    fun z first => ?_, fun z other apart first => ?_⟩
  · rw [detachMemory_slot tables _ node successor entry]
    exact bypass.slot
  · rw [detachMemory_slot tables _ node successor other]
    exact bypass.slots c other apart
  · obtain ⟨other, apart⟩ := inside (List.mem_append_left _ (List.mem_of_getLast? final))
    rw [detachMemory_forward tables _ node successor other apart]
    exact bypass.last z final
  · rw [detachMemory_forward tables _ node successor other apart]
    exact bypass.forward z other final
  · obtain ⟨other, apart⟩ := inside (List.mem_append_right _ (List.mem_of_mem_head? first))
    have here : after.headD 0 = z := by
      rw [List.headD_eq_head?_getD, first]
      rfl
    rw [detachMemory_backward tables _ node successor other apart, if_pos]
    exact ⟨by rw [here]; exact tables.nonzero z other, here.symm⟩
  · rw [detachMemory_backward tables _ node successor other apart, if_neg]
    · exact bypass.backward z other
    · rintro ⟨some, here⟩
      apply first
      cases after with
      | nil => exact absurd rfl some
      | cons y rest => rw [here]; rfl

/-- `REMPL` takes the page out of the list of its segment. -/
theorem PageLists.rempl (tables : PageTables system segment page)
    (holds : PageLists system segment page lists memory) {b x : Word} (entry : segment b)
    (found : x ∈ lists b) :
    PageLists system segment page (fun c => (lists c).erase x) (remplMemory system x memory) := by
  obtain ⟨before, after, nodes⟩ := List.append_of_mem found
  have writes := remplMemory_writes tables holds entry nodes
  have distinct := holds.distinct b entry
  rw [nodes] at distinct
  have inner : (lists b).erase x = before ++ after := by
    have absent : x ∉ before := fun member => by
      have := List.nodup_append.mp distinct
      exact this.2.2 x member x (by simp) rfl
    rw [nodes, List.erase_append_right _ absent, List.erase_cons_head]
  have outside {c : Word} (other : segment c) (apart : c ≠ b) : (lists c).erase x = lists c :=
    List.erase_of_not_mem fun member => apart (holds.owner c b x other entry member found)
  have sub {c z : Word} (member : z ∈ (lists c).erase x) : z ∈ lists c := List.mem_of_mem_erase member
  refine ⟨fun c other => ?_, fun c other => ?_, fun c other z member => holds.pages c other z (sub member),
    fun c other => (holds.distinct c other).erase x,
    fun c d z first second left right => holds.owner c d z first second (sub left) (sub right)⟩
  · by_cases same : c = b
    · rw [same, inner, writes.slot]
    · rw [outside other same, writes.slots c other same, holds.head c other]
  · have linked := holds.linked c other
    by_cases same : c = b
    · subst same
      have pages := holds.pages c other
      rw [nodes] at linked pages
      have single : ∀ z ∈ before ++ after, page z ∧ z ≠ x := by
        intro z member
        refine ⟨pages z (by simp at member ⊢; tauto), ?_⟩
        rintro rfl
        exact (List.nodup_middle.mp distinct).notMem member
      rw [inner]
      exact linked.remove distinct writes.last
        (fun z member final => writes.forward z (single z member).1 (single z member).2 final)
        writes.first
        fun z member first => writes.backward z (single z member).1 (single z member).2 first
    · rw [outside other same]
      have foreign {z : Word} (member : z ∈ lists c) (near : z ∈ lists b) : False :=
        same (holds.owner c b z other entry member near)
      refine linked.congr (fun z member => ?_) fun z member => ?_
      · refine writes.forward z (holds.pages c other z member) (fun here => ?_) fun final => ?_
        · exact foreign member (here ▸ found)
        · exact foreign member (by rw [nodes]; simp [List.mem_of_getLast? final])
      · refine writes.backward z (holds.pages c other z member) (fun here => ?_) fun first => ?_
        · exact foreign member (here ▸ found)
        · exact foreign member (by rw [nodes]; simp [List.mem_of_mem_head? first])

/-- The words that an operation on a list can change besides the page itself: the slot of
the segment and the links of its pages. -/
def ListCell (system : SystemRegs) (lists : Word → List Word) (b : Word) (cell : Nat) : Prop :=
  cell = slotAddress system b ∨
    ∃ z ∈ lists b, cell = cellAddress system z 0 ∨ cell = cellAddress system z 1

def PageCell (system : SystemRegs) (x : Word) (cell : Nat) : Prop :=
  cell = cellAddress system x 0 ∨ cell = cellAddress system x 1 ∨ cell = cellAddress system x 3

theorem insplMemory_frame (tables : PageTables system segment page)
    (holds : PageLists system segment page lists memory) {b x : Word} (t : Word) (entry : segment b)
    {cell : Nat} (foreign : ¬ ListCell system lists b cell) (other : ¬ PageCell system x cell) :
    insplMemory system b x t memory cell = memory cell := by
  unfold ListCell at foreign
  unfold PageCell at other
  push Not at foreign other
  unfold insplMemory
  rcases holds.oldHead tables entry with ⟨none, -⟩ | ⟨rest, nodes, some, -⟩
  · simp only [none, if_true]
    rw [Function.update_of_ne other.2.2, Function.update_of_ne other.2.1,
      Function.update_of_ne other.1, Function.update_of_ne foreign.1]
  · have head := (foreign.2 (memory (slotAddress system b)) (by rw [nodes]; simp)).2
    simp only [some, if_false]
    rw [Function.update_of_ne other.2.2, Function.update_of_ne other.2.1, Function.update_of_ne head,
      Function.update_of_ne other.1, Function.update_of_ne foreign.1]

theorem remplMemory_frame (tables : PageTables system segment page)
    (holds : PageLists system segment page lists memory) {b x : Word} (entry : segment b)
    (found : x ∈ lists b) {cell : Nat} (foreign : ¬ ListCell system lists b cell) :
    remplMemory system x memory cell = memory cell := by
  obtain ⟨before, after, nodes⟩ := List.append_of_mem found
  have linked := holds.linked b entry
  rw [nodes] at linked
  obtain ⟨back, forth⟩ := linked.neighbours
  unfold ListCell at foreign
  push Not at foreign
  have own := foreign.2 x found
  unfold remplMemory detachMemory
  change memory (cellAddress system x 1) = _ at back
  change memory (cellAddress system x 0) = _ at forth
  rw [back, forth]
  have bypassed : bypassMemory system (after.headD 0) (before.getLastD (anchorMarker system.stsrt b))
      memory cell = memory cell := by
    rcases List.eq_nil_or_concat' before with rfl | ⟨front, p, rfl⟩
    · have tail : anchorMarker system.stsrt b &&& 3 ≠ 0 := by
        rw [anchorMarker_low]
        decide
      rw [bypassMemory, List.getLastD_nil, if_pos tail,
        markerSlot_anchorMarker tables.start (tables.aligned b entry)]
      exact Function.update_of_ne foreign.1 _ _
    · have member : p ∈ lists b := by rw [nodes]; simp
      have inner : ¬ p &&& 3 ≠ 0 := fun low =>
        low (aligned_low p (tables.offset p (holds.pages b entry p member)))
      rw [bypassMemory, List.getLastD_concat, if_neg inner]
      exact Function.update_of_ne (foreign.2 p member).1 _ _
  rw [Function.update_of_ne own.2, Function.update_of_ne own.1]
  cases after with
  | nil => exact bypassed
  | cons y rest =>
    have member : y ∈ lists b := by rw [nodes]; simp
    have some : (y :: rest).headD 0 ≠ 0 := tables.nonzero y (holds.pages b entry y member)
    rw [if_pos some]
    exact (Function.update_of_ne (foreign.2 y member).2 _ _).trans bypassed

/-- `REMPL` of the page that was inserted last restores every other word. -/
theorem remplMemory_insplMemory (tables : PageTables system segment page)
    (holds : PageLists system segment page lists memory) {b x : Word} (t : Word) (entry : segment b)
    (node : page x) (fresh : ∀ c, segment c → x ∉ lists c) {cell : Nat}
    (other : ¬ PageCell system x cell) :
    remplMemory system x (insplMemory system b x t memory) cell = memory cell := by
  have inserted := holds.inspl tables t entry node fresh
  have nodes : Function.update lists b (x :: lists b) b = [] ++ x :: lists b :=
    Function.update_self _ _ _
  have into := insplMemory_writes tables holds t entry node fresh
  have out := remplMemory_writes tables inserted entry nodes
  by_cases own : ListCell system lists b cell
  · obtain here | ⟨z, member, here⟩ := own
    · rw [here, out.slot, holds.head b entry]
      rfl
    · have inside := holds.pages b entry z member
      have apart : z ≠ x := fun same => fresh b entry (same ▸ member)
      rcases here with rfl | rfl
      · exact (out.forward z inside apart (by simp)).trans (into.forward z inside apart)
      · by_cases first : (lists b).head? = some z
        · have linked := holds.linked b entry
          cases rest : lists b with
          | nil =>
            rw [rest] at first
            cases first
          | cons y others =>
            rw [rest] at first linked
            obtain rfl : y = z := Option.some.inj first
            exact (out.first y (by rw [rest]; rfl)).trans linked.1.symm
        · refine (out.backward z inside apart first).trans (into.backward z inside apart fun old => ?_)
          apply first
          rw [holds.head b entry] at old
          cases rest : lists b with
          | nil =>
            rw [rest] at member
            cases member
          | cons y others =>
            rw [old, rest]
            rfl
  · have outside : ¬ ListCell system (Function.update lists b (x :: lists b)) b cell := by
      rintro (here | ⟨z, member, here⟩)
      · exact own (.inl here)
      · rw [Function.update_self] at member
        rcases List.mem_cons.mp member with rfl | member
        · exact other (here.imp id .inl)
        · exact own (.inr ⟨z, member, here⟩)
    rw [remplMemory_frame tables inserted entry (by rw [Function.update_self]; simp) outside,
      insplMemory_frame tables holds t entry own other]

end Memory

section Run

variable {space : Space} {f : FlatState}

/-- The memory words of the tables answer privileged accesses. -/
structure PhysicalTables (space : Space) (system : SystemRegs) (segment page : Word → Prop) : Prop
    extends PageTables system segment page where
  slot : ∀ b, segment b → space.physical (slotAddress system b) = .word (slotAddress system b)
  cell : ∀ x k, page x → k.toNat < 4 →
    space.physical (cellAddress system x k) = .word (cellAddress system x k)

theorem run_checkPriv (privileged : space.privileged f.ring = true) :
    space.run Instr.checkPriv f = .ok true f := by
  refine (Space.run_perform space f _).trans ?_
  change EStateM.Result.ok (space.privileged f.ring) f = _
  rw [privileged]

theorem run_getSystem : space.run Instr.getSystem f = .ok f.system f := rfl

theorem run_physRead {address : Nat} (reached : space.physical address = .word address) :
    space.run (Instr.physRead address) f = .ok (f.memory address) f := by
  refine (Space.run_perform space f _).trans ?_
  change Space.read (space.physical address) f = _
  rw [reached]
  rfl

theorem run_physWrite {address : Nat} (value : Word)
    (reached : space.physical address = .word address) :
    space.run (Instr.physWrite address value) f = .ok () (space.store address value .word f) := by
  refine (Space.run_perform space f _).trans ?_
  change space.write (space.physical address) value .word f = _
  rw [reached]
  rfl

theorem store_word_memory (address : Nat) (value : Word) :
    (space.store address value .word f).memory = Function.update f.memory address value :=
  Space.store_memory space f address value .word

/-- The run writes the memory and keeps everything that the next instruction reads. -/
structure Writes (space : Space) (f : FlatState) (memory : Nat → Word) (g : FlatState) : Prop where
  memory : g.memory = memory
  reg : g.reg = f.reg
  ring : g.ring = f.ring
  system : g.system = f.system

theorem Writes.store {g : FlatState} {memory : Nat → Word} (writes : Writes space f memory g)
    (address : Nat) (value : Word) :
    Writes space f (Function.update memory address value) (space.store address value .word g) where
  memory := by rw [store_word_memory, writes.memory]
  reg := (Space.store_reg _ _ _ _ _).trans writes.reg
  ring := (Space.store_ring _ _ _ _ _).trans writes.ring
  system := (Space.store_system _ _ _ _ _).trans writes.system

theorem Writes.refl (space : Space) (f : FlatState) : Writes space f f.memory f := ⟨rfl, rfl, rfl, rfl⟩

variable {segment page : Word → Prop} {lists : Word → List Word}

theorem cellAddress_zero (system : SystemRegs) (x : Word) :
    bankAddress system.cmbuk x = cellAddress system x 0 := by
  rw [cellAddress]
  congr 1
  exact (BitVec.add_zero x).symm

theorem run_insplMarker {system : SystemRegs} {b x h : Word} {memory : Nat → Word} {g : FlatState}
    (writes : Writes space f memory g)
    (reached : h ≠ 0 → space.physical (cellAddress system h 1) = .word (cellAddress system h 1)) :
    ∃ g', space.run (insplMarker system b x h) g =
        .ok (if h = 0 then anchorMarker system.stsrt b else memory (cellAddress system h 1)) g' ∧
      Writes space f (if h = 0 then memory else Function.update memory (cellAddress system h 1) x) g' := by
  unfold insplMarker
  by_cases none : h = 0
  · rw [if_pos none, if_pos none, if_pos none, Space.run_pure]
    exact ⟨g, rfl, writes⟩
  · have back := reached none
    rw [if_neg none, if_neg none, if_neg none, Space.run_bind_ok (run_physRead (by exact back)),
      Space.run_bind_ok (run_physWrite _ (by exact back)), Space.run_pure]
    exact ⟨_, congrArg (EStateM.Result.ok · _) (congrFun writes.memory _), writes.store _ _⟩

/-- A run of `INSPL` writes the memory like the list operation. -/
theorem run_inspl (tables : PhysicalTables space f.system segment page)
    (privileged : space.privileged f.ring = true)
    (holds : PageLists f.system segment page lists f.memory) {b x t : Word}
    (regB : f.reg space.pil RegNum.b = b) (regX : f.reg space.pil RegNum.x = x)
    (regT : f.reg space.pil RegNum.t = t) (entry : segment b) (node : page x) :
    ∃ g, space.run opcodeInsplInsertPageInPageList f = .ok () g ∧
      Writes space f (insplMemory f.system b x t f.memory) g := by
  have slot := tables.slot b entry
  have zero := tables.cell x 0 node (by decide)
  have one := tables.cell x 1 node (by decide)
  have three := tables.cell x 3 node (by decide)
  have old : f.memory (slotAddress f.system b) ≠ 0 →
      space.physical (cellAddress f.system (f.memory (slotAddress f.system b)) 1) =
        .word (cellAddress f.system (f.memory (slotAddress f.system b)) 1) := by
    intro some
    rcases holds.oldHead tables.toPageTables entry with ⟨none, -⟩ | ⟨-, -, -, member, -⟩
    · exact absurd none some
    · exact tables.cell _ 1 member (by decide)
  have headed := ((Writes.refl space f).store (slotAddress f.system b) x).store
    (cellAddress f.system x 0) (f.memory (slotAddress f.system b))
  obtain ⟨g, marked, writes⟩ := run_insplMarker headed old (b := b) (x := x)
  unfold opcodeInsplInsertPageInPageList
  rw [Space.run_bind_ok (run_checkPriv privileged), if_neg (by decide),
    Space.run_bind_ok run_getSystem, Space.run_bind_ok (Space.run_getReg space f _),
    Space.run_bind_ok (Space.run_getReg space f _), Space.run_bind_ok (Space.run_getReg space f _),
    regB, regX, regT, Space.run_bind_ok (run_physRead (by exact slot)),
    Space.run_bind_ok (run_physWrite _ (by exact slot)), cellAddress_zero,
    Space.run_bind_ok (run_physWrite _ zero), Space.run_bind_ok (by exact marked),
    Space.run_bind_ok (run_physWrite _ (by exact one)), run_physWrite _ (by exact three)]
  exact ⟨_, rfl, (writes.store _ _).store _ _⟩

theorem run_remplBypass {system : SystemRegs} (r1 : Word) {r2 : Word} {memory : Nat → Word} {g : FlatState}
    (writes : Writes space f memory g)
    (reached : space.physical (if r2 &&& 3 ≠ 0 then
        bankAddress system.stbnk (markerSlot system.stsrt r2) else cellAddress system r2 0) =
      .word (if r2 &&& 3 ≠ 0 then
        bankAddress system.stbnk (markerSlot system.stsrt r2) else cellAddress system r2 0)) :
    ∃ g', space.run (remplBypass system r1 r2) g = .ok () g' ∧
      Writes space f (bypassMemory system r1 r2 memory) g' := by
  unfold remplBypass bypassMemory
  by_cases tail : r2 &&& 3 ≠ 0
  · rw [if_pos tail, if_pos tail]
    rw [if_pos tail] at reached
    exact ⟨_, run_physWrite _ reached, writes.store _ _⟩
  · rw [if_neg tail, if_neg tail, cellAddress_zero]
    rw [if_neg tail] at reached
    exact ⟨_, run_physWrite _ reached, writes.store _ _⟩

theorem run_remplInherit {system : SystemRegs} {r1 : Word} (r2 : Word) {memory : Nat → Word} {g : FlatState}
    (writes : Writes space f memory g)
    (reached : r1 ≠ 0 → space.physical (cellAddress system r1 1) = .word (cellAddress system r1 1)) :
    ∃ g', space.run (remplInherit system r1 r2) g = .ok () g' ∧
      Writes space f
        (if r1 ≠ 0 then Function.update memory (cellAddress system r1 1) r2 else memory) g' := by
  unfold remplInherit
  by_cases more : r1 ≠ 0
  · rw [if_pos more, if_pos more]
    exact ⟨_, run_physWrite _ (by exact reached more), writes.store _ _⟩
  · rw [if_neg more, if_neg more]
    exact ⟨_, Space.run_pure _ _ _, writes⟩

/-- A run of `REMPL` writes the memory like the list operation. -/
theorem run_rempl (tables : PhysicalTables space f.system segment page)
    (privileged : space.privileged f.ring = true)
    (holds : PageLists f.system segment page lists f.memory) {b x : Word}
    (regX : f.reg space.pil RegNum.x = x) (entry : segment b) (found : x ∈ lists b) :
    ∃ g, space.run opcodeRemplRemovePageFromPageList f = .ok () g ∧
      Writes space f (remplMemory f.system x f.memory) g := by
  obtain ⟨before, after, nodes⟩ := List.append_of_mem found
  have pages := holds.pages b entry
  have linked := holds.linked b entry
  rw [nodes] at pages linked
  obtain ⟨back, forth⟩ := linked.neighbours
  change f.memory (cellAddress f.system x 1) = _ at back
  change f.memory (cellAddress f.system x 0) = _ at forth
  have node : page x := pages x (by simp)
  have zero := tables.cell x 0 node (by decide)
  have one := tables.cell x 1 node (by decide)
  have successor : after.headD 0 ≠ 0 → space.physical (cellAddress f.system (after.headD 0) 1) =
      .word (cellAddress f.system (after.headD 0) 1) := by
    cases after with
    | nil => exact fun some => absurd rfl some
    | cons y rest => exact fun _ => tables.cell y 1 (pages y (by simp)) (by decide)
  have predecessor : ∀ r2, r2 = before.getLastD (anchorMarker f.system.stsrt b) →
      space.physical (if r2 &&& 3 ≠ 0 then
        bankAddress f.system.stbnk (markerSlot f.system.stsrt r2) else cellAddress f.system r2 0) =
      .word (if r2 &&& 3 ≠ 0 then
        bankAddress f.system.stbnk (markerSlot f.system.stsrt r2) else cellAddress f.system r2 0) := by
    rintro r2 rfl
    rcases List.eq_nil_or_concat' before with rfl | ⟨front, p, rfl⟩
    · have tail : anchorMarker f.system.stsrt b &&& 3 ≠ 0 := by
        rw [anchorMarker_low]
        decide
      rw [List.getLastD_nil, if_pos tail,
        markerSlot_anchorMarker tables.start (tables.aligned b entry)]
      exact tables.slot b entry
    · have member : page p := pages p (by simp)
      have inner : ¬ p &&& 3 ≠ 0 := fun low => low (aligned_low p (tables.offset p member))
      rw [List.getLastD_concat, if_neg inner]
      exact tables.cell p 0 member (by decide)
  obtain ⟨g, bypassing, bypassed⟩ :=
    run_remplBypass (after.headD 0) (Writes.refl space f) (predecessor _ back)
  obtain ⟨h, inheriting, inherited⟩ := run_remplInherit
    (f.memory (cellAddress f.system x 1)) bypassed successor
  rw [← forth] at bypassing inheriting inherited
  unfold opcodeRemplRemovePageFromPageList
  rw [Space.run_bind_ok (run_checkPriv privileged), if_neg (by decide),
    Space.run_bind_ok run_getSystem, Space.run_bind_ok (Space.run_getReg space f _), regX,
    cellAddress_zero, Space.run_bind_ok (run_physRead zero),
    Space.run_bind_ok (run_physRead (by exact one)), Space.run_bind_ok (by exact bypassing),
    Space.run_bind_ok (by exact inheriting), Space.run_bind_ok (run_physWrite _ zero),
    run_physWrite _ (by exact one)]
  exact ⟨_, rfl, (inherited.store _ _).store _ _⟩

end Run

/-- One list instruction with the registers that it reads. -/
inductive PageListOp where
  | inspl (b x t : Word)
  | rempl (x : Word)

namespace PageListOp

def opcode : PageListOp → Instr Unit
  | inspl _ _ _ => opcodeInsplInsertPageInPageList
  | rempl _ => opcodeRemplRemovePageFromPageList

/-- What the instruction does to the lists of the segments. -/
def apply : PageListOp → (Word → List Word) → Word → List Word
  | inspl b x _, lists => Function.update lists b (x :: lists b)
  | rempl x, lists => fun c => (lists c).erase x

/-- A page is inserted while it is in no list, and removed from the list that it is in. -/
def Valid (segment page : Word → Prop) (lists : Word → List Word) : PageListOp → Prop
  | inspl b x _ => segment b ∧ page x ∧ ∀ c, segment c → x ∉ lists c
  | rempl x => ∃ b, segment b ∧ x ∈ lists b

/-- The words that the instruction can change. -/
def Touches (system : SystemRegs) (segment : Word → Prop) (lists : Word → List Word) (cell : Nat) :
    PageListOp → Prop
  | inspl b x _ => ListCell system lists b cell ∨ PageCell system x cell
  | rempl x => ∃ b, segment b ∧ x ∈ lists b ∧ ListCell system lists b cell

end PageListOp

namespace CpuState

variable {World : Type}

/-- The program loads the registers of the instruction. -/
def loadPageListOp (s : CpuState World) : PageListOp → CpuState World
  | .inspl b x t => ((s.setReg RegNum.b b).setReg RegNum.x x).setReg RegNum.t t
  | .rempl x => s.setReg RegNum.x x

end CpuState

def runPageListOps {World : Type} (config : Config World) : List PageListOp → Cpu World Unit
  | [] => pure ()
  | op :: rest => do
      modify fun s => s.loadPageListOp op
      exec config op.opcode
      runPageListOps config rest

def applyPageListOps : List PageListOp → (Word → List Word) → Word → List Word
  | [], lists => lists
  | op :: rest, lists => applyPageListOps rest (op.apply lists)

def ValidPageListOps (segment page : Word → Prop) : List PageListOp → (Word → List Word) → Prop
  | [], _ => True
  | op :: rest, lists =>
    op.Valid segment page lists ∧ ValidPageListOps segment page rest (op.apply lists)

def PageListOpsTouch (system : SystemRegs) (segment : Word → Prop) (cell : Nat) :
    List PageListOp → (Word → List Word) → Prop
  | [], _ => False
  | op :: rest, lists =>
    op.Touches system segment lists cell ∨ PageListOpsTouch system segment cell rest (op.apply lists)

namespace PageListOp

/-- The memory after the instruction. -/
def memory (system : SystemRegs) : PageListOp → (Nat → Word) → Nat → Word
  | inspl b x t => insplMemory system b x t
  | rempl x => remplMemory system x

variable {system : SystemRegs} {segment page : Word → Prop} {lists : Word → List Word}
  {before : Nat → Word} {op : PageListOp}

theorem memory_holds (tables : PageTables system segment page)
    (holds : PageLists system segment page lists before) (valid : op.Valid segment page lists) :
    PageLists system segment page (op.apply lists) (op.memory system before) := by
  cases op with
  | inspl b x t => exact holds.inspl tables t valid.1 valid.2.1 valid.2.2
  | rempl x =>
    obtain ⟨b, entry, found⟩ := valid
    exact holds.rempl tables entry found

theorem memory_frame (tables : PageTables system segment page)
    (holds : PageLists system segment page lists before) (valid : op.Valid segment page lists)
    {cell : Nat} (untouched : ¬ op.Touches system segment lists cell) :
    op.memory system before cell = before cell := by
  cases op with
  | inspl b x t =>
    exact insplMemory_frame tables holds t valid.1 (fun own => untouched (.inl own))
      fun node => untouched (.inr node)
  | rempl x =>
    obtain ⟨b, entry, found⟩ := valid
    exact remplMemory_frame tables holds entry found fun own => untouched ⟨b, entry, found, own⟩

end PageListOp

section Machine

variable {World : Type} {config : Config World} {s : CpuState World} {segment page : Word → Prop}
  {lists : Word → List Word}

/-- What an instruction keeps for the next one. -/
structure SameTranslation (config : Config World) (s t : CpuState World) : Prop where
  space : t.space config = s.space config
  ring : t.ring = s.ring
  system : t.system = s.system

theorem loadPageListOp_flat (op : PageListOp) :
    (s.loadPageListOp op).core = s.core ∧ SameTranslation config s (s.loadPageListOp op) := by
  have register (s : CpuState World) (r : RegNum) (value : Word) :
      (s.setReg r value).space config = s.space config := rfl
  cases op with
  | inspl b x t =>
    refine ⟨rfl, ?_, rfl, rfl⟩
    rw [CpuState.loadPageListOp, register, register, register]
  | rempl x => exact ⟨rfl, rfl, rfl, rfl⟩

/-- The machine runs a list instruction like its writes. -/
theorem exec_pageListOp (tables : PhysicalTables (s.space config) s.system segment page)
    (privileged : (s.space config).privileged s.ring = true)
    (holds : PageLists s.system segment page lists s.core) {op : PageListOp}
    (valid : op.Valid segment page lists) :
    ∃ t, exec config op.opcode (s.loadPageListOp op) = .ok () t ∧
      t.core = op.memory s.system s.core ∧ SameTranslation config s t := by
  have loaded : SameTranslation config s (s.loadPageListOp op) := (loadPageListOp_flat op).2
  have ran : ∃ g, (s.space config).run op.opcode (s.loadPageListOp op).flat = .ok () g ∧
      Writes (s.space config) (s.loadPageListOp op).flat (op.memory s.system s.core) g := by
    cases op with
    | inspl b x t =>
      have flat : (s.loadPageListOp (.inspl b x t)).flat = ((s.flat.setRegAt s.pil RegNum.b b).setRegAt
          s.pil RegNum.x x).setRegAt s.pil RegNum.t t := rfl
      refine run_inspl (f := (s.loadPageListOp (.inspl b x t)).flat) tables privileged holds
        ?_ ?_ ?_ valid.1 valid.2.1
      · rw [flat]
        exact (FlatState.reg_setRegAt_other t (by decide)).trans
          ((FlatState.reg_setRegAt_other x (by decide)).trans
            (FlatState.reg_setRegAt_self s.flat s.pil RegNum.b b))
      · rw [flat]
        exact (FlatState.reg_setRegAt_other t (by decide)).trans
          (FlatState.reg_setRegAt_self _ s.pil RegNum.x x)
      · rw [flat]
        exact FlatState.reg_setRegAt_self _ s.pil RegNum.t t
    | rempl x =>
      obtain ⟨b, entry, found⟩ := valid
      refine run_rempl (f := (s.loadPageListOp (.rempl x)).flat) tables privileged holds ?_ entry found
      exact FlatState.reg_setRegAt_self s.flat s.pil RegNum.x x
  obtain ⟨g, done, writes⟩ := ran
  have follows := exec_follows config op.opcode (s.loadPageListOp op)
  rw [loaded.space, done] at follows
  obtain ⟨t, finished, flat, space⟩ := follows.ok
  subst flat
  exact ⟨t, finished, writes.memory, space, writes.ring.trans loaded.ring,
    writes.system.trans loaded.system⟩

theorem runPageListOps_cons {op : PageListOp} {t : CpuState World} (rest : List PageListOp)
    (done : exec config op.opcode (s.loadPageListOp op) = .ok () t) :
    runPageListOps config (op :: rest) s = runPageListOps config rest t := by
  rw [runPageListOps, Cpu.bind_ok (Cpu.modify_apply _ _), Cpu.bind_ok done]

/-- A run of list instructions keeps the lists, and changes only the words of the lists that
it works on. -/
theorem runPageListOps_holds (ops : List PageListOp) (s : CpuState World) (lists : Word → List Word)
    (tables : PhysicalTables (s.space config) s.system segment page)
    (privileged : (s.space config).privileged s.ring = true)
    (holds : PageLists s.system segment page lists s.core)
    (valid : ValidPageListOps segment page ops lists) :
    ∃ t, runPageListOps config ops s = .ok () t ∧
      PageLists s.system segment page (applyPageListOps ops lists) t.core ∧
      ∀ cell, ¬ PageListOpsTouch s.system segment cell ops lists → t.core cell = s.core cell := by
  induction ops generalizing s lists with
  | nil => exact ⟨s, rfl, holds, fun _ _ => rfl⟩
  | cons op rest ih =>
    obtain ⟨here, later⟩ := valid
    obtain ⟨t, done, core, same⟩ := exec_pageListOp tables privileged holds here
    obtain ⟨u, finished, kept, frame⟩ := ih t (op.apply lists)
      (by rw [same.space, same.system]; exact tables)
      (by rw [same.space, same.ring]; exact privileged)
      (by rw [same.system, core]; exact PageListOp.memory_holds tables.toPageTables holds here) later
    rw [same.system] at kept frame
    refine ⟨u, ?_, kept, fun cell untouched => ?_⟩
    · rw [runPageListOps_cons rest done, finished]
    · rw [frame cell fun touched => untouched (.inr touched), core]
      exact PageListOp.memory_frame tables.toPageTables holds here fun touched => untouched (.inl touched)

/-- `INSPL` and `REMPL` implement the doubly linked lists of the segments, over every run of
them, and a `REMPL` right after the `INSPL` of the same page restores every other word. -/
theorem pageListInstructions (ops : List PageListOp)
    (tables : PhysicalTables (s.space config) s.system segment page)
    (privileged : (s.space config).privileged s.ring = true)
    (holds : PageLists s.system segment page lists s.core)
    (valid : ValidPageListOps segment page ops lists) :
    ∃ t, runPageListOps config ops s = .ok () t ∧
      PageLists s.system segment page (applyPageListOps ops lists) t.core ∧
      (∀ cell, ¬ PageListOpsTouch s.system segment cell ops lists → t.core cell = s.core cell) ∧
      ∀ b x tag, ops = [.inspl b x tag, .rempl x] →
        ∀ cell, ¬ PageCell s.system x cell → t.core cell = s.core cell := by
  obtain ⟨t, done, kept, frame⟩ := runPageListOps_holds ops s lists tables privileged holds valid
  refine ⟨t, done, kept, frame, ?_⟩
  rintro b x tag rfl cell other
  obtain ⟨first, second, -⟩ := valid
  obtain ⟨u, inserted, core, same⟩ := exec_pageListOp tables privileged holds first
  have inserting := PageListOp.memory_holds tables.toPageTables holds first
  obtain ⟨v, removed, final, -⟩ := exec_pageListOp
    (by rw [same.space, same.system]; exact tables)
    (by rw [same.space, same.ring]; exact privileged)
    (by rw [same.system, core]; exact inserting) second
  rw [runPageListOps_cons _ inserted, runPageListOps_cons _ removed] at done
  cases done
  rw [final, same.system, core]
  exact remplMemory_insplMemory tables.toPageTables holds tag first.1 first.2.1 first.2.2 other

end Machine

/-- The segment table is in bank 1, and the core map is in bank 2. -/
def emptyTables : CpuState Unit :=
  (cpuInit bareMachine ()).putSystem ⟨0, 1, 0, 2, 0, false⟩

theorem emptyTables_four : ∀ k < 4,
    (emptyTables.space bareMachine).physical (cellAddress emptyTables.system 4 (BitVec.ofNat 16 k)) =
      .word (cellAddress emptyTables.system 4 (BitVec.ofNat 16 k)) := by decide

theorem emptyTables_eight : ∀ k < 4,
    (emptyTables.space bareMachine).physical (cellAddress emptyTables.system 8 (BitVec.ofNat 16 k)) =
      .word (cellAddress emptyTables.system 8 (BitVec.ofNat 16 k)) := by decide

theorem emptyTables_physical :
    PhysicalTables (emptyTables.space bareMachine) emptyTables.system (· = 8)
      (fun x => x = 4 ∨ x = 8) where
  start := rfl
  aligned := by
    rintro b rfl
    rfl
  nonzero := by
    rintro x (rfl | rfl) <;> decide
  offset := by
    rintro x (rfl | rfl) <;> rfl
  apart := by
    rintro b x k rfl node small same
    have banks : slotAddress emptyTables.system 8 < 2 ^ 17 ∧
        ∀ offset, 2 ^ 17 ≤ bankAddress emptyTables.system.cmbuk offset := by
      refine ⟨by decide, fun offset => ?_⟩
      rw [bankAddress_eq]
      exact Nat.le_add_right _ _
    have far := banks.2 (x + k)
    rw [cellAddress] at same
    omega
  slot := by
    rintro b rfl
    decide
  cell := by
    intro x k node small
    have index : BitVec.ofNat 16 k.toNat = k := BitVec.eq_of_toNat_eq (by simp)
    rw [← index]
    rcases node with rfl | rfl
    · exact emptyTables_four k.toNat small
    · exact emptyTables_eight k.toNat small

theorem emptyTables_lists : PageLists emptyTables.system (· = 8) (fun x => x = 4 ∨ x = 8)
    (fun _ => []) emptyTables.core where
  head := by
    rintro b rfl
    decide
  linked := fun _ _ => trivial
  pages := by simp
  distinct := by simp
  owner := by simp

/-- Two insertions and a removal leave the second page alone in the list. -/
theorem pageListInstructions_two :
    ∃ t, runPageListOps bareMachine [.inspl 8 4 1, .inspl 8 8 2, .rempl 4] emptyTables = .ok () t ∧
      PageLists emptyTables.system (· = 8) (fun x => x = 4 ∨ x = 8)
        (applyPageListOps [.inspl 8 4 1, .inspl 8 8 2, .rempl 4] fun _ => []) t.core := by
  have valid : ValidPageListOps (· = 8) (fun x => x = 4 ∨ x = 8)
      [.inspl 8 4 1, .inspl 8 8 2, .rempl 4] fun _ => [] := by
    refine ⟨⟨rfl, .inl rfl, by simp⟩, ⟨rfl, .inr rfl, ?_⟩, ⟨8, rfl, by decide⟩, trivial⟩
    rintro c rfl
    decide
  obtain ⟨t, done, kept, -⟩ :=
    pageListInstructions _ emptyTables_physical (by decide) emptyTables_lists valid
  exact ⟨t, done, kept⟩

end Nd100x
