import Mathlib.Data.List.Basic
import Mathlib.Tactic

namespace Nd100x.Library

variable {A : Type}

/-- A cursor stands between two items of a list. The nearest item before it comes first. -/
structure Cursor (A : Type) where
  before : List A
  after : List A

namespace Cursor

/-- A motion stops when it has counted enough, at a mark, or where the items end. -/
inductive Stop where
  | counted
  | mark
  | ended
  deriving DecidableEq, Repr

def items (cursor : Cursor A) : List A := cursor.before.reverse ++ cursor.after

/-- The other end of the list becomes the start. -/
def flip (cursor : Cursor A) : Cursor A := ⟨cursor.after, cursor.before⟩

def start (items : List A) : Cursor A := ⟨[], items⟩

/-- The cursor stands behind this many items. -/
def at_ (items : List A) (index : Nat) : Cursor A := ⟨(items.take index).reverse, items.drop index⟩

/-- An item replaces everything after the cursor. -/
def write (cursor : Cursor A) (item : A) : Cursor A := ⟨item :: cursor.before, []⟩

def writeAll (cursor : Cursor A) (items : List A) : Cursor A := items.foldl write cursor

def truncate (cursor : Cursor A) : Cursor A := ⟨cursor.before, []⟩

/-- The cursor moves over items until a mark or until it has counted enough of them. -/
def spaceItems (isMark : A → Bool) (count : Nat) : List A → List A → Nat → Cursor A × Stop × Nat
  | before, [], done => (⟨before, []⟩, .ended, done)
  | before, item :: rest, done =>
    if isMark item then (⟨item :: before, rest⟩, .mark, done)
    else if done + 1 = count then (⟨item :: before, rest⟩, .counted, done + 1)
    else spaceItems isMark count (item :: before) rest (done + 1)

/-- The cursor moves until it has counted enough marks. Sequential marks have no other item between
them. -/
def spaceMarks (isMark : A → Bool) (count : Nat) (sequential : Bool) :
    List A → List A → Nat → Cursor A × Stop × Nat
  | before, [], done => (⟨before, []⟩, .ended, done)
  | before, item :: rest, done =>
    if isMark item then
      if done + 1 = count then (⟨item :: before, rest⟩, .counted, done + 1)
      else spaceMarks isMark count sequential (item :: before) rest (done + 1)
    else
      spaceMarks isMark count sequential (item :: before) rest (if sequential then 0 else done)

def forwardItems (isMark : A → Bool) (count : Nat) (cursor : Cursor A) : Cursor A × Stop × Nat :=
  spaceItems isMark count cursor.before cursor.after 0

def forwardMarks (isMark : A → Bool) (count : Nat) (sequential : Bool) (cursor : Cursor A) :
    Cursor A × Stop × Nat :=
  spaceMarks isMark count sequential cursor.before cursor.after 0

def reverseItems (isMark : A → Bool) (count : Nat) (cursor : Cursor A) : Cursor A × Stop × Nat :=
  let moved := forwardItems isMark count cursor.flip
  (moved.1.flip, moved.2)

def reverseMarks (isMark : A → Bool) (count : Nat) (cursor : Cursor A) : Cursor A × Stop × Nat :=
  let moved := forwardMarks isMark count false cursor.flip
  (moved.1.flip, moved.2)

section Position

variable (cursor : Cursor A)

theorem items_at (items : List A) (index : Nat) : (at_ items index).items = items := by
  simp [Cursor.items, at_]

theorem before_writeAll (items : List A) :
    (cursor.writeAll items).before = items.reverse ++ cursor.before := by
  induction items generalizing cursor with
  | nil => rfl
  | cons item rest ih =>
    rw [writeAll, List.foldl_cons]
    change ((cursor.write item).writeAll rest).before = _
    rw [ih, List.reverse_cons, List.append_assoc]
    rfl

theorem after_writeAll {items : List A} (nonempty : items ≠ []) {cursor : Cursor A} :
    (cursor.writeAll items).after = [] := by
  induction items generalizing cursor with
  | nil => exact absurd rfl nonempty
  | cons item rest ih =>
    rw [writeAll, List.foldl_cons]
    by_cases last : rest = []
    · subst last
      rfl
    · exact ih last

theorem items_flip : cursor.flip.items = cursor.items.reverse := by
  simp [Cursor.items, flip]

end Position

section Space

variable {isMark : A → Bool} {count : Nat}

/-- A motion keeps the items. -/
theorem spaceItems_items (before after : List A) (done : Nat) :
    (spaceItems isMark count before after done).1.items = before.reverse ++ after := by
  induction after generalizing before done with
  | nil => rfl
  | cons item rest ih =>
    have moved : (item :: before).reverse ++ rest = before.reverse ++ item :: rest := by
      rw [List.reverse_cons, List.append_assoc, List.singleton_append]
    rw [spaceItems]
    split_ifs
    · exact moved
    · exact moved
    · exact (ih _ _).trans moved

theorem spaceMarks_items {sequential : Bool} (before after : List A) (done : Nat) :
    (spaceMarks isMark count sequential before after done).1.items = before.reverse ++ after := by
  induction after generalizing before done with
  | nil => rfl
  | cons item rest ih =>
    have moved : (item :: before).reverse ++ rest = before.reverse ++ item :: rest := by
      rw [List.reverse_cons, List.append_assoc, List.singleton_append]
    rw [spaceMarks]
    split_ifs
    · exact moved
    all_goals exact (ih _ _).trans moved

theorem reverseItems_items (cursor : Cursor A) :
    (reverseItems isMark count cursor).1.items = cursor.items := by
  have kept := @spaceItems_items _ isMark count cursor.flip.before cursor.flip.after 0
  rw [reverseItems, items_flip, forwardItems, kept]
  simp [Cursor.items, flip]

theorem reverseMarks_items (cursor : Cursor A) :
    (reverseMarks isMark count cursor).1.items = cursor.items := by
  have kept := @spaceMarks_items _ isMark count false cursor.flip.before cursor.flip.after 0
  rw [reverseMarks, items_flip, forwardMarks, kept]
  simp [Cursor.items, flip]

/-- Enough items were counted when the motion passed exactly these, and none is a mark. -/
theorem spaceItems_counted {before after : List A} {done : Nat} {next : Cursor A} {total : Nat}
    (moved : spaceItems isMark count before after done = (next, .counted, total)) :
    total = count ∧ ∃ passed, after = passed ++ next.after ∧
      next.before = passed.reverse ++ before ∧ done + passed.length = count ∧ passed ≠ [] ∧
      ∀ item ∈ passed, isMark item = false := by
  induction after generalizing before done with
  | nil => cases moved
  | cons item rest ih =>
    rw [spaceItems] at moved
    split_ifs at moved with marked enough
    · cases moved
    · cases moved
      exact ⟨enough, [item], rfl, rfl, enough, List.cons_ne_nil _ _,
        fun other member => List.mem_singleton.mp member ▸ Bool.eq_false_iff.mpr marked⟩
    · obtain ⟨whole, passed, split, behind, sum, -, plain⟩ := ih moved
      refine ⟨whole, item :: passed, congrArg _ split, ?_, ?_, List.cons_ne_nil _ _, ?_⟩
      · rw [behind, List.reverse_cons, List.append_assoc]
        rfl
      · rw [List.length_cons]
        omega
      · intro other member
        rcases List.mem_cons.mp member with here | later
        · exact here ▸ Bool.eq_false_iff.mpr marked
        · exact plain other later

/-- Items without a mark are passed until the count. -/
theorem spaceItems_plain {passed rest : List A} (plain : ∀ item ∈ passed, isMark item = false)
    (nonempty : passed ≠ []) {before : List A} {done : Nat} (sum : done + passed.length = count) :
    spaceItems isMark count before (passed ++ rest) done =
      (⟨passed.reverse ++ before, rest⟩, .counted, count) := by
  induction passed generalizing before done with
  | nil => exact absurd rfl nonempty
  | cons item others ih =>
    have first := plain item List.mem_cons_self
    rw [List.length_cons] at sum
    rw [List.cons_append, spaceItems, if_neg (Bool.eq_false_iff.mp first)]
    by_cases last : others = []
    · subst last
      have enough : done + 1 = count := sum
      rw [if_pos enough, enough]
      rfl
    · have more : done + 1 ≠ count := by
        have positive := List.length_pos_of_ne_nil last
        omega
      rw [if_neg more, ih (fun other member =>
        plain other (List.mem_cons_of_mem _ member)) last (by omega), List.reverse_cons,
        List.append_assoc]
      rfl

/-- A motion over items and the same motion back return to the start. -/
theorem forwardItems_reverse {cursor next : Cursor A} {done : Nat}
    (moved : forwardItems isMark count cursor = (next, .counted, done)) :
    reverseItems isMark count next = (cursor, .counted, done) := by
  obtain ⟨whole, passed, split, behind, sum, nonempty, plain⟩ := spaceItems_counted moved
  have back := @spaceItems_plain _ isMark count passed.reverse cursor.before
      (fun item member => plain item (List.mem_reverse.mp member)) (by simpa using nonempty)
      next.after 0 (by simpa using sum)
  rw [← behind, List.reverse_reverse, ← split] at back
  simp only [reverseItems, forwardItems, flip, back, whole]

/-- Enough marks were counted at the last of the passed items. -/
theorem spaceMarks_counted {before after : List A} {done : Nat} {next : Cursor A} {total : Nat}
    (moved : spaceMarks isMark count false before after done = (next, .counted, total)) :
    total = count ∧ ∃ passed last, after = passed ++ last :: next.after ∧
      next.before = last :: (passed.reverse ++ before) ∧ isMark last = true ∧
      done + passed.countP isMark + 1 = count := by
  induction after generalizing before done with
  | nil => cases moved
  | cons item rest ih =>
    rw [spaceMarks, if_neg Bool.false_ne_true] at moved
    split_ifs at moved with marked enough
    · cases moved
      exact ⟨enough, [], item, rfl, rfl, marked, enough⟩
    · obtain ⟨whole, passed, last, split, behind, mark, sum⟩ := ih moved
      refine ⟨whole, item :: passed, last, congrArg _ split, ?_, mark, ?_⟩
      · rw [behind, List.reverse_cons, List.append_assoc]
        rfl
      · rw [List.countP_cons_of_pos marked]
        omega
    · obtain ⟨whole, passed, last, split, behind, mark, sum⟩ := ih moved
      refine ⟨whole, item :: passed, last, congrArg _ split, ?_, mark, ?_⟩
      · rw [behind, List.reverse_cons, List.append_assoc]
        rfl
      · rw [List.countP_cons_of_neg marked]
        exact sum

/-- Items are passed until the mark that completes the count. -/
theorem spaceMarks_pass {passed rest : List A} {last : A} (mark : isMark last = true)
    {before : List A} {done : Nat} (sum : done + passed.countP isMark + 1 = count) :
    spaceMarks isMark count false before (passed ++ last :: rest) done =
      (⟨last :: (passed.reverse ++ before), rest⟩, .counted, count) := by
  induction passed generalizing before done with
  | nil =>
    have enough : done + 1 = count := sum
    rw [List.nil_append, spaceMarks, if_pos mark, if_pos enough, enough]
    rfl
  | cons item others ih =>
    rw [List.cons_append, spaceMarks, if_neg Bool.false_ne_true, List.reverse_cons,
      List.append_assoc]
    by_cases marked : isMark item = true
    · rw [List.countP_cons_of_pos marked] at sum
      rw [if_pos marked, if_neg (by omega), ih (by omega)]
      rfl
    · rw [List.countP_cons_of_neg marked] at sum
      rw [if_neg marked, ih sum]
      rfl

/-- The cursor moves up to the next mark. -/
def toMark (isMark : A → Bool) (cursor : Cursor A) : Cursor A :=
  ⟨(cursor.after.takeWhile fun item => !isMark item).reverse ++ cursor.before,
    cursor.after.dropWhile fun item => !isMark item⟩

/-- A motion over marks and the same motion back lead to the first mark that was passed. -/
theorem forwardMarks_reverse {cursor next : Cursor A} {done : Nat}
    (moved : forwardMarks isMark count false cursor = (next, .counted, done)) :
    reverseMarks isMark count next = (toMark isMark cursor, .counted, done) := by
  obtain ⟨whole, passed, last, split, behind, mark, sum⟩ := spaceMarks_counted moved
  have marked : ((passed ++ [last]).find? isMark).isSome = true := by
    rw [List.find?_isSome]
    exact ⟨last, List.mem_append_right _ List.mem_cons_self, mark⟩
  obtain ⟨first, found⟩ := Option.isSome_iff_exists.mp marked
  obtain ⟨isFirst, lead, more, pieces, plain⟩ := List.find?_eq_some_iff_append.mp found
  have none : lead.countP isMark = 0 := by
    rw [List.countP_eq_zero]
    intro item member
    simpa using plain item member
  have counts := congrArg (List.countP isMark) pieces
  rw [List.countP_append, List.countP_append, none, List.countP_singleton, if_pos mark,
    List.countP_cons_of_pos isFirst] at counts
  have ahead : cursor.after = lead ++ first :: (more ++ next.after) := by
    rw [split, List.append_cons, pieces, List.append_assoc, List.cons_append]
  have back : last :: (passed.reverse ++ cursor.before) =
      more.reverse ++ first :: (lead.reverse ++ cursor.before) := by
    have reversed := congrArg List.reverse pieces
    simp only [List.reverse_append, List.reverse_cons, List.reverse_nil, List.nil_append,
      List.append_assoc, List.singleton_append] at reversed
    rw [← List.cons_append, reversed, List.append_assoc, List.cons_append]
  have reach := @spaceMarks_pass _ _ count more.reverse (lead.reverse ++ cursor.before) _ isFirst
      next.after 0 (by
      rw [List.countP_reverse]
      omega)
  rw [← back, ← behind, List.reverse_reverse] at reach
  have shown : toMark isMark cursor = ⟨lead.reverse ++ cursor.before, first :: (more ++ next.after)⟩ := by
    rw [toMark, ahead, List.takeWhile_append_of_pos plain, List.dropWhile_append_of_pos plain,
      List.takeWhile_cons_of_neg (by simpa using isFirst), List.append_nil,
      List.dropWhile_cons_of_neg (by simpa using isFirst)]
  simp only [reverseMarks, forwardMarks, flip, reach, shown, whole]

end Space

end Cursor

end Nd100x.Library
