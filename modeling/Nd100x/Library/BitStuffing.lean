import Mathlib.Data.List.Infix

namespace Nd100x.Library

/-- A zero is put after five ones when more bits follow. -/
def stuff : Nat → List Bool → List Bool
  | _, [] => []
  | ones, bit :: bits =>
    if ones = 5 then false :: bit :: stuff (if bit then 1 else 0) bits
    else bit :: stuff (if bit then ones + 1 else 0) bits

/-- The zero after every five ones is deleted. -/
def unstuff : Nat → List Bool → List Bool
  | _, [] => []
  | ones, true :: bits => true :: unstuff (ones + 1) bits
  | ones, false :: bits => if ones = 5 then unstuff 0 bits else false :: unstuff 0 bits

/-- So many ones stand at the end of the bits. -/
def onesAfter : Nat → List Bool → Nat
  | ones, [] => ones
  | ones, true :: bits => onesAfter (ones + 1) bits
  | _, false :: bits => onesAfter 0 bits

/-- No six ones come in a row, with the ones before. -/
def Calm : Nat → List Bool → Prop
  | _, [] => True
  | ones, true :: bits => ones < 5 ∧ Calm (ones + 1) bits
  | _, false :: bits => Calm 0 bits

def leadingOnes : List Bool → Nat
  | [] => 0
  | true :: bits => leadingOnes bits + 1
  | false :: _ => 0

section Append

theorem unstuff_append (ones : Nat) (first second : List Bool) :
    unstuff ones (first ++ second) =
      unstuff ones first ++ unstuff (onesAfter ones first) second := by
  induction first generalizing ones with
  | nil => rfl
  | cons bit first ih =>
    cases bit with
    | true => exact congrArg (true :: ·) (ih (ones + 1))
    | false =>
      rw [List.cons_append, unstuff, unstuff, onesAfter]
      split_ifs
      · exact ih 0
      · exact congrArg (false :: ·) (ih 0)

theorem calm_append (ones : Nat) (first second : List Bool) :
    Calm ones (first ++ second) ↔ Calm ones first ∧ Calm (onesAfter ones first) second := by
  induction first generalizing ones with
  | nil => exact (and_iff_right trivial).symm
  | cons bit first ih =>
    cases bit with
    | true => exact (and_congr_right fun _ => ih (ones + 1)).trans and_assoc.symm
    | false => exact ih 0

end Append

section Rows

variable {ones : Nat} {bits : List Bool}

/-- Six ones in a row do not reach over a zero. -/
theorem six_over_zero (first second : List Bool) :
    List.replicate 6 true <:+: first ++ false :: second ↔
      List.replicate 6 true <:+: first ∨ List.replicate 6 true <:+: second := by
  constructor
  · intro six
    rcases List.infix_append_iff_ne_nil.mp six with
      front | behind | ⟨left, right, -, some_, same, -, starts⟩
    · exact .inl front
    · rcases List.infix_cons_iff.mp behind with starts | behind
      · cases (List.cons_prefix_cons.mp starts).1
      · exact .inr behind
    · obtain ⟨bit, rest, rfl⟩ := List.exists_cons_of_ne_nil some_
      have here : bit ∈ List.replicate 6 true := by
        rw [same]
        exact List.mem_append_right left List.mem_cons_self
      rw [(List.cons_prefix_cons.mp starts).1] at here
      cases (List.mem_replicate.mp here).2
  · rintro (front | behind)
    · exact List.infix_append_of_infix_left front
    · exact List.infix_append_of_infix_right (List.infix_cons behind)

theorem six_in_few (few : ones ≤ 5) : ¬List.replicate 6 true <:+: List.replicate ones true := by
  intro six
  have length := six.length_le
  rw [List.length_replicate, List.length_replicate] at length
  omega

theorem calm_iff (few : ones ≤ 5) :
    Calm ones bits ↔ ¬List.replicate 6 true <:+: List.replicate ones true ++ bits := by
  induction bits generalizing ones with
  | nil =>
    rw [List.append_nil]
    exact iff_of_true trivial (six_in_few few)
  | cons bit bits ih =>
    cases bit with
    | true =>
      have moved : List.replicate ones true ++ true :: bits =
          List.replicate (ones + 1) true ++ bits := by
        rw [List.replicate_succ', List.append_assoc]
        rfl
      rw [Calm, moved]
      by_cases full : ones = 5
      · subst full
        exact iff_of_false (fun both => absurd both.1 (Nat.lt_irrefl 5))
          (not_not.mpr (List.prefix_append _ _).isInfix)
      · have more : ones < 5 := Nat.lt_of_le_of_ne few full
        rw [ih more]
        exact and_iff_right more
    | false =>
      rw [Calm, six_over_zero, ih (Nat.zero_le 5), not_or]
      exact (and_iff_right (six_in_few few)).symm

/-- The bits at the end of a calm row have at most five ones. -/
theorem onesAfter_le (few : ones ≤ 5) (calm : Calm ones bits) : onesAfter ones bits ≤ 5 := by
  induction bits generalizing ones with
  | nil => exact few
  | cons bit bits ih =>
    cases bit with
    | true => exact ih calm.1 calm.2
    | false => exact ih (Nat.zero_le 5) calm

end Rows

section Receiver

variable {sent read : Nat} {bits : List Bool}

theorem stuff_full (bit : Bool) (bits : List Bool) :
    stuff 5 (bit :: bits) = false :: stuff 0 (bit :: bits) := by
  cases bit <;> rfl

theorem stuff_true (few : sent < 5) (bits : List Bool) :
    stuff sent (true :: bits) = true :: stuff (sent + 1) bits := by
  rw [stuff, if_neg (Nat.ne_of_lt few)]
  rfl

theorem stuff_false (few : sent < 5) (bits : List Bool) :
    stuff sent (false :: bits) = false :: stuff 0 bits := by
  rw [stuff, if_neg (Nat.ne_of_lt few)]
  rfl

/-- A receiver that counts like the sender gets the bits. -/
theorem unstuff_stuff (few : sent ≤ 5) :
    Calm sent (stuff sent bits) ∧ unstuff sent (stuff sent bits) = bits := by
  induction bits generalizing sent with
  | nil => exact ⟨trivial, rfl⟩
  | cons bit bits ih =>
    have start {ones : Nat} (few : ones < 5) : Calm ones (stuff ones (bit :: bits)) ∧
        unstuff ones (stuff ones (bit :: bits)) = bit :: bits := by
      cases bit with
      | true =>
        obtain ⟨calm, same⟩ := @ih (ones + 1) few
        rw [stuff_true few]
        exact ⟨⟨few, calm⟩, congrArg (true :: ·) same⟩
      | false =>
        obtain ⟨calm, same⟩ := @ih 0 (Nat.zero_le 5)
        rw [stuff_false few, unstuff, if_neg (Nat.ne_of_lt few)]
        exact ⟨calm, congrArg (false :: ·) same⟩
    rcases Nat.lt_or_eq_of_le few with more | rfl
    · exact start more
    · rw [stuff_full, unstuff, if_pos rfl]
      obtain ⟨calm, same⟩ := @start 0 (Nat.succ_pos 4)
      exact ⟨calm, same⟩

/-- A receiver that counted more ones gets the bits when their first ones do not make five, and it
counts like the sender after the first zero. -/
theorem unstuff_ahead (zero : leadingOnes bits < bits.length) (behind : sent ≤ read)
    (few : read + leadingOnes bits < 5) :
    Calm read (stuff sent bits) ∧ unstuff read (stuff sent bits) = bits ∧
      onesAfter read (stuff sent bits) = onesAfter sent (stuff sent bits) := by
  induction bits generalizing sent read with
  | nil => exact absurd zero (Nat.lt_irrefl 0)
  | cons bit bits ih =>
    cases bit with
    | true =>
      rw [leadingOnes] at few zero
      obtain ⟨calm, same, ends⟩ := @ih (sent + 1) (read + 1)
        (Nat.lt_of_succ_lt_succ zero) (Nat.succ_le_succ behind) (by omega)
      rw [stuff_true (by omega)]
      exact ⟨⟨by omega, calm⟩, congrArg (true :: ·) same, ends⟩
    | false =>
      rw [leadingOnes] at few
      obtain ⟨calm, same⟩ := @unstuff_stuff 0 bits (Nat.zero_le 5)
      rw [stuff_false (by omega), unstuff, if_neg (by omega)]
      exact ⟨calm, congrArg (false :: ·) same, rfl⟩

/-- A receiver that counted more ones gets no more bits than there are. -/
theorem unstuff_length_le (behind : sent ≤ read) (few : read ≤ 5)
    (calm : Calm read (stuff sent bits)) :
    (unstuff read (stuff sent bits)).length ≤ bits.length := by
  induction bits generalizing sent read with
  | nil => exact le_rfl
  | cons bit bits ih =>
    have whole := (@unstuff_stuff 0 bits (Nat.zero_le 5)).2
    rcases Nat.lt_or_eq_of_le (behind.trans few) with more | rfl
    · cases bit with
      | true =>
        rw [stuff_true more] at calm ⊢
        exact Nat.succ_le_succ
          (ih (Nat.succ_le_succ behind) calm.1 calm.2)
      | false =>
        rw [stuff_false more, unstuff, whole]
        split_ifs
        · exact Nat.le_succ _
        · exact le_rfl
    · obtain rfl : read = 5 := Nat.le_antisymm few behind
      rw [stuff_full, unstuff, if_pos rfl, (unstuff_stuff (Nat.zero_le 5)).2]

/-- The zero behind the first ones is lost when the receiver counts five there. -/
theorem unstuff_loses (behind : sent < read) (few : read ≤ 5) (full : 5 ≤ read + leadingOnes bits)
    (long : 5 < read + bits.length) (calm : Calm read (stuff sent bits)) :
    (unstuff read (stuff sent bits)).length < bits.length := by
  induction bits generalizing sent read with
  | nil => exact absurd long (Nat.not_lt.mpr few)
  | cons bit bits ih =>
    have more : sent < 5 := behind.trans_le few
    cases bit with
    | true =>
      rw [stuff_true more] at calm ⊢
      rw [leadingOnes] at full
      rw [List.length_cons] at long
      exact Nat.succ_lt_succ (ih (Nat.succ_lt_succ behind) calm.1
        (by omega) (by omega) calm.2)
    | false =>
      obtain rfl : read = 5 := Nat.le_antisymm few full
      rw [stuff_false more, unstuff, if_pos rfl, (unstuff_stuff (Nat.zero_le 5)).2]
      exact Nat.lt_succ_self _

end Receiver

section Pieces

/-- Each piece is stuffed for itself. -/
def stuffPieces (pieces : List (List Bool)) : List Bool := pieces.flatMap (stuff 0)

/-- The ones at the end of a stuffed piece and those in front of the next one do not make five. -/
def Joins (first second : List Bool) : Prop :=
  onesAfter 0 (stuff 0 first) = 0 ∨ onesAfter 0 (stuff 0 first) + leadingOnes second < 5

instance (first second : List Bool) : Decidable (Joins first second) :=
  inferInstanceAs (Decidable (_ ∨ _))

variable {read : Nat} {pieces : List (List Bool)}

theorem stuffPieces_length_le (few : read ≤ 5) (calm : Calm read (stuffPieces pieces)) :
    (unstuff read (stuffPieces pieces)).length ≤ pieces.flatten.length := by
  induction pieces generalizing read with
  | nil => exact le_rfl
  | cons piece pieces ih =>
    rw [stuffPieces, List.flatMap_cons, calm_append] at calm
    rw [stuffPieces, List.flatMap_cons, unstuff_append, List.length_append, List.flatten_cons,
      List.length_append]
    exact Nat.add_le_add (unstuff_length_le (Nat.zero_le read) few calm.1)
      (ih (onesAfter_le few calm.1) calm.2)

/-- A piece of more than five bits that follows is read when the ones before it join it. -/
theorem stuffPieces_cons (few : read ≤ 5) {piece : List Bool} (long : 5 < piece.length) :
    (Calm read (stuffPieces (piece :: pieces)) ∧
        unstuff read (stuffPieces (piece :: pieces)) = (piece :: pieces).flatten) ↔
      (read = 0 ∨ read + leadingOnes piece < 5) ∧
        Calm (onesAfter 0 (stuff 0 piece)) (stuffPieces pieces) ∧
          unstuff (onesAfter 0 (stuff 0 piece)) (stuffPieces pieces) = pieces.flatten := by
  rw [stuffPieces, List.flatMap_cons, calm_append, unstuff_append, List.flatten_cons, ← stuffPieces]
  have reads (joined : read = 0 ∨ read + leadingOnes piece < 5) :
      Calm read (stuff 0 piece) ∧ unstuff read (stuff 0 piece) = piece ∧
        onesAfter read (stuff 0 piece) = onesAfter 0 (stuff 0 piece) := by
    rcases joined with rfl | joined
    · exact ⟨(unstuff_stuff (Nat.zero_le 5)).1, (unstuff_stuff (Nat.zero_le 5)).2, rfl⟩
    · exact unstuff_ahead (by omega) (Nat.zero_le read) joined
  constructor
  · rintro ⟨⟨first, later⟩, same⟩
    have joined : read = 0 ∨ read + leadingOnes piece < 5 := by
      by_contra apart
      rw [not_or, Nat.not_lt] at apart
      have lost := unstuff_loses (Nat.pos_of_ne_zero apart.1) few apart.2 (by omega) first
      have most := stuffPieces_length_le (onesAfter_le few first) later
      have length := congrArg List.length same
      rw [List.length_append, List.length_append] at length
      omega
    obtain ⟨-, whole, ends⟩ := reads joined
    rw [whole, ends] at same
    rw [ends] at later
    exact ⟨joined, later, List.append_cancel_left same⟩
  · rintro ⟨joined, later, same⟩
    obtain ⟨first, whole, ends⟩ := reads joined
    rw [ends, whole, same]
    exact ⟨⟨first, later⟩, rfl⟩

/-- The pieces after one are read when it and they join. -/
theorem stuffPieces_reads_after (piece : List Bool) (long : ∀ other ∈ pieces, 5 < other.length) :
    (Calm (onesAfter 0 (stuff 0 piece)) (stuffPieces pieces) ∧
        unstuff (onesAfter 0 (stuff 0 piece)) (stuffPieces pieces) = pieces.flatten) ↔
      (piece :: pieces).IsChain Joins := by
  induction pieces generalizing piece with
  | nil => exact iff_of_true ⟨trivial, rfl⟩ (.singleton piece)
  | cons next pieces ih =>
    have ends : onesAfter 0 (stuff 0 piece) ≤ 5 :=
      onesAfter_le (Nat.zero_le 5) (unstuff_stuff (Nat.zero_le 5)).1
    rw [stuffPieces_cons ends (long next List.mem_cons_self),
      ih next fun other later => long other (List.mem_cons_of_mem next later),
      List.isChain_cons_cons]
    rfl

/-- Stuffed pieces are read when each one joins the next. -/
theorem stuffPieces_reads_iff (long : ∀ piece ∈ pieces, 5 < piece.length) :
    (Calm 0 (stuffPieces pieces) ∧ unstuff 0 (stuffPieces pieces) = pieces.flatten) ↔
      pieces.IsChain Joins := by
  cases pieces with
  | nil => exact iff_of_true ⟨trivial, rfl⟩ .nil
  | cons piece pieces =>
    rw [stuffPieces_cons (Nat.zero_le 5) (long piece List.mem_cons_self),
      stuffPieces_reads_after piece fun other later =>
        long other (List.mem_cons_of_mem piece later)]
    exact and_iff_right (.inl rfl)

end Pieces

end Nd100x.Library
