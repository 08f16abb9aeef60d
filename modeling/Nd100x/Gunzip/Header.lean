import Nd100x.Gunzip.Format
import Nd100x.Gunzip.Decoder

namespace Nd100x.Gunzip

open Nd100x.Library

section Fields

variable {input : List Byte}

/-- A position stands for the bytes behind it, or it is outside of the input. -/
def Lies (input : List Byte) (pos : Nat) (body : Option (List Byte)) : Prop :=
  pos ≤ input.length ∧ body = some (input.drop pos) ∨ input.length < pos ∧ body = none

theorem Lies.skipBytes {pos : Nat} {body : Option (List Byte)} (lies : Lies input pos body)
    (count : Nat) : Lies input (pos + count) (body.bind (skipBytes count)) := by
  rcases lies with ⟨inside, rfl⟩ | ⟨outside, rfl⟩
  · rw [Option.bind_some, Gunzip.skipBytes, List.length_drop, List.drop_drop]
    by_cases more : count ≤ input.length - pos
    · rw [if_pos more]
      exact Or.inl ⟨by omega, rfl⟩
    · rw [if_neg more]
      exact Or.inr ⟨by omega, rfl⟩
  · exact Or.inr ⟨by omega, rfl⟩

theorem gzSkipString_lies {pos fuel : Nat} (inside : pos ≤ input.length)
    (enough : input.length < pos + fuel) :
    ∃ next, gzSkipString input fuel pos = some next ∧ pos ≤ next ∧
      Lies input next (skipString (input.drop pos)) := by
  induction fuel generalizing pos with
  | zero => omega
  | succ fuel ih =>
    rw [gzSkipString]
    by_cases more : pos < input.length
    · rw [if_pos more, List.getElem?_eq_getElem more, Option.bind_some,
        List.drop_eq_getElem_cons more, skipString]
      split_ifs with zero
      · exact ⟨pos + 1, rfl, Nat.le_succ _, Or.inl ⟨more, rfl⟩⟩
      · obtain ⟨next, rest, after, lies⟩ := @ih (pos + 1) more (by omega)
        exact ⟨next, rest, (Nat.le_succ _).trans after, lies⟩
    · rw [if_neg more, List.drop_eq_nil_of_le (Nat.not_lt.mp more)]
      exact ⟨pos + 1, rfl, Nat.le_succ _, Or.inr ⟨by omega, rfl⟩⟩

theorem Lies.skipString {pos : Nat} {body : Option (List Byte)} (lies : Lies input pos body) :
    ∃ next, gzSkipString input (input.length + 1) pos = some next ∧ pos ≤ next ∧
      Lies input next (body.bind skipString) := by
  rcases lies with ⟨inside, rfl⟩ | ⟨outside, rfl⟩
  · exact gzSkipString_lies inside (by omega)
  · rw [gzSkipString, if_neg (by omega)]
    exact ⟨pos + 1, rfl, Nat.le_succ _, Or.inr ⟨by omega, rfl⟩⟩

theorem skipString_shorter {bytes rest : List Byte} (skipped : skipString bytes = some rest) :
    rest.length ≤ bytes.length := by
  induction bytes with
  | nil => cases skipped
  | cons byte bytes ih =>
    rw [skipString] at skipped
    rw [List.length_cons]
    split_ifs at skipped
    · rw [Option.some.injEq] at skipped
      rw [skipped]
      exact Nat.le_succ _
    · exact Nat.le_succ_of_le (ih skipped)

theorem skipBytes_shorter {count : Nat} {bytes rest : List Byte}
    (skipped : skipBytes count bytes = some rest) : rest.length ≤ bytes.length - count := by
  rw [skipBytes] at skipped
  split_ifs at skipped with inside
  rw [Option.some.injEq] at skipped
  rw [← skipped, List.length_drop]

theorem skipExtra_shorter {bytes rest : List Byte} (skipped : skipExtra bytes = some rest) :
    rest.length ≤ bytes.length := by
  rcases bytes with _ | ⟨low, _ | ⟨high, bytes⟩⟩
  · cases skipped
  · cases skipped
  · rw [skipExtra] at skipped
    have length := skipBytes_shorter skipped
    rw [List.length_cons, List.length_cons]
    omega

theorem skipFields_shorter {flags : Byte} {bytes rest : List Byte}
    (skipped : skipFields flags bytes = some rest) : rest.length ≤ bytes.length := by
  obtain ⟨first, first_, more⟩ := Option.bind_eq_some_iff.mp skipped
  obtain ⟨second, second_, more⟩ := Option.bind_eq_some_iff.mp more
  obtain ⟨third, third_, more⟩ := Option.bind_eq_some_iff.mp more
  have stays {before after : List Byte} (same : some before = some after) :
      after.length ≤ before.length := by
    rw [Option.some.inj same]
  have extra : first.length ≤ bytes.length := by
    split_ifs at first_
    · exact skipExtra_shorter first_
    · exact stays first_
  have name : second.length ≤ first.length := by
    split_ifs at second_
    · exact skipString_shorter second_
    · exact stays second_
  have comment : third.length ≤ second.length := by
    split_ifs at third_
    · exact skipString_shorter third_
    · exact stays third_
  have hcrc : rest.length ≤ third.length := by
    split_ifs at more
    · exact (skipBytes_shorter more).trans (Nat.sub_le _ _)
    · exact stays more
  exact hcrc.trans (comment.trans (name.trans extra))

theorem flag_iff (flags : Byte) :
    (flags &&& gzFlagExtra ≠ 0 ↔ flags.getLsbD 2 = true) ∧
      (flags &&& gzFlagName ≠ 0 ↔ flags.getLsbD 3 = true) ∧
        (flags &&& gzFlagComment ≠ 0 ↔ flags.getLsbD 4 = true) ∧
          (flags &&& gzFlagHcrc ≠ 0 ↔ flags.getLsbD 1 = true) := by
  revert flags
  decide

/-- The extra field has its length in front of it. -/
theorem gzSkipExtra_lies {pos : Nat} (inside : pos + 2 ≤ input.length) :
    ∃ next, gzSkipExtra input pos = some (some next) ∧ pos ≤ next ∧
      Lies input next (skipExtra (input.drop pos)) := by
  have low : pos < input.length := by omega
  have high : pos + 1 < input.length := by omega
  have length : input[pos].toNat ||| input[pos + 1].toNat <<< 8 =
      input[pos].toNat + 2 ^ 8 * input[pos + 1].toNat := by
    rw [Nat.or_comm, ← Nat.shiftLeft_add_eq_or_of_lt input[pos].isLt, Nat.shiftLeft_eq,
      Nat.add_comm, Nat.mul_comm]
  rw [gzSkipExtra, if_neg (Nat.not_lt.mpr inside), List.getElem?_eq_getElem low, Option.bind_some,
    List.getElem?_eq_getElem high, Option.map_some, length, List.drop_eq_getElem_cons low,
    List.drop_eq_getElem_cons high, skipExtra]
  refine ⟨_, rfl, Nat.le_add_right _ _, ?_⟩
  have behind := Lies.skipBytes (Or.inl ⟨inside, rfl⟩) (input[pos].toNat + 2 ^ 8 * input[pos + 1].toNat)
  rw [Nat.add_assoc] at behind
  exact behind

/-- An optional field is skipped when its flag is set. -/
theorem Lies.optional {pos : Nat} {body : Option (List Byte)} (lies : Lies input pos body)
    {set_ : Prop} [Decidable set_] {flag : Bool} (same : set_ ↔ flag = true) :
    ∃ next, (if set_ then gzSkipString input (input.length + 1) pos else some pos) = some next ∧
      pos ≤ next ∧
        Lies input next (body.bind fun bytes =>
          if flag then Gunzip.skipString bytes else some bytes) := by
  cases flag with
  | true =>
    obtain ⟨next, skipped, behind, lies_⟩ := lies.skipString
    rw [if_pos (same.mpr rfl)]
    exact ⟨next, skipped, behind, lies_⟩
  | false =>
    rw [if_neg (fun on => Bool.false_ne_true (same.mp on))]
    refine ⟨pos, rfl, Nat.le_refl _, ?_⟩
    have stays : (body.bind fun bytes => some bytes) = body := Option.bind_fun_some body
    exact stays.symm ▸ lies

/-- The compressed data starts behind the fields, with room for the trailer. -/
theorem gzFields_lies {flags : Byte} (enough : 12 ≤ input.length) :
    ∃ pos next, (if flags &&& gzFlagExtra ≠ 0 then gzSkipExtra input 10 else some (some 10)) =
        some (some pos) ∧
      (if flags &&& gzFlagName ≠ 0 then gzSkipString input (input.length + 1) pos
        else some pos).bind (fun pos =>
          if flags &&& gzFlagComment ≠ 0 then gzSkipString input (input.length + 1) pos
          else some pos) = some next ∧
        10 ≤ next ∧
          Lies input (if flags &&& gzFlagHcrc ≠ 0 then next + 2 else next)
            (skipFields flags (input.drop 10)) := by
  obtain ⟨extra, name, comment, hcrc⟩ := flag_iff flags
  have first : ∃ pos, (if flags &&& gzFlagExtra ≠ 0 then gzSkipExtra input 10
      else some (some 10)) = some (some pos) ∧ 10 ≤ pos ∧ Lies input pos
        (if flags.getLsbD 2 then skipExtra (input.drop 10) else some (input.drop 10)) := by
    by_cases set_ : flags &&& gzFlagExtra ≠ 0
    · rw [if_pos set_, if_pos (extra.mp set_)]
      exact gzSkipExtra_lies enough
    · rw [if_neg set_, if_neg (fun on => set_ (extra.mpr on))]
      exact ⟨10, rfl, Nat.le_refl _, Or.inl ⟨by omega, rfl⟩⟩
  obtain ⟨pos, pos_, after, lies⟩ := first
  obtain ⟨middle, middle_, after_, lies⟩ := lies.optional name
  obtain ⟨next, next_, after__, lies⟩ := lies.optional comment
  refine ⟨pos, next, pos_, ?_, after.trans (after_.trans after__), ?_⟩
  · rw [middle_, Option.bind_some, next_]
  · have body : skipFields flags (input.drop 10) =
        (((if flags.getLsbD 2 then skipExtra (input.drop 10) else some (input.drop 10)).bind
          fun bytes => if flags.getLsbD 3 then Gunzip.skipString bytes else some bytes).bind
            fun bytes => if flags.getLsbD 4 then Gunzip.skipString bytes else some bytes).bind
              fun bytes => if flags.getLsbD 1 then Gunzip.skipBytes 2 bytes else some bytes := by
      rw [skipFields, Option.bind_assoc, Option.bind_assoc]
    rw [body]
    by_cases set_ : flags &&& gzFlagHcrc ≠ 0
    · rw [if_pos set_]
      have on := hcrc.mp set_
      simp only [on, if_true]
      exact lies.skipBytes 2
    · rw [if_neg set_]
      have off : flags.getLsbD 1 = false := Bool.eq_false_iff.mpr fun on => set_ (hcrc.mpr on)
      simp only [off, Bool.false_eq_true, if_false, Option.bind_fun_some]
      exact lies

/-- The header is read as the format says. -/
theorem gzHeader_finds (input : List Byte) :
    ∃ start, gzHeader input = some start ∧
      (start = 0 ∧ (∀ body, gzipBody input = some body → body.length < 8) ∨
        start ≠ 0 ∧ start + 8 ≤ input.length ∧ gzipBody input = some (input.drop start)) := by
  by_cases short : input.length < 18
  · rw [gzHeader, if_pos short]
    refine ⟨0, rfl, Or.inl ⟨rfl, ?_⟩⟩
    intro body found
    rcases input with _ | ⟨first, _ | ⟨second, _ | ⟨method, _ | ⟨flags, rest⟩⟩⟩⟩
    · cases found
    · cases found
    · cases found
    · cases found
    · rw [gzipBody] at found
      split_ifs at found
      obtain ⟨fields, fields_, found⟩ := Option.bind_eq_some_iff.mp found
      have length := skipFields_shorter found
      have length_ := skipBytes_shorter fields_
      rw [List.length_cons, List.length_cons, List.length_cons, List.length_cons] at short
      omega
  obtain ⟨first, second, method, flags, rest, rfl⟩ :
      ∃ first second method flags rest, input = first :: second :: method :: flags :: rest := by
    rcases input with _ | ⟨first, _ | ⟨second, _ | ⟨method, _ | ⟨flags, rest⟩⟩⟩⟩
    · exact absurd (by decide : 0 < 18) short
    · exact absurd (by decide : 1 < 18) short
    · exact absurd (by decide : 2 < 18) short
    · exact absurd (by decide : 3 < 18) short
    · exact ⟨first, second, method, flags, rest, rfl⟩
  rw [gzHeader, if_neg short, List.getElem?_cons_zero, Option.bind_some]
  change ∃ start, (if first ≠ 0x1F ∨ second ≠ 0x8B ∨ method ≠ 8 ∨ flags &&& gzFlagReserved ≠ 0 then
    some 0 else _) = some start ∧ _
  rw [gzipBody]
  by_cases good : first = 0x1F ∧ second = 0x8B ∧ method = 8 ∧ flags &&& 0xE0 = 0
  · have good_ : ¬(first ≠ 0x1F ∨ second ≠ 0x8B ∨ method ≠ 8 ∨ flags &&& gzFlagReserved ≠ 0) := by
      rintro (bad | bad | bad | bad)
      · exact bad good.1
      · exact bad good.2.1
      · exact bad good.2.2.1
      · exact bad good.2.2.2
    rw [if_pos good, if_neg good_]
    generalize whole : first :: second :: method :: flags :: rest = input at short ⊢
    have fixed : (Gunzip.skipBytes 6 rest).bind (skipFields flags) =
        skipFields flags (input.drop 10) := by
      have inside : 6 ≤ rest.length := by
        rw [← whole, List.length_cons, List.length_cons, List.length_cons, List.length_cons] at short
        omega
      rw [Gunzip.skipBytes, if_pos inside, Option.bind_some, ← whole]
      rfl
    obtain ⟨pos, next, extra, strings, behind, lies⟩ := @gzFields_lies input flags (by omega)
    rw [extra, Option.bind_some, fixed]
    obtain ⟨middle, name, comment⟩ := Option.bind_eq_some_iff.mp strings
    dsimp only
    rw [name, Option.bind_some, comment, Option.map_some]
    generalize place : (if flags &&& gzFlagHcrc ≠ 0 then next + 2 else next) = start at lies
    have behind_ : 10 ≤ start := by
      rw [← place]
      split_ifs <;> omega
    refine ⟨_, rfl, ?_⟩
    by_cases cut : input.length < start + 8
    · rw [if_pos cut]
      refine Or.inl ⟨rfl, ?_⟩
      intro body found
      rcases lies with ⟨inside, same⟩ | ⟨outside, none_⟩
      · rw [same, Option.some.injEq] at found
        rw [← found, List.length_drop]
        omega
      · rw [none_] at found
        cases found
    · rw [if_neg cut]
      refine Or.inr ⟨by omega, by omega, ?_⟩
      rcases lies with ⟨inside, same⟩ | ⟨outside, -⟩
      · exact same
      · omega
  · have bad : first ≠ 0x1F ∨ second ≠ 0x8B ∨ method ≠ 8 ∨ flags &&& gzFlagReserved ≠ 0 := by
      by_contra none_
      rw [not_or, not_or, not_or, not_not, not_not, not_not, not_not] at none_
      exact good none_
    rw [if_neg good, if_pos bad]
    exact ⟨0, rfl, Or.inl ⟨rfl, nofun⟩⟩

end Fields

section Trailer

/-- The checksum takes the bytes bit by bit. -/
theorem gzCrcStep_eq (crc : BitVec 32) : gzCrcStep crc = crcBit 0xEDB88320 crc false := by
  rw [gzCrcStep, crcBit]
  congr 1
  have low : crc &&& 1 = (BitVec.ofBool (crc.getLsbD 0)).setWidth 32 :=
    BitVec.and_one_eq_setWidth_ofBool_getLsbD
  rw [low]
  cases crc.getLsbD 0 <;> rfl

theorem crcShift_iterate (crc : BitVec 32) (shifts : Nat) :
    gzCrcStep^[shifts] crc = crcShift 0xEDB88320 shifts crc := by
  induction shifts generalizing crc with
  | zero => rfl
  | succ shifts ih =>
    rw [Function.iterate_succ_apply, ih, gzCrcStep_eq, crcShift]

theorem gzCrc32_eq (bytes : List Byte) : gzCrc32 bytes = crc32 bytes := by
  rw [gzCrc32, crc32]
  congr 1
  generalize (0xFFFFFFFF : BitVec 32) = crc
  induction bytes generalizing crc with
  | nil => rfl
  | cons byte bytes ih =>
    have value : byte.setWidth 32 = BitVec.ofNat 32 byte.toNat := (BitVec.ofNat_toNat 32 byte).symm
    rw [List.foldl_cons, ih, crcShift_iterate, value,
      crcShift_xor _ _ (by decide) (by decide) byte.isLt, bytesBits_cons, crcBits, crcBits,
      crcBits, List.foldl_append]

theorem bytes_append (first second third fourth : Byte) :
    ((first.setWidth 32 : BitVec 32) ||| ((second.setWidth 32 : BitVec 32) <<< 8) |||
      ((third.setWidth 32 : BitVec 32) <<< 16) ||| ((fourth.setWidth 32 : BitVec 32) <<< 24)) =
        (fourth ++ third ++ second ++ first : BitVec 32) := by
  ext index inside
  simp only [BitVec.getElem_or, BitVec.getElem_shiftLeft,
    BitVec.getElem_setWidth]
  grind

/-- Four bytes are a number with the lowest byte first. -/
theorem gzLe32_eq {input : List Byte} {pos : Nat} (inside : pos + 4 ≤ input.length) :
    gzLe32 input pos = some (le32 ((input.drop pos).take 4)) := by
  have first : pos < input.length := by omega
  have second : pos + 1 < input.length := by omega
  have third : pos + 2 < input.length := by omega
  have fourth : pos + 3 < input.length := by omega
  rw [gzLe32, List.getElem?_eq_getElem first, Option.bind_some, List.getElem?_eq_getElem second,
    Option.bind_some, List.getElem?_eq_getElem third, Option.bind_some,
    List.getElem?_eq_getElem fourth, Option.map_some, List.drop_eq_getElem_cons first,
    List.drop_eq_getElem_cons second, List.drop_eq_getElem_cons third,
    List.drop_eq_getElem_cons fourth]
  congr 1
  exact bytes_append _ _ _ _

end Trailer

end Nd100x.Gunzip
