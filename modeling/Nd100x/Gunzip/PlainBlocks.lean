import Nd100x.Gunzip.Blocks

namespace Nd100x.Gunzip

open Nd100x.Library

section Stored

variable {cap : Nat} {s : GzState}

theorem left_getElem? {place : Nat} (inside : place < s.inLen - s.inPos) :
    s.left[place]? = s.input[s.inPos + place]? := by
  rw [GzState.left, List.getElem?_drop, List.getElem?_take, if_pos (by omega)]

/-- Two bytes are a number of sixteen bits. -/
theorem takeNumber_le16 (low high : Byte) (rest : List Byte) :
    takeNumber 16 (bytesBits (low :: high :: rest)) =
      some (low.toNat ||| high.toNat <<< 8, bytesBits rest) := by
  obtain ⟨small, bits⟩ := load_byte high rest low.isLt
  rw [bytesBits_cons, ← bits, takeNumber_natBits, Nat.mod_eq_of_lt small]

theorem gzLe16_eq {low high : Byte} {place : Nat} (first : s.input[s.inPos + place]? = some low)
    (second : s.input[s.inPos + place + 1]? = some high) :
    gzLe16 { s with inPos := s.inPos + place } = some (low.toNat ||| high.toNat <<< 8) := by
  rw [gzLe16, first, Option.bind_some, second, Option.map_some]

theorem takeBytes_bytesBits {count : Nat} {bytes : List Byte} (inside : count ≤ bytes.length) :
    takeBytes count (bytesBits bytes) =
      some (bytes.take count, bytesBits (bytes.drop count)) := by
  induction count generalizing bytes with
  | zero => rfl
  | succ count ih =>
    cases bytes with
    | nil => cases inside
    | cons byte bytes =>
      rw [takeBytes, bytesBits_cons, takeNumber_natBits, Option.bind_some,
        ih (Nat.le_of_succ_le_succ inside), Option.map_some,
        Nat.mod_eq_of_lt byte.isLt, BitVec.ofNat_toNat, BitVec.setWidth_eq]
      rfl

theorem takeBytes_cut {count : Nat} {bytes : List Byte} (cut : bytes.length < count) :
    takeBytes count (bytesBits bytes) = none := by
  induction count generalizing bytes with
  | zero => cases cut
  | succ count ih =>
    cases bytes with
    | nil => rfl
    | cons byte bytes =>
      rw [takeBytes, bytesBits_cons, takeNumber_natBits, Option.bind_some,
        ih (Nat.lt_of_succ_lt_succ cut), Option.map_none]

theorem gzMemcpy_eq {len : Nat} (inside : s.inLen ≤ s.input.length)
    (enough : len ≤ s.inLen - s.inPos) (room_ : s.out.length + len ≤ s.outCap) :
    gzMemcpy len s =
      some { s with inPos := s.inPos + len, out := s.out ++ s.left.take len } := by
  induction len generalizing s with
  | zero =>
    rw [List.take_zero, List.append_nil]
    rfl
  | succ len ih =>
    obtain ⟨byte, here, first⟩ := s.left_cons inside (by omega)
    have next := ih
      (s := { s with inPos := s.inPos + 1, out := s.out ++ [byte] }) inside
      (by dsimp only; omega)
      (by
        rw [List.length_append, List.length_singleton]
        dsimp only
        omega)
    rw [gzMemcpy, here, Option.bind_some, put_eq _ (by dsimp only; omega), Option.bind_some, next,
      first, List.take_succ_cons, List.append_assoc, Nat.add_assoc, Nat.add_comm 1]
    rfl

/-- The bits that are loaded are dropped. -/
theorem ahead_drop (ready : s.Ready cap) :
    s.ahead.drop (s.ahead.length % 8) = bytesBits s.left := by
  have loaded : s.ahead.length % 8 = s.bitCnt := by
    rw [s.ahead_length, Nat.add_mul_mod_self_left, Nat.mod_eq_of_lt ready.loaded]
  rw [loaded, GzState.ahead, List.drop_left' (natBits_length _ _)]

theorem takeNumber_short {width : Nat} {bytes : List Byte} (short : 8 * bytes.length < width) :
    takeNumber width (bytesBits bytes) = none := by
  rw [takeNumber, if_neg]
  rw [bytesBits_length]
  exact Nat.not_le.mpr short

/-- A stored block is copied when its length is right. -/
theorem gzStored_settles (ready : s.Ready cap) :
    Settles cap (gzStored s) (storedBlock s.flow) := by
  have length := GzState.left_length ready.inside
  have capacity := ready.outCap
  have fits := ready.fits
  rw [gzStored, storedBlock, GzState.flow, ahead_drop ready]
  dsimp only
  by_cases short : s.inLen - s.inPos < 4
  · rw [if_pos short]
    refine Settles.stop _ ?_
    rcases bytes : s.left with _ | ⟨low, _ | ⟨high, rest⟩⟩
    · rfl
    · rfl
    · rw [bytes, List.length_cons, List.length_cons] at length
      rw [takeNumber_le16, Option.bind_some, takeNumber_short (by omega), Option.bind_none]
  rw [if_neg short]
  have place (index : Nat) (inside : index < s.inLen - s.inPos) := left_getElem? (s := s) inside
  rcases bytes : s.left with _ | ⟨first, _ | ⟨second, _ | ⟨third, _ | ⟨fourth, rest⟩⟩⟩⟩
  · rw [bytes, List.length_nil] at length
    omega
  · rw [bytes, List.length_singleton] at length
    omega
  · rw [bytes, List.length_cons, List.length_singleton] at length
    omega
  · rw [bytes, List.length_cons, List.length_cons, List.length_singleton] at length
    omega
  rw [bytes] at place
  rw [bytes, List.length_cons, List.length_cons, List.length_cons, List.length_cons] at length
  have len_ := @gzLe16_eq _ _ _ 0 (place 0 (by omega)).symm (place 1 (by omega)).symm
  have nlen_ := @gzLe16_eq _ _ _ 2 (place 2 (by omega)).symm (place 3 (by omega)).symm
  obtain ⟨below, -⟩ := load_byte second [] first.isLt
  obtain ⟨below_, -⟩ := load_byte fourth [] third.isLt
  rw [takeNumber_le16, Option.bind_some, takeNumber_le16, Option.bind_some]
  generalize first.toNat ||| second.toNat <<< 8 = len at len_ below ⊢
  generalize third.toNat ||| fourth.toNat <<< 8 = nlen at nlen_ below_ ⊢
  change Settles cap ((gzLe16 { s with inPos := s.inPos + 0 }).bind _) _
  rw [len_, Option.bind_some]
  change Settles cap ((gzLe16 { s with inPos := s.inPos + 2 }).bind _) _
  rw [nlen_, Option.bind_some]
  dsimp only
  have behind : ({ s with inPos := s.inPos + 4 } : GzState).left = rest := by
    have dropped : ({ s with inPos := s.inPos + 4 } : GzState).left = s.left.drop 4 := by
      rw [GzState.left, GzState.left, List.drop_drop]
    rw [dropped, bytes]
    rfl
  by_cases complement : len + nlen = 0xFFFF
  · rw [if_pos complement]
    rcases Nat.lt_or_ge (s.inLen - (s.inPos + 4)) len with cut | enough
    · rw [if_pos (by omega), takeBytes_cut (by omega)]
      exact Settles.stop _ rfl
    · rw [takeBytes_bytesBits (by omega), Option.map_some]
      by_cases long : s.outCap - s.out.length < len
      · rw [if_pos (by omega)]
        refine Or.inr ⟨_, rfl, ?_⟩
        intro flow same
        rw [Option.some.injEq] at same
        rw [← same, List.length_append, List.length_take]
        omega
      · rw [if_neg (by omega), gzMemcpy_eq (s := { s with
          inPos := s.inPos + 4
          bitBuf := 0
          bitCnt := 0 }) ready.inside enough (by dsimp only; omega)]
        refine Or.inl ⟨_, rfl, ⟨Nat.zero_lt_succ 7, Nat.one_pos, ?_, ready.inside, ?_, capacity⟩,
          ?_⟩
        · dsimp only
          omega
        · change (s.out ++ _).length ≤ cap
          rw [List.length_append, List.length_take]
          omega
        · have later : rest.drop len = (s.input.take s.inLen).drop (s.inPos + 4 + len) := by
            rw [← behind, GzState.left, List.drop_drop]
          rw [later, ← behind]
          rfl
  · rw [if_neg complement, if_pos (by omega)]
    exact Settles.stop _ rfl

end Stored

section Fixed

/-- An array gives the lengths of an alphabet from its start on. -/
theorem describes_array {alphabet : Alphabet} {size : Nat} {length : Table size}
    (inside : alphabet.count ≤ size)
    (same : ∀ symbol : Fin size, symbol.val < alphabet.count →
      length symbol = alphabet.lengths symbol.val)
    (short : ∀ symbol < alphabet.count, alphabet.lengths symbol ≤ gzMaxBits) :
    Describes alphabet length 0 where
  entry := by
    intro symbol less
    rw [@Table.get?_eq _ _ _ symbol (by rw [Nat.cast_zero, Int.zero_add]) (less.trans_le inside), same _ less]
  short := short

theorem fixedLiterals_describes : Describes fixedLiterals gzFixedLengths 0 := by
  refine describes_array (Nat.le_refl _) (fun _ _ => rfl) ?_
  intro symbol _
  dsimp only [fixedLiterals]
  split_ifs <;> decide

theorem fixedDistances_describes : Describes fixedDistances
    (fun sym : Fin gzMaxLitCodes => if sym.val < gzMaxDist then 5 else gzFixedLengths sym) 0 :=
  describes_array (by decide) (fun _ less => if_pos less) fun _ _ =>
    (by decide : 5 ≤ gzMaxBits)

theorem fixedLiterals_allowed : fixedLiterals.Allowed := by
  decide +kernel

theorem fixedDistances_allowed : fixedDistances.Allowed := by
  decide

/-- The table of an allowed alphabet is right. -/
theorem gzConstruct_allowed {alphabet : Alphabet} {size start : Nat} {length : Table size}
    (described : Describes alphabet length start) (small : alphabet.count ≤ gzMaxLitCodes)
    (allowed : alphabet.Allowed) (h : GzHuff) :
    ∃ table err, gzConstruct h length start alphabet.count = some (table, err) ∧
      Represents table alphabet := by
  obtain ⟨table, err, result, -, ⟨-, refused⟩ | ⟨-, represents, -⟩⟩ :=
    gzConstruct_table described small h
  · exact absurd allowed refused
  · exact ⟨table, err, result, represents⟩

theorem gzFixed_settles {cap fuel steps : Nat} {s : GzState} (arrays : GzArrays)
    (ready : s.Ready cap) (enough : s.ahead.length < fuel) (enough_ : s.ahead.length < steps) :
    Settles cap (gzFixed arrays fuel s) (readBlock fixedLiterals fixedDistances steps s.flow) := by
  obtain ⟨lencode, err, first, literals⟩ := gzConstruct_allowed fixedLiterals_describes
    (Nat.le_refl _) fixedLiterals_allowed arrays.lencode
  obtain ⟨distcode, err_, second, distances⟩ := gzConstruct_allowed fixedDistances_describes
    (by decide) fixedDistances_allowed arrays.distcode
  rw [gzFixed]
  change Settles cap ((gzConstruct _ _ _ fixedLiterals.count).bind fun lencode =>
    (gzConstruct _ _ _ fixedDistances.count).bind _) _
  rw [first, Option.bind_some, second, Option.bind_some]
  exact gzCodes_settles literals distances ready enough enough_

end Fixed

end Nd100x.Gunzip
