import Nd100x.Scsi.TapeMotion

namespace Nd100x.Scsi

open Nd100x.Library

namespace TapeImage

/-- A byte of the tape is in the cache or on the image. -/
def content (ti : TapeImage) (position : Nat) : Byte :=
  if ti.cacheBlock = some (position / tapeImageBlockBytes) then
    ti.cache (position % tapeImageBlockBytes)
  else ti.owner.image position

/-- The image is addressed by block numbers of thirty-two bits, and a clean cache agrees with it. A
read that does not fail is served from the image. -/
structure Coherent (ti : TapeImage) : Prop where
  faithful : ∀ call, ti.owner.serves call = none
  addressed : ti.size ≤ 2 ^ 42
  cached : ∀ block, ti.cacheBlock = some block → block < 2 ^ 32
  clean : ti.cacheDirty = false → ti.content = ti.owner.image

/-- The callbacks never fail. -/
structure Working (ti : TapeImage) : Prop where
  reads : ∀ call, ti.owner.readFails call = false
  writes : ∀ call, ti.owner.writeFails call = false

end TapeImage

/-- Only the cache and the image may have changed, and the tape holds the same bytes. -/
structure Kept (ti next : TapeImage) : Prop extends SameTape ti next where
  coherent : next.Coherent
  content : next.content = ti.content
  readFails : next.owner.readFails = ti.owner.readFails
  writeFails : next.owner.writeFails = ti.owner.writeFails

/-- The bytes were written, or some of them before a failure. -/
structure Written (ti next : TapeImage) (start : Nat) (bytes : List Byte) (ok : Bool) : Prop
    extends SameTape ti next where
  coherent : next.Coherent
  content : ok = true → next.content = putRange ti.content start bytes
  outside : ∀ place, place < start ∨ start + bytes.length ≤ place →
    next.content place = ti.content place
  readFails : next.owner.readFails = ti.owner.readFails
  writeFails : next.owner.writeFails = ti.owner.writeFails

section Cache

variable {ti next last : TapeImage} {pos length : Nat}

theorem TapeImage.Coherent.moveTo (coherent : ti.Coherent) (place : Nat) :
    (ti.moveTo place).Coherent :=
  ⟨coherent.faithful, coherent.addressed, coherent.cached, coherent.clean⟩

theorem Kept.refl (coherent : ti.Coherent) : Kept ti ti :=
  ⟨SameTape.refl ti, coherent, rfl, rfl, rfl⟩

theorem Kept.trans (first : Kept ti next) (second : Kept next last) : Kept ti last :=
  ⟨first.toSameTape.trans second.toSameTape, second.coherent, second.content.trans first.content,
    second.readFails.trans first.readFails, second.writeFails.trans first.writeFails⟩

theorem Kept.working (kept : Kept ti next) (working : ti.Working) : next.Working :=
  ⟨fun call => kept.readFails ▸ working.reads call,
    fun call => kept.writeFails ▸ working.writes call⟩

theorem Written.working {bytes : List Byte} {ok : Bool} (written : Written ti next pos bytes ok)
    (working : ti.Working) : next.Working :=
  ⟨fun call => written.readFails ▸ working.reads call,
    fun call => written.writeFails ▸ working.writes call⟩

/-- A block on the image is replaced by the cached block. -/
theorem storedImage {ti : TapeImage} {block : Nat} (low : block < 2 ^ 32)
    (cached : ti.cacheBlock = some block) :
    putRange ti.owner.image (BlockCallbacks.blockStart block)
      (range ti.cache 0 tapeImageBlockBytes) = ti.content := by
  have start : BlockCallbacks.blockStart block = tapeImageBlockBytes * block := by
    rw [BlockCallbacks.blockStart, Nat.mod_eq_of_lt low]
  have size : tapeImageBlockBytes = 1024 := rfl
  funext position
  rw [start, TapeImage.content, cached]
  by_cases inside : block = position / tapeImageBlockBytes
  · have place : position = tapeImageBlockBytes * block + position % tapeImageBlockBytes := by
      rw [inside, Nat.div_add_mod]
    have low : position % tapeImageBlockBytes < tapeImageBlockBytes := Nat.mod_lt _ (by decide)
    rw [if_pos (congrArg some inside)]
    conv_lhs => rw [place]
    rw [putRange_inside (by rwa [range_length]), range_getElem, Nat.zero_add]
  · rw [if_neg (fun same => inside (Option.some.inj same)), putRange_outside]
    rw [range_length, size]
    rw [size] at inside
    omega

/-- A flush keeps the bytes of the tape, and a successful one leaves them on the image. -/
theorem TapeImage.flush_spec (coherent : ti.Coherent) : Kept ti ti.flush.1 ∧
    (ti.flush.2 = true → ti.flush.1.owner.image = ti.content) ∧ (ti.Working → ti.flush.2 = true) := by
  by_cases pending : ti.cacheDirty = true ∧ ∃ block, ti.cacheBlock = some block
  · obtain ⟨dirty, block, cached⟩ := pending
    have low := coherent.cached block cached
    have same := storedImage low cached
    by_cases fails : ti.owner.writeFails ti.owner.writes = true
    · have flushed : ti.flush = ({ ti with
          owner := { ti.owner with
            writes := ti.owner.writes + 1
            asked := block % 2 ^ 32 :: ti.owner.asked }
          ioError := true }, false) := by
        simp only [TapeImage.flush, dirty, cached, BlockCallbacks.writeFunc, if_pos fails,
          Bool.false_eq_true, if_false]
      rw [flushed]
      refine ⟨⟨⟨rfl, rfl, rfl, rfl⟩,
        ⟨coherent.faithful, coherent.addressed, coherent.cached, coherent.clean⟩, rfl, rfl,
        rfl⟩, fun stored => absurd stored Bool.false_ne_true, fun working => ?_⟩
      exact absurd fails (by rw [working.writes]; exact Bool.false_ne_true)
    · have flushed : ti.flush = ({ ti with
          owner := { ti.owner with
            writes := ti.owner.writes + 1
            asked := block % 2 ^ 32 :: ti.owner.asked
            image := ti.content }
          cacheDirty := false }, true) := by
        simp only [TapeImage.flush, dirty, cached, BlockCallbacks.writeFunc, if_neg fails, if_true,
          same]
      have content : ti.flush.1.content = ti.content := by
        rw [flushed]
        funext place
        simp only [TapeImage.content]
        split_ifs <;> rfl
      rw [flushed] at content ⊢
      exact ⟨⟨⟨rfl, rfl, rfl, rfl⟩,
        ⟨coherent.faithful, coherent.addressed, coherent.cached, fun _ => content⟩, content, rfl,
        rfl⟩, fun _ => rfl, fun _ => rfl⟩
  · have flushed : ti.flush = (ti, true) := by
      rw [TapeImage.flush]
      split
      · next block dirty cached => exact absurd ⟨dirty, block, cached⟩ pending
      · rfl
    rw [flushed]
    refine ⟨Kept.refl coherent, fun _ => ?_, fun _ => rfl⟩
    by_cases dirty : ti.cacheDirty = true
    · have empty : ti.cacheBlock = none := by
        rw [Option.eq_none_iff_forall_ne_some]
        exact fun block cached => pending ⟨dirty, block, cached⟩
      funext place
      rw [TapeImage.content, empty, if_neg (Option.some_ne_none _).symm]
    · exact (coherent.clean (Bool.eq_false_iff.mpr dirty)).symm

/-- The load of a block keeps the bytes of the tape. -/
theorem TapeImage.load_spec (coherent : ti.Coherent) (inside : pos < 2 ^ 42) :
    Kept ti (ti.load pos).1 ∧
      ((ti.load pos).2 = true → (ti.load pos).1.cacheBlock = some (pos / tapeImageBlockBytes)) ∧
      (ti.Working → (ti.load pos).2 = true) := by
  obtain ⟨kept, stored, works⟩ := TapeImage.flush_spec coherent
  rw [TapeImage.load]
  split_ifs with here flushed
  · exact ⟨Kept.refl coherent, fun _ => here, fun _ => rfl⟩
  · have image := stored flushed
    have low : pos / tapeImageBlockBytes < 2 ^ 32 := by
      have size : tapeImageBlockBytes = 1024 := rfl
      rw [size]
      omega
    by_cases fails : ti.flush.1.owner.readFails ti.flush.1.owner.reads = true
    · simp only [BlockCallbacks.readFunc, if_pos fails]
      refine ⟨⟨⟨kept.size, kept.pos, kept.readOnly, kept.diskInfo⟩,
        ⟨kept.coherent.faithful, kept.coherent.addressed, ?_, ?_⟩, ?_,
        kept.readFails, kept.writeFails⟩, ?_, ?_⟩
      · exact fun block cached => absurd cached (Option.some_ne_none block).symm
      · exact fun _ => rfl
      · exact image
      · exact fun loaded => absurd loaded Bool.false_ne_true
      · intro working
        rw [(kept.working working).reads] at fails
        exact absurd fails Bool.false_ne_true
    · simp only [BlockCallbacks.readFunc, if_neg fails, kept.coherent.faithful, Option.getD_none]
      have content : TapeImage.content { ti.flush.1 with
          owner := { ti.flush.1.owner with
            reads := ti.flush.1.owner.reads + 1
            asked := pos / tapeImageBlockBytes % 2 ^ 32 :: ti.flush.1.owner.asked }
          cache := fun offset => ti.flush.1.owner.image
            (BlockCallbacks.blockStart (pos / tapeImageBlockBytes) + offset)
          cacheBlock := some (pos / tapeImageBlockBytes) } = ti.flush.1.owner.image := by
        funext place
        simp only [TapeImage.content, Option.some.injEq, BlockCallbacks.blockStart,
          Nat.mod_eq_of_lt low]
        split_ifs with inBlock
        · rw [inBlock, Nat.div_add_mod]
        · rfl
      refine ⟨⟨⟨kept.size, kept.pos, kept.readOnly, kept.diskInfo⟩,
        ⟨kept.coherent.faithful, kept.coherent.addressed, ?_, ?_⟩, ?_,
        kept.readFails, kept.writeFails⟩, fun _ => trivial, fun _ => trivial⟩
      · exact fun block cached => Option.some.inj cached ▸ low
      · exact fun _ => content
      · exact content.trans image
  · exact ⟨kept, False.elim, fun working => absurd (works working) flushed⟩

theorem TapeImage.chunk_le (pos length : Nat) : TapeImage.chunk pos length ≤ length := Nat.min_le_right _ _

theorem TapeImage.chunk_room (pos length : Nat) :
    pos % tapeImageBlockBytes + TapeImage.chunk pos length ≤ tapeImageBlockBytes := by
  have inside : pos % tapeImageBlockBytes < tapeImageBlockBytes := Nat.mod_lt _ (by decide)
  have bound : TapeImage.chunk pos length ≤ tapeImageBlockBytes - pos % tapeImageBlockBytes :=
    Nat.min_le_left _ _
  omega

/-- The places of one block lie in its cache. -/
theorem TapeImage.chunk_place {pos length k : Nat} (inside : k < TapeImage.chunk pos length) :
    (pos + k) / tapeImageBlockBytes = pos / tapeImageBlockBytes ∧
      (pos + k) % tapeImageBlockBytes = pos % tapeImageBlockBytes + k := by
  have room := TapeImage.chunk_room pos length
  have size : tapeImageBlockBytes = 1024 := rfl
  rw [size] at room ⊢
  omega

theorem range_cache (cached : ti.cacheBlock = some (pos / tapeImageBlockBytes)) :
    range ti.cache (pos % tapeImageBlockBytes) (TapeImage.chunk pos length) =
      range ti.content pos (TapeImage.chunk pos length) := by
  apply List.map_congr_left
  intro k member
  obtain ⟨block, offset⟩ := TapeImage.chunk_place (List.mem_range.mp member)
  rw [TapeImage.content, block, offset, if_pos cached]

/-- The bytes that are read are those of the tape. -/
theorem TapeImage.readBytes_spec (coherent : ti.Coherent) (inside : pos + length ≤ ti.size) :
    Kept ti (ti.readBytes pos length).1 ∧
      ((ti.readBytes pos length).2.2 = true →
        (ti.readBytes pos length).2.1 = range ti.content pos length) ∧
      (ti.Working → (ti.readBytes pos length).2.2 = true) := by
  induction ti, pos, length using TapeImage.readBytes.induct with
  | case1 ti pos =>
    rw [TapeImage.readBytes, if_pos rfl]
    exact ⟨Kept.refl coherent, fun _ => rfl, fun _ => rfl⟩
  | case2 ti pos length more loaded ih =>
    have bound := coherent.addressed
    obtain ⟨kept, cached, -⟩ := @TapeImage.load_spec _ pos coherent (by omega)
    have shorter := TapeImage.chunk_le pos length
    have size := kept.size
    obtain ⟨rest, bytes, works⟩ := ih kept.coherent (by omega)
    rw [TapeImage.readBytes, if_neg more, if_pos loaded]
    refine ⟨kept.trans rest, fun ok => ?_, fun working => works (kept.working working)⟩
    have whole : TapeImage.chunk pos length + (length - TapeImage.chunk pos length) = length := by omega
    dsimp only
    rw [bytes ok, range_cache (cached loaded), kept.content, ← range_append, whole]
  | case3 ti pos length more loaded =>
    have bound := coherent.addressed
    obtain ⟨kept, -, works⟩ := @TapeImage.load_spec _ pos coherent (by omega)
    rw [TapeImage.readBytes, if_neg more, if_neg loaded]
    exact ⟨kept, fun ok => absurd ok Bool.false_ne_true,
      fun working => absurd (works working) loaded⟩

/-- Bytes that stay in the cached block are stored there. -/
theorem TapeImage.store_content {bytes : List Byte}
    (cached : ti.cacheBlock = some (pos / tapeImageBlockBytes))
    (short : bytes.length ≤ TapeImage.chunk pos length) :
    (ti.store pos bytes).content = putRange ti.content pos bytes := by
  have room := TapeImage.chunk_room pos length
  have size : tapeImageBlockBytes = 1024 := rfl
  rw [size] at room cached
  funext place
  simp only [TapeImage.content, TapeImage.store, cached, Option.some.injEq, size]
  split_ifs with same
  · have before : place % 1024 < pos % 1024 ↔ place < pos := by omega
    have offset : place % 1024 - pos % 1024 = place - pos := by omega
    have here : ti.content place = ti.cache (place % 1024) := by
      rw [TapeImage.content, cached, size, if_pos (congrArg some same)]
    simp only [putRange, before, offset, here]
  · have apart : place < pos ∨ pos + bytes.length ≤ place := by omega
    rw [putRange_outside apart, TapeImage.content, cached, size,
      if_neg (fun equal => same (Option.some.inj equal))]

/-- The bytes are written in order. -/
theorem TapeImage.writeBytes_spec (coherent : ti.Coherent) {bytes : List Byte}
    (inside : pos + bytes.length ≤ ti.size) :
    Written ti (ti.writeBytes pos bytes).1 pos bytes (ti.writeBytes pos bytes).2 ∧
      (ti.Working → (ti.writeBytes pos bytes).2 = true) := by
  induction ti, pos, bytes using TapeImage.writeBytes.induct with
  | case1 ti pos bytes empty =>
    rw [TapeImage.writeBytes, if_pos empty]
    refine ⟨⟨SameTape.refl ti, coherent, fun _ => ?_, fun _ _ => rfl, rfl, rfl⟩, fun _ => rfl⟩
    rw [List.eq_nil_of_length_eq_zero empty, putRange_nil]
  | case2 ti pos bytes more loaded ih =>
    have bound := coherent.addressed
    obtain ⟨kept, cached, -⟩ := @TapeImage.load_spec _ pos coherent (by omega)
    have size := kept.size
    have shorter := TapeImage.chunk_le pos bytes.length
    have first : (bytes.take (TapeImage.chunk pos bytes.length)).length =
        TapeImage.chunk pos bytes.length := List.length_take_of_le shorter
    have whole : pos + TapeImage.chunk pos bytes.length +
        (bytes.drop (TapeImage.chunk pos bytes.length)).length = pos + bytes.length := by
      rw [List.length_drop]
      omega
    have stored := TapeImage.store_content (cached loaded) (Nat.le_of_eq first)
    have storedCoherent : ((ti.load pos).1.store pos
        (bytes.take (TapeImage.chunk pos bytes.length))).Coherent :=
      ⟨kept.coherent.faithful, kept.coherent.addressed, kept.coherent.cached, fun clean => Bool.noConfusion clean⟩
    obtain ⟨rest, works⟩ := ih storedCoherent (by
      rw [whole]
      exact Nat.le_trans inside (Nat.le_of_eq size.symm))
    rw [TapeImage.writeBytes, if_neg more, if_pos loaded]
    refine ⟨⟨kept.toSameTape.trans ⟨rest.size, rest.pos, rest.readOnly, rest.diskInfo⟩, rest.coherent,
      fun ok => ?_, fun place outside => ?_, rest.readFails.trans kept.readFails,
      rest.writeFails.trans kept.writeFails⟩,
      fun working => works ⟨(kept.working working).reads, (kept.working working).writes⟩⟩
    · rw [rest.content ok, stored, kept.content]
      conv_rhs => rw [← List.take_append_drop (TapeImage.chunk pos bytes.length) bytes]
      rw [putRange_append, first]
    · have later := rest.outside place (by omega)
      rw [later, stored, putRange_outside (by omega), kept.content]
  | case3 ti pos bytes more loaded =>
    have bound := coherent.addressed
    obtain ⟨kept, -, works⟩ := @TapeImage.load_spec _ pos coherent (by omega)
    rw [TapeImage.writeBytes, if_neg more, if_neg loaded]
    exact ⟨⟨kept.toSameTape, kept.coherent, fun ok => absurd ok Bool.false_ne_true,
      fun place _ => congrFun kept.content place, kept.readFails, kept.writeFails⟩,
      fun working => absurd (works working) loaded⟩

end Cache

end Nd100x.Scsi
