import Nd100x.Scsi.DiskHonesty
import Nd100x.Scsi.Disk

namespace Nd100x.Scsi

/-- These commands reach the mode pages. -/
structure PageRequest extends Request where
  page : cdb 0 = scModeSelect6 ∨ cdb 0 = scModeSense6 ∨ cdb 0 = scFormatUnit

/-- The page commands are run to their end or cut off by a bus reset. -/
inductive PageEvent where
  | command (request : PageRequest)
  | cut (request : PageRequest) (count : Nat)
  | busReset

def PageEvent.busEvent : PageEvent → BusEvent
  | .command request => .command request.toRequest
  | .cut request count => .cut request.toRequest count
  | .busReset => .busReset

def PageEvent.resets : PageEvent → Bool
  | .command _ => false
  | _ => true

/-- The changed bits come from the value and the others from what was there. -/
def maskMerge (kept value mask : Byte) : Byte := (kept &&& ~~~mask) ||| (value &&& mask)

theorem maskMerge_again (kept value other mask : Byte) :
    maskMerge (maskMerge kept value mask) other mask = maskMerge kept other mask := by
  apply BitVec.eq_of_getLsbD_eq
  intro place inside
  simp only [maskMerge, BitVec.getLsbD_or, BitVec.getLsbD_and, BitVec.getLsbD_not]
  cases mask.getLsbD place <;> simp [inside]

theorem maskMerge_self (value mask : Byte) : maskMerge value value mask = value := by
  apply BitVec.eq_of_getLsbD_eq
  intro place inside
  simp only [maskMerge, BitVec.getLsbD_or, BitVec.getLsbD_and, BitVec.getLsbD_not]
  cases mask.getLsbD place <;> simp [inside]

section Sent

/-- The pages of a parameter list start here. -/
def pageStarts (length : Nat) (list : Nat → Byte) : Nat → Nat → List Nat
  | 0, _ => []
  | fuel + 1, start =>
    if start + 2 ≤ length then
      start :: pageStarts length list fuel (start + 2 + (list (start + 1)).toNat)
    else []

/-- The page that starts here is the one of the index and has a field at the position, within its
own length, the length of the page and the list. -/
def Covers (length : Nat) (list : Nat → Byte) (index pos start : Nat) : Prop :=
  (list start &&& 0x3F).toNat = index + 1 ∧ index < scsiHddModePages ∧ 2 ≤ pos ∧
    pos < 2 + (list (start + 1)).toNat ∧ pos < 2 + ScsiHdd.modePageLength index ∧
    start + pos < length

instance (length : Nat) (list : Nat → Byte) (index pos start : Nat) :
    Decidable (Covers length list index pos start) :=
  inferInstanceAs (Decidable (_ ∧ _))

/-- The last value that was sent for a field counts. -/
def sentValue (length : Nat) (list : Nat → Byte) (index pos : Nat) : Option Byte :=
  if length < 4 then none
  else
    ((pageStarts length list length (4 + (list 3).toNat)).filter
      (Covers length list index pos)).getLast?.map fun start => list (start + pos)

end Sent

/-- The host wants these values. -/
structure Wanted where
  current : Nat → Nat → Byte
  saved : Nat → Nat → Byte

namespace Wanted

def init (disk : ScsiDiskInfo) : Wanted where
  current := fun index => ScsiHdd.defaultModePage disk (index + 1)
  saved := fun index => ScsiHdd.defaultModePage disk (index + 1)

/-- A parameter list is taken when it has come in, and the pages are saved by a format. -/
def take (wanted : Wanted) (request : Request) (complete : Bool) : Wanted :=
  if request.lun ≠ 0 then wanted
  else if request.cdb 0 = scModeSelect6 ∧ complete then
    { wanted with
      current := fun index pos =>
        (sentValue (request.cdb 4).toNat request.data index pos).getD (wanted.current index pos) }
  else if request.cdb 0 = scFormatUnit then { wanted with saved := wanted.current }
  else wanted

def reset (wanted : Wanted) : Wanted := { wanted with current := wanted.saved }

def step (wanted : Wanted) : PageEvent → Wanted
  | .command request => wanted.take request.toRequest true
  | .cut request count =>
    (wanted.take request.toRequest (decide ((request.cdb 4).toNat ≤ count))).reset
  | .busReset => wanted.reset

end Wanted

/-- A reset of the drive is told by its sense. -/
def UnitAttention (port : TargetPort) : Prop :=
  port.senseBuffer 2 = skUnitAttention ∧ port.senseBuffer 12 = 0x29

/-- The pages hold the default values with the wanted values at the changeable bits. -/
structure PagesAre (disk : ScsiDiskInfo) (wanted : Wanted) (hdd : ScsiHdd) : Prop where
  current : ∀ index pos, hdd.modeCurrent index pos =
    maskMerge (ScsiHdd.defaultModePage disk (index + 1) pos) (wanted.current index pos)
      (ScsiHdd.changeableModePage (index + 1) pos)
  saved : ∀ index pos, hdd.modeSaved index pos =
    maskMerge (ScsiHdd.defaultModePage disk (index + 1) pos) (wanted.saved index pos)
      (ScsiHdd.changeableModePage (index + 1) pos)

/-- After the events the pages are the wanted ones, and after a bus reset the current pages are the
saved ones and the drive has a unit attention. -/
def PagesTold (owner : DiskOwner) (diskType : ScsiDiskType) (events : List PageEvent) : Prop :=
  let hdd := Hdd.session (Hdd.init owner diskType) (events.map PageEvent.busEvent)
  PagesAre (scsiDiskSetType diskType) (events.foldl Wanted.step (.init (scsiDiskSetType diskType)))
      hdd.impl ∧
    ∀ last ∈ events.getLast?, last.resets = true →
      hdd.impl.modeCurrent = hdd.impl.modeSaved ∧ UnitAttention hdd.port

section Parse

variable {hdd : ScsiHdd}

theorem modePageIndex_covers {length : Nat} {list : Nat → Byte} {index pos start : Nat}
    (covers : Covers length list index pos start) :
    ScsiHdd.modePageIndex (list start &&& 0x3F).toNat = some index := by
  obtain ⟨page, inside, -⟩ := covers
  rw [page, ScsiHdd.modePageIndex, if_pos ⟨Nat.succ_pos _, inside⟩, Nat.add_sub_cancel]

/-- One page of the list changes the fields that it covers. -/
theorem applyModePage_current (hdd : ScsiHdd) (start index pos : Nat) :
    ((ScsiHdd.modePageIndex (hdd.modeSelectData start &&& 0x3F).toNat).elim hdd
        (hdd.applyModePage start)).modeCurrent index pos =
      if Covers hdd.modeSelectLength hdd.modeSelectData index pos start then
        maskMerge (hdd.modeCurrent index pos) (hdd.modeSelectData (start + pos))
          (ScsiHdd.changeableModePage (index + 1) pos)
      else hdd.modeCurrent index pos := by
  by_cases covers : Covers hdd.modeSelectLength hdd.modeSelectData index pos start
  · rw [if_pos covers, modePageIndex_covers covers, Option.elim_some, ScsiHdd.applyModePage]
    dsimp only
    rw [Function.update_self, if_pos]
    · rfl
    · exact ⟨covers.2.2.1, lt_min covers.2.2.2.1 covers.2.2.2.2.1, covers.2.2.2.2.2⟩
  · rw [if_neg covers]
    rcases found : ScsiHdd.modePageIndex (hdd.modeSelectData start &&& 0x3F).toNat with _ | page
    · rfl
    · rw [Option.elim_some, ScsiHdd.applyModePage]
      dsimp only
      by_cases same : index = page
      · subst same
        rw [Function.update_self, if_neg]
        rintro ⟨field, ends, inside⟩
        rw [lt_min_iff] at ends
        rw [ScsiHdd.modePageIndex] at found
        split_ifs at found with known
        obtain rfl := Option.some.inj found
        exact covers ⟨(Nat.sub_add_cancel known.1).symm,
          Nat.lt_of_lt_of_le (Nat.sub_lt known.1 Nat.one_pos) known.2, field, ends.1, ends.2,
          inside⟩
      · rw [Function.update_of_ne same]

/-- A page changes the current values only. -/
theorem applyModePage_kept (hdd : ScsiHdd) (start : Nat) :
    ∃ current, (ScsiHdd.modePageIndex (hdd.modeSelectData start &&& 0x3F).toNat).elim hdd
      (hdd.applyModePage start) = { hdd with modeCurrent := current } := by
  cases ScsiHdd.modePageIndex (hdd.modeSelectData start &&& 0x3F).toNat with
  | none => exact ⟨hdd.modeCurrent, rfl⟩
  | some page => exact ⟨_, rfl⟩

theorem applyModePages_kept (hdd : ScsiHdd) (fuel start : Nat) :
    ∃ current, ScsiHdd.applyModePages fuel hdd start = { hdd with modeCurrent := current } := by
  induction fuel generalizing hdd start with
  | zero => exact ⟨hdd.modeCurrent, rfl⟩
  | succ fuel ih =>
    rw [ScsiHdd.applyModePages]
    split_ifs
    · obtain ⟨current, taken⟩ := applyModePage_kept hdd start
      dsimp only
      rw [taken]
      exact ih { hdd with modeCurrent := current } _
    · exact ⟨hdd.modeCurrent, rfl⟩

theorem applyModeSelect_kept (hdd : ScsiHdd) :
    ∃ current, hdd.applyModeSelect = { hdd with modeCurrent := current } := by
  rw [ScsiHdd.applyModeSelect]
  split_ifs
  · exact ⟨hdd.modeCurrent, rfl⟩
  · exact applyModePages_kept hdd _ _

/-- The last page that covers a field gives its changeable bits. -/
theorem applyModePages_current (hdd : ScsiHdd) (fuel start index pos : Nat) :
    (ScsiHdd.applyModePages fuel hdd start).modeSaved = hdd.modeSaved ∧
      (ScsiHdd.applyModePages fuel hdd start).modeCurrent index pos =
        (((pageStarts hdd.modeSelectLength hdd.modeSelectData fuel start).filter
          (Covers hdd.modeSelectLength hdd.modeSelectData index pos)).getLast?.map fun last =>
            hdd.modeSelectData (last + pos)).elim (hdd.modeCurrent index pos) fun value =>
              maskMerge (hdd.modeCurrent index pos) value
                (ScsiHdd.changeableModePage (index + 1) pos) := by
  induction fuel generalizing hdd start with
  | zero => exact ⟨rfl, rfl⟩
  | succ fuel ih =>
    rw [ScsiHdd.applyModePages, pageStarts]
    split_ifs with here
    · have first := applyModePage_current hdd start index pos
      obtain ⟨current, taken⟩ := applyModePage_kept hdd start
      dsimp only
      rw [taken] at first ⊢
      obtain ⟨saved, later⟩ := ih { hdd with modeCurrent := current }
        (start + 2 + (hdd.modeSelectData (start + 1)).toNat)
      refine ⟨saved, later.trans ?_⟩
      dsimp only at first ⊢
      rw [first, List.filter_cons]
      by_cases covers : Covers hdd.modeSelectLength hdd.modeSelectData index pos start
      · rw [if_pos covers, if_pos (decide_eq_true covers), List.getLast?_cons]
        cases List.getLast? _ with
        | none => rfl
        | some last => exact maskMerge_again _ _ _ _
      · rw [if_neg covers, if_neg (by rw [decide_eq_false covers]; exact Bool.false_ne_true)]
    · exact ⟨rfl, rfl⟩

/-- The parameter list is read as far as it came in. -/
theorem pageStarts_congr {length : Nat} {list other : Nat → Byte}
    (same : ∀ pos < length, list pos = other pos) (fuel start : Nat) :
    pageStarts length list fuel start = pageStarts length other fuel start ∧
      ∀ begins ∈ pageStarts length other fuel start, begins + 2 ≤ length := by
  induction fuel generalizing start with
  | zero => exact ⟨rfl, fun begins member => absurd member List.not_mem_nil⟩
  | succ fuel ih =>
    rw [pageStarts, pageStarts]
    split_ifs with here
    · obtain ⟨rest, inside⟩ :=
        ih (start + 2 + (other (start + 1)).toNat)
      rw [same (start + 1) (Nat.lt_of_succ_le here), rest]
      refine ⟨rfl, fun begins member => ?_⟩
      rcases List.mem_cons.mp member with rfl | later
      · exact here
      · exact inside begins later
    · exact ⟨rfl, fun begins member => absurd member List.not_mem_nil⟩

theorem covers_congr {length : Nat} {list other : Nat → Byte}
    (same : ∀ pos < length, list pos = other pos) {start : Nat} (inside : start + 2 ≤ length)
    (index pos : Nat) :
    Covers length list index pos start ↔ Covers length other index pos start := by
  rw [Covers, Covers, same start (by omega), same (start + 1) (by omega)]

theorem sentValue_congr {length : Nat} {list other : Nat → Byte}
    (same : ∀ pos < length, list pos = other pos) (index pos : Nat) :
    sentValue length list index pos = sentValue length other index pos := by
  rw [sentValue, sentValue]
  split_ifs with short
  · rfl
  · rw [same 3 (by omega)]
    obtain ⟨starts, inside⟩ := pageStarts_congr same length (4 + (other 3).toNat)
    have covered : (pageStarts length other length (4 + (other 3).toNat)).filter
          (Covers length list index pos) =
        (pageStarts length other length (4 + (other 3).toNat)).filter
          (Covers length other index pos) :=
      List.filter_congr fun start member =>
        decide_eq_decide.mpr (covers_congr same (inside start member) index pos)
    rw [starts, covered]
    rcases found : List.getLast? _ with _ | last
    · rfl
    · have member := List.mem_of_getLast? found
      have covers := of_decide_eq_true (List.mem_filter.mp member).2
      exact congrArg some (same (last + pos) covers.2.2.2.2.2)

theorem applyModeSelect_current (hdd : ScsiHdd) (index pos : Nat) :
    hdd.applyModeSelect.modeSaved = hdd.modeSaved ∧
      hdd.applyModeSelect.modeCurrent index pos =
        (sentValue hdd.modeSelectLength hdd.modeSelectData index pos).elim
          (hdd.modeCurrent index pos) fun value =>
            maskMerge (hdd.modeCurrent index pos) value
              (ScsiHdd.changeableModePage (index + 1) pos) := by
  rw [ScsiHdd.applyModeSelect, sentValue]
  split_ifs
  · exact ⟨rfl, rfl⟩
  · exact applyModePages_current hdd _ _ index pos

end Parse

section Pages

variable {request : Request} {hdd : HddDevice}

/-- A byte that is not for the pages leaves them and the command. -/
structure PagesKept (before after : HddDevice) : Prop where
  command : Hdd.cmd after = Hdd.cmd before
  current : after.impl.modeCurrent = before.impl.modeCurrent
  saved : after.impl.modeSaved = before.impl.modeSaved

theorem getData_kept (hdd : HddDevice) (pos : Nat) :
    PagesKept hdd (Hdd.getData hdd .main pos).1 := by
  rw [Hdd.getData, if_neg fun special => Sbuf.noConfusion special.1,
    if_neg fun special => Sbuf.noConfusion special.1]
  dsimp only
  rw [if_neg (by decide : Sbuf.main ≠ Sbuf.data)]
  split_ifs <;> exact ⟨rfl, rfl, rfl⟩

theorem putData_kept (format : Hdd.cmd hdd = scFormatUnit) (pos : Nat) (data : Byte) :
    PagesKept hdd (Hdd.putData hdd .data pos data) := by
  rw [Hdd.putData, if_pos rfl, format]
  exact ⟨rfl, rfl, rfl⟩

/-- The bytes of an answer and those of a defect list leave the pages. -/
theorem moveBytes_kept {transfer : Transfer} (data : Nat → Byte)
    (spared : (transfer.input = true ∧ transfer.id = .main) ∨
      (transfer.input = false ∧ transfer.id = .data ∧ Hdd.cmd hdd = scFormatUnit)) (count : Nat) :
    PagesKept hdd (Hdd.moveBytes transfer data hdd count).1 := by
  induction count with
  | zero => exact ⟨rfl, rfl, rfl⟩
  | succ count ih =>
    have step (next : HddDevice)
        (kept : PagesKept (Hdd.moveBytes transfer data hdd count).1 next) : PagesKept hdd next :=
      ⟨kept.command.trans ih.command,
        kept.current.trans ih.current,
        kept.saved.trans ih.saved⟩
    rw [Hdd.moveBytes]
    dsimp only
    rcases spared with ⟨input, id⟩ | ⟨input, id, format⟩
    · rw [input, id]
      exact step _ (getData_kept _ count)
    · rw [input, id]
      exact step _ (putData_kept (ih.command.trans format) count _)

/-- The page commands are decoded by their codes. -/
theorem command_pages (lun : request.lun = 0) :
    (request.cdb 0 = scModeSelect6 →
        Hdd.command (Hdd.ask hdd request) = Hdd.modeSelect (Hdd.ask hdd request)) ∧
      (request.cdb 0 = scModeSense6 →
        Hdd.command (Hdd.ask hdd request) = Hdd.modeSense (Hdd.ask hdd request)) ∧
      (request.cdb 0 = scFormatUnit →
        Hdd.command (Hdd.ask hdd request) = Hdd.formatUnit (Hdd.ask hdd request)) := by
  have code : Hdd.cmd (Hdd.ask hdd request) = request.cdb 0 := rfl
  have zero : Hdd.getLun (Hdd.ask hdd request) = 0 := lun
  refine ⟨fun same => ?_, fun same => ?_, fun same => ?_⟩
  all_goals
    rw [Hdd.command, code, same, if_neg fun refused => refused.2.2.2 zero, if_neg (by decide),
      if_neg (by decide), if_neg (by decide), if_neg (by decide), if_neg (by decide),
      if_neg (by decide), if_neg (by decide), if_neg (by decide), if_neg (by decide),
      if_neg (by decide), if_neg (by decide)]
  · rw [if_pos rfl]
  · rw [if_neg (by decide), if_pos rfl]
  · rw [if_neg (by decide), if_neg (by decide), if_neg (by decide), if_neg (by decide), if_pos rfl]

/-- The bytes of a parameter list are kept until its last one. -/
theorem moveBytes_select (select : Hdd.cmd hdd = scModeSelect6) (data : Nat → Byte) (count : Nat)
    (inside : count < hdd.impl.modeSelectLength) :
    ∃ list, (∀ pos < count, list pos = data pos) ∧
      (Hdd.moveBytes ⟨false, .data, hdd.impl.modeSelectLength⟩ data hdd count).1 =
        hdd.onImpl fun impl => { impl with modeSelectData := list } := by
  induction count with
  | zero => exact ⟨hdd.impl.modeSelectData, fun pos low => absurd low (Nat.not_lt_zero pos), rfl⟩
  | succ count ih =>
    obtain ⟨list, agrees, held⟩ := ih (Nat.lt_of_succ_lt inside)
    refine ⟨Function.update list count (data count), fun pos low => ?_, ?_⟩
    · rcases Nat.lt_succ_iff_lt_or_eq.mp low with earlier | rfl
      · rw [Function.update_of_ne (Nat.ne_of_lt earlier), agrees pos earlier]
      · exact Function.update_self _ _ _
    · rw [Hdd.moveBytes]
      dsimp only
      rw [held, if_neg Bool.false_ne_true]
      have code : Hdd.cmd (hdd.onImpl fun impl => { impl with modeSelectData := list }) =
          scModeSelect6 := select
      rw [Hdd.putData, if_pos rfl, code, Hdd.putParameter, if_neg (by decide),
        if_neg (by decide), if_pos rfl, Device.onImpl_impl]
      dsimp only
      rw [if_pos (Nat.lt_of_succ_lt inside), if_neg (by omega)]
      rfl

theorem moveBytes_selected (select : Hdd.cmd hdd = scModeSelect6)
    (some_ : 0 < hdd.impl.modeSelectLength) (data : Nat → Byte) :
    ∃ list, (∀ pos < hdd.impl.modeSelectLength, list pos = data pos) ∧
      (Hdd.moveBytes ⟨false, .data, hdd.impl.modeSelectLength⟩ data hdd
          hdd.impl.modeSelectLength).1.impl =
        ({ hdd.impl with modeSelectData := list } : ScsiHdd).applyModeSelect := by
  obtain ⟨last, length⟩ := Nat.exists_eq_succ_of_ne_zero (Nat.ne_of_gt some_)
  obtain ⟨list, agrees, held⟩ := moveBytes_select select data last (by omega)
  refine ⟨Function.update list last (data last), fun pos low => ?_, ?_⟩
  · rcases Nat.lt_succ_iff_lt_or_eq.mp (length ▸ low) with earlier | rfl
    · rw [Function.update_of_ne (Nat.ne_of_lt earlier), agrees pos earlier]
    · exact Function.update_self _ _ _
  · have code : Hdd.cmd (hdd.onImpl fun impl => { impl with modeSelectData := list }) =
        scModeSelect6 := select
    have ends : last = hdd.impl.modeSelectLength - 1 := by omega
    nth_rewrite 2 [length]
    rw [Hdd.moveBytes]
    dsimp only
    rw [held, if_neg Bool.false_ne_true, Hdd.putData, if_pos rfl, code, Hdd.putParameter,
      if_neg (by decide), if_neg (by decide), if_pos rfl, Device.onImpl_impl]
    dsimp only
    rw [if_pos (by omega), if_pos ends]
    rfl

theorem PagesAre.same {disk : ScsiDiskInfo} {wanted : Wanted} {before after : ScsiHdd}
    (are : PagesAre disk wanted before) (current : after.modeCurrent = before.modeCurrent)
    (saved : after.modeSaved = before.modeSaved) : PagesAre disk wanted after where
  current := by
    rw [current]
    exact are.current
  saved := by
    rw [saved]
    exact are.saved

/-- A parameter list that has come in changes the wanted fields. -/
theorem modeSelect_pages {disk : ScsiDiskInfo} {wanted : Wanted}
    (are : PagesAre disk wanted hdd.impl) (lun : request.lun = 0)
    (select : request.cdb 0 = scModeSelect6) :
    PagesAre disk (wanted.take request true) (Hdd.exchange hdd request id).1.impl := by
  have taken : wanted.take request true = { wanted with
      current := fun index pos => (sentValue (request.cdb 4).toNat request.data index pos).getD
        (wanted.current index pos) } := by
    rw [Wanted.take, if_neg (not_not.mpr lun), if_pos ⟨select, rfl⟩]
  rw [taken, Hdd.exchange, (@command_pages request hdd lun).1 select]
  by_cases empty : (request.cdb 4).toNat = 0
  · -- An empty list has no data phase and changes nothing.
    have answered : Hdd.modeSelect (Hdd.ask hdd request) =
        Hdd.status ((Hdd.ask hdd request).onImpl fun impl =>
          { impl with modeSelectLength := (request.cdb 4).toNat }) ssGood := by
      rw [Hdd.modeSelect, if_pos]
      · rfl
      · exact empty
    rw [answered, empty]
    exact ⟨are.current, are.saved⟩
  · have decoded : Hdd.modeSelect (Hdd.ask hdd request) =
        Hdd.status (((Hdd.ask hdd request).onImpl fun impl =>
          { impl with modeSelectLength := (request.cdb 4).toNat }).onPort fun port =>
            port.dataOut .data (request.cdb 4).toNat) ssGood := by
      rw [Hdd.modeSelect, if_neg]
      · rfl
      · exact empty
    have moves : transferOf (Hdd.modeSelect (Hdd.ask hdd request)).port.calls =
        some ⟨false, .data, (request.cdb 4).toNat⟩ := by
      rw [decoded]
      exact if_pos (Nat.pos_of_ne_zero empty)
    have length : (Hdd.modeSelect (Hdd.ask hdd request)).impl =
        { hdd.impl with modeSelectLength := (request.cdb 4).toNat } := by
      rw [decoded]
      rfl
    have code : Hdd.cmd (Hdd.modeSelect (Hdd.ask hdd request)) = scModeSelect6 := by
      rw [decoded]
      exact select
    rw [moves]
    generalize Hdd.modeSelect (Hdd.ask hdd request) = started at length code ⊢
    have held : started.impl.modeSelectLength = (request.cdb 4).toNat := by rw [length]
    obtain ⟨list, agrees, impl⟩ := moveBytes_selected code
      (held ▸ Nat.pos_of_ne_zero empty) request.data
    rw [held] at agrees impl
    dsimp only [id_eq]
    rw [impl, length]
    have applied := applyModeSelect_current
      { hdd.impl with modeSelectLength := (request.cdb 4).toNat, modeSelectData := list }
    refine ⟨fun index pos => ?_, fun index pos => ?_⟩
    · rw [(applied index pos).2]
      dsimp only
      rw [sentValue_congr agrees, are.current]
      cases sentValue (request.cdb 4).toNat request.data index pos with
      | none => rfl
      | some value => exact maskMerge_again _ _ _ _
    · rw [(applied index pos).1]
      exact are.saved index pos

/-- An answer leaves the pages. -/
theorem modeSense_pages {disk : ScsiDiskInfo} {wanted : Wanted}
    (are : PagesAre disk wanted hdd.impl) (lun : request.lun = 0)
    (sense : request.cdb 0 = scModeSense6) :
    PagesAre disk (wanted.take request true) (Hdd.exchange hdd request id).1.impl := by
  have taken : wanted.take request true = wanted := by
    rw [Wanted.take, if_neg (not_not.mpr lun), if_neg, if_neg]
    · rw [sense]
      decide
    · rw [sense]
      decide
  have decoded : (Hdd.modeSense (Hdd.ask hdd request)).impl = hdd.impl ∧
      ∀ transfer, transferOf (Hdd.modeSense (Hdd.ask hdd request)).port.calls = some transfer →
        transfer.input = true ∧ transfer.id = .main := by
    rw [Hdd.modeSense]
    dsimp only
    by_cases unknown : ((Hdd.ask hdd request).port.cmdbuf 2 &&& 0x3F).toNat ≠ 0x3F ∧
        ScsiHdd.modePageIndex ((Hdd.ask hdd request).port.cmdbuf 2 &&& 0x3F).toNat = none
    · rw [if_pos unknown]
      exact ⟨rfl, fun transfer moves => nomatch moves⟩
    · rw [if_neg unknown]
      refine ⟨rfl, fun transfer moves => ?_⟩
      rw [Hdd.transferOf_dataIn rfl moves]
      exact ⟨rfl, rfl⟩
  rw [taken, Hdd.exchange, (@command_pages request hdd lun).2.1 sense]
  rcases moves : transferOf (Hdd.modeSense (Hdd.ask hdd request)).port.calls with _ | transfer
  · exact are.same (congrArg ScsiHdd.modeCurrent decoded.1) (congrArg ScsiHdd.modeSaved decoded.1)
  · have kept := @moveBytes_kept (Hdd.modeSense (Hdd.ask hdd request)) transfer request.data
      (.inl (decoded.2 transfer moves)) transfer.size
    exact are.same (kept.current.trans (congrArg ScsiHdd.modeCurrent decoded.1))
      (kept.saved.trans (congrArg ScsiHdd.modeSaved decoded.1))

/-- The current pages become the saved ones, and a defect list leaves them. -/
theorem formatUnit_pages {disk : ScsiDiskInfo} {wanted : Wanted}
    (are : PagesAre disk wanted hdd.impl) (lun : request.lun = 0)
    (format : request.cdb 0 = scFormatUnit) :
    PagesAre disk (wanted.take request true) (Hdd.exchange hdd request id).1.impl := by
  have taken : wanted.take request true = { wanted with saved := wanted.current } := by
    rw [Wanted.take, if_neg (not_not.mpr lun), if_neg, if_pos format]
    rw [format]
    decide
  have decoded : (Hdd.formatUnit (Hdd.ask hdd request)).impl =
        { hdd.impl with modeSaved := hdd.impl.modeCurrent } ∧
      ∀ transfer, transferOf (Hdd.formatUnit (Hdd.ask hdd request)).port.calls = some transfer →
        transfer.input = false ∧ transfer.id = .data := by
    rw [Hdd.formatUnit]
    dsimp only
    split_ifs
    · exact ⟨rfl, fun transfer moves => nomatch moves⟩
    · refine ⟨rfl, fun transfer moves => ?_⟩
      rw [Hdd.transferOf_dataOut rfl moves]
      exact ⟨rfl, rfl⟩
  have formatted : PagesAre disk { wanted with saved := wanted.current }
      (Hdd.formatUnit (Hdd.ask hdd request)).impl := by
    rw [decoded.1]
    exact ⟨are.current, are.current⟩
  rw [taken, Hdd.exchange, (@command_pages request hdd lun).2.2 format]
  rcases moves : transferOf (Hdd.formatUnit (Hdd.ask hdd request)).port.calls with _ | transfer
  · exact formatted
  · obtain ⟨input, id⟩ := decoded.2 transfer moves
    have code : Hdd.cmd (Hdd.formatUnit (Hdd.ask hdd request)) = scFormatUnit := by
      rw [Hdd.formatUnit]
      split_ifs <;> exact format
    have kept := @moveBytes_kept (Hdd.formatUnit (Hdd.ask hdd request)) transfer request.data
      (.inr ⟨input, id, code⟩) transfer.size
    exact formatted.same kept.current kept.saved

/-- A command that runs to its end gives the wanted pages. -/
theorem exchange_pages {disk : ScsiDiskInfo} {wanted : Wanted} (request : PageRequest)
    (are : PagesAre disk wanted hdd.impl) :
    PagesAre disk (wanted.take request.toRequest true)
      (Hdd.exchange hdd request.toRequest id).1.impl := by
  by_cases lun : request.lun = 0
  · rcases request.page with select | sense | format
    · exact modeSelect_pages are lun select
    · exact modeSense_pages are lun sense
    · exact formatUnit_pages are lun format
  · have taken : wanted.take request.toRequest true = wanted := by
      rw [Wanted.take, if_pos lun]
    rw [taken, Hdd.exchange_lun lun]
    · exact are
    · rcases request.page with same | same | same <;>
        · rw [same]
          decide

end Pages

section Told

variable {owner : DiskOwner} {diskType : ScsiDiskType}

/-- Before a bus reset the pages are the wanted ones. -/
theorem session_pages (events : List PageEvent) (calm : ∀ event ∈ events, event.resets = false) :
    PagesAre (scsiDiskSetType diskType)
      (events.foldl Wanted.step (.init (scsiDiskSetType diskType)))
      (Hdd.session (Hdd.init owner diskType) (events.map PageEvent.busEvent)).impl := by
  induction events using List.reverseRecOn with
  | nil =>
    refine ⟨fun index pos => ?_, fun index pos => ?_⟩
    all_goals exact (maskMerge_self _ _).symm
  | append_singleton events last ih =>
    have before := ih fun event member =>
      calm event (List.mem_append_left [last] member)
    rw [List.foldl_append, List.map_append, Hdd.session, List.foldl_append]
    have whole := calm last (List.mem_append_right events (List.mem_singleton_self last))
    cases last with
    | command request => exact exchange_pages request before
    | cut request count => exact Bool.noConfusion whole
    | busReset => exact Bool.noConfusion whole

/-- A bus reset leaves no unit attention. -/
theorem busReset_unattended (hdd : HddDevice) : ¬UnitAttention (Hdd.busReset hdd).port := by
  rintro ⟨key, -⟩
  change (skNoSense &&& 0x0F : Byte) = skUnitAttention at key
  exact absurd key (by decide)

theorem serve_unattended {event : PageEvent} (resets : event.resets = true) (hdd : HddDevice) :
    ¬UnitAttention (Hdd.serve hdd event.busEvent).1.port := by
  cases event with
  | command request => exact Bool.noConfusion resets
  | cut request count => exact busReset_unattended _
  | busReset => exact busReset_unattended _

end Told

/-- The pages are told over a run exactly when the bus is never reset. -/
theorem pages_told_iff (owner : DiskOwner) (diskType : ScsiDiskType) (events : List PageEvent) :
    (∀ history, history <+: events → PagesTold owner diskType history) ↔
      ∀ event ∈ events, event.resets = false := by
  constructor
  · intro told event member
    by_contra reset
    rw [Bool.not_eq_false] at reset
    obtain ⟨before, after, rfl⟩ := List.append_of_mem member
    have last := (told (before ++ [event]) ⟨after, by rw [List.append_assoc]; rfl⟩).2 event
      (List.getLast?_concat) reset
    rw [List.map_append, Hdd.session, List.foldl_append] at last
    exact serve_unattended reset _ last.2
  · rintro calm history ⟨rest, rfl⟩
    have calm_ (event : PageEvent) (member : event ∈ history) :=
      calm event (List.mem_append_left rest member)
    refine ⟨session_pages history calm_, fun last ends reset => ?_⟩
    exact Bool.noConfusion ((calm_ last (List.mem_of_getLast? ends)).symm.trans reset)

/-- A parameter list changes the retry count of the first page. -/
def retrySelect : PageRequest where
  cdb := fun pos => [scModeSelect6, 0, 0, 0, 8, 0].getD pos 0
  identify := 0x80
  data := fun pos => [0, 0, 0, 0, 0x01, 0x02, 0x21, 0x05].getD pos 0
  page := .inl rfl

/-- After a bus reset the changed values stay, and there is no unit attention. -/
theorem bus_reset_keeps_pages :
    ¬PagesTold soundOwner .micropolis1375Nd [.command retrySelect, .busReset] := by
  intro told
  have current := told.1.current 0 3
  exact absurd current (by decide)

end Nd100x.Scsi
