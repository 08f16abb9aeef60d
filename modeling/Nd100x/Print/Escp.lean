import Mathlib.Data.Rat.Defs
import Mathlib.Data.BitVec
import Mathlib.Logic.Function.Basic
import Mathlib.Tactic

namespace Nd100x.Print

abbrev Byte := BitVec 8

section Model

def escpAttrBold : Byte := 0x01
def escpAttrItalic : Byte := 0x02
def escpAttrUnderline : Byte := 0x04

/-- A run of text in one style. The measures in points are kept exact. -/
structure EscpSpan where
  column : Nat
  line : Nat
  page : Nat
  attrs : Byte
  charWidth : Rat
  lineHeight : Rat
  text : List Byte
deriving DecidableEq

inductive EscpState where
  | normal
  | escSeen
  | param
deriving DecidableEq

/-- The interpreter context. The line buffer holds the characters after the last span. -/
structure EscpContext where
  state : EscpState
  currentCommand : Byte
  paramsNeeded : Nat
  paramsReceived : Nat
  params : Nat → Byte
  column : Nat
  line : Nat
  page : Nat
  attrs : Byte
  expanded : Bool
  cpi : Nat
  condensed : Bool
  lineSpacing216 : Nat
  pageLines : Nat
  spans : List EscpSpan
  lineBuf : List Byte

def defaultLineSpacing216 : Nat := 36
def lineSpacing8th216 : Nat := 27
def defaultPageLines : Nat := 66

namespace EscpContext

/-- Condensed text has about 1.7 times as many characters. -/
def effectiveCpi (ctx : EscpContext) : Nat :=
  if ctx.condensed then (if ctx.cpi = 10 then 17 else 20) else ctx.cpi

def charWidth (ctx : EscpContext) : Rat :=
  if ctx.expanded then 72 / ctx.effectiveCpi * 2 else 72 / ctx.effectiveCpi

def lineHeight (ctx : EscpContext) : Rat := ctx.lineSpacing216 / 216 * 72

/-- The start column is found by subtraction. It is not below zero. -/
def pendingSpan (ctx : EscpContext) : EscpSpan where
  column := ctx.column - ctx.lineBuf.length
  line := ctx.line
  page := ctx.page
  attrs := ctx.attrs
  charWidth := ctx.charWidth
  lineHeight := ctx.lineHeight
  text := ctx.lineBuf

def flushLineBuffer (ctx : EscpContext) : EscpContext :=
  if ctx.lineBuf.length = 0 then ctx
  else { ctx with spans := ctx.spans ++ [ctx.pendingSpan], lineBuf := [] }

def bufferChar (ctx : EscpContext) (c : Byte) : EscpContext := { ctx with lineBuf := ctx.lineBuf ++ [c] }

def lineFeed (ctx : EscpContext) : EscpContext :=
  let ctx := ctx.flushLineBuffer
  let ctx := { ctx with line := ctx.line + 1, column := 0 }
  if ctx.line ≥ ctx.pageLines then { ctx with page := ctx.page + 1, line := 0 } else ctx

def formFeed (ctx : EscpContext) : EscpContext :=
  let ctx := ctx.flushLineBuffer
  { ctx with page := ctx.page + 1, line := 0, column := 0 }

/-- The head stays where it is. -/
def resetPrinter (ctx : EscpContext) : EscpContext :=
  { ctx with
    attrs := 0
    expanded := false
    cpi := 10
    condensed := false
    lineSpacing216 := defaultLineSpacing216
    pageLines := defaultPageLines }

def setAttr (ctx : EscpContext) (flag : Byte) : EscpContext :=
  let ctx := ctx.flushLineBuffer
  { ctx with attrs := ctx.attrs ||| flag }

def clearAttr (ctx : EscpContext) (flag : Byte) : EscpContext :=
  let ctx := ctx.flushLineBuffer
  { ctx with attrs := ctx.attrs &&& ~~~flag }

/-- The commands are `@ E F 4 5 P M 0 2`. The last two do not flush. -/
def handleEscNoParam (ctx : EscpContext) (cmd : Byte) : EscpContext :=
  if cmd = 0x40 then ctx.flushLineBuffer.resetPrinter
  else if cmd = 0x45 then ctx.setAttr escpAttrBold
  else if cmd = 0x46 then ctx.clearAttr escpAttrBold
  else if cmd = 0x34 then ctx.setAttr escpAttrItalic
  else if cmd = 0x35 then ctx.clearAttr escpAttrItalic
  else if cmd = 0x50 then { ctx.flushLineBuffer with cpi := 10 }
  else if cmd = 0x4D then { ctx.flushLineBuffer with cpi := 12 }
  else if cmd = 0x30 then { ctx with lineSpacing216 := lineSpacing8th216, pageLines := 11 * 8 }
  else if cmd = 0x32 then { ctx with lineSpacing216 := defaultLineSpacing216, pageLines := defaultPageLines }
  else ctx

/-- The commands are `- W 3`. The last one does not flush. -/
def handleEscWithParam (ctx : EscpContext) (cmd param : Byte) : EscpContext :=
  if cmd = 0x2D then
    if param &&& 0x01 ≠ 0 then ctx.setAttr escpAttrUnderline else ctx.clearAttr escpAttrUnderline
  else if cmd = 0x57 then { ctx.flushLineBuffer with expanded := param &&& 0x01 ≠ 0 }
  else if cmd = 0x33 then
    let ctx := { ctx with lineSpacing216 := param.toNat }
    if param.toNat > 0 then { ctx with pageLines := 11 * 216 / param.toNat } else ctx
  else ctx

end EscpContext

def paramsForCommand (cmd : Byte) : Nat :=
  if cmd = 0x2D ∨ cmd = 0x57 ∨ cmd = 0x33 then 1 else 0

def escpCreate : EscpContext where
  state := .normal
  currentCommand := 0
  paramsNeeded := 0
  paramsReceived := 0
  params := fun _ => 0
  column := 0
  line := 0
  page := 0
  attrs := 0
  expanded := false
  cpi := 10
  condensed := false
  lineSpacing216 := defaultLineSpacing216
  pageLines := defaultPageLines
  spans := []
  lineBuf := []

namespace EscpContext

/-- A backspace takes the last character out of the buffer and moves the head. -/
def backspace (ctx : EscpContext) : EscpContext :=
  let ctx := if ctx.lineBuf.length > 0 then { ctx with lineBuf := ctx.lineBuf.dropLast } else ctx
  if ctx.column > 0 then { ctx with column := ctx.column - 1 } else ctx

def putNormal (ctx : EscpContext) (c : Byte) : EscpContext :=
  if c = 0x1B then { ctx with state := .escSeen }
  else if c = 0x0D then { ctx.flushLineBuffer with column := 0 }
  else if c = 0x0A then ctx.lineFeed
  else if c = 0x0C then ctx.formFeed
  else if c = 0x08 then ctx.backspace
  else if c = 0x0F then { ctx.flushLineBuffer with condensed := true }
  else if c = 0x12 then { ctx.flushLineBuffer with condensed := false }
  else if c = 0x07 ∨ c = 0x00 then ctx
  else if 0x20 ≤ c.toNat ∧ c.toNat ≤ 0x7E then
    let ctx := ctx.bufferChar c
    { ctx with column := ctx.column + 1 }
  else ctx

def putEscSeen (ctx : EscpContext) (c : Byte) : EscpContext :=
  let ctx := { ctx with currentCommand := c, paramsNeeded := paramsForCommand c, paramsReceived := 0 }
  if ctx.paramsNeeded = 0 then { ctx.handleEscNoParam c with state := .normal }
  else { ctx with state := .param }

def putParam (ctx : EscpContext) (c : Byte) : EscpContext :=
  let ctx := { ctx with
    params := Function.update ctx.params ctx.paramsReceived c
    paramsReceived := ctx.paramsReceived + 1 }
  if ctx.paramsReceived ≥ ctx.paramsNeeded then
    { ctx.handleEscWithParam ctx.currentCommand (ctx.params 0) with state := .normal }
  else ctx

end EscpContext

def escpPutChar (ctx : EscpContext) (c : Byte) : EscpContext :=
  match ctx.state with
  | .normal => ctx.putNormal c
  | .escSeen => ctx.putEscSeen c
  | .param => ctx.putParam c

/-- The spans of the result are the answer. -/
def escpGetSpans (ctx : EscpContext) : EscpContext := ctx.flushLineBuffer

def escpReset (ctx : EscpContext) : EscpContext :=
  { ctx with spans := [], lineBuf := [], state := .normal, column := 0, line := 0, page := 0 }.resetPrinter

/-- The stripped stream keeps the printable characters and four control characters. -/
def stripNormal (c : Byte) : Byte :=
  if 0x20 ≤ c.toNat ∧ c.toNat ≤ 0x7E then c
  else if c = 0x0D ∨ c = 0x0A ∨ c = 0x0C then c
  else if c = 0x09 then 0x09
  else 0

def escpStripToPlainChar (ctx : EscpContext) (c : Byte) : EscpContext × Byte :=
  match ctx.state with
  | .normal => if c = 0x1B then ({ ctx with state := .escSeen }, 0) else (ctx, stripNormal c)
  | .escSeen =>
    let ctx := { ctx with currentCommand := c, paramsNeeded := paramsForCommand c, paramsReceived := 0 }
    ({ ctx with state := if ctx.paramsNeeded = 0 then .normal else .param }, 0)
  | .param =>
    let ctx := { ctx with paramsReceived := ctx.paramsReceived + 1 }
    (if ctx.paramsReceived ≥ ctx.paramsNeeded then { ctx with state := .normal } else ctx, 0)

/-- A byte of the driver or a call for the spans. -/
inductive EscpEvent where
  | putChar (c : Byte)
  | getSpans

def EscpContext.step (ctx : EscpContext) : EscpEvent → EscpContext
  | .putChar c => escpPutChar ctx c
  | .getSpans => escpGetSpans ctx

def escpRun (events : List EscpEvent) : EscpContext := events.foldl EscpContext.step escpCreate

end Model

section Purpose

/-- A printed character is at a place of a page and has a style. -/
structure Cell where
  page : Nat
  line : Nat
  column : Nat
  char : Byte
  attrs : Byte
  charWidth : Rat
deriving DecidableEq

/-- The characters of a span stand side by side. -/
def EscpSpan.cells (span : EscpSpan) : List Cell :=
  span.text.mapIdx fun index c => ⟨span.page, span.line, span.column + index, c, span.attrs, span.charWidth⟩

inductive PrinterCommand where
  | print (c : Byte)
  | carriageReturn
  | lineFeed
  | formFeed
  | backspace
  | condensed (on : Bool)
  | reset
  | bold (on : Bool)
  | italic (on : Bool)
  | underline (on : Bool)
  | elite (on : Bool)
  | expanded (on : Bool)
  | pageLength (lines : Nat)
  | ignored
deriving DecidableEq

def PrinterCommand.ofText (c : Byte) : PrinterCommand :=
  if c = 0x0D then .carriageReturn
  else if c = 0x0A then .lineFeed
  else if c = 0x0C then .formFeed
  else if c = 0x08 then .backspace
  else if c = 0x0F then .condensed true
  else if c = 0x12 then .condensed false
  else if 0x20 ≤ c.toNat ∧ c.toNat ≤ 0x7E then .print c
  else .ignored

/-- A page has 66 lines of a sixth of an inch or 88 lines of an eighth. -/
def PrinterCommand.ofEscape (cmd : Byte) : PrinterCommand :=
  if cmd = 0x40 then .reset
  else if cmd = 0x45 then .bold true
  else if cmd = 0x46 then .bold false
  else if cmd = 0x34 then .italic true
  else if cmd = 0x35 then .italic false
  else if cmd = 0x50 then .elite false
  else if cmd = 0x4D then .elite true
  else if cmd = 0x30 then .pageLength 88
  else if cmd = 0x32 then .pageLength 66
  else .ignored

/-- The page is eleven inches long. -/
def PrinterCommand.ofParameter (cmd n : Byte) : PrinterCommand :=
  if cmd = 0x2D then .underline (n.toNat % 2 = 1)
  else if cmd = 0x57 then .expanded (n.toNat % 2 = 1)
  else if n = 0 then .ignored
  else .pageLength (2376 / n.toNat)

/-- The place in the byte stream is in the text or in a command. -/
inductive Reading where
  | text
  | escape
  | parameter (cmd : Byte) (documented : cmd = 0x2D ∨ cmd = 0x57 ∨ cmd = 0x33)

def Reading.next : Reading → Byte → Reading × PrinterCommand
  | .text, c => if c = 0x1B then (.escape, .ignored) else (.text, .ofText c)
  | .escape, cmd =>
    if documented : cmd = 0x2D ∨ cmd = 0x57 ∨ cmd = 0x33 then (.parameter cmd documented, .ignored)
    else (.text, .ofEscape cmd)
  | .parameter cmd _, n => (.text, .ofParameter cmd n)

structure Style where
  bold : Bool
  italic : Bool
  underline : Bool
  elite : Bool
  condensed : Bool
  expanded : Bool

namespace Style

def plain : Style := ⟨false, false, false, false, false, false⟩

def attrsOf (bold italic underline : Bool) : Byte :=
  (if bold then 0x01 else 0) ||| (if italic then 0x02 else 0) ||| (if underline then 0x04 else 0)

def attrs (style : Style) : Byte := attrsOf style.bold style.italic style.underline

/-- These are the characters per inch. -/
def pitch (style : Style) : Nat :=
  match style.elite, style.condensed with
  | false, false => 10
  | true, false => 12
  | false, true => 17
  | true, true => 20

def charWidth (style : Style) : Rat :=
  if style.expanded then 72 / style.pitch * 2 else 72 / style.pitch

end Style

/-- A rule says which bytes and which calls come between a character and a backspace. -/
structure BackspaceRule where
  command : PrinterCommand → Bool
  observation : Bool

/-- The printer stamps each character with the place of the head and the style of the moment. A backspace takes a
pending character back. -/
structure Printer where
  reading : Reading
  page : Nat
  line : Nat
  column : Nat
  style : Style
  pageLines : Nat
  settled : List Cell
  pending : List Cell

namespace Printer

def idle : Printer := ⟨.text, 0, 0, 0, .plain, 66, [], []⟩

def printed (printer : Printer) : List Cell := printer.settled ++ printer.pending

def settle (printer : Printer) : Printer :=
  { printer with settled := printer.settled ++ printer.pending, pending := [] }

def cell (printer : Printer) (c : Byte) : Cell :=
  ⟨printer.page, printer.line, printer.column, c, printer.style.attrs, printer.style.charWidth⟩

def newPage (printer : Printer) : Printer := { printer with page := printer.page + 1, line := 0, column := 0 }

def obey (printer : Printer) : PrinterCommand → Printer
  | .print c => { printer with pending := printer.pending ++ [printer.cell c], column := printer.column + 1 }
  | .carriageReturn => { printer with column := 0 }
  | .lineFeed =>
    if printer.line + 1 ≥ printer.pageLines then printer.newPage
    else { printer with line := printer.line + 1, column := 0 }
  | .formFeed => printer.newPage
  | .backspace => { printer with pending := printer.pending.dropLast, column := printer.column - 1 }
  | .condensed on => { printer with style.condensed := on }
  | .reset => { printer with style := .plain, pageLines := 66 }
  | .bold on => { printer with style.bold := on }
  | .italic on => { printer with style.italic := on }
  | .underline on => { printer with style.underline := on }
  | .elite on => { printer with style.elite := on }
  | .expanded on => { printer with style.expanded := on }
  | .pageLength lines => { printer with pageLines := lines }
  | .ignored => printer

def settleIf (printer : Printer) (between : Bool) : Printer := if between then printer.settle else printer

def receive (rule : BackspaceRule) (printer : Printer) (c : Byte) : Printer :=
  let read := printer.reading.next c
  { ((printer.settleIf (rule.command read.2)).obey read.2) with reading := read.1 }

def step (rule : BackspaceRule) (printer : Printer) : EscpEvent → Printer
  | .putChar c => printer.receive rule c
  | .getSpans => printer.settleIf rule.observation

def run (rule : BackspaceRule) (events : List EscpEvent) : Printer := events.foldl (step rule) idle

end Printer

/-- A backspace reaches back over the ignored bytes and the line spacing commands. It does not reach back over any
other command or a call for the spans. -/
def pendingRule : BackspaceRule where
  command
    | .print _ | .backspace | .pageLength _ | .ignored => false
    | _ => true
  observation := true

/-- A backspace directly follows the characters it takes back. -/
def directRule : BackspaceRule where
  command
    | .print _ | .backspace => false
    | _ => true
  observation := false

end Purpose

section Cells

@[simp] theorem cells_empty (span : EscpSpan) (empty : span.text = []) : span.cells = [] := by
  simp [EscpSpan.cells, empty]

/-- One more character stands at the end of the span. -/
theorem cells_append (span : EscpSpan) (c : Byte) :
    ({ span with text := span.text ++ [c] } : EscpSpan).cells =
      span.cells ++ [⟨span.page, span.line, span.column + span.text.length, c, span.attrs, span.charWidth⟩] := by
  simp [EscpSpan.cells, List.mapIdx_append]

theorem cells_dropLast (span : EscpSpan) :
    ({ span with text := span.text.dropLast } : EscpSpan).cells = span.cells.dropLast := by
  rcases List.eq_nil_or_concat span.text with empty | ⟨text, c, equal⟩
  · simp [EscpSpan.cells, empty]
  · rw [EscpSpan.cells, EscpSpan.cells, equal]
    simp [List.mapIdx_append]

/-- The flush moves the buffer into a span. -/
theorem flushLineBuffer_eq (ctx : EscpContext) :
    ctx.flushLineBuffer =
      { ctx with
        spans := ctx.spans ++ (if ctx.lineBuf.length = 0 then [] else [ctx.pendingSpan])
        lineBuf := [] } := by
  unfold EscpContext.flushLineBuffer
  split_ifs with empty
  · have nothing : ctx.lineBuf = [] := List.length_eq_zero_iff.mp empty
    cases ctx
    simp_all
  · rfl

end Cells

section Agreement

/-- The interpreter and the printer have printed the same characters and stand at the same place. -/
structure Prints (ctx : EscpContext) (printer : Printer) : Prop where
  page : ctx.page = printer.page
  line : ctx.line = printer.line
  column : ctx.column = printer.column
  attrs : ctx.attrs = printer.style.attrs
  cpi : ctx.cpi = if printer.style.elite then 12 else 10
  condensed : ctx.condensed = printer.style.condensed
  expanded : ctx.expanded = printer.style.expanded
  pageLines : ctx.pageLines = printer.pageLines
  settled : ctx.spans.flatMap EscpSpan.cells = printer.settled
  pending : ctx.pendingSpan.cells = printer.pending
  room : ctx.lineBuf.length ≤ ctx.column

/-- The states of the two readers. -/
def ReadsAlike (ctx : EscpContext) : Reading → Prop
  | .text => ctx.state = .normal
  | .escape => ctx.state = .escSeen
  | .parameter cmd _ =>
    ctx.state = .param ∧ ctx.currentCommand = cmd ∧ ctx.paramsNeeded = 1 ∧ ctx.paramsReceived = 0

variable {ctx : EscpContext} {printer : Printer}

theorem Prints.charWidth (agree : Prints ctx printer) : ctx.charWidth = printer.style.charWidth := by
  have pitch : ctx.effectiveCpi = printer.style.pitch := by
    rw [EscpContext.effectiveCpi, agree.cpi, agree.condensed, Style.pitch]
    cases printer.style.elite <;> cases printer.style.condensed <;> rfl
  rw [EscpContext.charWidth, Style.charWidth, agree.expanded, pitch]

theorem Prints.flush (agree : Prints ctx printer) : Prints ctx.flushLineBuffer printer.settle := by
  rw [flushLineBuffer_eq]
  have moved : (ctx.spans ++ if ctx.lineBuf.length = 0 then [] else [ctx.pendingSpan]).flatMap EscpSpan.cells =
      printer.settled ++ printer.pending := by
    rw [List.flatMap_append, agree.settled, ← agree.pending]
    split_ifs with empty
    · rw [cells_empty _ (List.length_eq_zero_iff.mp empty)]
      rfl
    · simp
  exact { agree with settled := moved, pending := cells_empty _ rfl, room := Nat.zero_le _ }

@[simp] theorem flushLineBuffer_lineBuf (ctx : EscpContext) : ctx.flushLineBuffer.lineBuf = [] := by
  rw [flushLineBuffer_eq]

@[simp] theorem flushLineBuffer_state (ctx : EscpContext) : ctx.flushLineBuffer.state = ctx.state := by
  rw [flushLineBuffer_eq]

theorem flush_pending (ctx : EscpContext) : ctx.flushLineBuffer.lineBuf.length ≤ 0 := by simp

theorem Prints.carriageReturn (agree : Prints ctx printer) :
    Prints { ctx.flushLineBuffer with column := 0 } (printer.settle.obey .carriageReturn) :=
  { agree.flush with
    column := rfl
    pending := cells_empty _ (flushLineBuffer_lineBuf ctx)
    room := flush_pending ctx }

theorem Prints.formFeed (agree : Prints ctx printer) : Prints ctx.formFeed (printer.settle.obey .formFeed) :=
  { agree.flush with
    page := congrArg Nat.succ agree.flush.page
    line := rfl
    column := rfl
    pending := cells_empty _ (flushLineBuffer_lineBuf ctx)
    room := flush_pending ctx }

/-- The line after the last one of the page is the first one of the next. -/
theorem Prints.lineFeed (agree : Prints ctx printer) : Prints ctx.lineFeed (printer.settle.obey .lineFeed) := by
  have flushed := agree.flush
  simp only [EscpContext.lineFeed, Printer.obey, flushed.line, flushed.pageLines]
  split_ifs with last
  · exact { flushed with
      page := congrArg Nat.succ flushed.page
      line := rfl
      column := rfl
      pageLines := rfl
      pending := cells_empty _ (flushLineBuffer_lineBuf ctx)
      room := flush_pending ctx }
  · exact { flushed with
      line := rfl
      column := rfl
      pageLines := rfl
      pending := cells_empty _ (flushLineBuffer_lineBuf ctx)
      room := flush_pending ctx }

/-- A command of style is obeyed after the flush. -/
theorem Prints.restyle (agree : Prints ctx printer) (attrs : Byte) (cpi : Nat) (condensed expanded : Bool)
    (style : Style) (sameAttrs : attrs = style.attrs) (sameCpi : cpi = if style.elite then 12 else 10)
    (sameCondensed : condensed = style.condensed) (sameExpanded : expanded = style.expanded) :
    Prints { ctx.flushLineBuffer with attrs := attrs, cpi := cpi, condensed := condensed, expanded := expanded }
      { printer.settle with style := style } :=
  { agree.flush with
    attrs := sameAttrs
    cpi := sameCpi
    condensed := sameCondensed
    expanded := sameExpanded
    pending := cells_empty _ (flushLineBuffer_lineBuf ctx) }

/-- The lines of a page do not change what is printed. -/
theorem Prints.pageLength (agree : Prints ctx printer) (spacing lines : Nat) :
    Prints { ctx with lineSpacing216 := spacing, pageLines := lines } (printer.obey (.pageLength lines)) :=
  { agree with pageLines := rfl }

theorem Prints.spacing (agree : Prints ctx printer) (spacing : Nat) :
    Prints { ctx with lineSpacing216 := spacing } printer := { agree with }

/-- The character is stamped with the place after the run. -/
theorem Prints.print (agree : Prints ctx printer) (c : Byte) :
    Prints { ctx.bufferChar c with column := ctx.column + 1 } (printer.obey (.print c)) := by
  have start : ctx.column + 1 - (ctx.lineBuf ++ [c]).length = ctx.column - ctx.lineBuf.length := by
    simp
  have place : ctx.column - ctx.lineBuf.length + ctx.lineBuf.length = ctx.column :=
    Nat.sub_add_cancel agree.room
  have run : ({ ctx.bufferChar c with column := ctx.column + 1 } : EscpContext).pendingSpan =
      { ctx.pendingSpan with text := ctx.lineBuf ++ [c] } := by
    simp only [EscpContext.pendingSpan, EscpContext.bufferChar, start]
    rfl
  have stamped : (⟨ctx.page, ctx.line, ctx.column, c, ctx.attrs, ctx.charWidth⟩ : Cell) = printer.cell c := by
    rw [Printer.cell, agree.page, agree.line, agree.column, agree.attrs, agree.charWidth]
  refine { agree with column := congrArg Nat.succ agree.column, pending := ?_, room := ?_ }
  · rw [run]
    refine (cells_append ctx.pendingSpan c).trans ?_
    rw [agree.pending]
    simp only [EscpContext.pendingSpan, place]
    rw [stamped]
    rfl
  · simpa [EscpContext.bufferChar] using agree.room

/-- The buffer and the head go back by one character together. -/
theorem Prints.backspace (agree : Prints ctx printer) : Prints ctx.backspace (printer.obey .backspace) := by
  have shape : ctx.backspace = { ctx with lineBuf := ctx.lineBuf.dropLast, column := ctx.column - 1 } := by
    unfold EscpContext.backspace
    rcases List.eq_nil_or_concat ctx.lineBuf with empty | ⟨text, c, equal⟩
    · rcases ctx with ⟨⟩
      split_ifs <;> simp_all
    · split_ifs <;> simp_all
  have room : ctx.lineBuf.dropLast.length ≤ ctx.column - 1 := by
    have := agree.room
    rw [List.length_dropLast]
    omega
  rw [shape]
  refine { agree with column := congrArg (· - 1) agree.column, pending := ?_, room := room }
  refine Eq.trans ?_ (congrArg List.dropLast agree.pending)
  rw [← cells_dropLast]
  rcases List.eq_nil_or_concat ctx.lineBuf with empty | ⟨text, c, equal⟩
  · rw [cells_empty _ (by simp [EscpContext.pendingSpan, empty]),
      cells_empty _ (by simp [EscpContext.pendingSpan, empty])]
  · have inside := agree.room
    have start : ctx.column - 1 - ctx.lineBuf.dropLast.length = ctx.column - ctx.lineBuf.length := by
      rw [equal] at inside ⊢
      simp at inside ⊢
      omega
    simp only [EscpContext.pendingSpan, start]
    rfl

end Agreement

section Commands

variable {ctx : EscpContext} {printer : Printer}

/-- The text bytes agree. -/
theorem Prints.putNormal (agree : Prints ctx printer) (c : Byte) (plain : c ≠ 0x1B) :
    Prints (ctx.putNormal c)
      ((printer.settleIf (pendingRule.command (.ofText c))).obey (.ofText c)) := by
  unfold EscpContext.putNormal PrinterCommand.ofText
  rw [if_neg plain]
  split_ifs with cr lf ff bs si dc2 silent printable printable
  · exact agree.carriageReturn
  · exact agree.lineFeed
  · exact agree.formFeed
  · exact agree.backspace
  · exact agree.restyle _ _ true _ { printer.style with condensed := true } agree.flush.attrs agree.flush.cpi rfl
      agree.flush.expanded
  · exact agree.restyle _ _ false _ { printer.style with condensed := false } agree.flush.attrs agree.flush.cpi rfl
      agree.flush.expanded
  -- The codes of BEL and NUL are not printable.
  · rcases silent with rfl | rfl <;> simp at printable
  · exact agree
  · exact agree.print c
  · exact agree

theorem lineFeed_state (ctx : EscpContext) : ctx.lineFeed.state = ctx.state := by
  unfold EscpContext.lineFeed
  exact (apply_ite EscpContext.state _ _ _).trans ((ite_self _).trans (flushLineBuffer_state ctx))

theorem backspace_state (ctx : EscpContext) : ctx.backspace.state = ctx.state := by
  unfold EscpContext.backspace
  dsimp only
  split_ifs <;> rfl

theorem putNormal_state (normal : ctx.state = .normal) {c : Byte} (plain : c ≠ 0x1B) :
    (ctx.putNormal c).state = .normal := by
  unfold EscpContext.putNormal
  rw [if_neg plain]
  split_ifs <;>
    simp [normal, lineFeed_state, backspace_state, EscpContext.formFeed, EscpContext.bufferChar]

/-- A flag is set or cleared apart from the two others. -/
theorem attrsOf_flags : ∀ bold italic underline : Bool,
    (Style.attrsOf bold italic underline ||| escpAttrBold = Style.attrsOf true italic underline ∧
      Style.attrsOf bold italic underline &&& ~~~escpAttrBold = Style.attrsOf false italic underline) ∧
    (Style.attrsOf bold italic underline ||| escpAttrItalic = Style.attrsOf bold true underline ∧
      Style.attrsOf bold italic underline &&& ~~~escpAttrItalic = Style.attrsOf bold false underline) ∧
    (Style.attrsOf bold italic underline ||| escpAttrUnderline = Style.attrsOf bold italic true ∧
      Style.attrsOf bold italic underline &&& ~~~escpAttrUnderline = Style.attrsOf bold italic false) := by
  decide

/-- An attribute command changes the attributes only. -/
theorem Prints.reattr (agree : Prints ctx printer) (attrs : Byte) (style : Style)
    (pitch : style.elite = printer.style.elite ∧ style.condensed = printer.style.condensed ∧
      style.expanded = printer.style.expanded) (sameAttrs : attrs = style.attrs) :
    Prints { ctx.flushLineBuffer with attrs := attrs } { printer.settle with style := style } :=
  agree.restyle attrs _ _ _ style sameAttrs (agree.flush.cpi.trans (by rw [pitch.1]; rfl))
    (agree.flush.condensed.trans pitch.2.1.symm) (agree.flush.expanded.trans pitch.2.2.symm)

/-- The commands without a parameter agree. -/
theorem Prints.escNoParam (agree : Prints ctx printer) (cmd : Byte) :
    Prints (ctx.handleEscNoParam cmd)
      ((printer.settleIf (pendingRule.command (.ofEscape cmd))).obey (.ofEscape cmd)) := by
  have attrs := agree.flush.attrs
  have flags := attrsOf_flags printer.style.bold printer.style.italic printer.style.underline
  unfold EscpContext.handleEscNoParam PrinterCommand.ofEscape
  split_ifs
  · exact ((agree.restyle 0 10 false false .plain rfl rfl rfl rfl).pageLength defaultLineSpacing216 defaultPageLines)
  · exact agree.reattr _ { printer.style with bold := true } ⟨rfl, rfl, rfl⟩
      ((congrArg (· ||| escpAttrBold) attrs).trans flags.1.1)
  · exact agree.reattr _ { printer.style with bold := false } ⟨rfl, rfl, rfl⟩
      ((congrArg (· &&& ~~~escpAttrBold) attrs).trans flags.1.2)
  · exact agree.reattr _ { printer.style with italic := true } ⟨rfl, rfl, rfl⟩
      ((congrArg (· ||| escpAttrItalic) attrs).trans flags.2.1.1)
  · exact agree.reattr _ { printer.style with italic := false } ⟨rfl, rfl, rfl⟩
      ((congrArg (· &&& ~~~escpAttrItalic) attrs).trans flags.2.1.2)
  · exact agree.restyle _ 10 _ _ { printer.style with elite := false } attrs rfl agree.flush.condensed
      agree.flush.expanded
  · exact agree.restyle _ 12 _ _ { printer.style with elite := true } attrs rfl agree.flush.condensed
      agree.flush.expanded
  · exact agree.pageLength lineSpacing8th216 88
  · exact agree.pageLength defaultLineSpacing216 defaultPageLines
  · exact agree

/-- The lowest bit of a parameter says on or off. -/
theorem lowBit (n : Byte) : n &&& 0x01 ≠ 0 ↔ n.toNat % 2 = 1 := by
  have value : (n &&& 0x01).toNat = n.toNat % 2 := by
    rw [BitVec.toNat_and]
    exact Nat.and_one_is_mod n.toNat
  rw [ne_eq, ← BitVec.toNat_inj, value]
  simp

/-- The commands with a parameter agree. -/
theorem Prints.escWithParam (agree : Prints ctx printer) {cmd : Byte}
    (documented : cmd = 0x2D ∨ cmd = 0x57 ∨ cmd = 0x33) (n : Byte) :
    Prints (ctx.handleEscWithParam cmd n)
      ((printer.settleIf (pendingRule.command (.ofParameter cmd n))).obey (.ofParameter cmd n)) := by
  have attrs := agree.flush.attrs
  have flags := attrsOf_flags printer.style.bold printer.style.italic printer.style.underline
  unfold EscpContext.handleEscWithParam PrinterCommand.ofParameter
  rcases documented with rfl | rfl | rfl
  · rw [if_pos rfl, if_pos rfl]
    by_cases on : n.toNat % 2 = 1
    · rw [if_pos ((lowBit n).mpr on), decide_eq_true on]
      exact agree.reattr _ { printer.style with underline := true } ⟨rfl, rfl, rfl⟩
        ((congrArg (· ||| escpAttrUnderline) attrs).trans flags.2.2.1)
    · rw [if_neg (mt (lowBit n).mp on), decide_eq_false on]
      exact agree.reattr _ { printer.style with underline := false } ⟨rfl, rfl, rfl⟩
        ((congrArg (· &&& ~~~escpAttrUnderline) attrs).trans flags.2.2.2)
  · rw [if_neg (by decide), if_pos rfl, if_neg (by decide), if_pos rfl]
    exact agree.restyle _ _ _ _ { printer.style with expanded := n.toNat % 2 = 1 } attrs agree.flush.cpi
      agree.flush.condensed (decide_eq_decide.mpr (lowBit n))
  · have notDash : ¬(0x33 : Byte) = 0x2D := by decide
    have notWide : ¬(0x33 : Byte) = 0x57 := by decide
    rw [if_neg notDash, if_neg notWide, if_pos rfl, if_neg notDash, if_neg notWide]
    by_cases zero : n = 0
    · subst zero
      exact agree.spacing 0
    · have positive : n.toNat > 0 := by
        have := mt (BitVec.toNat_inj (y := (0 : Byte))).mp zero
        simp at this
        omega
      rw [if_pos positive, if_neg zero]
      exact agree.pageLength n.toNat (2376 / n.toNat)

theorem putEscSeen_parameter (ctx : EscpContext) {c : Byte} (documented : c = 0x2D ∨ c = 0x57 ∨ c = 0x33) :
    ctx.putEscSeen c =
      { ctx with currentCommand := c, paramsNeeded := 1, paramsReceived := 0, state := .param } := by
  have needed : paramsForCommand c = 1 := if_pos documented
  unfold EscpContext.putEscSeen
  rw [needed]
  rfl

theorem putEscSeen_plain (ctx : EscpContext) {c : Byte} (plain : ¬(c = 0x2D ∨ c = 0x57 ∨ c = 0x33)) :
    ctx.putEscSeen c =
      { ({ ctx with currentCommand := c, paramsNeeded := 0, paramsReceived := 0 } : EscpContext).handleEscNoParam c
        with state := .normal } := by
  have needed : paramsForCommand c = 0 := if_neg plain
  unfold EscpContext.putEscSeen
  rw [needed]
  rfl

theorem putParam_last (ctx : EscpContext) (c : Byte) {cmd : Byte} (current : ctx.currentCommand = cmd)
    (needed : ctx.paramsNeeded = 1) (received : ctx.paramsReceived = 0) :
    ctx.putParam c =
      { ({ ctx with params := Function.update ctx.params 0 c, paramsReceived := 1 } : EscpContext).handleEscWithParam
          cmd c with state := .normal } := by
  subst current
  obtain ⟨state, currentCommand, paramsNeeded, paramsReceived, _, _, _, _, _, _, _, _, _, _, _, _⟩ := ctx
  simp only at needed received
  subst needed received
  rfl

end Commands

section Runs

variable {ctx : EscpContext} {printer : Printer}

/-- Each byte and each call keeps the interpreter and the printer together. -/
theorem agreement_step (agree : Prints ctx printer) (alike : ReadsAlike ctx printer.reading) (event : EscpEvent) :
    Prints (ctx.step event) (printer.step pendingRule event) ∧
      ReadsAlike (ctx.step event) (printer.step pendingRule event).reading := by
  cases event with
  | getSpans =>
    refine ⟨agree.flush, ?_⟩
    change ReadsAlike ctx.flushLineBuffer printer.reading
    rw [flushLineBuffer_eq]
    exact alike
  | putChar c =>
    simp only [EscpContext.step, Printer.step, escpPutChar, Printer.receive]
    cases reading : printer.reading with
    | text =>
      rw [reading] at alike
      rw [show ctx.state = .normal from alike]
      by_cases escape : c = 0x1B
      · subst escape
        exact ⟨{ agree with }, rfl⟩
      · simp only [Reading.next, if_neg escape]
        exact ⟨{ agree.putNormal c escape with }, putNormal_state alike escape⟩
    | escape =>
      rw [reading] at alike
      rw [show ctx.state = .escSeen from alike]
      simp only [Reading.next]
      by_cases documented : c = 0x2D ∨ c = 0x57 ∨ c = 0x33
      · rw [dif_pos documented, putEscSeen_parameter ctx documented]
        exact ⟨{ agree with }, rfl, rfl, rfl, rfl⟩
      · rw [dif_neg documented, putEscSeen_plain ctx documented]
        have seen : Prints { ctx with currentCommand := c, paramsNeeded := 0, paramsReceived := 0 } printer :=
          { agree with }
        exact ⟨{ seen.escNoParam c with }, rfl⟩
    | parameter cmd documented =>
      rw [reading] at alike
      obtain ⟨param, current, needed, received⟩ := alike
      rw [param]
      simp only [Reading.next, putParam_last ctx c current needed received]
      have taken : Prints { ctx with params := Function.update ctx.params 0 c, paramsReceived := 1 } printer :=
        { agree with }
      exact ⟨{ taken.escWithParam documented c with }, rfl⟩

theorem agreement_run (events : List EscpEvent) :
    Prints (escpRun events) (Printer.run pendingRule events) ∧
      ReadsAlike (escpRun events) (Printer.run pendingRule events).reading := by
  induction events using List.reverseRecOn with
  | nil =>
    refine ⟨?_, rfl⟩
    constructor <;> rfl
  | append_singleton events event ih =>
    have next := agreement_step ih.1 ih.2 event
    rwa [escpRun, Printer.run, List.foldl_append, List.foldl_append]

/-- The spans hold each printed character once, at the place of the head and in the style of the moment. -/
theorem prints_pending (events : List EscpEvent) :
    (escpGetSpans (escpRun events)).spans.flatMap EscpSpan.cells = (Printer.run pendingRule events).printed :=
  (agreement_run events).1.flush.settled

/-- The character is not directly followed by a backspace. It is in no span. -/
theorem prints_not_direct :
    ¬ ∀ events : List EscpEvent,
      (escpGetSpans (escpRun events)).spans.flatMap EscpSpan.cells = (Printer.run directRule events).printed := by
  intro claimed
  have lengths := congrArg List.length (claimed [.putChar 0x41, .putChar 0x1B, .putChar 0x30, .putChar 0x08])
  revert lengths
  decide

end Runs

end Nd100x.Print
