import Mathlib.Data.List.TakeWhile
import Offside.Proofs.Lexer.Displaced

/-!
A text behind another one. Where the last line of code of a text is ended, the lexer goes on with
the text behind it as it starts with that text, in another place. Only the layout differs: the
first line of code at the margin ends the line before it or closes all levels.
-/

namespace Offside

open LexStream LexMode

/-- The first line of code of a text, if there is one, is not indented. -/
def Text.AtMargin (tabWidth : Nat) (text : List Char) : Prop :=
  (Scan.blankLines text).rest ≠ [] →
    ((Layout.ofTabWidth tabWidth).measure (Scan.blankLines text).rest).width = 0

/-- A line of code is not ended where blank lines end. -/
theorem Scan.noLineBreak_of_blankLines (input : List Char)
    (more : (blankLines input).rest ≠ []) :
    lineBreak? (trivia (leading (blankLines input).rest).rest).rest = none := by
  fun_induction blankLines input with
  | case1 input lead gap nothing => exact absurd rfl more
  | case2 input lead gap something noLineBreak => exact noLineBreak
  | case3 input lead gap something lineBreak found inductionHypothesis =>
    exact inductionHypothesis more

namespace Layout

theorem measure_leading (layout : Layout) (input : List Char) :
    layout.measure (Scan.leading input).text = layout.measure input := by
  unfold measure Scan.leading Scan.run
  dsimp only
  rw [List.takeWhile_idem]

theorem measure_of_tabWidth {layout other : Layout} (same : layout.tabWidth = other.tabWidth)
    (input : List Char) : layout.measure input = other.measure input := by
  unfold measure
  rw [same]

/-- A line keeps the brackets that are open. -/
theorem line_brackets (layout : Layout) (width : Nat) :
    (layout.line width).2.brackets = layout.brackets := by
  rcases Nat.lt_trichotomy width layout.top with shallower | same | deeper
  · rw [line_of_lt shallower]
    rfl
  · rw [line_of_eq same]
  · rw [line_of_gt deeper]

/-- What a line at the margin ends: the line before it, or the levels that are open. -/
def endings (depth : Nat) : List Kind :=
  if depth = 0 then [.newline] else List.replicate depth .dedent

theorem endings_ne_nil (depth : Nat) : endings depth ≠ [] := by
  unfold endings
  split
  next => exact List.cons_ne_nil _ _
  next deep => simpa [List.replicate_eq_nil_iff] using deep

/-- No operand ends with the layout of a line. -/
theorem endsOperand_getLast?_endings (depth : Nat) :
    (endings depth).getLast?.any Kind.endsOperand = false := by
  cases last : (endings depth).getLast? with
  | none => rfl
  | some kind =>
    have member := List.mem_of_getLast? last
    unfold endings at member
    split at member
    next => exact List.mem_singleton.mp member ▸ rfl
    next => exact List.eq_of_mem_replicate member ▸ rfl

variable {layout : Layout} {tabWidth : Nat}

/-- A line at the margin leaves no level open, whatever was open before it. -/
theorem Begun.line_zero (begun : Begun tabWidth layout) (noBrackets : layout.inBrackets = false) :
    ∃ lineLayout, layout.line 0 = (.ok lineLayout, ((ofTabWidth tabWidth).line 0).2) ∧
      LexState.layoutKinds lineLayout = endings layout.depth := by
  obtain ⟨sameWidth, started, positive⟩ := begun
  obtain ⟨width, levels, brackets, _⟩ := layout
  obtain rfl : width = tabWidth := sameWidth
  obtain rfl : _ = true := started
  obtain rfl : brackets = 0 := by simpa [inBrackets] using noBrackets
  cases levels with
  | nil => exact ⟨.newline, rfl, rfl⟩
  | cons level levels =>
    have shallower : 0 < (⟨width, level :: levels, 0, true⟩ : Layout).top :=
      positive level List.mem_cons_self
    have closed : closeAbove 0 (level :: levels) = [] := by
      exact List.dropWhile_eq_nil_iff.mpr fun other member => decide_eq_true (positive other member)
    refine ⟨.dedent (levels.length + 1), ?_, ?_⟩
    · rw [line_of_lt shallower]
      simp only [Layout.closed, closed]
      rfl
    · simp only [endings, depth, List.length_cons, Nat.succ_ne_zero, ↓reduceIte]
      rfl

end Layout

namespace LexState

/-! ## Lines of code and of none -/

variable {state : LexState}

theorem AtLine.step_eq (atLine : AtLine state) (atStart : state.atLineStart = true) :
    state.step = state.lineStart := by
  have notInString : ¬ InString state.modes := by
    rintro ⟨start, outer, modes⟩
    rw [atLine.outside] at modes
    contradiction
  rw [step_of_code notInString, code_of_atLineStart atLine.noBrackets atStart]

/-- Behind the indentation of a line of code comes its first token. -/
theorem AtLine.step_indentation (atLine : AtLine state) (more : state.pastBlank.rest ≠ []) :
    state.pastBlank.indentation.2.step = state.pastBlank.indentation.2.inLine := by
  have notInString : ¬ InString state.pastBlank.indentation.2.modes := by
    rintro ⟨start, outer, modes⟩
    rw [show state.pastBlank.indentation.2.modes = [] from atLine.outside] at modes
    contradiction
  have noBrackets : state.pastBlank.indentation.2.layout.inBrackets = false := by
    have same : state.pastBlank.indentation.2.layout.brackets = state.layout.brackets :=
      Layout.line_brackets _ _
    rw [Layout.inBrackets, same]
    exact atLine.noBrackets
  rw [step_of_code notInString, code_of_inLine noBrackets rfl]
  exact Scan.noLineBreak_of_blankLines state.rest more

/-- A line of code is its indentation and what follows. -/
theorem AtLine.stream_of_code (atLine : AtLine state) (atStart : state.atLineStart = true)
    (more : state.pastBlank.rest ≠ []) :
    state.stream false = state.pastBlank.indentation.1 ++
        state.pastBlank.indentation.2.stream false ∧
      state.final false = state.pastBlank.indentation.2.final false := by
  have running := atLine.running
  have runningLine : state.pastBlank.indentation.2.finished = false := running
  have step : state.proceed false = (state.pastBlank.indentation.1 ++
      state.pastBlank.indentation.2.inLine.1, state.pastBlank.indentation.2.inLine.2) :=
    (atLine.step_eq atStart).trans (lineStart_of_code more)
  have stepLine : state.pastBlank.indentation.2.proceed false =
      state.pastBlank.indentation.2.inLine := atLine.step_indentation more
  constructor
  · rw [stream_of_running false running, stream_of_running false runningLine, step, stepLine,
      List.append_assoc]
  · rw [final_of_running false running, final_of_running false runningLine, step, stepLine]

/-- Without code all levels are closed, and the text ends. -/
theorem AtLine.stream_of_blank (atLine : AtLine state) (atStart : state.atLineStart = true)
    (nothing : state.pastBlank.rest = []) :
    state.stream false =
        List.replicate state.layout.depth (state.pastBlank.structural .dedent) ++
          [state.pastBlank.structural .endOfInput] ∧
      (state.final false).endedAtLineBreak = state.lastKind.isSome := by
  have outside : state.pastBlank.openString? = none := by
    rw [openString?, show state.pastBlank.modes = [] from atLine.outside]
    rfl
  have step : state.proceed false = state.pastBlank.finish :=
    (atLine.step_eq atStart).trans (lineStart_of_blank nothing)
  have finished := finished_finish state.pastBlank
  have running := atLine.running
  constructor
  · rw [stream_of_running false running, step, stream_of_finished false finished, List.append_nil,
      finish, outside]
    rfl
  · rw [final_of_running false running, step, final_of_finished false finished, finish, outside]
    simp only [Lexer.endedAtLineBreak, pastBlank, take, atStart, Bool.true_and]

theorem atLine_ofSource (tabWidth : Nat) (source : List Char) : AtLine (ofSource tabWidth source) :=
  ⟨rfl, rfl, rfl⟩

/-- A text without code is at its end at once. -/
theorem stream_ofSource_of_blank (tabWidth : Nat) {source : List Char}
    (noMark : source.head? ≠ some '\ufeff') (noCode : (Scan.blankLines source).rest = []) :
    (ofSource tabWidth source).stream false =
      [(ofSource tabWidth source).pastBlank.structural .endOfInput] := by
  have nothing : (ofSource tabWidth source).pastBlank.rest = [] := by
    rw [ofSource_of_noMark noMark]
    exact noCode
  exact ((atLine_ofSource tabWidth source).stream_of_blank rfl nothing).1

/-- The error of a line that is indented with blanks of two kinds. -/
def mixed (state : LexState) : List LexError :=
  if (state.layout.measure state.rest).mixed then
    [⟨.mixedIndentation, state.spanOf (Scan.leading state.rest)⟩]
  else []

/-- The indentation of a line whose width fits the levels. -/
theorem indentation_of_line {lineLayout : LineLayout} {layout : Layout}
    (laid : state.layout.line (state.layout.measure state.rest).width = (.ok lineLayout, layout)) :
    state.indentation =
      (state.mixed.map .error ++
          (layoutKinds lineLayout).map (state.take (Scan.leading state.rest)).structural,
        { state.take (Scan.leading state.rest) with
          layout
          atLineStart := false
          lastKind := (layoutKinds lineLayout).getLast?.or state.lastKind }) := by
  unfold indentation mixed
  dsimp only
  rw [Layout.measure_leading, laid]
  simp only [lineKinds, lineErrors, List.map_nil, List.append_nil]
  rfl

/-! ## Behind the last line -/

namespace EndedLine

variable {tabWidth : Nat} {line : LexState}

/-- What stands behind the last line stands where the text with nothing behind it ends, or
further on. -/
theorem position_le (line : LexState) (more : List Char) :
    line.position ≤ (line.append more).pastBlank.position :=
  Position.le_advance _ _

variable (ended : EndedLine tabWidth line)

include ended

theorem atLine (more : List Char) : AtLine (line.append more) :=
  ⟨ended.running, ended.outside, ended.noBrackets⟩

theorem rest_append (more : List Char) : (line.append more).rest = more := by
  rw [append, ended.rest, List.nil_append]

/-- How far the text behind the last line is from its own start. -/
theorem exists_displacement : ∃ displacement : Displacement,
    line.position = displacement.position .start ∧
      displacement.before = (Layout.endings line.layout.depth).getLast? := by
  obtain ⟨bytes, lines, place⟩ := ended.place
  exact ⟨⟨bytes, lines, _, Layout.endsOperand_getLast?_endings _⟩, place, rfl⟩

/-- Behind the last line the first line of code at the margin starts as it does alone, except for
what it ends. -/
theorem indentation_append {more : List Char} (noMark : more.head? ≠ some '\ufeff')
    (hasCode : (Scan.blankLines more).rest ≠ []) (margin : Text.AtMargin tabWidth more)
    {displacement : Displacement} (place : line.position = displacement.position .start)
    (before : displacement.before = (Layout.endings line.layout.depth).getLast?) :
    ∃ errors : List LexError,
      (ofSource tabWidth more).pastBlank.indentation.1 = errors.map .error ∧
      (line.append more).pastBlank.indentation.1 = (errors.map displacement.error).map .error ++
        (Layout.endings line.layout.depth).map (line.append more).pastBlank.indentation.2.structural ∧
      (line.append more).pastBlank.indentation.2 =
        displacement.state (ofSource tabWidth more).pastBlank.indentation.2 := by
  have alone := ofSource_of_noMark noMark tabWidth
  obtain ⟨lineLayout, laid, kinds⟩ := ended.layout.line_zero ended.noBrackets
  have start : (ofSource tabWidth more).pastBlank.layout.line 0 =
      (.ok .start, ((Layout.ofTabWidth tabWidth).line 0).2) := by
    rw [alone]
    rfl
  have rest : (line.append more).pastBlank.rest = (ofSource tabWidth more).pastBlank.rest := by
    rw [pastBlank, pastBlank, take, take, ended.rest_append, alone]
  have position : (line.append more).pastBlank.position =
      displacement.position (ofSource tabWidth more).pastBlank.position := by
    rw [pastBlank, pastBlank, take, take, ended.rest_append, alone]
    dsimp only
    rw [← displacement.position_advance, ← place]
    rfl
  have sameWidth : (line.append more).pastBlank.layout.tabWidth =
      (ofSource tabWidth more).pastBlank.layout.tabWidth := by
    rw [alone]
    exact ended.layout.tabWidth
  have measured := Layout.measure_of_tabWidth sameWidth (ofSource tabWidth more).pastBlank.rest
  have width : ((ofSource tabWidth more).pastBlank.layout.measure
      (ofSource tabWidth more).pastBlank.rest).width = 0 := by
    rw [alone]
    exact margin hasCode
  have span : (line.append more).pastBlank.spanOf (Scan.leading (line.append more).pastBlank.rest) =
      displacement.span ((ofSource tabWidth more).pastBlank.spanOf
        (Scan.leading (ofSource tabWidth more).pastBlank.rest)) := by
    rw [spanOf, position, rest, displacement.position_advance]
    rfl
  have mixed : (line.append more).pastBlank.mixed =
      (ofSource tabWidth more).pastBlank.mixed.map displacement.error := by
    rw [LexState.mixed, LexState.mixed, span, rest, measured]
    split <;> rfl
  have first := @indentation_of_line (ofSource tabWidth more).pastBlank .start
    ((Layout.ofTabWidth tabWidth).line 0).2 (by rw [width]; exact start)
  have behind := @indentation_of_line (line.append more).pastBlank lineLayout
    ((Layout.ofTabWidth tabWidth).line 0).2 (by rw [rest, measured, width]; exact laid)
  refine ⟨(ofSource tabWidth more).pastBlank.mixed, ?_, ?_, ?_⟩
  · rw [first]
    exact List.append_nil _
  · rw [behind, mixed, kinds]
    rfl
  · rw [behind, first, kinds]
    unfold Displacement.state
    dsimp only [take]
    obtain ⟨kind, last⟩ := Option.ne_none_iff_exists'.mp
      (List.getLast?_eq_none_iff.not.mpr (Layout.endings_ne_nil line.layout.depth))
    have modes : (line.append more).pastBlank.modes = [] := ended.outside
    have running : (line.append more).pastBlank.finished = false := ended.running
    have unended : (line.append more).pastBlank.endedAtLineBreak = false := ended.unended
    rw [rest, position, displacement.position_advance, before, last, modes, running, unended, alone]
    rfl

/-- With no code behind it, a text goes on only with what closes its levels. -/
theorem stream_of_blank {more : List Char} (noCode : (Scan.blankLines more).rest = []) :
    (line.append more).stream false =
        (List.replicate line.layout.depth Kind.dedent ++ [Kind.endOfInput]).map
          (line.append more).pastBlank.structural ∧
      ((line.append more).final false).endedAtLineBreak = true := by
  have nothing : (line.append more).pastBlank.rest = [] := by
    rw [pastBlank, take, ended.rest_append]
    exact noCode
  obtain ⟨stream, final⟩ := (ended.atLine more).stream_of_blank ended.atLineStart nothing
  refine ⟨?_, final.trans ended.hasCode⟩
  rw [stream, List.map_append, List.map_replicate]
  rfl

/-- With code at the margin behind it, a text goes on with the items of that, in another place,
behind what ends its last line. -/
theorem stream_of_code {more : List Char} (noMark : more.head? ≠ some '\ufeff')
    (hasCode : (Scan.blankLines more).rest ≠ []) (margin : Text.AtMargin tabWidth more) :
    ∃ (displacement : Displacement) (errors : List LexError) (items : List LexItem),
      (ofSource tabWidth more).stream false = errors.map .error ++ items ∧
      (line.append more).stream false = (errors.map displacement.error).map .error ++
        (Layout.endings line.layout.depth).map (line.append more).pastBlank.indentation.2.structural ++
          items.map displacement.item ∧
      (((line.append more).final false).endedAtLineBreak =
          ((ofSource tabWidth more).final false).endedAtLineBreak ∨
        ∀ token ∈ tokens items, Displacement.closes token) := by
  obtain ⟨displacement, place, before⟩ := ended.exists_displacement
  obtain ⟨errors, first, behind, state⟩ :=
    ended.indentation_append noMark hasCode margin place before
  have start := atLine_ofSource tabWidth more
  have alone := ofSource_of_noMark noMark tabWidth
  obtain ⟨stream, final⟩ := start.stream_of_code rfl (by rw [alone]; exact hasCode)
  obtain ⟨streamBehind, finalBehind⟩ := (ended.atLine more).stream_of_code ended.atLineStart (by
    rw [pastBlank, take, ended.rest_append]
    exact hasCode)
  obtain ⟨items, same⟩ := @displacement.streams_state
    (ofSource tabWidth more).pastBlank.indentation.2 start.running
  refine ⟨displacement, errors, _, first ▸ stream, ?_, ?_⟩
  · rw [streamBehind, behind, state, items]
  · rw [finalBehind, final, state]
    exact same.imp_right And.right

end EndedLine

end LexState

end Offside
