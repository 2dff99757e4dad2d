import Offside.Proofs.IndentationWidths
import Offside.Proofs.Lexer.Sequence

/-!
Lines of code with their indentation. What tokens the layout of lines comes to is a matter of the
levels that are open before each line; the lexer yields exactly those tokens.
-/

namespace Offside

open Lexeme

/-- A line of code: its indentation and its lexemes. -/
structure Line where
  width : Nat
  lexemes : List Lexeme

namespace Line

def text (line : Line) : List Char :=
  List.replicate line.width ' ' ++ (written line.lexemes ++ ['\n'])

def textAll (lines : List Line) : List Char :=
  lines.flatMap text

/-- The line is not blank, and its indentation is counted exactly. -/
structure Sound (line : Line) : Prop where
  code : Code line.lexemes
  nonempty : line.lexemes ≠ []
  counted : line.width < Layout.widthCount

end Line

/-- The line break before a line that is set apart. -/
def lineBreak (apart : Bool) : List Lexeme :=
  if apart then [layout .newline] else []

/-- The tokens of lines. The flag tells whether a line at the same level as the one before it is
set apart by a token; it is not if that level was just opened or returned to. -/
inductive Lays : Bool → List Nat → List Line → List Lexeme → Prop
  | done {apart : Bool} {levels : List Nat} :
      Lays apart levels []
        (List.replicate levels.length (layout .dedent) ++ [layout .endOfInput])
  | stays {apart : Bool} {levels : List Nat} {lexemes tokens : List Lexeme} {lines : List Line}
      (later : Lays true levels lines tokens) :
      Lays apart levels (⟨levels.headD 0, lexemes⟩ :: lines)
        (lineBreak apart ++ (lexemes ++ tokens))
  | opens {apart : Bool} {levels : List Nat} {width : Nat} {lexemes tokens : List Lexeme}
      {lines : List Line} (deeper : levels.headD 0 < width)
      (later : Lays true (width :: levels) lines tokens) :
      Lays apart levels (⟨width, lexemes⟩ :: lines) (layout .indent :: (lexemes ++ tokens))
  | returns {apart : Bool} {closed levels : List Nat} {lexemes tokens : List Lexeme}
      {lines : List Line} (nonempty : closed ≠ [])
      (deeper : ∀ level ∈ closed, levels.headD 0 < level) (later : Lays true levels lines tokens) :
      Lays apart (closed ++ levels) (⟨levels.headD 0, lexemes⟩ :: lines)
        (List.replicate closed.length (layout .dedent) ++ (lexemes ++ tokens))

namespace Lays

variable {apart : Bool} {levels : List Nat} {lines : List Line} {tokens : List Lexeme}

/-- A deeper line opens a level, at which it then stands. -/
theorem opening {width : Nat} {lexemes : List Lexeme} (deeper : levels.headD 0 < width)
    (inside : Lays false (width :: levels) (⟨width, lexemes⟩ :: lines) tokens) :
    Lays apart levels (⟨width, lexemes⟩ :: lines) (layout .indent :: tokens) := by
  generalize opened : width :: levels = all at inside
  generalize first : Line.mk width lexemes = line at inside
  cases inside with
  | stays later =>
    obtain ⟨_, rfl⟩ := Line.mk.inj first
    subst opened
    exact .opens deeper later
  | opens tooDeep later =>
    obtain ⟨rfl, _⟩ := Line.mk.inj first
    subst opened
    exact absurd tooDeep (Nat.lt_irrefl _)
  | @returns _ closed levels _ _ _ nonempty tooDeep later =>
    obtain ⟨same, rfl⟩ := Line.mk.inj first
    obtain ⟨level, others, rfl⟩ := List.exists_cons_of_ne_nil nonempty
    obtain ⟨rfl, _⟩ := List.cons.inj opened
    have above := tooDeep width List.mem_cons_self
    omega

/-- Before a line at a lower level, or at the end, a level is closed. -/
theorem closing {level : Nat} (deeper : levels.headD 0 < level)
    (lower : ∀ line ∈ lines.head?, line.width ≤ levels.headD 0)
    (outside : Lays false levels lines tokens) :
    Lays apart (level :: levels) lines (layout .dedent :: tokens) := by
  cases outside with
  | done => exact .done
  | stays later =>
    have closed : ∀ other ∈ [level], levels.headD 0 < other := by
      intro other member
      rwa [List.mem_singleton.mp member]
    exact .returns (List.cons_ne_nil level []) closed later
  | opens tooDeep later =>
    have bound := lower _ rfl
    exact absurd tooDeep (Nat.not_lt_of_le bound)
  | @returns _ closed levels _ _ _ nonempty higher later =>
    refine .returns (List.cons_ne_nil level closed) ?_ later
    intro other member
    rcases List.mem_cons.mp member with rfl | inClosed
    · obtain ⟨first, others, rfl⟩ := List.exists_cons_of_ne_nil nonempty
      exact Nat.lt_trans (higher first List.mem_cons_self) deeper
    · exact higher other inClosed

end Lays

/-! ## Widths -/

theorem Layout.line_of_closed {layout : Layout} {closed levels : List Nat}
    (equality : layout.levels = closed ++ levels) (nonempty : closed ≠ [])
    (deeper : ∀ level ∈ closed, levels.headD 0 < level) :
    layout.line (levels.headD 0) =
      (.ok (.dedent closed.length), { layout with levels, started := true }) := by
  obtain ⟨first, others, rfl⟩ := List.exists_cons_of_ne_nil nonempty
  have top : layout.top = first := by rw [Layout.top, equality]; rfl
  have above := deeper first List.mem_cons_self
  have rest : Layout.closeAbove (levels.headD 0) layout.levels = levels := by
    rw [equality, Layout.closeAbove, List.dropWhile_append_of_pos]
    · cases levels with
      | nil => rfl
      | cons level levels => simp
    · intro level member
      exact decide_eq_true (deeper level member)
  have count : layout.levels.length - levels.length = (first :: others).length := by
    rw [equality, List.length_append, Nat.add_sub_cancel]
  have notTop : levels.headD 0 ≠ layout.top := by omega
  have notDeeper : ¬ layout.top < levels.headD 0 := by omega
  unfold Layout.line
  rw [if_neg notTop, if_neg notDeeper, rest]
  simp only [Layout.top, Layout.depth, count, if_true]

theorem Layout.measure_spaces (layout : Layout) {width : Nat} (counted : width < widthCount) :
    layout.measure (List.replicate width ' ') = ⟨width, false⟩ := by
  have blanks : (List.replicate width ' ').takeWhile Text.isBlank = List.replicate width ' ' := by
    rw [List.takeWhile_replicate]
    rfl
  have widened : (List.replicate width ' ').foldl (widen layout.tabWidth) 0 = width := by
    rw [foldl_widen layout.tabWidth fun _ member => List.eq_of_mem_replicate member ▸ rfl,
      columns_spaces, Nat.mod_eq_of_lt counted]
  have noTab : (List.replicate width ' ').contains '\t' = false := by
    simp [List.contains_eq_mem, List.mem_replicate]
  rw [measure, blanks, widened, noTab, Bool.and_false]

/-! ## Lines -/

theorem Scan.Opens.notBlank {input : List Char} (opens : Opens input) :
    input.head?.any Text.isBlank = false := by
  cases input with
  | nil => rfl
  | cons c rest =>
    cases blank : Text.isBlank c with
    | false => exact blank
    | true =>
      have gap := opens.noGap
      simp only [Text.isBlank, Text.isInlineBlank, Bool.or_eq_true, decide_eq_true_eq] at blank
      rcases blank with ((rfl | rfl) | rfl) | rfl
      · exact absurd gap (Option.some_ne_none _)
      · exact absurd gap (Option.some_ne_none _)
      · exact absurd gap (Option.some_ne_none _)
      · exact absurd gap (Option.some_ne_none _)

theorem Scan.blankLines_line (width : Nat) {input : List Char} (opens : Opens input) :
    leading (List.replicate width ' ' ++ input) = ⟨List.replicate width ' ', input⟩ ∧
      blankLines (List.replicate width ' ' ++ input) =
        .nothing (List.replicate width ' ' ++ input) := by
  have lead : leading (List.replicate width ' ' ++ input) =
      ⟨List.replicate width ' ', input⟩ := by
    apply run_append _ opens.notBlank
    intro c member
    rw [List.eq_of_mem_replicate member]
    rfl
  refine ⟨lead, ?_⟩
  have nonempty : (Split.nothing input).rest ≠ [] := opens.nonempty
  rw [blankLines, lead, trivia_of_opens opens]
  dsimp only
  rw [if_neg nonempty]
  split
  next => rfl
  next found =>
    have noBreak : lineBreak? (Split.nothing input).rest = none := opens.noBreak
    rw [noBreak] at found
    contradiction

theorem Scan.blankLines_nil : blankLines [] = ⟨[], []⟩ := by
  have nothingLeft : (trivia (leading []).rest).rest = [] :=
    List.eq_nil_of_length_eq_zero (Nat.le_zero.mp (of_trivia []).length_le)
  rw [blankLines, if_pos nothingLeft]

theorem Scan.trivia_lineFeed (input : List Char) :
    trivia ('\n' :: input) = .nothing ('\n' :: input) := by
  have noGap : gap? ('\n' :: input) = none := rfl
  rw [trivia]
  split
  next => rfl
  next found =>
    rw [noGap] at found
    contradiction

namespace LexState

/-- The lexer is at the start of a line of code, inside of nothing. -/
structure AtLine (state : LexState) : Prop where
  running : state.finished = false
  outside : state.modes = []
  noBrackets : state.layout.inBrackets = false

theorem AtLine.moved {state : LexState} (atLine : AtLine state) {layout : Layout}
    (noBrackets : layout.inBrackets = false) (rest : List Char) (position : Position)
    (atLineStart : Bool) (lastKind : Option Kind) :
    AtLine { state with rest, position, layout, atLineStart, lastKind } :=
  ⟨atLine.running, atLine.outside, noBrackets⟩

/-- What is yielded from the start of a line on. -/
def fromLine (state : LexState) : List LexItem :=
  state.lineStart.1 ++ state.lineStart.2.stream false

/-- At the end of a line the next one starts. -/
theorem stream_lineFeed {state : LexState} (atLine : AtLine state)
    (inLine : state.atLineStart = false) {input : List Char} (rest : state.rest = '\n' :: input) :
    ∃ position, state.stream false =
      fromLine { state with rest := input, position, atLineStart := true } := by
  have coded : state.step = state.code := by
    unfold step
    rw [atLine.outside]
  have step : state.code = LexState.lineStart { state with
      rest := input
      position := (state.position.advance []).advance ['\n']
      atLineStart := true } := by
    unfold code
    rw [if_neg (by simp [atLine.noBrackets]), if_neg (by simp [inLine]), rest,
      Scan.trivia_lineFeed]
    rfl
  have proceeds : state.proceed false = state.step := rfl
  rw [stream_of_running false atLine.running, proceeds, coded, step]
  exact ⟨_, rfl⟩

theorem indentation_eq {state : LexState} {width : Nat} (counted : width < Layout.widthCount)
    {input : List Char} (opens : Scan.Opens input)
    (rest : state.rest = List.replicate width ' ' ++ input)
    {lineLayout : LineLayout} {layout : Layout}
    (laid : state.layout.line width = (.ok lineLayout, layout)) :
    ∃ position, state.indentation =
      ((layoutKinds lineLayout).map fun kind => .token (.structural kind (.emptyAt position)),
        { state with
          rest := input, position, layout, atLineStart := false
          lastKind := (layoutKinds lineLayout).getLast?.or state.lastKind }) := by
  have lead := (Scan.blankLines_line width opens).1
  unfold indentation
  rw [rest, lead]
  simp only [Layout.measure_spaces state.layout counted, laid, lineKinds, lineErrors]
  rw [List.map_nil, List.append_nil]
  exact ⟨_, rfl⟩

/-- The indentation of a line comes first, and then its code. -/
theorem fromLine_eq {state : LexState} {width : Nat} (counted : width < Layout.widthCount)
    {input : List Char} (opens : Scan.Opens input)
    (rest : state.rest = List.replicate width ' ' ++ input)
    {lineLayout : LineLayout} {layout : Layout}
    (laid : state.layout.line width = (.ok lineLayout, layout)) :
    ∃ (tokens : List Token) (code : LexState),
      tokens.map Token.lexeme = (layoutKinds lineLayout).map Lexeme.layout ∧
        state.fromLine =
          tokens.map .token ++ (code.codeToken.1 ++ code.codeToken.2.stream false) ∧
        ∃ position, code = { state with
          rest := input, position, layout, atLineStart := false
          lastKind := (layoutKinds lineLayout).getLast?.or state.lastKind } := by
  have notBlank := (Scan.blankLines_line width opens).2
  have nonempty : (state.take (Scan.blankLines state.rest)).rest ≠ [] := by
    rw [rest, notBlank]
    exact List.append_ne_nil_of_right_ne_nil _ opens.nonempty
  have taken : (state.take (Scan.blankLines state.rest)).rest =
      List.replicate width ' ' ++ input := by
    rw [rest, notBlank]
    rfl
  obtain ⟨position, indented⟩ := indentation_eq counted opens taken laid
  unfold fromLine lineStart
  rw [if_neg nonempty]
  simp only [indented, Scan.trivia_of_opens opens]
  refine ⟨(layoutKinds lineLayout).map fun kind => .structural kind (.emptyAt position), _, ?_, ?_,
    (position.advance []), rfl⟩
  · rw [List.map_map]
    rfl
  · rw [List.map_map, List.append_assoc]
    rfl

/-- From the start of a line to the end of the text exactly the given lexemes are yielded. -/
def Tells (state : LexState) (lexemes : List Lexeme) : Prop :=
  ∃ tokens : List Token,
    tokens.map Token.lexeme = lexemes ∧ state.fromLine = tokens.map .token

/-- A line is yielded with what its indentation does, and then the next one starts. -/
theorem tells_line {state : LexState} (atLine : AtLine state) {line : Line} (sound : line.Sound)
    {lines : List Line} (rest : state.rest = Line.textAll (line :: lines))
    {lineLayout : LineLayout} {layout : Layout}
    (laid : state.layout.line line.width = (.ok lineLayout, layout))
    (noBrackets : layout.inBrackets = false) {later : List Lexeme}
    (next : ∀ after : LexState, AtLine after → after.rest = Line.textAll lines →
      after.layout = layout → Tells after later) :
    Tells state ((layoutKinds lineLayout).map Lexeme.layout ++ (line.lexemes ++ later)) := by
  have setOff := Scan.setOff_lineFeed (Line.textAll lines)
  have opens := sound.code.opens sound.nonempty setOff
  rw [Line.textAll, List.flatMap_cons, Line.text, List.append_assoc, List.append_assoc,
    List.cons_append, List.nil_append] at rest
  obtain ⟨before, code, kinds, items, position, rfl⟩ :=
    fromLine_eq sound.counted opens rest laid
  obtain ⟨last, codeKind, tokens, same, codeItems⟩ := sound.code.readsBack sound.nonempty
    { state with
      rest := written line.lexemes ++ '\n' :: Line.textAll lines
      position, layout, atLineStart := false
      lastKind := (layoutKinds lineLayout).getLast?.or state.lastKind } ('\n' :: Line.textAll lines)
    ⟨atLine.running, fun _ _ => by simp [atLine.outside], Or.inr rfl⟩ setOff rfl
  have atEnd := atLine.moved noBrackets ('\n' :: Line.textAll lines) last false codeKind
  obtain ⟨nextPosition, ended⟩ := stream_lineFeed atEnd rfl rfl
  obtain ⟨others, sameOthers, itemsOthers⟩ := next _
    (atLine.moved noBrackets (Line.textAll lines) nextPosition true codeKind) rfl rfl
  refine ⟨before ++ (tokens ++ others), ?_, ?_⟩
  · rw [List.map_append, List.map_append, kinds, same, sameOthers]
  · rw [items, codeItems, ended, itemsOthers, List.map_append, List.map_append]

/-- At the end of the text all levels are closed. -/
theorem tells_end {state : LexState} (atLine : AtLine state) (rest : state.rest = []) :
    Tells state (List.replicate state.layout.levels.length (Lexeme.layout .dedent) ++
      [Lexeme.layout .endOfInput]) := by
  have nothingLeft : (state.take (Scan.blankLines state.rest)).rest = [] := by
    rw [rest, Scan.blankLines_nil]
    rfl
  have outside : (state.take (Scan.blankLines state.rest)).openString? = none := by
    rw [openString?, take, atLine.outside]
    rfl
  unfold Tells fromLine lineStart
  rw [if_pos nothingLeft, finish, outside, stream_of_finished false rfl]
  refine ⟨List.replicate state.layout.levels.length
    (.structural .dedent (.emptyAt (state.take (Scan.blankLines state.rest)).position)) ++
    [.structural .endOfInput (.emptyAt (state.take (Scan.blankLines state.rest)).position)], ?_, ?_⟩
  · rw [List.map_append, List.map_replicate]
    rfl
  · rw [List.map_append, List.map_replicate, List.append_nil]
    rfl

/-- The lines of a text are yielded with all their layout. -/
theorem tells_lines {apart : Bool} {levels : List Nat} {lines : List Line} {lexemes : List Lexeme}
    (lays : Lays apart levels lines lexemes) (sound : ∀ line ∈ lines, line.Sound)
    {state : LexState} (atLine : AtLine state) (rest : state.rest = Line.textAll lines)
    (started : state.layout.started = apart) (standing : state.layout.levels = levels) :
    Tells state lexemes := by
  induction lays generalizing state with
  | done =>
    subst standing
    exact tells_end atLine rest
  | @stays apart levels lexemes tokens lines later inductionHypothesis =>
    have laid : state.layout.line (levels.headD 0) =
        (.ok (if apart then .newline else .start), { state.layout with started := true }) := by
      have top : levels.headD 0 = state.layout.top := by rw [Layout.top, standing]
      unfold Layout.line
      rw [if_pos top, started]
    have told := tells_line atLine (sound _ List.mem_cons_self) rest laid atLine.noBrackets
      fun after atNext nextRest nextLayout =>
        inductionHypothesis (fun line member => sound line (List.mem_cons_of_mem _ member)) atNext
          nextRest (by rw [nextLayout]) (by rw [nextLayout, standing])
    cases apart
    · exact told
    · exact told
  | @opens apart levels width lexemes tokens lines deeper later inductionHypothesis =>
    have laid : state.layout.line width =
        (.ok .indent, { state.layout with levels := width :: levels, started := true }) := by
      have top : state.layout.top = levels.headD 0 := by rw [Layout.top, standing]
      unfold Layout.line
      rw [top, if_neg (Nat.ne_of_gt deeper), if_pos deeper, standing]
    exact tells_line atLine (sound _ List.mem_cons_self) rest laid atLine.noBrackets
      fun after atNext nextRest nextLayout =>
        inductionHypothesis (fun line member => sound line (List.mem_cons_of_mem _ member)) atNext
          nextRest (by rw [nextLayout]) (by rw [nextLayout])
  | @returns apart closed levels lexemes tokens lines nonempty deeper later inductionHypothesis =>
    have laid := Layout.line_of_closed standing nonempty deeper
    have told := tells_line atLine (sound _ List.mem_cons_self) rest laid atLine.noBrackets
      fun after atNext nextRest nextLayout =>
        inductionHypothesis (fun line member => sound line (List.mem_cons_of_mem _ member)) atNext
          nextRest (by rw [nextLayout]) (by rw [nextLayout])
    rwa [layoutKinds, List.map_replicate] at told

end LexState

/-! ## Texts -/

theorem Line.width_le {lines : List Line} {line : Line} (member : line ∈ lines) :
    line.width ≤ (textAll lines).length := by
  have inside : line.text.length ≤ (textAll lines).length :=
    (List.sublist_flatten_of_mem (List.mem_map_of_mem member)).length_le
  have indented : line.width ≤ line.text.length := by
    rw [text, List.length_append, List.length_replicate]
    exact Nat.le_add_right _ _
  exact Nat.le_trans indented inside

theorem Line.noMark {lines : List Line} (sound : ∀ line ∈ lines, line.Sound) :
    (textAll lines).head? ≠ some '\ufeff' := by
  cases lines with
  | nil => exact nofun
  | cons line lines =>
    have head := sound line List.mem_cons_self
    have opens := head.code.opens head.nonempty (Scan.setOff_lineFeed (textAll lines))
    have split : textAll (line :: lines) =
        List.replicate line.width ' ' ++ (written line.lexemes ++ '\n' :: textAll lines) := by
      rw [textAll, List.flatMap_cons, text, List.append_assoc, List.append_assoc]
      rfl
    rw [split]
    cases line.width with
    | zero => exact opens.noMark
    | succ width => exact nofun

theorem LexState.ofSource_of_noMark {source : List Char} (noMark : source.head? ≠ some '\ufeff')
    (tabWidth : Nat) :
    ofSource tabWidth source =
      ⟨source, .start, [], .ofTabWidth tabWidth, true, none, false, false⟩ := by
  unfold ofSource
  split
  next marked =>
    split at marked
    next => exact absurd rfl noMark
    next =>
      obtain ⟨rfl, rfl⟩ := Prod.mk.inj marked
      rfl

/-- The items of a text of lines are the tokens of its lines and of their layout. -/
theorem items_of_lays {lines : List Line} {lexemes : List Lexeme}
    (lays : Lays false [] lines lexemes) (sound : ∀ line ∈ lines, line.Sound) (tabWidth : Nat) :
    ∃ tokens : List Token, tokens.map Token.lexeme = lexemes ∧
      (Lexer.ofSource tabWidth (Line.textAll lines)).items false = tokens.map .token := by
  have initial := LexState.ofSource_of_noMark (Line.noMark sound) tabWidth
  have atLine : LexState.AtLine (LexState.ofSource tabWidth (Line.textAll lines)) := by
    rw [initial]
    exact ⟨rfl, rfl, rfl⟩
  have proceeds : (LexState.ofSource tabWidth (Line.textAll lines)).proceed false =
      (LexState.ofSource tabWidth (Line.textAll lines)).lineStart := by
    rw [initial]
    rfl
  obtain ⟨tokens, same, items⟩ := LexState.tells_lines lays sound atLine (by rw [initial])
    (by rw [initial]; rfl) (by rw [initial]; rfl)
  have stream := LexState.stream_of_running false atLine.running
  rw [proceeds] at stream
  exact ⟨tokens, same, stream.trans items⟩

end Offside
