import Offside.Proofs.Concatenation
import Offside.Proofs.Lexer.SourceOrder
import Offside.Proofs.Scan.Codeless

/-!
Lines without code are not seen. Where a line may start, any number of lines that hold only blanks
and comments can be put in, and the same tokens are found and the same is wrong with them. The lexer
passes over such lines before it looks at the line of code behind them, so that only the places of
what follows are others.
-/

namespace Offside

open LexStream

/-- A diagnostic without its place. -/
def Diagnostic.finding (diagnostic : Diagnostic) : DiagnosticKind × Severity × String :=
  (diagnostic.kind, diagnostic.severity, diagnostic.message)

/-! ## Places behind lines without code -/

/-- Behind lines that are closed, places are further on in the same column. -/
theorem Position.exists_advance (position : Position) (text : List Char) :
    ∃ bytes lines column, position.advance text =
      ⟨position.offset + bytes, position.line + lines, column⟩ := by
  induction text generalizing position with
  | nil => exact ⟨0, 0, position.column, rfl⟩
  | cons c text inductionHypothesis =>
    obtain ⟨bytes, lines, column, further⟩ := inductionHypothesis (position.past c)
    rw [advance_cons, further, past]
    split
    · exact ⟨c.utf8Size + bytes, 1 + lines, column, by rw [Nat.add_assoc, Nat.add_assoc]⟩
    · exact ⟨c.utf8Size + bytes, lines, column, by rw [Nat.add_assoc]⟩

theorem Text.Codeless.exists_displacement {text : List Char} (codeless : Codeless text)
    {position : Position} (inFront : position.column = 1) :
    ∃ displacement : Displacement, displacement.before = none ∧
      position.advance text = displacement.position position := by
  obtain ⟨bytes, lines, column, further⟩ := position.exists_advance text
  have sameColumn : column = position.column := by
    have reached : (position.advance text).column = column := congrArg Position.column further
    rcases codeless.closed with rfl | ⟨line, rfl⟩
    · exact reached.symm
    · rw [Position.advance_append, Position.advance_cons, Position.past, if_pos rfl] at reached
      exact reached.symm.trans inFront.symm
  refine ⟨⟨bytes, lines, none, rfl⟩, rfl, ?_⟩
  rw [further, sameColumn]
  rfl

namespace LexState

variable {state : LexState} {lines : List Char}

/-- The state with some more text in front of the rest. -/
def behind (lines : List Char) (state : LexState) : LexState :=
  { state with rest := lines ++ state.rest }

/-- Where a line may start, lines without code only put the items further on. -/
theorem AtLine.stream_behind (atLine : AtLine state) (atStart : state.atLineStart = true)
    (codeless : Text.Codeless lines) {displacement : Displacement}
    (before : displacement.before = none)
    (further : state.position.advance lines = displacement.position state.position) :
    (state.behind lines).stream false = (state.stream false).map displacement.item := by
  have same : (state.behind lines).pastBlank = (displacement.state state).pastBlank := by
    have outside : state.modes = [] := atLine.outside
    unfold pastBlank behind take Displacement.state
    dsimp only
    rw [Scan.blankLines_of_codeless codeless, before, outside, Option.or_none]
    dsimp only [Scan.Split.after]
    rw [Position.advance_append, further]
    rfl
  have displaced : AtLine (displacement.state state) :=
    ⟨atLine.running, by rw [Displacement.state, atLine.outside]; rfl, atLine.noBrackets⟩
  have behindLines : AtLine (state.behind lines) :=
    ⟨atLine.running, atLine.outside, atLine.noBrackets⟩
  have step : (state.behind lines).proceed false = (displacement.state state).proceed false := by
    change (state.behind lines).step = (displacement.state state).step
    rw [behindLines.step_eq atStart, displaced.step_eq atStart]
    exact lineStart_of_pastBlank same
  rw [← (displacement.streams_state state atLine.running).stream,
    stream_of_running false behindLines.running, stream_of_running false displaced.running, step]

theorem located_of_atLine (atLine : AtLine state) : Located state.place state :=
  ⟨.refl _, fun _ member => absurd (atLine.outside ▸ member) List.not_mem_nil⟩

/-- What is wrong behind a place is found there or further on. -/
theorem AtLine.le_of_error (atLine : AtLine state) {error : LexError}
    (member : .error error ∈ state.stream false) : state.position ≤ error.span.first := by
  obtain ⟨⟨_, leads⟩, _⟩ := (located_final false (located_of_atLine atLine)).1 _ member
  exact leads.le

/-- With nothing behind it, the steps end where the last line ends. -/
theorem EndedLine.place_final {tabWidth : Nat} {line : LexState} (ended : EndedLine tabWidth line) :
    ((line.append []).final false).state.place = ⟨line.position, []⟩ := by
  have nothing : (line.append []).pastBlank = line := by
    obtain ⟨rest, position, modes, layout, atLineStart, lastKind, finished, endedAtLineBreak⟩ := line
    obtain rfl : rest = [] := ended.rest
    rw [append_nil, pastBlank, Scan.blankLines_nil]
    rfl
  have outside : line.openString? = none := by
    rw [openString?, ended.outside]
    rfl
  have step : (line.append []).proceed false = line.finish := by
    refine ((ended.atLine []).step_eq ended.atLineStart).trans ?_
    rw [lineStart_of_blank (by rw [nothing]; exact ended.rest), nothing]
  rw [final_of_running false (ended.atLine []).running, step,
    final_of_finished false (finished_finish line), finish, outside]
  exact congrArg (Place.mk line.position) ended.rest

/-- What is wrong with a text whose last line is ended starts before the end of that line. -/
theorem LeadsTo.error_le {tabWidth : Nat} {source : List Char} {items : List LexItem}
    {line : LexState} (leadsTo : LeadsTo (ofSource tabWidth source) items line)
    (ended : EndedLine tabWidth line) {error : LexError} (member : .error error ∈ items) :
    error.span.first ≤ line.position := by
  obtain ⟨covers, ⟨leads, _⟩⟩ :=
    located_final false (located_of_atLine (atLine_ofSource tabWidth source))
  have stream := leadsTo.stream []
  have final := leadsTo.final []
  rw [append_nil] at stream final
  have inStream : .error error ∈ (ofSource tabWidth source).stream false := by
    rw [stream]
    exact List.mem_append_left _ member
  rw [final, ended.place_final] at leads
  exact (covers _ inStream).1.le_of_leads leads

end LexState

/-! ## Items behind lines without code -/

/-- Items of a text up to a place and from there on, where the latter stand further on in another
text. -/
structure Further (displacement : Displacement) (here : Position) (before later : List LexItem) :
    Prop where
  further : here ≤ displacement.position here
  ahead : ∀ error, .error error ∈ before → error.span.first ≤ here
  behind : ∀ error, .error error ∈ later → here ≤ error.span.first

namespace Further

variable {displacement : Displacement} {here : Position} {before later : List LexItem}

theorem lexemes (displacement : Displacement) (before later : List LexItem) :
    (tokens (before ++ later.map displacement.item)).map Token.lexeme =
      (tokens (before ++ later)).map Token.lexeme := by
  rw [tokens_append, tokens_append, displacement.tokens_map_item, List.map_append, List.map_append,
    List.map_map]
  rfl

/-- The errors of both texts, each as it is found in the one and in the other. -/
def pairs (displacement : Displacement) (before later : List LexItem) :
    List (Diagnostic × Diagnostic) :=
  (before.filterMap LexItem.error?).map (fun error => (error.toDiagnostic, error.toDiagnostic)) ++
    (later.filterMap LexItem.error?).map fun error =>
      (error.toDiagnostic, (displacement.error error).toDiagnostic)

theorem errors_map_item (items : List LexItem) :
    (items.map displacement.item).filterMap LexItem.error? =
      (items.filterMap LexItem.error?).map displacement.error := by
  rw [List.filterMap_map, List.map_filterMap]
  refine List.filterMap_congr fun item _ => ?_
  cases item <;> rfl

theorem agree (further : Further displacement here before later) :
    (pairs displacement before later).Pairwise fun first later =>
      first.1.span.first ≤ later.1.span.first ↔ first.2.span.first ≤ later.2.span.first := by
  refine List.pairwise_append.mpr ⟨?_, ?_, fun first member last inLater => ?_⟩
  · exact List.pairwise_map.mpr (List.pairwise_of_forall fun _ _ => Iff.rfl)
  · exact List.pairwise_map.mpr (List.pairwise_of_forall fun _ _ =>
      (displacement.position_le_iff _ _).symm)
  · obtain ⟨error, isError, rfl⟩ := List.mem_map.mp member
    obtain ⟨other, isOther, rfl⟩ := List.mem_map.mp inLater
    have upTo := further.ahead error (LexItem.mem_errors.mp isError)
    have onwards := further.behind other (LexItem.mem_errors.mp isOther)
    have displaced := (displacement.position_le_iff here other.span.first).mpr onwards
    exact iff_of_true (Position.le_trans upTo onwards)
      (Position.le_trans upTo (Position.le_trans further.further displaced))

theorem findings (further : Further displacement here before later) :
    (Diagnostic.sorted (((before ++ later.map displacement.item).filterMap LexItem.error?).map
        LexError.toDiagnostic)).map Diagnostic.finding =
      (Diagnostic.sorted (((before ++ later).filterMap LexItem.error?).map
        LexError.toDiagnostic)).map Diagnostic.finding := by
  obtain ⟨ordered, perm, lefts, rights⟩ := Diagnostic.exists_sorted_pairs _ further.agree
  have firsts : (pairs displacement before later).map Prod.fst =
      ((before ++ later).filterMap LexItem.error?).map LexError.toDiagnostic := by
    rw [pairs, List.map_append, List.map_map, List.map_map, List.filterMap_append, List.map_append]
    rfl
  have seconds : (pairs displacement before later).map Prod.snd =
      ((before ++ later.map displacement.item).filterMap LexItem.error?).map
        LexError.toDiagnostic := by
    rw [pairs, List.map_append, List.map_map, List.map_map, List.filterMap_append, List.map_append,
      errors_map_item, List.map_map]
    rfl
  rw [← firsts, ← seconds, lefts, rights, List.map_map, List.map_map]
  refine List.map_congr_left fun pair member => ?_
  rcases List.mem_append.mp (perm.mem_iff.mp member) with inBefore | inLater
  · obtain ⟨error, _, rfl⟩ := List.mem_map.mp inBefore
    rfl
  · obtain ⟨error, _, rfl⟩ := List.mem_map.mp inLater
    rfl

end Further

/-! ## Whole texts -/

/-- Where lines can be put in behind a text: at its start, or behind its last line, if that is
ended. -/
def Text.OpensLine (settings : Settings) (ahead : List Char) : Prop :=
  ahead = [] ∨ Text.EndsLine ahead ∧ (Input.of settings ahead).endsInLineBreak = true

theorem Text.Codeless.noMark {lines : List Char} (codeless : Codeless lines) :
    lines.head? ≠ some '\ufeff' := by
  cases codeless with
  | nil => exact (Option.some_ne_none _).symm
  | line isGaps isRemark _ =>
    cases isGaps with
    | nil =>
      cases isRemark with
      | nothing => exact fun same => absurd (Option.some.inj same) (by decide)
      | comment _ => exact fun same => absurd (Option.some.inj same) (by decide)
    | blank isBlank _ =>
      intro same
      obtain rfl := Option.some.inj same
      contradiction
    | comment _ _ => exact fun same => absurd (Option.some.inj same) (by decide)

theorem exists_further {settings : Settings} (cancelled : Bool) {ahead lines behind : List Char}
    (codeless : Text.Codeless lines) (opensLine : Text.OpensLine settings ahead)
    (noMark : (ahead ++ behind).head? ≠ some '\ufeff') :
    ∃ displacement here before later, Further displacement here before later ∧
      (LexState.ofSource settings.tabWidth (ahead ++ behind)).stream cancelled = before ++ later ∧
      (LexState.ofSource settings.tabWidth (ahead ++ lines ++ behind)).stream cancelled =
        before ++ later.map displacement.item := by
  have noMarkLonger : (ahead ++ lines ++ behind).head? ≠ some '\ufeff' := by
    rw [List.append_assoc]
    cases ahead with
    | nil =>
      cases lines with
      | nil => exact noMark
      | cons c lines => exact codeless.noMark
    | cons c ahead => exact noMark
  have alone := LexState.ofSource_of_noMark noMark settings.tabWidth
  have longer := LexState.ofSource_of_noMark noMarkLonger settings.tabWidth
  cases cancelled with
  | true =>
    refine ⟨⟨0, 0, none, rfl⟩, .start, [.error ⟨.cancelled, .emptyAt .start⟩], [],
      ⟨Position.le_refl _, fun error member => ?_, fun _ member => absurd member List.not_mem_nil⟩,
      ?_, ?_⟩
    · obtain rfl := LexItem.error.inj (List.mem_singleton.mp member)
      exact Position.le_refl _
    · rw [LexState.stream_cancelled rfl, alone]
      rfl
    · rw [LexState.stream_cancelled rfl, longer]
      rfl
  | false =>
    rcases opensLine with rfl | ⟨ends, ended⟩
    · have atLine := LexState.atLine_ofSource settings.tabWidth behind
      rw [List.nil_append] at alone longer ⊢
      obtain ⟨displacement, noKind, further⟩ := @Text.Codeless.exists_displacement _ codeless
        (LexState.ofSource settings.tabWidth behind).position (by rw [alone]; rfl)
      refine ⟨displacement, _, [], _, ⟨further ▸ Position.le_advance _ _,
        fun _ member => absurd member List.not_mem_nil, fun error => atLine.le_of_error⟩, rfl, ?_⟩
      rw [List.nil_append, List.nil_append, ← atLine.stream_behind rfl codeless noKind further, longer,
        alone]
      rfl
    · obtain ⟨items, line, endedLine, leadsTo⟩ :=
        LexState.leadsTo_ofSource settings.tabWidth ends ended
      have atLine := endedLine.atLine behind
      have inFront : (line.append behind).position.column = 1 := by
        obtain ⟨bytes, lines, place⟩ := endedLine.place
        exact congrArg Position.column place
      obtain ⟨displacement, noKind, further⟩ := codeless.exists_displacement inFront
      have both : line.append (lines ++ behind) = (line.append behind).behind lines := by
        rw [LexState.append, LexState.append, LexState.behind, endedLine.rest]
        rfl
      refine ⟨displacement, _, items, _, ⟨further ▸ Position.le_advance _ _,
        fun error => leadsTo.error_le endedLine, fun error => atLine.le_of_error⟩, ?_, ?_⟩
      · rw [LexState.ofSource_append _ _ ends.ne_nil, leadsTo.stream]
      · rw [List.append_assoc, LexState.ofSource_append _ _ ends.ne_nil, leadsTo.stream, both,
          atLine.stream_behind endedLine.atLineStart codeless noKind further]

/-- Lines without code make no difference to the tokens of a text, nor to what is wrong with it. -/
theorem tokenize_codeless (settings : Settings) (cancelled : Bool) {ahead lines behind : List Char}
    (codeless : Text.Codeless lines) (opensLine : Text.OpensLine settings ahead)
    (noMark : (ahead ++ behind).head? ≠ some '\ufeff') :
    (tokenize settings cancelled (ahead ++ lines ++ behind)).tokens.map Token.lexeme =
        (tokenize settings cancelled (ahead ++ behind)).tokens.map Token.lexeme ∧
      (tokenize settings cancelled (ahead ++ lines ++ behind)).diagnostics.map Diagnostic.finding =
        (tokenize settings cancelled (ahead ++ behind)).diagnostics.map Diagnostic.finding := by
  obtain ⟨displacement, here, before, later, further, alone, longer⟩ :=
    exists_further cancelled codeless opensLine noMark
  have items : (Lexer.ofSource settings.tabWidth (ahead ++ behind)).items cancelled =
      before ++ later := alone
  have itemsLonger : (Lexer.ofSource settings.tabWidth (ahead ++ lines ++ behind)).items cancelled =
      before ++ later.map displacement.item := longer
  unfold tokenize
  rw [items, itemsLonger]
  exact ⟨Further.lexemes displacement before later, further.findings⟩

/-- A comment over two lines, one that ends in a backslash and a line of blanks, between a line of
code and one that is indented with blanks of two kinds and has an error in it. -/
theorem tokenize_codeless_between :
    Text.Codeless "/* a\n * b */ // c \\\n\t \r\n".toList ∧
      Text.OpensLine {} "x\n".toList ∧ ("x\n".toList ++ " \t@ y\n".toList).head? ≠ some '\ufeff' ∧
      (tokenize {} false ("x\n".toList ++ "/* a\n * b */ // c \\\n\t \r\n".toList ++
        " \t@ y\n".toList)).tokens.map Token.lexeme =
          (tokenize {} false ("x\n".toList ++ " \t@ y\n".toList)).tokens.map Token.lexeme ∧
      (tokenize {} false ("x\n".toList ++ "/* a\n * b */ // c \\\n\t \r\n".toList ++
        " \t@ y\n".toList)).diagnostics.map Diagnostic.finding =
          (tokenize {} false ("x\n".toList ++ " \t@ y\n".toList)).diagnostics.map
            Diagnostic.finding := by
  have isComments : Text.Codeless "/* a\n * b */ // c \\\n\t \r\n".toList :=
    @Text.Codeless.line "/* a\n * b */ ".toList "// c \\".toList "\t \r\n".toList
      (@Text.Gaps.comment " a\n * b ".toList " ".toList (by decide) (.blank (by decide) .nil))
      (@Text.Remark.comment " c \\".toList (by decide))
      (@Text.Codeless.line "\t \r".toList [] []
        (.blank (by decide) (.blank (by decide) (.blank (by decide) .nil))) .nothing .nil)
  have isLine : Text.OpensLine {} "x\n".toList :=
    Or.inr ⟨⟨"x".toList, by decide, by decide, by decide⟩,
      @Input.endsInLineBreak_of_requests {} _ 3 (by decide +kernel) (by decide +kernel)⟩
  have noMark : ("x\n".toList ++ " \t@ y\n".toList).head? ≠ some '\ufeff' := by decide
  exact ⟨isComments, isLine, noMark, tokenize_codeless {} false isComments isLine noMark⟩

end Offside
