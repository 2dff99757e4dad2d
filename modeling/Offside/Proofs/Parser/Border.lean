import Offside.Proofs.Lexer.Behind
import Offside.Proofs.Parser.Accounting
import Offside.Proofs.Parser.Abreast

/-!
The seam between a text and another one behind it. Up to the end of its last line the tokens of a
text are those of both texts together. Behind it stand the tokens of the other text, in another
place, with what they end in front of them.
-/

namespace Offside

open LexStream

/-- A text that is read without being cancelled. -/
def Input.of (settings : Settings) (source : List Char) : Input :=
  ⟨settings, false, source⟩

/-- Where a text ends that another one stands behind. All its tokens are before the limit but those
that close levels. They stand at its end, or in front of the first line of the other text. -/
structure Border where
  limit : Position
  here : Position
  there : Position
  limit_le_here : limit ≤ here
  limit_le_there : limit ≤ there

namespace Border

variable (border : Border)

/-- Places in a text and the same places with another text behind it. -/
def Places (place place' : Position) : Prop :=
  (place' = place ∧ place < border.limit) ∨ (place = border.here ∧ place' = border.there)

theorem ordered {first later first' later' : Position} (places : border.Places first first')
    (places' : border.Places later later') : first < later ↔ first' < later' := by
  have irrefl (place : Position) : ¬ place < place := fun less => less (Position.le_refl place)
  obtain ⟨limit, here, there, limit_le_here, limit_le_there⟩ := border
  rcases places with ⟨rfl, less⟩ | ⟨rfl, rfl⟩ <;> rcases places' with ⟨rfl, less'⟩ | ⟨rfl, rfl⟩
  · exact Iff.rfl
  · exact iff_of_true (Position.lt_of_lt_of_le less limit_le_here)
      (Position.lt_of_lt_of_le less limit_le_there)
  · exact iff_of_false
      (fun behind => less' (Position.le_trans limit_le_here (Position.le_of_lt behind)))
      (fun behind => less' (Position.le_trans limit_le_there (Position.le_of_lt behind)))
  · exact iff_of_false (irrefl _) (irrefl _)

/-- The seam at the end of a text whose last line is ended, with what is behind it, if there is
code. -/
def seam (settings : Settings) {first second : List Char} (after : Option (List Token))
    (ended : (Input.of settings first).endsInLineBreak = true)
    (together : after = none →
      (Input.of settings (first ++ second)).endsInLineBreak = true) : Seam where
  left := .of settings first
  right := .of settings (first ++ second)
  places := border.Places
  after
  extra := 0
  settings := rfl
  ordered := border.ordered
  together nothing := (together nothing).trans ended.symm
  apart _ := ended

section

variable {settings : Settings} {first second : List Char} {after : Option (List Token)}
  {ended : (Input.of settings first).endsInLineBreak = true}
  {together : after = none → (Input.of settings (first ++ second)).endsInLineBreak = true}

/-- What stands before the limit stands there in both texts. -/
theorem ahead_append {found lefts rights : List Token}
    (before : ∀ token ∈ found, token.span.first < border.limit)
    (ahead : (border.seam settings after ended together).Ahead lefts rights) :
    (border.seam settings after ended together).Ahead (found ++ lefts) (found ++ rights) := by
  induction found with
  | nil => exact ahead
  | cons token found inductionHypothesis =>
    refine .more ⟨rfl, rfl, Or.inl ⟨rfl, before token List.mem_cons_self⟩⟩ ?_
    exact inductionHypothesis fun other member => before other (List.mem_cons_of_mem _ member)

/-- A layout token at some place. -/
def layoutAt (place : Position) (kind : Kind) : Token :=
  .structural kind (.emptyAt place)

theorem twins_layoutAt (kind : Kind) : Twins (border.seam settings after ended together).places
    (layoutAt border.here kind) (layoutAt border.there kind) :=
  ⟨rfl, rfl, Or.inr ⟨rfl, rfl⟩⟩

/-- Without code behind a text the same levels are closed further on. -/
theorem ahead_of_none (kinds : List Kind) {second : List Char}
    {together : none = none → (Input.of settings (first ++ second)).endsInLineBreak = true} :
    (border.seam settings none ended together).Ahead (kinds.map (layoutAt border.here))
      (kinds.map (layoutAt border.there)) := by
  induction kinds with
  | nil => exact .together rfl
  | cons kind kinds inductionHypothesis =>
    exact .more (border.twins_layoutAt kind) inductionHypothesis

/-- With code behind it the last line is ended, or the levels are closed one by one. -/
theorem ahead_of_some (depth : Nat) (goesOn : List Token) {second : List Char}
    {together : some goesOn = none →
      (Input.of settings (first ++ second)).endsInLineBreak = true} :
    (border.seam settings (some goesOn) ended together).Ahead
      ((List.replicate depth Kind.dedent ++ [Kind.endOfInput]).map (layoutAt border.here))
      ((Layout.endings depth).map (layoutAt border.there) ++ goesOn) := by
  cases depth with
  | zero => exact .line rfl rfl rfl
  | succ depth =>
    rw [Layout.endings, if_neg (Nat.succ_ne_zero depth)]
    induction depth with
    | zero => exact .level (border.twins_layoutAt .dedent) rfl rfl rfl
    | succ depth inductionHypothesis =>
      rw [List.replicate_succ]
      exact .more (border.twins_layoutAt .dedent) inductionHypothesis

end

end Border

/-! ## Errors of the lexer -/

namespace LexItem

theorem diagnostics_append (left right : List LexItem) :
    diagnostics (left ++ right) = diagnostics left ++ diagnostics right := by
  rw [diagnostics, List.filterMap_append, List.map_append]
  rfl

theorem diagnostics_map_structural (state : LexState) (kinds : List Kind) :
    diagnostics (kinds.map state.structural) = [] := by
  induction kinds with
  | nil => rfl
  | cons kind kinds inductionHypothesis => exact inductionHypothesis

theorem length_diagnostics_map_error (errors : List LexError) :
    (diagnostics (errors.map .error)).length = errors.length := by
  rw [diagnostics, List.length_map]
  induction errors with
  | nil => rfl
  | cons error errors inductionHypothesis => exact congrArg Nat.succ inductionHypothesis

/-- Errors are as many in another place. -/
theorem length_diagnostics_map_item (displacement : Displacement) (items : List LexItem) :
    (diagnostics (items.map displacement.item)).length = (diagnostics items).length := by
  induction items with
  | nil => rfl
  | cons item items inductionHypothesis =>
    cases item with
    | token token => exact inductionHypothesis
    | error error => exact congrArg Nat.succ inductionHypothesis

end LexItem

/-! ## What the lexer finds -/

/-- What stands behind the seam: nothing if the other text has no code, or its tokens in another
place. Whether its last line is ended can only be seen otherwise where it has no code. -/
inductive Resumes (second whole : Input) : Option (List Token) → Prop
  | blank {last : Token} (tokens : second.tokens = [last]) (isEnd : last.kind = .endOfInput) :
    Resumes second whole none
  | code (displacement : Displacement)
    (ended : whole.endsInLineBreak = second.endsInLineBreak ∨
      ∀ token ∈ second.tokens, Displacement.closes token) :
    Resumes second whole (some (second.tokens.map displacement.token))

theorem exists_border (settings : Settings) {first second : List Char}
    (line : Text.EndsLine first) (ended : (Input.of settings first).endsInLineBreak = true)
    (noMark : second.head? ≠ some '\ufeff') (margin : Text.AtMargin settings.tabWidth second) :
    ∃ (border : Border) (after : Option (List Token)) (together : after = none →
        (Input.of settings (first ++ second)).endsInLineBreak = true),
      (border.seam settings after ended together).Ahead (Input.of settings first).tokens
        (Input.of settings (first ++ second)).tokens ∧
      Resumes (.of settings second) (.of settings (first ++ second)) after ∧
      (ParserState.lexical settings false (first ++ second)).length =
        (ParserState.lexical settings false first).length +
          (ParserState.lexical settings false second).length := by
  obtain ⟨items, last, endedLine, leadsTo⟩ :=
    LexState.leadsTo_ofSource settings.tabWidth line ended
  have alone := leadsTo.stream []
  rw [LexState.append_nil] at alone
  have whole := leadsTo.stream second
  have wholeFinal := leadsTo.final second
  rw [← LexState.ofSource_append second settings.tabWidth line.ne_nil] at whole wholeFinal
  obtain ⟨closing, _⟩ := endedLine.stream_of_blank (congrArg Scan.Split.rest Scan.blankLines_nil)
  rw [closing] at alone
  have tokensAlone : (Input.of settings first).tokens = tokens items ++
      (List.replicate last.layout.depth Kind.dedent ++ [Kind.endOfInput]).map
        (Border.layoutAt (last.append []).pastBlank.position) := by
    change tokens ((LexState.ofSource settings.tabWidth first).stream false) = _
    rw [alone, tokens_append, LexState.tokens_map_structural]
    rfl
  have countAlone : ParserState.lexical settings false first = LexItem.diagnostics items := by
    change LexItem.diagnostics ((LexState.ofSource settings.tabWidth first).stream false) = _
    rw [alone, LexItem.diagnostics_append, LexItem.diagnostics_map_structural, List.append_nil]
  by_cases noCode : (Scan.blankLines second).rest = []
  · obtain ⟨closingWhole, endedWhole⟩ := endedLine.stream_of_blank noCode
    rw [closingWhole] at whole
    have streamSecond := LexState.stream_ofSource_of_blank settings.tabWidth noMark noCode
    refine ⟨⟨last.position, _, (last.append second).pastBlank.position,
      LexState.EndedLine.position_le last [], LexState.EndedLine.position_le last second⟩, none,
      fun _ => (congrArg Lexer.endedAtLineBreak wholeFinal).trans endedWhole, ?_, ?_, ?_⟩
    · have tokensWhole : (Input.of settings (first ++ second)).tokens = tokens items ++
          (List.replicate last.layout.depth Kind.dedent ++ [Kind.endOfInput]).map
            (Border.layoutAt (last.append second).pastBlank.position) := by
        change tokens ((LexState.ofSource settings.tabWidth (first ++ second)).stream false) = _
        rw [whole, tokens_append, LexState.tokens_map_structural]
        rfl
      rw [tokensAlone, tokensWhole]
      exact Border.ahead_append _ leadsTo.before (Border.ahead_of_none _ _)
    · exact .blank (congrArg tokens streamSecond) rfl
    · have countSecond : ParserState.lexical settings false second = [] :=
        congrArg LexItem.diagnostics streamSecond
      have countWhole : ParserState.lexical settings false (first ++ second) =
          LexItem.diagnostics items := by
        change LexItem.diagnostics
          ((LexState.ofSource settings.tabWidth (first ++ second)).stream false) = _
        rw [whole, LexItem.diagnostics_append, LexItem.diagnostics_map_structural, List.append_nil]
      rw [countAlone, countSecond, countWhole]
      rfl
  · obtain ⟨displacement, errors, later, streamSecond, streamBehind, flag⟩ :=
      endedLine.stream_of_code noMark noCode margin
    rw [streamBehind] at whole
    have tokensSecond : (Input.of settings second).tokens = tokens later := by
      change tokens ((LexState.ofSource settings.tabWidth second).stream false) = _
      rw [streamSecond, tokens_append, tokens_map_error, List.nil_append]
    refine ⟨⟨last.position, _, (last.append second).pastBlank.indentation.2.position,
      LexState.EndedLine.position_le last [],
      Position.le_trans (LexState.EndedLine.position_le last second) (Position.le_advance _ _)⟩,
      some ((Input.of settings second).tokens.map displacement.token),
      fun nothing => absurd nothing (Option.some_ne_none _), ?_, ?_, ?_⟩
    · have tokensWhole : (Input.of settings (first ++ second)).tokens = tokens items ++
          ((Layout.endings last.layout.depth).map
              (Border.layoutAt (last.append second).pastBlank.indentation.2.position) ++
            (Input.of settings second).tokens.map displacement.token) := by
        change tokens ((LexState.ofSource settings.tabWidth (first ++ second)).stream false) = _
        rw [whole, tokens_append, tokens_append, tokens_append, tokens_map_error,
          LexState.tokens_map_structural, displacement.tokens_map_item, tokensSecond]
        rfl
      rw [tokensAlone, tokensWhole]
      exact Border.ahead_append _ leadsTo.before (Border.ahead_of_some _ _ _)
    · refine .code displacement ?_
      rw [tokensSecond]
      exact flag.imp_left (congrArg Lexer.endedAtLineBreak wholeFinal).trans
    · have countSecond : (ParserState.lexical settings false second).length =
          errors.length + (LexItem.diagnostics later).length := by
        change (LexItem.diagnostics
          ((LexState.ofSource settings.tabWidth second).stream false)).length = _
        rw [streamSecond, LexItem.diagnostics_append, List.length_append,
          LexItem.length_diagnostics_map_error]
      have countWhole : (ParserState.lexical settings false (first ++ second)).length =
          (LexItem.diagnostics items).length +
            (errors.length + (LexItem.diagnostics later).length) := by
        change (LexItem.diagnostics
          ((LexState.ofSource settings.tabWidth (first ++ second)).stream false)).length = _
        rw [whole]
        simp only [LexItem.diagnostics_append, List.length_append,
          LexItem.length_diagnostics_map_error, LexItem.diagnostics_map_structural,
          LexItem.length_diagnostics_map_item, List.length_map, List.length_nil, Nat.add_zero]
      rw [countAlone, countSecond, countWhole]

end Offside
