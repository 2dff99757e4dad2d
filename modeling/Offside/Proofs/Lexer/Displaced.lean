import Offside.Proofs.Lexer.Extend

/-!
The same text in another place. Behind some lines of another text the lexer yields the items of a
text at places further on. What it yields may depend on the token before, but not on which token
that is, as long as an operand can follow it.
-/

namespace Offside

open LexStream LexMode

/-- How much of another text stands before a text: its bytes, its lines, and the kind of its last
token, behind which an operand can start. -/
structure Displacement where
  bytes : Nat
  lines : Nat
  before : Option Kind
  operand : before.any Kind.endsOperand = false

namespace Displacement

variable (displacement : Displacement)

def position (place : Position) : Position :=
  place.moved displacement.bytes displacement.lines

def span (span : Span) : Span :=
  ⟨displacement.position span.first, displacement.position span.last⟩

def token (token : Token) : Token :=
  { token with span := displacement.span token.span }

def error (error : LexError) : LexError :=
  { error with span := displacement.span error.span }

def item : LexItem → LexItem
  | .token token => .token (displacement.token token)
  | .error error => .error (displacement.error error)

def mode : LexMode → LexMode
  | .string start => .string (displacement.position start)
  | .interpolation braces => .interpolation braces

def state (state : LexState) : LexState :=
  { state with
    position := displacement.position state.position
    modes := state.modes.map displacement.mode
    lastKind := state.lastKind.or displacement.before }

def step (step : LexStep) : LexStep :=
  (step.1.map displacement.item, displacement.state step.2)

theorem position_past (place : Position) (c : Char) :
    (displacement.position place).past c = displacement.position (place.past c) := by
  unfold position Position.past Position.moved
  split
  · simp only [Nat.add_right_comm]
  · simp only [Nat.add_right_comm]

theorem position_advance (place : Position) (text : List Char) :
    (displacement.position place).advance text = displacement.position (place.advance text) := by
  induction text generalizing place with
  | nil => rfl
  | cons c text inductionHypothesis =>
    rw [Position.advance_cons, Position.advance_cons, position_past, inductionHypothesis]

theorem position_le_iff (first later : Position) :
    displacement.position first ≤ displacement.position later ↔ first ≤ later := by
  change Position.AtMost _ _ ↔ Position.AtMost _ _
  unfold Position.AtMost position Position.moved
  simp only [Nat.add_lt_add_iff_right, Nat.add_right_cancel_iff]

theorem position_lt_iff (first later : Position) :
    displacement.position first < displacement.position later ↔ first < later :=
  not_congr (displacement.position_le_iff later first)

variable (state : LexState)

theorem state_take (split : Scan.Split) :
    (displacement.state state).take split = displacement.state (state.take split) := by
  unfold LexState.take Displacement.state
  dsimp only
  rw [position_advance]

theorem spanOf_state (split : Scan.Split) :
    (displacement.state state).spanOf split = displacement.span (state.spanOf split) := by
  unfold LexState.spanOf Displacement.state span
  dsimp only
  rw [position_advance]

theorem tokenOf_state (kind : Kind) (split : Scan.Split) :
    (displacement.state state).tokenOf kind split = displacement.item (state.tokenOf kind split) := by
  rw [LexState.tokenOf, spanOf_state]
  rfl

theorem map_item_error (errors : List LexError) :
    (errors.map displacement.error).map LexItem.error =
      (errors.map LexItem.error).map displacement.item := by
  rw [List.map_map, List.map_map]
  rfl

theorem openString?_state :
    (displacement.state state).openString? = state.openString?.map displacement.position := by
  unfold LexState.openString? Displacement.state
  generalize state.modes = modes
  induction modes with
  | nil => rfl
  | cons mode modes inductionHypothesis =>
    cases mode with
    | string start => rfl
    | interpolation braces => exact inductionHypothesis

theorem atOperand_state : (displacement.state state).atOperand = state.atOperand := by
  unfold LexState.atOperand Displacement.state
  cases state.lastKind with
  | some kind => rfl
  | none => exact congrArg not displacement.operand

theorem tokens_map_item (items : List LexItem) :
    tokens (items.map displacement.item) = (tokens items).map displacement.token := by
  induction items with
  | nil => rfl
  | cons item items inductionHypothesis =>
    cases item with
    | token token => rw [List.map_cons, item, tokens_token, tokens_token, inductionHypothesis, List.map_cons]
    | error error => rw [List.map_cons, item, tokens_error, tokens_error, inductionHypothesis]

/-! ## Steps -/

/-- A token that ends the text or a level. -/
def closes (token : Token) : Prop :=
  token.kind = .endOfInput ∨ token.kind = .dedent

/-- What a step comes to in another place. Whether the last line of code was ended can only be seen
otherwise where there was no code. -/
structure Follows (before : LexState) (left right : LexStep) : Prop where
  items : right.1 = left.1.map displacement.item
  goesOn : left.2.finished = false → right.2 = displacement.state left.2
  silent : left.2.finished = false → left.2.lastKind = none →
    before.lastKind = none ∧ tokens left.1 = []
  ends : left.2.finished = true → right.2.finished = true ∧
    (right.2.endedAtLineBreak = left.2.endedAtLineBreak ∨
      before.lastKind = none ∧ ∀ token ∈ tokens left.1, closes token)

variable {displacement state} {step : LexStep}

theorem follows_yield (state : LexState) (kind : Kind) (split : Scan.Split) (errors : List LexError) :
    displacement.Follows state (state.yield kind split errors)
      ((displacement.state state).yield kind split (errors.map displacement.error)) := by
  refine ⟨?_, fun _ => ?_, fun _ missing => ?_, fun ends => ⟨ends, Or.inl rfl⟩⟩
  · rw [LexState.yield, LexState.yield, tokenOf_state, map_item_error]
    rfl
  · rw [LexState.yield, LexState.yield, state_take]
    rfl
  · exact absurd missing (Option.some_ne_none kind)

theorem follows_fail (state : LexState) (construct : Unterminated) (span : Span) :
    displacement.Follows state (state.fail construct span)
      ((displacement.state state).fail construct (displacement.span span)) :=
  ⟨rfl, fun running => absurd running Bool.noConfusion, fun running => absurd running Bool.noConfusion,
    fun _ => ⟨rfl, Or.inl rfl⟩⟩

theorem follows_finish (state : LexState) :
    displacement.Follows state state.finish (displacement.state state).finish := by
  unfold LexState.finish
  rw [openString?_state]
  cases state.openString? with
  | some start => exact follows_fail state _ _
  | none =>
    refine ⟨?_, fun running => absurd running Bool.noConfusion,
      fun running => absurd running Bool.noConfusion, fun _ => ⟨rfl, ?_⟩⟩
    · dsimp only [Layout.finish, Option.map_none]
      rw [List.map_append, List.map_replicate]
      rfl
    · dsimp only [Layout.finish, Option.map_none, Displacement.state]
      cases state.lastKind with
      | some kind => exact Or.inl rfl
      | none =>
        refine Or.inr ⟨rfl, fun token member => ?_⟩
        rw [tokens_append] at member
        rcases List.mem_append.mp member with isDedent | isEnd
        · obtain ⟨_, same⟩ := List.mem_replicate.mp (mem_tokens.mp isDedent)
          injection same with same
          exact Or.inr (same ▸ rfl)
        · exact Or.inl (List.mem_singleton.mp isEnd ▸ rfl)

theorem decode_position (position : Position) (pieces : List Scan.Spelled) :
    LexState.decode (displacement.position position) pieces =
      ((LexState.decode position pieces).1,
        (LexState.decode position pieces).2.map displacement.error) := by
  induction pieces generalizing position with
  | nil => rfl
  | cons spelled pieces inductionHypothesis =>
    obtain ⟨text, piece⟩ := spelled
    rw [LexState.decode, LexState.decode]
    dsimp only
    rw [position_advance, inductionHypothesis]
    cases piece with
    | text characters => rfl
    | char c => rfl
    | elided => rfl
    | invalid characters => rfl

/-- What follows a state that differs only in what it is inside of, or in its layout. -/
theorem Follows.of_lastKind {other : LexState} {left right : LexStep}
    (follows : displacement.Follows other left right) (same : other.lastKind = state.lastKind) :
    displacement.Follows state left right := by
  obtain ⟨items, goesOn, silent, ends⟩ := follows
  rw [same] at silent ends
  exact ⟨items, goesOn, silent, ends⟩

theorem follows_fragment (start : Position) (noQuote : ∀ rest, state.rest ≠ '"' :: rest)
    (noBrace : ∀ rest, state.rest ≠ '\x7b' :: rest) :
    displacement.Follows state (state.stringPart start)
      ((displacement.state state).stringPart (displacement.position start)) := by
  have rest : (displacement.state state).rest = state.rest := rfl
  have position : (displacement.state state).position = displacement.position state.position := rfl
  rw [LexState.stringPart_of_fragment noQuote noBrace,
    @LexState.stringPart_of_fragment (displacement.state state) _ noQuote noBrace, rest, position]
  by_cases nothing : (Scan.stringBody state.rest).value = []
  · rw [if_pos nothing, if_pos nothing]
    exact follows_fail state _ _
  · rw [if_neg nothing, if_neg nothing, decode_position]
    exact follows_yield state _ _ _

theorem follows_stringPart (start : Position) :
    displacement.Follows state (state.stringPart start)
      ((displacement.state state).stringPart (displacement.position start)) := by
  by_cases quote : ∃ rest, state.rest = '"' :: rest
  · obtain ⟨rest, found⟩ := quote
    obtain ⟨_, position, modes, layout, atLineStart, lastKind, finished, endedAtLineBreak⟩ := state
    obtain rfl : _ = '"' :: rest := found
    have follows := @follows_yield displacement ⟨'"' :: rest, position, modes.tail, layout, atLineStart,
      lastKind, finished, endedAtLineBreak⟩ .stringEnd ⟨['"'], rest⟩ []
    cases modes with
    | nil => exact follows
    | cons mode modes => exact follows.of_lastKind rfl
  · by_cases brace : ∃ rest, state.rest = '\x7b' :: rest
    · obtain ⟨rest, found⟩ := brace
      obtain ⟨_, position, modes, layout, atLineStart, lastKind, finished, endedAtLineBreak⟩ := state
      obtain rfl : _ = '\x7b' :: rest := found
      have follows := @follows_yield displacement ⟨'\x7b' :: rest, position, .interpolation 0 :: modes,
        layout.openBracket, atLineStart, lastKind, finished, endedAtLineBreak⟩ .interpolationStart
        ⟨['\x7b'], rest⟩ []
      exact follows.of_lastKind rfl
    · exact follows_fragment start (fun rest found => quote ⟨rest, found⟩)
        fun rest found => brace ⟨rest, found⟩

theorem follows_closedLiteral (state : LexState) (split : Scan.Split) (value : List Char)
    (errors : List LexError) :
    displacement.Follows state (state.closedLiteral split value errors)
      ((displacement.state state).closedLiteral split value (errors.map displacement.error)) := by
  have invalid (fault : CharacterFault) := @follows_yield displacement state (.char '\ufffd') split
    (errors ++ [⟨.invalidCharacter (String.ofList split.text) fault, state.spanOf split⟩])
  simp only [List.map_append] at invalid
  unfold LexState.closedLiteral
  rw [spanOf_state]
  rcases value with _ | ⟨c, _ | ⟨other, others⟩⟩
  · exact invalid .empty
  · exact follows_yield state _ _ _
  · exact invalid .several

theorem follows_characterLiteral (state : LexState) (rest : List Char) :
    displacement.Follows state (state.characterLiteral rest)
      ((displacement.state state).characterLiteral rest) := by
  have inside : (displacement.state state).position.advance ['\''] =
      displacement.position (state.position.advance ['\'']) := position_advance _ _ _
  by_cases closed : ∃ after, (Scan.charBody rest).rest = '\'' :: after
  · obtain ⟨after, found⟩ := closed
    rw [LexState.characterLiteral_of_closed found, LexState.characterLiteral_of_closed found, inside,
      decode_position]
    exact follows_closedLiteral state _ _ _
  · have noQuote : ∀ after, (Scan.charBody rest).rest ≠ '\'' :: after :=
      fun after found => closed ⟨after, found⟩
    rw [LexState.characterLiteral_of_open noQuote, LexState.characterLiteral_of_open noQuote, inside,
      position_advance]
    exact follows_fail state _ _

theorem bracket_state (state : LexState) (symbol : Symbol) :
    (displacement.state state).bracket symbol =
      ((state.bracket symbol).1, displacement.state (state.bracket symbol).2) := by
  obtain ⟨rest, position, modes, layout, atLineStart, lastKind, finished, endedAtLineBreak⟩ := state
  cases symbol with
  | rightCurly =>
    rcases modes with _ | ⟨_ | ⟨_ | braces⟩, outer⟩
    · rfl
    · rfl
    · rfl
    · rfl
  | leftCurly =>
    rcases modes with _ | ⟨_ | braces, outer⟩
    · rfl
    · rfl
    · rfl
  | _ => rfl

theorem bracket_lastKind (state : LexState) (symbol : Symbol) :
    (state.bracket symbol).2.lastKind = state.lastKind := by
  unfold LexState.bracket
  split <;> try rfl
  dsimp only
  split <;> rfl

theorem follows_plainToken (state : LexState) (c : Char) (rest : List Char) :
    displacement.Follows state (state.plainToken c rest)
      ((displacement.state state).plainToken c rest) := by
  unfold LexState.plainToken
  dsimp only
  rw [atOperand_state]
  cases Scan.numeral? state.atOperand (c :: rest) with
  | some number =>
    have follows := @follows_yield displacement state number.value.evaluate.1 number.toSplit
      (number.value.evaluate.2.toList.map fun fault =>
        ⟨.invalidNumber (String.ofList number.text) fault, state.spanOf number.toSplit⟩)
    rw [List.map_map] at follows
    dsimp only
    rw [spanOf_state]
    exact follows
  | none =>
    cases Scan.word? (c :: rest) with
    | some word => exact follows_yield state _ _ []
    | none =>
      cases Scan.symbol? (c :: rest) with
      | some symbol =>
        dsimp only
        rw [bracket_state]
        exact (follows_yield _ _ _ []).of_lastKind (bracket_lastKind state _)
      | none =>
        dsimp only
        rw [spanOf_state, state_take]
        exact ⟨rfl, fun _ => rfl, fun _ missing => ⟨missing, rfl⟩, fun ends => ⟨ends, Or.inl rfl⟩⟩

theorem follows_stringStart (state : LexState) (split : Scan.Split) :
    displacement.Follows state (state.stringStart split)
      ((displacement.state state).stringStart split) :=
  (@follows_yield displacement { state with modes := .string state.position :: state.modes }
    .stringStart split []).of_lastKind rfl

theorem follows_codeToken (state : LexState) :
    displacement.Follows state state.codeToken (displacement.state state).codeToken := by
  have rest : (displacement.state state).rest = state.rest := rfl
  unfold LexState.codeToken
  rw [rest]
  split
  next => exact follows_finish state
  next others found =>
    dsimp only
    rw [state_take, spanOf_state]
    exact (follows_fail _ _ _).of_lastKind rfl
  next => exact follows_stringStart state _
  next => exact follows_stringStart state _
  next => exact follows_characterLiteral state _
  next => exact follows_plainToken state _ _

theorem follows_take_codeToken (state : LexState) (split : Scan.Split) :
    displacement.Follows state (state.take split).codeToken
      ((displacement.state state).take split).codeToken := by
  rw [state_take]
  exact (follows_codeToken (state.take split)).of_lastKind rfl

/-! ## Lines -/

theorem lineErrors_span (span : Span) (result : Except IndentationFault LineLayout) :
    LexState.lineErrors (displacement.span span) result =
      (LexState.lineErrors span result).map displacement.error := by
  cases result <;> rfl

theorem indentation_state (state : LexState) :
    (displacement.state state).indentation = displacement.step state.indentation := by
  have rest : (displacement.state state).rest = state.rest := rfl
  have layout : (displacement.state state).layout = state.layout := rfl
  unfold LexState.indentation
  dsimp only
  rw [rest, layout, spanOf_state, state_take, lineErrors_span]
  refine Prod.ext ?_ ?_
  · dsimp only [step]
    rw [List.map_append, List.map_append, map_item_error]
    congr 2
    · split <;> rfl
    · rw [List.map_map]
      rfl
  · dsimp only [step, Displacement.state, LexState.take]
    rw [Option.or_assoc]

theorem follows_inLine (state : LexState) :
    displacement.Follows state state.inLine (displacement.state state).inLine :=
  follows_take_codeToken state _

/-- The layout of a line is silent only if no line stood before it. -/
theorem lastKind_indentation {state : LexState} (missing : state.indentation.2.lastKind = none) :
    state.lastKind = none ∧ tokens state.indentation.1 = [] := by
  rw [LexState.tokens_indentation]
  unfold LexState.indentation at missing
  obtain ⟨noKinds, noCode⟩ := Option.or_eq_none_iff.mp missing
  rw [List.getLast?_eq_none_iff] at noKinds
  exact ⟨noCode, by rw [noKinds, List.map_nil]⟩

theorem follows_lineStart (state : LexState) :
    displacement.Follows state state.lineStart (displacement.state state).lineStart := by
  have past : (displacement.state state).pastBlank = displacement.state state.pastBlank :=
    state_take displacement state _
  by_cases nothing : state.pastBlank.rest = []
  · have nothingThere : (displacement.state state).pastBlank.rest = [] := past ▸ nothing
    rw [LexState.lineStart_of_blank nothing, LexState.lineStart_of_blank nothingThere, past]
    exact (follows_finish state.pastBlank).of_lastKind rfl
  · have somethingThere : (displacement.state state).pastBlank.rest ≠ [] := past ▸ nothing
    rw [LexState.lineStart_of_code nothing, LexState.lineStart_of_code somethingThere, past,
      indentation_state]
    obtain ⟨items, goesOn, silent, ends⟩ := @follows_inLine displacement
      state.pastBlank.indentation.2
    refine ⟨?_, goesOn, fun running missing => ?_, fun finished => ?_⟩
    · rw [List.map_append, ← items]
      rfl
    · obtain ⟨noKind, noTokens⟩ := silent running missing
      obtain ⟨noCode, noLayout⟩ := lastKind_indentation noKind
      refine ⟨noCode, ?_⟩
      rw [tokens_append, noTokens, noLayout]
      rfl
    · obtain ⟨finishedThere, same | ⟨noKind, closing⟩⟩ := ends finished
      · exact ⟨finishedThere, Or.inl same⟩
      · obtain ⟨noCode, noLayout⟩ := lastKind_indentation noKind
        refine ⟨finishedThere, Or.inr ⟨noCode, ?_⟩⟩
        rw [tokens_append, noLayout]
        exact closing

theorem follows_code (state : LexState) :
    displacement.Follows state state.code (displacement.state state).code := by
  have layout : (displacement.state state).layout = state.layout := rfl
  have atStart : (displacement.state state).atLineStart = state.atLineStart := rfl
  have rest : (displacement.state state).rest = state.rest := rfl
  cases brackets : state.layout.inBrackets with
  | true =>
    rw [LexState.code_of_brackets brackets, LexState.code_of_brackets (layout ▸ brackets)]
    exact follows_take_codeToken state _
  | false =>
    cases start : state.atLineStart with
    | true =>
      rw [LexState.code_of_atLineStart brackets start,
        LexState.code_of_atLineStart (layout ▸ brackets) (atStart ▸ start)]
      exact follows_lineStart state
    | false =>
      cases found : Scan.lineBreak? (Scan.trivia state.rest).rest with
      | none =>
        rw [LexState.code_of_inLine brackets start found,
          LexState.code_of_inLine (layout ▸ brackets) (atStart ▸ start) (rest ▸ found)]
        exact follows_inLine state
      | some lineBreak =>
        have next : (displacement.state state).nextLine lineBreak =
            displacement.state (state.nextLine lineBreak) := by
          unfold LexState.nextLine
          rw [rest, state_take, state_take]
          rfl
        rw [LexState.code_of_lineBreak brackets start found,
          LexState.code_of_lineBreak (layout ▸ brackets) (atStart ▸ start) (rest ▸ found), next]
        exact (follows_lineStart (state.nextLine lineBreak)).of_lastKind rfl

theorem follows_step (state : LexState) :
    displacement.Follows state state.step (displacement.state state).step := by
  by_cases inString : InString state.modes
  · obtain ⟨start, outer, modes⟩ := inString
    have modesThere : (displacement.state state).modes =
        .string (displacement.position start) :: outer.map displacement.mode := by
      rw [Displacement.state, modes]
      rfl
    rw [LexState.step_of_string modes, LexState.step_of_string modesThere]
    exact follows_stringPart start
  · have outside : ¬ InString (displacement.state state).modes := by
      rintro ⟨start, outer, modes⟩
      obtain ⟨mode, others, found, isString, _⟩ := List.map_eq_cons_iff.mp modes
      cases mode with
      | string start => exact inString ⟨start, others, found⟩
      | interpolation braces => contradiction
    rw [LexState.step_of_code inString, LexState.step_of_code outside]
    exact follows_code state

/-! ## All items -/

/-- What the items of a text come to in another place. -/
structure Streams (displacement : Displacement) (left right : LexState) : Prop where
  stream : right.stream false = (left.stream false).map displacement.item
  ended : (right.final false).endedAtLineBreak = (left.final false).endedAtLineBreak ∨
    left.lastKind = none ∧ ∀ token ∈ tokens (left.stream false), closes token

theorem streams_state (state : LexState) (running : state.finished = false) :
    displacement.Streams state (displacement.state state) := by
  have runningThere : (displacement.state state).finished = false := running
  obtain ⟨items, goesOn, silent, ends⟩ := @follows_step displacement state
  have fewer : state.step.2.remaining < state.remaining :=
    LexState.remaining_lt_of_advances running state.advances_step
  have proceeds : state.proceed false = state.step := rfl
  have proceedsThere : (displacement.state state).proceed false = (displacement.state state).step :=
    rfl
  have stream := LexState.stream_of_running false running
  have streamThere := LexState.stream_of_running false runningThere
  have final := LexState.final_of_running false running
  have finalThere := LexState.final_of_running false runningThere
  rw [proceeds] at stream final
  rw [proceedsThere, items] at streamThere
  rw [proceedsThere] at finalThere
  cases finished : state.step.2.finished with
  | true =>
    obtain ⟨finishedThere, ended⟩ := ends finished
    rw [LexState.stream_of_finished false finished, List.append_nil] at stream
    rw [LexState.stream_of_finished false finishedThere, List.append_nil] at streamThere
    rw [LexState.final_of_finished false finished] at final
    rw [LexState.final_of_finished false finishedThere] at finalThere
    refine ⟨?_, ?_⟩
    · rw [streamThere, stream]
    · rw [final, finalThere, stream]
      exact ended
  | false =>
    obtain ⟨later, ended⟩ := streams_state state.step.2 finished
    rw [goesOn finished] at streamThere finalThere
    refine ⟨?_, ?_⟩
    · rw [streamThere, stream, List.map_append, later]
    · rw [final, finalThere, stream]
      refine ended.imp_right fun quiet => ?_
      obtain ⟨noCode, noTokens⟩ := silent finished quiet.1
      refine ⟨noCode, ?_⟩
      rw [tokens_append, noTokens]
      exact quiet.2
termination_by state.remaining

end Displacement

end Offside
