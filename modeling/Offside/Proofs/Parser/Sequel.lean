import Offside.Proofs.Parser.Border
import Offside.Proofs.Parser.TopLevel

/-!
The statements of a text behind another one. Past the seam the reading does what it does for the
text alone, and so the statements of both texts behind each other are those of the one and then
those of the other.
-/

namespace Offside

open LexStream ParserState Offside.Parser

variable {state after left right : ParserState} {n m extra : Nat}

/-! ## Enough fuel -/

/-- More fuel than enough makes no difference. -/
theorem statementsUntil_fuel (ready : state.Ready) (last : Kind)
    (enough : 16 * state.ahead.length + 7 ≤ n) (enough' : 16 * state.ahead.length + 7 ≤ m) :
    Grammar.statementsUntil n last state = Grammar.statementsUntil m last state := by
  have reach : (Discipline.remembering []).Reach 0 state state :=
    .start ready (List.nil_subset _)
  obtain ⟨same, _⟩ : (Discipline.remembering []).Agrees true _ (Grammar.statementsUntil n last)
      (Grammar.statementsUntil m last) state _ :=
    (Discipline.walk _ n m).statementsUntil last reach ⟨by omega, by omega⟩
  exact same

/-- The statements of a text are read up to its end, or up to an error that nothing can follow. -/
theorem statementsUntil_outcome (ready : state.Ready)
    (enough : 16 * state.ahead.length + 7 ≤ n) :
    (∃ statements after, Grammar.statementsUntil n .endOfInput state = .ok statements after ∧
      after.Ready ∧ ∃ last rest, after.ahead = last :: rest ∧ last.kind = .endOfInput) ∨
    ∃ error after, Grammar.statementsUntil n .endOfInput state = .error (.failure error) after := by
  have reach : (Discipline.remembering []).Reach 0 state state :=
    .start ready (List.nil_subset _)
  obtain ⟨_, outcome⟩ : (Discipline.remembering []).Agrees true _
      (Grammar.statementsUntil n .endOfInput) (Grammar.statementsUntil n .endOfInput) state _ :=
    (Discipline.walk _ n n).statementsUntil .endOfInput reach ⟨by omega, by omega⟩
  split at outcome
  next statements after result =>
    obtain ⟨reached, last, rest, ahead, isEnd⟩ := outcome
    exact Or.inl ⟨statements, after, result, reached.ready, last, rest, ahead, isEnd.elim id id⟩
  next abort after result =>
    cases abort with
    | recoverable error => exact absurd outcome.permitted Bool.noConfusion
    | failure error => exact Or.inr ⟨error, after, result⟩
    | exhausted => exact absurd outcome.permitted id

/-! ## Behind the seam -/

/-- Two readings end in the same way: with the same statements, or with an error that nothing can
follow. More attempts may have failed in the right one before. -/
inductive Repeats (extra : Nat) :
    EStateM.Result Abort ParserState (List (Statement Span)) →
      EStateM.Result Abort ParserState (List (Statement Span)) → Prop
  | ok {statements others : List (Statement Span)} {left right : ParserState}
    (same : SameBy Statement.eraseAll statements others)
    (failures : right.failures.length = left.failures.length + extra) :
    Repeats extra (.ok statements left) (.ok others right)
  | failure {error other : SyntaxError} {left right : ParserState}
    (failures : right.failures.length = left.failures.length + extra) :
    Repeats extra (.error (.failure error) left) (.error (.failure other) right)

/-- Two texts that end together are read in the same way. -/
theorem repeats_of_abreast {seam : Seam} (together : seam.after = none)
    (abreast : Abreast seam 0 left left right) (noDepth : left.depth = 0)
    (enough : 16 * left.ahead.length + 7 ≤ n) :
    Repeats seam.extra (Grammar.statementsUntil n .endOfInput left)
      (Grammar.statementsUntil n .endOfInput right) := by
  have alike : Alike seam true .none left _ (Grammar.statementsUntil n .endOfInput) left
      (Grammar.statementsUntil n .endOfInput) right :=
    (Seam.walk seam n).statementsUntil (Or.inr ⟨rfl, noDepth, together⟩) abreast
  unfold Alike at alike
  have outcome := @statementsUntil_outcome left n abreast.visitedLeft.ready enough
  generalize Grammar.statementsUntil n .endOfInput left = result at alike outcome
  generalize Grammar.statementsUntil n .endOfInput right = result' at alike
  cases alike with
  | ok holds => exact .ok holds.1 holds.2.1.failures
  | recoverable soft => contradiction
  | stranded soft => contradiction
  | failure _ failures => exact .failure failures
  | failed apart => exact absurd together apart
  | exhausted =>
    rcases outcome with ⟨_, _, result, _⟩ | ⟨_, _, result⟩
    · contradiction
    · injection result with isFailure
      contradiction
  | lost isFinal => contradiction
  | doomed isDoomed => contradiction

/-- A text in another place. -/
def Seam.displaced (displacement : Displacement) (second whole : Input) (extra : Nat)
    (settings : whole.settings = second.settings)
    (ended : whole.endsInLineBreak = second.endsInLineBreak) : Seam where
  left := second
  right := whole
  places place place' := place' = displacement.position place
  after := none
  extra
  settings
  ordered := by
    rintro first later _ _ rfl rfl
    exact (displacement.position_lt_iff first later).symm
  together _ := ended
  apart := ends_of_goesOn second

theorem Seam.ahead_displaced {displacement : Displacement} {second whole : Input}
    {settings : whole.settings = second.settings}
    {ended : whole.endsInLineBreak = second.endsInLineBreak} (tokens : List Token) :
    (Seam.displaced displacement second whole extra settings ended).Ahead tokens
      (tokens.map displacement.token) := by
  induction tokens with
  | nil => exact .together rfl
  | cons token tokens inductionHypothesis => exact .more ⟨rfl, rfl, rfl⟩ inductionHypothesis

/-- What is ahead of two readings, one of a text and one of that text behind another. -/
structure Displaced (displacement : Displacement) (second whole : Input) (extra : Nat)
    (left right : ParserState) : Prop where
  settings : whole.settings = second.settings
  ended : whole.endsInLineBreak = second.endsInLineBreak ∨
    ∀ token ∈ second.tokens, Displacement.closes token
  visitedLeft : Visited second left
  visitedRight : Visited whole right
  ahead : right.ahead = left.ahead.map displacement.token
  depthLeft : left.depth = 0
  depthRight : right.depth = 0
  failures : right.failures.length = left.failures.length + extra

theorem Displaced.repeats {displacement : Displacement} {second whole : Input}
    (displaced : Displaced displacement second whole extra left right)
    (enough : 16 * left.ahead.length + 7 ≤ n) :
    Repeats extra (Grammar.statementsUntil n .endOfInput left)
      (Grammar.statementsUntil n .endOfInput right) := by
  obtain ⟨settings, same | closing, visitedLeft, visitedRight, ahead, depthLeft, depthRight,
    failures⟩ := displaced
  · have abreast : Abreast (.displaced displacement second whole extra settings same) 0 left left
        right :=
      .start visitedLeft visitedRight (ahead ▸ Seam.ahead_displaced left.ahead)
        (depthRight.trans depthLeft.symm) failures
    exact repeats_of_abreast rfl abreast depthLeft enough
  · -- Without a token of code there are no statements, and no level is left to close.
    obtain ⟨n, rfl⟩ : ∃ fuel, n = fuel + 1 := Nat.exists_eq_succ_of_ne_zero (by omega)
    cases found : left.ahead with
    | nil =>
      rw [found] at ahead
      have nothing : ∀ token ∈ left.ahead, token.isLine = true := by
        rw [found]
        exact fun _ member => absurd member List.not_mem_nil
      have nothing' : ∀ token ∈ right.ahead, token.isLine = true := by
        rw [ahead]
        exact fun _ member => absurd member List.not_mem_nil
      obtain ⟨_, _, failed, same⟩ :=
        @statementsUntil_of_lines left n .endOfInput visitedLeft.ready nothing
      obtain ⟨_, _, failed', same'⟩ :=
        @statementsUntil_of_lines right n .endOfInput visitedRight.ready nothing'
      rw [failed, failed']
      exact .failure (by rw [same, same', failures])
    | cons token rest =>
      have member : token ∈ second.tokens :=
        visitedLeft.sound.suffix.subset (found ▸ List.mem_cons_self)
      have isEnd : token.kind = .endOfInput := by
        refine (closing token member).resolve_right fun closes => ?_
        have deep := visitedLeft.depth_pos found closes
        omega
      obtain rfl := visitedLeft.nil_of_endOfInput found isEnd
      rw [found] at ahead
      obtain ⟨_, ended, same⟩ :=
        @statementsUntil_of_end left n .endOfInput token _ visitedLeft found isEnd
      obtain ⟨_, ended', same'⟩ :=
        @statementsUntil_of_end right n .endOfInput (displacement.token token) _ visitedRight ahead
          isEnd
      rw [ended, ended']
      exact .ok rfl (by rw [same, same', failures])

/-- Line breaks in front of both readings make no difference. -/
theorem repeats_of_lines {displacement : Displacement} {second whole : Input} {taken : List Token}
    (settings : whole.settings = second.settings)
    (ended : whole.endsInLineBreak = second.endsInLineBreak ∨
      ∀ token ∈ second.tokens, Displacement.closes token)
    (visitedLeft : Visited second left) (visitedRight : Visited whole right)
    (ahead : left.ahead.map displacement.token = taken ++ right.ahead)
    (areLines : ∀ token ∈ taken, token.isLine = true)
    (depthLeft : left.depth = 0) (depthRight : right.depth = 0)
    (failures : right.failures.length = left.failures.length + extra)
    (enough : 16 * left.ahead.length + 7 ≤ n) :
    Repeats extra (Grammar.statementsUntil n .endOfInput left)
      (Grammar.statementsUntil n .endOfInput right) := by
  obtain ⟨n, rfl⟩ : ∃ fuel, n = fuel + 1 := Nat.exists_eq_succ_of_ne_zero (by omega)
  have dropped : right.ahead.dropWhile Token.isLine =
      (left.ahead.dropWhile Token.isLine).map displacement.token := by
    have whole := congrArg (List.dropWhile Token.isLine) ahead
    rw [List.dropWhile_append_of_pos areLines, List.dropWhile_map] at whole
    exact whole.symm
  obtain ⟨after, past, outcome⟩ := removeNewlines_cases visitedLeft.ready
  obtain ⟨after', past', outcome'⟩ := removeNewlines_cases visitedRight.ready
  have aheadAfter : after'.ahead = after.ahead.map displacement.token := by
    rw [past'.ahead, past.ahead, dropped]
  have failuresAfter : after'.failures.length = after.failures.length + extra := by
    rw [past'.failures, past.failures, failures]
  rcases outcome with ⟨removed, atToken⟩ | ⟨error, failed, nothing⟩
  · rcases outcome' with ⟨removed', atToken'⟩ | ⟨_, _, nothing'⟩
    · rw [(statementsUntil_removeNewlines visitedLeft.ready removed).2,
        (statementsUntil_removeNewlines visitedRight.ready removed').2]
      have fewer := length_le_of_removeNewlines visitedLeft.ready removed
      have displaced : Displaced displacement second whole extra after after' :=
        ⟨settings, ended, visitedLeft.passes past.passes, visitedRight.passes past'.passes,
          aheadAfter, past.depth.trans depthLeft, past'.depth.trans depthRight, failuresAfter⟩
      exact displaced.repeats (by omega)
    · rw [nothing'] at aheadAfter
      exact absurd (List.map_eq_nil_iff.mp aheadAfter.symm) atToken.ahead_ne_nil
  · rcases outcome' with ⟨_, atToken'⟩ | ⟨error', failed', _⟩
    · rw [nothing] at aheadAfter
      exact absurd aheadAfter atToken'.ahead_ne_nil
    · rw [Grammar.statementsUntil, bind_error failed, bind_error failed']
      exact .failure failuresAfter

/-- A semicolon by itself is a statement. -/
theorem statementsUntil_of_semicolon {input : Input} {next : Token} {rest : List Token}
    (visited : Visited input state) (ahead : state.ahead = next :: rest)
    (isSemicolon : next.kind = .symbol .semicolon) :
    ∃ after, Visited input after ∧ after.ahead = rest ∧ after.depth = state.depth ∧
      after.failures = state.failures ∧ Grammar.statementsUntil (n + 2) .endOfInput state =
        (do return Statement.empty next.span ::
          (← Grammar.statementsUntil (n + 1) .endOfInput)) after := by
  have noLine : next.isLine = false := by simp [Token.isLine, isSemicolon]
  have same : state.ahead.dropWhile Token.isLine = next :: rest := by
    rw [ahead, List.dropWhile_cons_of_neg (by simp [noLine])]
  obtain ⟨looked, past, ⟨removed, next', others, buffer, notLine⟩ | ⟨error, _, nothing⟩⟩ :=
    removeNewlines_cases visited.ready
  · obtain ⟨rest', found⟩ := ahead_of_buffer buffer
    rw [past.ahead, same] at found
    obtain ⟨rfl, rfl⟩ := List.cons.inj found
    let named : ParserState :=
      { looked with nonTerminals := NonTerminal.statement :: looked.nonTerminals }
    have namedBuffer : named.buffer = next :: others := buffer
    have statement : Grammar.statement (n + 1) named =
        .ok (.empty next.span) (named.afterToken next others) := by
      rw [Grammar.statement, bind_ok (peek_of_buffer namedBuffer), isSemicolon]
      dsimp only
      rw [bind_ok (consume_of_buffer namedBuffer)]
      rfl
    refine ⟨looked.afterToken next others, (visited.passes past.passes).takes buffer, ?_, ?_,
      past.failures, ?_⟩
    · rw [ahead_afterToken buffer (past.ahead.trans same),
        if_neg (by rw [isSemicolon]; exact Kind.noConfusion)]
    · rw [afterToken, isSemicolon]
      exact past.depth
    · rw [(statementsUntil_removeNewlines visited.ready removed).2,
        statementsUntil_of_buffer buffer notLine (by rw [isSemicolon]; exact Kind.noConfusion)
          (by rw [isSemicolon]; exact Kind.noConfusion),
        bind_ok (attempt_of_ok (within_of_ok statement))]
      rfl
  · rw [past.ahead, same] at nothing
    contradiction

/-! ## Whole texts -/

/-- The state in front of the statements of a text. -/
def Input.front (input : Input) : ParserState :=
  { input.start with nonTerminals := [.file] }

theorem Input.visited_front (input : Input) : Visited input input.front :=
  Visited.start.names [.file]

/-- What the statements of a text come to is what the text comes to. -/
inductive ReadsAs (input : Input) :
    EStateM.Result Abort ParserState (List (Statement Span)) → Prop
  | tree {file : File Span} {after : ParserState}
    (isTree : (parse input.settings input.cancelled input.source).file? = some file)
    (failures : (ended input.settings input.cancelled input.source).failures = after.failures) :
    ReadsAs input (.ok file.statements after)
  | nothing {error : SyntaxError} {after : ParserState}
    (noTree : (parse input.settings input.cancelled input.source).file? = none)
    (failures : (ended input.settings input.cancelled input.source).failures = after.failures) :
    ReadsAs input (.error (.failure error) after)

/-- The end of input is where it is expected. -/
theorem expect_endOfInput {last : Token} {rest : List Token} (ready : state.Ready)
    (ahead : state.ahead = last :: rest) (isEnd : last.kind = .endOfInput) :
    ∃ after, expect .endOfInput state = .ok last after ∧ after.failures = state.failures := by
  obtain ⟨looked, fills, ⟨token, others, rest', buffer, found, result⟩ | ⟨_, _, nothing, _⟩⟩ :=
    peek_cases ready
  · obtain ⟨rfl, -⟩ := List.cons.inj (ahead.symm.trans found)
    refine ⟨looked.afterToken last others, ?_, fills.unchanged.2⟩
    rw [expect, bind_ok result, if_pos isEnd, consume_of_buffer buffer]
  · rw [ahead] at nothing
    contradiction

theorem readsAs (input : Input) (enough : 16 * input.tokens.length + 7 ≤ n) :
    ReadsAs input (Grammar.statementsUntil n .endOfInput input.front) := by
  have ready := input.visited_front.ready
  have bound := input.front.length_ahead_le_fuel
  have enoughBrought : 16 * input.front.ahead.length + 7 ≤ input.front.fuel := by omega
  rw [statementsUntil_fuel ready .endOfInput enough enoughBrought]
  rcases statementsUntil_outcome ready enoughBrought with
    ⟨statements, after, read, readyAfter, last, rest, ahead, isEnd⟩ | ⟨error, after, failed⟩
  · obtain ⟨closed, expected, failures⟩ := expect_endOfInput readyAfter ahead isEnd
    have file : ∃ file : File Span, file.statements = statements ∧
        Grammar.file input.front.fuel input.front = .ok file closed := by
      rw [Grammar.file, bind_ok read, bind_ok expected]
      exact ⟨_, rfl, rfl⟩
    obtain ⟨file, rfl, whole⟩ := file
    have result : Parser.file input.start = .ok file { closed with nonTerminals := [] } :=
      within_of_ok whole
    rw [read]
    refine .tree ?_ ?_
    · rw [parse, show Parser.file (ofSource _ _ _) = _ from result]
      rfl
    · rw [ended, show Parser.file (ofSource _ _ _) = _ from result]
      exact failures
  · have whole : Grammar.file input.front.fuel input.front = .error (.failure error) after := by
      rw [Grammar.file, bind_error failed]
    have result : Parser.file input.start =
        .error (.failure error) { after with nonTerminals := [] } :=
      within_of_error whole
    rw [failed]
    refine .nothing ?_ ?_
    · rw [parse, show Parser.file (ofSource _ _ _) = _ from result]
      rfl
    · rw [ended, show Parser.file (ofSource _ _ _) = _ from result]

theorem Settled.length_sorted {lexical reported : List Diagnostic}
    (settled : Settled lexical reported state) :
    (Diagnostic.sorted reported).length = lexical.length + state.failures.length := by
  rw [(Diagnostic.sorted_perm _).length_eq, settled.balanced.length_eq, List.length_append, failed,
    List.length_map]

/-- The diagnostics of a text are the errors of its lexer and the attempts that failed. -/
theorem length_diagnostics (settings : Settings) (cancelled : Bool) (source : List Char) :
    (parse settings cancelled source).diagnostics.length =
      (lexical settings cancelled source).length +
        (ended settings cancelled source).failures.length := by
  have settled := settled_file settings cancelled source
  rw [parse, ended]
  cases result : Parser.file (ofSource settings cancelled source) with
  | ok tree after =>
    rw [result] at settled
    exact settled.length_sorted
  | error abort after =>
    rw [result] at settled
    obtain ⟨error, rfl, settled⟩ := settled
    exact settled.length_sorted

end Offside
