import Offside.Proofs.Parser.AbreastWalk
import Offside.Proofs.Parser.Walk

/-!
The statements of a text whose reading goes on across a seam. Both readings take the same
statements up to the end of the left text, and give up on the same ones. From there the right one
goes on with what is behind the seam. Only the line breaks there, and a semicolon behind the layout
of a switch, may belong to the last statement before it.
-/

namespace Offside

open LexStream ParserState Offside.Parser

/-! ## One reading -/

namespace Parser

theorem ok_of_bind {α β : Type} {parser : Parser α} {next : α → Parser β}
    {state after : ParserState} {value : β} (result : (parser >>= next) state = .ok value after) :
    ∃ first middle, parser state = .ok first middle ∧ next first middle = .ok value after := by
  cases read : parser state with
  | ok first middle => exact ⟨first, middle, rfl, (bind_ok read).symm.trans result⟩
  | error abort middle =>
    rw [bind_error read] at result
    contradiction

theorem peek_of_buffer {state : ParserState} {token : Token} {others : List Token}
    (buffer : state.buffer = token :: others) : peek state = .ok token state := by
  have filled : fill (0 + 1) state = .ok () state := by
    unfold fill
    rw [if_pos (by rw [buffer]; simp)]
  rw [peek, peekAhead, bind_ok filled, bind_get]
  simp only [buffer, Nat.zero_min, List.getElem?_cons_zero]
  rfl

theorem within_of_ok {α : Type} {nonTerminal : NonTerminal} {parser : Parser α}
    {state after : ParserState} {value : α}
    (result : parser { state with nonTerminals := nonTerminal :: state.nonTerminals } =
      .ok value after) :
    within nonTerminal parser state =
      .ok value { after with nonTerminals := state.nonTerminals } := by
  rw [within, result]

theorem within_of_error {α : Type} {nonTerminal : NonTerminal} {parser : Parser α}
    {state after : ParserState} {abort : Abort}
    (result : parser { state with nonTerminals := nonTerminal :: state.nonTerminals } =
      .error abort after) :
    within nonTerminal parser state =
      .error abort { after with nonTerminals := state.nonTerminals } := by
  rw [within, result]

theorem attempt_of_ok {α : Type} {parser : Parser α} {state after : ParserState} {value : α}
    (result : parser state = .ok value after) : attempt parser state = .ok (.ok value) after := by
  rw [attempt, result]

theorem attempt_of_failure {α : Type} {parser : Parser α} {state after : ParserState}
    {error : SyntaxError} (result : parser state = .error (.failure error) after) :
    attempt parser state = .error (.failure error) after := by
  rw [attempt, result]

theorem attempt_of_exhausted {α : Type} {parser : Parser α} {state after : ParserState}
    (result : parser state = .error .exhausted after) :
    attempt parser state = .error .exhausted after := by
  rw [attempt, result]

theorem attempt_of_recoverable {α : Type} {parser : Parser α} {state after : ParserState}
    {error : SyntaxError} (result : parser state = .error (.recoverable error) after) :
    attempt parser state =
      .ok (.error error) { after with failures := after.failures ++ [error] } := by
  rw [attempt, result]

end Parser

variable {state after : ParserState} {n : Nat} {last : Kind} {next : Token} {others : List Token}

theorem removeNewlines_of_buffer (buffer : state.buffer = next :: others)
    (notLine : next.kind ≠ .newline) : removeNewlines state = .ok () state := by
  have none : consumeKind .newline state = .ok none state := by
    rw [consumeKind, consumeIf, bind_ok (peek_of_buffer buffer), if_neg (by simpa using notLine)]
    rfl
  obtain ⟨fuel, enough⟩ : ∃ fuel, state.fuel = fuel + 1 :=
    Nat.exists_eq_succ_of_ne_zero (by have := state.length_ahead_le_fuel; omega)
  rw [removeNewlines, fueled, enough, skipNewlines, bind_ok none]
  rfl

/-- Line breaks before a statement make no difference. -/
theorem statementsUntil_removeNewlines (ready : state.Ready)
    (removed : removeNewlines state = .ok () after) :
    after.AtToken ∧ Grammar.statementsUntil (n + 1) last state =
      Grammar.statementsUntil (n + 1) last after := by
  obtain ⟨same, _, ⟨result, atToken⟩ | ⟨error, result, _⟩⟩ := removeNewlines_cases ready
  · obtain ⟨-, rfl⟩ := EStateM.Result.ok.inj (removed.symm.trans result)
    obtain ⟨next, others, buffer, notLine⟩ := atToken
    refine ⟨⟨next, others, buffer, notLine⟩, ?_⟩
    rw [Grammar.statementsUntil, bind_ok removed, bind_ok (removeNewlines_of_buffer buffer notLine)]
  · rw [removed] at result
    contradiction

theorem length_le_of_removeNewlines (ready : state.Ready)
    (removed : removeNewlines state = .ok () after) : after.ahead.length ≤ state.ahead.length := by
  obtain ⟨same, past, ⟨result, _⟩ | ⟨error, result, _⟩⟩ := removeNewlines_cases ready
  · obtain ⟨-, rfl⟩ := EStateM.Result.ok.inj (removed.symm.trans result)
    rw [past.ahead]
    exact (List.dropWhile_suffix _).length_le
  · rw [removed] at result
    contradiction

/-- The statements from some token on that is not their end. -/
theorem statementsUntil_of_buffer (buffer : state.buffer = next :: others)
    (notLine : next.kind ≠ .newline) (notLast : next.kind ≠ last)
    (notEnd : next.kind ≠ .endOfInput) :
    Grammar.statementsUntil (n + 1) last state = (do
      match ← attempt (within .statement (Grammar.statement n)) with
      | .ok first => return first :: (← Grammar.statementsUntil n last)
      | .error error =>
        recover error state.depth next.span.first
        Grammar.statementsUntil n last) state := by
  rw [Grammar.statementsUntil, bind_ok (removeNewlines_of_buffer buffer notLine),
    bind_ok (peek_of_buffer buffer), if_neg (by simp [notLast, notEnd])]
  exact bind_get _ state

theorem statementsUntil_of_last (buffer : state.buffer = next :: others)
    (notLine : next.kind ≠ .newline) (isLast : next.kind = last ∨ next.kind = .endOfInput) :
    Grammar.statementsUntil (n + 1) last state = .ok [] state := by
  rw [Grammar.statementsUntil, bind_ok (removeNewlines_of_buffer buffer notLine),
    bind_ok (peek_of_buffer buffer), if_pos (by simpa using isLast)]
  rfl

/-- At the end of a text there are no more statements. -/
theorem statementsUntil_of_end {input : Input} (visited : Visited input state)
    (ahead : state.ahead = [next]) (isEnd : next.kind = .endOfInput) :
    ∃ after, Grammar.statementsUntil (n + 1) last state = .ok [] after ∧
      after.failures = state.failures := by
  have noLine : next.isLine = false := by simp [Token.isLine, isEnd]
  obtain ⟨after, past, ⟨removed, _⟩ | ⟨error, _, nothing⟩⟩ := removeNewlines_cases visited.ready
  · obtain ⟨⟨token, others, buffer, notLine⟩, same⟩ :=
      @statementsUntil_removeNewlines state after n last visited.ready removed
    obtain ⟨rest, found⟩ := ahead_of_buffer buffer
    rw [past.ahead, ahead, List.dropWhile_cons_of_neg (by simp [noLine])] at found
    obtain ⟨rfl, -⟩ := List.cons.inj found
    exact ⟨after, same.trans (statementsUntil_of_last buffer notLine (Or.inr isEnd)),
      past.failures⟩
  · rw [past.ahead, ahead, List.dropWhile_cons_of_neg (by simp [noLine])] at nothing
    contradiction

theorem eq_nil_of_end {input : Input} (visited : Visited input state)
    (atEnd : ∃ last, state.ahead = [last] ∧ last.kind = .endOfInput)
    {statements : List (Statement Span)}
    (read : Grammar.statementsUntil n last state = .ok statements after) :
    statements = [] ∧ after.failures = state.failures := by
  obtain ⟨next, ahead, isEnd⟩ := atEnd
  cases n with
  | zero =>
    rw [Grammar.statementsUntil] at read
    contradiction
  | succ n =>
    obtain ⟨after', ended, failures⟩ :=
      @statementsUntil_of_end state n last next _ visited ahead isEnd
    obtain ⟨rfl, rfl⟩ := EStateM.Result.ok.inj (read.symm.trans ended)
    exact ⟨rfl, failures⟩

/-- Where only line breaks are left, a fatal error comes next. -/
theorem statementsUntil_of_lines (ready : state.Ready)
    (areLines : ∀ token ∈ state.ahead, token.isLine = true) :
    ∃ error after, Grammar.statementsUntil (n + 1) last state = .error (.failure error) after ∧
      after.failures = state.failures := by
  have nothing : state.ahead.dropWhile Token.isLine = [] := List.dropWhile_eq_nil_iff.mpr areLines
  obtain ⟨after, past, ⟨_, atToken⟩ | ⟨error, failed, _⟩⟩ := removeNewlines_cases ready
  · exact absurd (past.ahead.trans nothing) atToken.ahead_ne_nil
  · refine ⟨error, after, ?_, past.failures⟩
    rw [Grammar.statementsUntil, bind_error failed]

/-! ## What a round takes -/

/-- No failure is forgotten. -/
def Discipline.remembering (past : List SyntaxError) : Discipline where
  Holds _ state := past ⊆ state.failures
  Fails _ state := past ⊆ state.failures
  draws drawn holds := by cases drawn <;> exact holds
  takes _ holds := holds
  names _ holds := holds
  namesFailed _ holds := holds
  faults _ holds := holds
  endsFatally _ _ holds := holds
  abandons holds := fun _ member => List.mem_append_left _ (holds member)
  reports holds := holds
  gaveUp _ _ holds := holds

/-- A statement that is read takes some token. -/
theorem shorter_of_statement (ready : state.Ready) (enough : 16 * state.ahead.length + 6 ≤ n)
    {first : Statement Span}
    (read : within .statement (Grammar.statement n) state = .ok first after) :
    after.ahead.length < state.ahead.length := by
  have reach : (Discipline.remembering []).Reach 0 state state :=
    .start ready (List.nil_subset _)
  have walks : (Discipline.remembering []).Walks 6 1 n n (within .statement (Grammar.statement n))
      (within .statement (Grammar.statement n)) :=
    Discipline.walks_within (Discipline.walk _ n n).statement
  obtain ⟨_, outcome⟩ := walks reach ⟨by omega, by omega⟩
  rw [read] at outcome
  exact outcome.fewer

/-- What going on after a statement that is wrong comes to. -/
structure Recovered (error : SyntaxError) (state after : ParserState) : Prop where
  ready : after.Ready
  shorter : after.ahead.length < state.ahead.length
  failed : error ∈ after.failures

/-- So does going on after a statement that is wrong, and its error is remembered. -/
theorem recovered_of_statement (ready : state.Ready) (enough : 16 * state.ahead.length + 6 ≤ n)
    {rest : List Token} (ahead : state.ahead = next :: rest) (notEnd : next.kind ≠ .endOfInput)
    {error : SyntaxError} {failed : ParserState} {depth : Nat}
    (fails : within .statement (Grammar.statement n) state = .error (.recoverable error) failed)
    (recovers : recover error depth next.span.first
      { failed with failures := failed.failures ++ [error] } = .ok () after) :
    Recovered error state after := by
  have reach : (Discipline.remembering []).Reach 0 state state :=
    .start ready (List.nil_subset _)
  have walks : (Discipline.remembering []).Walks 6 1 n n (within .statement (Grammar.statement n))
      (within .statement (Grammar.statement n)) :=
    Discipline.walks_within (Discipline.walk _ n n).statement
  obtain ⟨_, outcome⟩ := walks reach ⟨by omega, by omega⟩
  rw [fails] at outcome
  have start : (Discipline.remembering [error]).Reach 0
      { state with failures := [error] } { state with failures := [error] } :=
    .start ⟨ready.terminated, ready.isFatal⟩ (List.Subset.refl _)
  obtain ⟨_, recovery⟩ : (Discipline.remembering [error]).Agrees true _
      (recover error depth next.span.first) _
      { failed with failures := failed.failures ++ [error] } _ :=
    Discipline.agrees_recover start ahead notEnd ⟨outcome.ready.terminated, outcome.ready.isFatal⟩
      (List.subset_append_right failed.failures [error]) outcome.suffix
  rw [recovers] at recovery
  exact ⟨recovery.ready, recovery.fewer, recovery.holds List.mem_cons_self⟩

theorem remembers_of_statementsUntil (ready : state.Ready)
    (enough : 16 * state.ahead.length + 7 ≤ n) {statements : List (Statement Span)}
    (read : Grammar.statementsUntil n last state = .ok statements after) :
    state.failures ⊆ after.failures := by
  have reach : (Discipline.remembering state.failures).Reach 0 state state :=
    .start ready (List.Subset.refl _)
  obtain ⟨_, outcome⟩ : (Discipline.remembering state.failures).Agrees true _
      (Grammar.statementsUntil n last) (Grammar.statementsUntil n last) state _ :=
    (Discipline.walk _ n n).statementsUntil last reach ⟨by omega, by omega⟩
  rw [read] at outcome
  exact outcome.1.holds

/-! ## Two readings -/

/-- What may be taken across the seam behind some statements: line breaks, and after the layout of
a switch at the end of the left text a semicolon. -/
def Seam.Shares (seam : Seam) (statements : List (Statement Span)) (taken : List Token) : Prop :=
  (∀ token ∈ taken, token.isLine = true) ∨
    (seam.left.EndsOpen ∧ ∃ last ∈ statements.getLast?, last.endsWithLayout = true ∧
      ∃ token : Token, taken = [token] ∧ token.kind = .symbol .semicolon)

/-- What the right reading does, where the left one has come to its end with some statements. -/
inductive Continues (seam : Seam) (statements : List (Statement Span)) (left : ParserState) :
    EStateM.Result Abort ParserState (List (Statement Span)) → Prop
  /-- There is nothing behind the seam. -/
  | together {others : List (Statement Span)} {right : ParserState}
    (isTogether : seam.after = none) (same : SameBy Statement.eraseAll statements others)
    (failures : right.failures.length = left.failures.length + seam.extra) :
    Continues seam statements left (.ok others right)
  /-- It goes on behind the seam, with enough fuel. -/
  | across {others : List (Statement Span)} {taken : List Token} {right : ParserState} {fuel : Nat}
    (same : SameBy Statement.eraseAll statements others) (visited : Visited seam.right right)
    (after : seam.after = some (taken ++ right.ahead)) (shares : seam.Shares statements taken)
    (depth : right.depth = 0)
    (failures : right.failures.length = left.failures.length + seam.extra)
    (enough : 16 * right.ahead.length + 7 ≤ fuel) :
    Continues seam statements left
      (((others ++ ·) <$> Grammar.statementsUntil fuel .endOfInput) right)
  /-- It comes to a fatal error behind the seam. -/
  | lost {error : SyntaxError} {right : ParserState} {lines : List Token}
    (after : seam.after = some lines) (areLines : ∀ token ∈ lines, token.isLine = true)
    (failures : right.failures.length = left.failures.length + seam.extra) :
    Continues seam statements left (.error (.failure error) right)

namespace Parser

variable {α β : Type} {parser : Parser α} {value : α} {abort : Abort}

theorem map_ok (made : α → β) (result : parser state = .ok value after) :
    (made <$> parser) state = .ok (made value) after := by
  change EStateM.map made parser state = _
  rw [EStateM.map, result]

theorem map_error (made : α → β) (result : parser state = .error abort after) :
    (made <$> parser) state = .error abort after := by
  change EStateM.map made parser state = _
  rw [EStateM.map, result]

theorem map_nil_append (parser : Parser (List α)) (state : ParserState) :
    (([] ++ ·) <$> parser) state = parser state := by
  cases result : parser state with
  | ok value after => rw [map_ok _ result, List.nil_append]
  | error abort after => rw [map_error _ result]

end Parser

section

variable {seam : Seam} {left right : ParserState} {statements : List (Statement Span)}

theorem Seam.Shares.cons {taken : List Token} (shares : seam.Shares statements taken)
    (first : Statement Span) : seam.Shares (first :: statements) taken := by
  refine shares.imp_right fun ⟨opens, last, isLast, layout, taken⟩ => ?_
  refine ⟨opens, last, ?_, layout, taken⟩
  obtain ⟨before, rfl⟩ := List.getLast?_eq_some_iff.mp isLast
  rw [← List.cons_append, List.getLast?_concat]
  rfl

/-- One more statement before the others. -/
theorem Continues.cons {first first' : Statement Span} {parser : Parser (List (Statement Span))}
    (same : SameBy Statement.erase first first')
    (continues : Continues seam statements left (parser right)) :
    Continues seam (first :: statements) left ((do return first' :: (← parser)) right) := by
  have sameAll {others : List (Statement Span)}
      (rest : SameBy Statement.eraseAll statements others) :
      SameBy Statement.eraseAll (first :: statements) (first' :: others) := by
    simp only [SameBy, Statement.eraseAll, same.eq, rest.eq]
  generalize read : parser right = result at continues
  cases continues with
  | together isTogether rest failures =>
    rw [bind_ok read]
    exact .together isTogether (sameAll rest) failures
  | @across others taken right' fuel rest visited after shares depth failures enough =>
    have goesOn : (do return first' :: (← parser)) right =
        (((first' :: others) ++ ·) <$> Grammar.statementsUntil fuel .endOfInput) right' := by
      cases more : Grammar.statementsUntil fuel .endOfInput right' with
      | ok later last =>
        rw [map_ok _ more] at read
        rw [bind_ok read, map_ok _ more]
        rfl
      | error abort last =>
        rw [map_error _ more] at read
        rw [bind_error read, map_error _ more]
    rw [goesOn]
    exact .across (sameAll rest) visited after (shares.cons first) depth failures enough
  | lost after areLines failures =>
    rw [bind_error read]
    exact .lost after areLines failures

/-- A statement of the left text fails at its end, behind the layout of a switch. The right
reading may not see that there. -/
def Strands (input : Input) (after : ParserState) : Prop :=
  input.EndsOpen ∧ ∃ error ∈ after.failures, error.AtEnd

/-- What is said of the statements of both texts, with some amount of fuel. -/
def Follows (seam : Seam) (n : Nat) : Prop :=
  ∀ {levels : Nat} {origin left right after : ParserState} {statements : List (Statement Span)},
    Abreast seam levels origin left right → left.depth = 0 →
      16 * left.ahead.length + 7 ≤ n → 16 * right.ahead.length + 7 ≤ n →
        Grammar.statementsUntil n .endOfInput left = .ok statements after →
          Strands seam.left after ∨
            Continues seam statements after (Grammar.statementsUntil n .endOfInput right)

/-- Behind a statement that both readings take. -/
theorem Follows.read (follows : Follows seam n) {first first' : Statement Span}
    (same : SameBy Statement.erase first first') {levels : Nat} {origin : ParserState}
    (arrived : Abreast seam levels origin left right ∨
      ∃ taken, seam.Stops Statement.endsWithLayout first taken ∧
        Across seam levels origin taken left right)
    (noDepth : left.depth = 0)
    (enough : 16 * left.ahead.length + 7 ≤ n) (enough' : 16 * right.ahead.length + 7 ≤ n)
    (read : (do return first :: (← Grammar.statementsUntil n .endOfInput)) left =
      .ok statements after) :
    Strands seam.left after ∨ Continues seam statements after
      ((do return first' :: (← Grammar.statementsUntil n .endOfInput)) right) := by
  obtain ⟨others, middle, rest, made⟩ := ok_of_bind read
  obtain ⟨rfl, rfl⟩ := EStateM.Result.ok.inj made
  rcases arrived with before | ⟨taken, stops, across⟩
  · exact (follows before noDepth enough enough' rest).imp_right (Continues.cons same)
  · obtain ⟨rfl, failures⟩ := eq_nil_of_end across.visitedLeft across.atEnd rest
    have shares : seam.Shares [first] taken :=
      stops.imp_right fun ⟨opens, layout, semicolon⟩ => ⟨opens, first, rfl, layout, semicolon⟩
    have goesOn : (do return first' :: (← Grammar.statementsUntil n .endOfInput)) right =
        (([first'] ++ ·) <$> Grammar.statementsUntil n .endOfInput) right := rfl
    rw [goesOn]
    refine Or.inr (.across ?_ across.visitedRight across.after shares across.depth ?_ enough')
    · simp only [SameBy, Statement.eraseAll, same.eq]
    · rw [failures]
      exact across.failures

/-- Behind a statement that both readings give up on. -/
theorem Follows.recovered (follows : Follows seam n) {levels : Nat} {origin : ParserState}
    (arrived : Abreast seam levels origin left right ∨ Across seam levels origin [] left right)
    (noDepth : left.depth = 0)
    (enough : 16 * left.ahead.length + 7 ≤ n) (enough' : 16 * right.ahead.length + 7 ≤ n)
    (read : Grammar.statementsUntil n .endOfInput left = .ok statements after) :
    Strands seam.left after ∨
      Continues seam statements after (Grammar.statementsUntil n .endOfInput right) := by
  rcases arrived with before | across
  · exact follows before noDepth enough enough' read
  · obtain ⟨rfl, failures⟩ := eq_nil_of_end across.visitedLeft across.atEnd read
    rw [← map_nil_append (Grammar.statementsUntil n .endOfInput) right]
    refine Or.inr (.across rfl across.visitedRight across.after ?_ across.depth ?_ enough')
    · exact Or.inl fun _ member => absurd member List.not_mem_nil
    · rw [failures]
      exact across.failures

/-- Both readings see the next token before the seam, where no line break is next. -/
theorem Abreast.twins {levels : Nat} {origin : ParserState} {next' : Token} {others' : List Token}
    (abreast : Abreast seam levels origin left right) (buffer : left.buffer = next :: others)
    (buffer' : right.buffer = next' :: others') (notLine : next'.kind ≠ .newline) :
    Twins seam.places next next' := by
  obtain ⟨rest, ahead⟩ := ahead_of_buffer buffer
  obtain ⟨rest', ahead'⟩ := ahead_of_buffer buffer'
  have both := abreast.ahead
  rw [ahead, ahead'] at both
  cases both with
  | more twins => exact twins
  | line _ isLine => exact absurd isLine notLine
  | level twins => exact twins

/-- One round: the next statement of both texts. -/
theorem Follows.round (follows : Follows seam n) {next' : Token} {others' : List Token}
    (abreast : Abreast seam 0 left left right) (noDepth : left.depth = 0)
    (buffer : left.buffer = next :: others) (buffer' : right.buffer = next' :: others')
    (notLine : next.kind ≠ .newline) (notLine' : next'.kind ≠ .newline)
    (enough : 16 * left.ahead.length + 7 ≤ n + 1) (enough' : 16 * right.ahead.length + 7 ≤ n + 1)
    (read : Grammar.statementsUntil (n + 1) .endOfInput left = .ok statements after) :
    Strands seam.left after ∨
      Continues seam statements after (Grammar.statementsUntil (n + 1) .endOfInput right) := by
  have twins := abreast.twins buffer buffer' notLine'
  obtain ⟨rest, ahead⟩ := ahead_of_buffer buffer
  obtain ⟨rest', ahead'⟩ := ahead_of_buffer buffer'
  have ready := abreast.visitedLeft.ready
  have ready' := abreast.visitedRight.ready
  by_cases isEnd : next.kind = .endOfInput
  · have isEnd' := twins.kind.trans isEnd
    rw [statementsUntil_of_last buffer notLine (Or.inr isEnd)] at read
    obtain ⟨rfl, rfl⟩ := EStateM.Result.ok.inj read
    rw [statementsUntil_of_last buffer' notLine' (Or.inr isEnd')]
    exact Or.inr (.together (abreast.together twins buffer buffer' isEnd) rfl abreast.failures)
  · have isEnd' : next'.kind ≠ .endOfInput := twins.kind ▸ isEnd
    rw [statementsUntil_of_buffer buffer notLine isEnd isEnd] at read
    rw [statementsUntil_of_buffer buffer' notLine' isEnd' isEnd']
    have inner : Alike seam false .final left
        (Arrives seam (SameBy Statement.erase) (seam.Stops Statement.endsWithLayout) 0 left)
        (within .statement (Grammar.statement n)) left (within .statement (Grammar.statement n))
        right := reads_within (Seam.walk seam n).statement abreast
    unfold Alike at inner
    cases first : within .statement (Grammar.statement n) left with
    | ok value middle =>
      rw [bind_ok (attempt_of_ok first)] at read
      rw [first] at inner
      generalize second : within .statement (Grammar.statement n) right = result at inner
      cases inner with
      | @ok _ other _ middle' holds =>
        rw [bind_ok (attempt_of_ok second)]
        have shorter := shorter_of_statement ready (by omega) first
        have shorter' := shorter_of_statement ready' (by omega) second
        have noDepth : middle.depth = 0 := by
          rcases holds.2 with before | ⟨_, _, across⟩
          · exact before.rises.depth.trans noDepth
          · exact across.depth_eq_zero.1
        exact follows.read holds.1 holds.2 noDepth (by omega) (by omega) read
      | lost _ lost =>
        obtain ⟨others, last, more, made⟩ := ok_of_bind read
        obtain ⟨rfl, rfl⟩ := EStateM.Result.ok.inj made
        obtain ⟨rfl, failures⟩ := eq_nil_of_end lost.visited lost.atEnd more
        obtain ⟨lines, goesOn, areLines⟩ := lost.after
        rw [bind_error (attempt_of_failure second)]
        refine Or.inr (.lost goesOn areLines ?_)
        rw [failures]
        exact lost.failures
      | doomed isDoomed => contradiction
    | error abort middle =>
      cases abort with
      | recoverable error =>
        rw [bind_ok (attempt_of_recoverable first)] at read
        rw [first] at inner
        generalize second : within .statement (Grammar.statement n) right = result at inner
        obtain ⟨_, middle, recovers, read⟩ := ok_of_bind read
        have recovered := recovered_of_statement ready (by omega) ahead isEnd first recovers
        cases inner with
        | @recoverable _ error' failed failed' above soft failing =>
          rw [bind_ok (attempt_of_recoverable second)]
          have starts : Starts seam left next.span.first next'.span.first := by
            refine ⟨twins.place, next, rest, ahead, rfl, fun closes => ?_⟩
            have deep := abreast.visitedLeft.depth_pos ahead closes
            omega
          have recovery : Alike seam true .none left
              (fun _ after _ after' =>
                Abreast seam 0 left after after' ∨ Across seam 0 left [] after after')
              (recover error left.depth next.span.first) _
              (recover error' left.depth next'.span.first) _ :=
            alike_recover starts abreast.visitedLeft (failing.abandoned error error')
          unfold Alike at recovery
          rw [recovers] at recovery
          dsimp only
          rw [abreast.depth]
          generalize recovers' : recover error' left.depth next'.span.first _ = result at recovery
          cases recovery with
          | @ok _ _ _ middle' arrived =>
            rw [bind_ok recovers']
            have recovered' :=
              recovered_of_statement ready' (by omega) ahead' isEnd' second recovers'
            have shorter := recovered.shorter
            have shorter' := recovered'.shorter
            have noDepth : middle.depth = 0 := by
              rcases arrived with before | across
              · exact before.rises.depth.trans noDepth
              · exact across.depth_eq_zero.1
            exact follows.recovered arrived noDepth (by omega) (by omega) read
          | lost isFinal => contradiction
          | doomed isDoomed => contradiction
        | stranded soft doomed isAtEnd =>
          have shorter := recovered.shorter
          have remembers := remembers_of_statementsUntil recovered.ready (by omega) read
          exact Or.inl ⟨doomed.opens, error, remembers recovered.failed, isAtEnd⟩
      | failure error =>
        rw [bind_error (attempt_of_failure first)] at read
        contradiction
      | exhausted =>
        rw [bind_error (attempt_of_exhausted first)] at read
        contradiction

/-- Up to the seam both texts have the same statements. -/
theorem follows (seam : Seam) (n : Nat) : Follows seam n := by
  induction n with
  | zero =>
    intro levels origin left right after statements abreast noDepth enough
    omega
  | succ n inductionHypothesis =>
    intro levels origin left right after statements abreast noDepth enough enough' read
    have ready := abreast.visitedLeft.ready
    have ready' := abreast.visitedRight.ready
    have lines : Alike seam true .final left
        (fun _ after _ after' => Abreast seam 0 left after after' ∨
          ∃ lines, (∀ token ∈ lines, token.isLine = true) ∧ Across seam 0 left lines after after')
        removeNewlines left removeNewlines right := alike_removeNewlines abreast.rebase
    obtain ⟨looked, _, ⟨removed, _⟩ | ⟨error, failed, _⟩⟩ := removeNewlines_cases ready
    · obtain ⟨⟨next, others, buffer, notLine⟩, same⟩ :=
        @statementsUntil_removeNewlines left looked n .endOfInput ready removed
      have fewer := length_le_of_removeNewlines ready removed
      rw [same] at read
      unfold Alike at lines
      rw [removed] at lines
      generalize removed' : removeNewlines right = result at lines
      cases lines with
      | @ok _ _ _ looked' arrived =>
        obtain ⟨⟨next', others', buffer', notLine'⟩, same'⟩ :=
          @statementsUntil_removeNewlines right looked' n .endOfInput ready' removed'
        have fewer' := length_le_of_removeNewlines ready' removed'
        rw [same']
        rcases arrived with before | ⟨lines, areLines, across⟩
        · exact inductionHypothesis.round before.rebase (before.rises.depth.trans noDepth) buffer
            buffer' notLine notLine' (by omega) (by omega) read
        · obtain ⟨rfl, failures⟩ := eq_nil_of_end across.visitedLeft across.atEnd read
          rw [← map_nil_append (Grammar.statementsUntil (n + 1) .endOfInput) looked']
          refine Or.inr (.across rfl across.visitedRight across.after (Or.inl areLines)
            across.depth ?_ (by omega))
          rw [failures]
          exact across.failures
      | lost _ lost =>
        obtain ⟨rfl, failures⟩ := eq_nil_of_end lost.visited lost.atEnd read
        obtain ⟨lines, goesOn, areLines⟩ := lost.after
        rw [Grammar.statementsUntil, bind_error removed']
        refine Or.inr (.lost goesOn areLines ?_)
        rw [failures]
        exact lost.failures
      | doomed isDoomed => contradiction
    · rw [Grammar.statementsUntil, bind_error failed] at read
      contradiction

end

end Offside
