import Offside.Proofs.Parser.Discipline

/-!
The readings that every rule is made of, under any discipline: looking ahead, taking tokens,
failing, and the small rules that need no fuel.
-/

namespace Offside

open Offside.Parser

namespace Discipline

variable {discipline : Discipline} {firm : Bool} {origin state : ParserState} {count : Nat}

/-! ## Tokens -/

theorem agrees_peek (reach : discipline.Reach count origin state) :
    discipline.Agrees firm origin peek peek state fun token after =>
      discipline.Reach count origin after ∧ ∃ rest, after.ahead = token :: rest := by
  obtain ⟨after, fills, ⟨token, others, rest, buffer, ahead, result⟩ | ⟨error, ends, _, result⟩⟩ :=
    peek_cases reach.ready
  · refine ⟨rfl, ?_⟩
    rw [result]
    exact ⟨reach.fills fills, rest, fills.ahead_eq.trans ahead⟩
  · refine ⟨rfl, ?_⟩
    rw [result]
    exact (reach.fills fills).halts_of_endsFatally ends

theorem agrees_peekKind (reach : discipline.Reach count origin state) :
    discipline.Agrees firm origin peekKind peekKind state fun kind after =>
      discipline.Reach count origin after ∧
        ∃ token rest, after.ahead = token :: rest ∧ token.kind = kind :=
  (agrees_peek reach).bind fun token _ ⟨reached, rest, ahead⟩ =>
    agrees_pure ⟨reached, token, rest, ahead, rfl⟩

theorem agrees_check (kind : Kind) (reach : discipline.Reach count origin state) :
    discipline.Agrees firm origin (check kind) (check kind) state fun same after =>
      discipline.Reach count origin after ∧
        ∃ token rest, after.ahead = token :: rest ∧ same = decide (token.kind = kind) :=
  (agrees_peek reach).bind fun token _ ⟨reached, rest, ahead⟩ =>
    agrees_pure ⟨reached, token, rest, ahead, rfl⟩

/-- The token taken is the first one ahead. It counts unless it is the end of input, which
stays. -/
theorem agrees_consume (reach : discipline.Reach count origin state) :
    discipline.Agrees firm origin consume consume state fun token after =>
      (∃ rest, state.ahead = token :: rest) ∧ discipline.Reach count origin after ∧
        (token.kind ≠ .endOfInput → discipline.Reach (count + 1) origin after) := by
  obtain ⟨after, fills, ⟨token, others, rest, buffer, ahead, result⟩ | ⟨error, ends, _, result⟩⟩ :=
    consume_cases reach.ready
  · refine ⟨rfl, ?_⟩
    rw [result]
    have filled := reach.fills fills
    have ready := filled.ready.afterToken buffer
    have holds := discipline.takes buffer filled.holds
    have aheadAfter := ParserState.ahead_afterToken buffer (fills.ahead_eq.trans ahead)
    have fewer := reach.fewer
    rw [ahead, List.length_cons] at fewer
    have suffix := reach.suffix
    rw [ahead] at suffix
    by_cases isEnd : token.kind = .endOfInput
    · rw [if_pos isEnd] at aheadAfter
      refine ⟨⟨rest, ahead⟩, ⟨ready, holds, aheadAfter ▸ suffix, ?_⟩,
        fun notEnd => absurd isEnd notEnd⟩
      rw [aheadAfter, List.length_cons]
      exact fewer
    · rw [if_neg isEnd] at aheadAfter
      have shorter : rest <:+ origin.ahead := (List.suffix_cons token rest).trans suffix
      have reached : discipline.Reach (count + 1) origin (after.afterToken token others) :=
        ⟨ready, holds, aheadAfter ▸ shorter, by rw [aheadAfter]; omega⟩
      exact ⟨⟨rest, ahead⟩, reached.weaken (Nat.le_succ count), fun _ => reached⟩
  · refine ⟨rfl, ?_⟩
    rw [result]
    exact (reach.fills fills).halts_of_endsFatally ends

/-- Taking a token that was looked at. -/
theorem agrees_consume_of_ahead (reach : discipline.Reach count origin state) {token : Token}
    {rest : List Token} (ahead : state.ahead = token :: rest)
    (notEnd : token.kind ≠ .endOfInput) :
    discipline.Agrees firm origin consume consume state fun taken after =>
      taken = token ∧ discipline.Reach (count + 1) origin after := by
  refine (agrees_consume reach).mono fun taken after ⟨⟨others, takenAhead⟩, _, counts⟩ => ?_
  rw [ahead] at takenAhead
  injection takenAhead with same _
  subst same
  exact ⟨rfl, counts notEnd⟩

theorem agrees_consumeKind {kind : Kind} (notEnd : kind ≠ .endOfInput)
    (reach : discipline.Reach count origin state) :
    discipline.Agrees firm origin (consumeKind kind) (consumeKind kind) state fun taken after =>
      discipline.Reach count origin after ∧
        (taken.isSome = true → discipline.Reach (count + 1) origin after) := by
  refine (agrees_peek reach).bind fun token middle ⟨reached, rest, ahead⟩ => ?_
  dsimp only
  split
  next same =>
    have tokenNotEnd : token.kind ≠ .endOfInput := by
      rw [of_decide_eq_true same]
      exact notEnd
    refine (agrees_consume_of_ahead reached ahead tokenNotEnd).bind
      fun taken after ⟨_, counts⟩ => ?_
    exact agrees_pure ⟨counts.weaken (Nat.le_succ count), fun _ => counts⟩
  next => exact agrees_pure ⟨reached, fun taken => by simp at taken⟩

theorem agrees_failAt {α : Type} {span : Span} {fault : SyntaxFault}
    {post : α → ParserState → Prop} (reach : discipline.Reach count origin state)
    (syntactic : ∀ error, fault ≠ .lexical error) :
    discipline.Agrees false origin (failAt span fault) (failAt span fault) state post :=
  ⟨rfl, reach.ready, discipline.faults syntactic reach.holds, reach.suffix, rfl⟩

theorem agrees_unexpected {α : Type} {span : Span} {token : Token}
    {expectations : List Expectation} {post : α → ParserState → Prop}
    (reach : discipline.Reach count origin state) :
    discipline.Agrees false origin (unexpected span token expectations)
      (unexpected span token expectations) state post :=
  agrees_failAt reach fun _ => SyntaxFault.noConfusion

theorem agrees_expect {kind : Kind} (notEnd : kind ≠ .endOfInput)
    (reach : discipline.Reach count origin state) :
    discipline.Agrees false origin (expect kind) (expect kind) state fun _ after =>
      discipline.Reach (count + 1) origin after := by
  refine (agrees_peek reach).bind fun token middle ⟨reached, rest, ahead⟩ => ?_
  split
  next same =>
    exact (agrees_consume_of_ahead reached ahead (same ▸ notEnd)).mono
      fun taken after ⟨_, counts⟩ => counts
  next => exact agrees_get (agrees_unexpected reached)

/-- Taking the end of input leaves it where it is. -/
theorem agrees_expect_end (reach : discipline.Reach count origin state) {token : Token}
    {rest : List Token} (ahead : state.ahead = token :: rest) (isEnd : token.kind = .endOfInput) :
    discipline.Agrees firm origin (expect .endOfInput) (expect .endOfInput) state fun _ after =>
      discipline.Reach count origin after ∧ after.AtEnd := by
  refine ⟨rfl, ?_⟩
  obtain ⟨middle, fills, ⟨next, _, rest, _, sameAhead, peeked⟩ | ⟨_, _, empty, _⟩⟩ :=
    peek_cases reach.ready
  · obtain ⟨rfl, rfl⟩ := List.cons.inj (sameAhead.symm.trans ahead)
    have reached := reach.fills fills
    obtain ⟨_, outcome⟩ : discipline.Agrees firm origin consume consume middle _ :=
      agrees_consume reached
    obtain ⟨after, draws, ⟨first, others, more, buffer, again, taken⟩ | ⟨_, _, empty, _⟩⟩ :=
      consume_cases reached.ready
    · rw [fills.ahead_eq, ahead] at again
      obtain ⟨rfl, rfl⟩ := List.cons.inj again
      rw [taken] at outcome
      rw [expect, bind_ok peeked, if_pos isEnd, taken]
      refine ⟨outcome.2.1, next, others, ?_, isEnd⟩
      rw [ParserState.afterToken, if_pos isEnd, buffer]
    · rw [fills.ahead_eq, ahead] at empty
      contradiction
  · rw [empty] at ahead
    contradiction

/-- Naming a part of the grammar changes nothing that does not depend on the names. -/
theorem agrees_naming {α : Type} {nonTerminal : NonTerminal} {left right : Parser α}
    {post : α → ParserState → Prop}
    (unnamed : ∀ value after nonTerminals, post value after →
      post value { after with nonTerminals })
    (agrees : discipline.Agrees firm origin left right
      { state with nonTerminals := nonTerminal :: state.nonTerminals } post) :
    discipline.Agrees firm origin (within nonTerminal left) (within nonTerminal right) state
      post := by
  obtain ⟨same, outcome⟩ := agrees
  unfold Agrees within
  rw [← same]
  refine ⟨rfl, ?_⟩
  cases result : left { state with nonTerminals := nonTerminal :: state.nonTerminals } with
  | ok value after =>
    rw [result] at outcome
    exact unnamed value after _ outcome
  | error abort after =>
    rw [result] at outcome
    exact outcome.named _

theorem agrees_within {α : Type} {nonTerminal : NonTerminal} {left right : Parser α}
    (reach : discipline.Reach count origin state) {after : Nat}
    (agrees : ∀ {state}, discipline.Reach count origin state →
      discipline.Agrees firm origin left right state fun _ reached =>
        discipline.Reach after origin reached) :
    discipline.Agrees firm origin (within nonTerminal left) (within nonTerminal right) state
      fun _ reached => discipline.Reach after origin reached :=
  agrees_naming (fun _ _ nonTerminals reached => reached.named nonTerminals)
    (agrees (reach.named _))

/-! ## Rules without fuel -/

theorem agrees_identifier (reach : discipline.Reach count origin state) :
    discipline.Agrees false origin (within .identifier Grammar.identifier)
      (within .identifier Grammar.identifier) state fun _ after =>
        discipline.Reach (count + 1) origin after :=
  agrees_within reach fun reached =>
    (agrees_expect Kind.noConfusion reached).bind fun _ _ counts => agrees_pure counts

theorem agrees_updated {op : UpdateOp} {value : Expr Span}
    (reach : discipline.Reach count origin state) {token : Token} {rest : List Token}
    (ahead : state.ahead = token :: rest) (notEnd : token.kind ≠ .endOfInput) :
    discipline.Agrees firm origin (Grammar.updated op value) (Grammar.updated op value) state
      fun _ after => discipline.Reach (count + 1) origin after :=
  (agrees_consume_of_ahead reach ahead notEnd).bind fun _ _ ⟨_, counts⟩ => agrees_pure counts

theorem agrees_optionalField {value : Expr Span} (reach : discipline.Reach count origin state) :
    discipline.Agrees false origin (Grammar.optionalField value) (Grammar.optionalField value) state
      fun _ after => discipline.Reach (count + 1) origin after :=
  ((agrees_consume reach).discard fun _ _ ⟨_, reached, _⟩ => reached).bind fun _ _ reached =>
    (agrees_identifier reached).bind fun _ _ counts => agrees_pure counts

theorem agrees_simpleLiteral (reach : discipline.Reach count origin state) :
    discipline.Agrees false origin Grammar.simpleLiteral Grammar.simpleLiteral state fun _ after =>
      discipline.Reach (count + 1) origin after := by
  refine (agrees_consume reach).bind fun token after ⟨_, reached, counts⟩ => ?_
  by_cases isEnd : token.kind = .endOfInput
  · rw [isEnd]
    exact agrees_unexpected reached
  · cases token.kind
    all_goals first | exact agrees_pure (counts isEnd) | exact agrees_unexpected reached

theorem agrees_terminator {value : Expr Span} (reach : discipline.Reach count origin state) :
    discipline.Agrees false origin (Grammar.terminator value) (Grammar.terminator value) state
      fun _ after => discipline.Reach count origin after := by
  refine (agrees_peek reach).bind fun next after ⟨reached, rest, ahead⟩ => ?_
  split
  next => exact (agrees_consume reached).bind fun _ _ ⟨_, kept, _⟩ => agrees_pure kept
  next =>
    exact ((agrees_consume reached).discard fun _ _ ⟨_, kept, _⟩ => kept).bind
      fun _ _ kept => agrees_pure kept
  next => exact agrees_pure reached
  next => exact agrees_pure reached
  next => exact agrees_pure reached
  next =>
    split
    next => exact agrees_pure reached
    next => exact agrees_unexpected reached

/-! ## Line breaks -/

theorem agrees_skipNewlines {fuel : Nat} (reach : discipline.Reach count origin state)
    (enough : state.ahead.length < fuel) :
    discipline.Agrees firm origin (skipNewlines fuel) (skipNewlines fuel) state fun _ after =>
      discipline.Reach count origin after := by
  induction fuel generalizing count origin state with
  | zero => omega
  | succ fuel inductionHypothesis =>
    have lineBreak : Kind.newline ≠ .endOfInput := Kind.noConfusion
    have again : discipline.Agrees firm state (skipNewlines (fuel + 1)) (skipNewlines (fuel + 1))
        state fun _ after => discipline.Reach 0 state after := by
      refine (agrees_consumeKind lineBreak reach.restart).bind
        fun taken middle ⟨reached, counts⟩ => ?_
      split
      next some =>
        have fewer := (counts some).fewer
        exact inductionHypothesis reached (by omega)
      next => exact agrees_pure reached
    exact (reach.agrees again).mono fun _ _ later => later.trans reach

theorem agrees_removeNewlines (reach : discipline.Reach count origin state) :
    discipline.Agrees firm origin removeNewlines removeNewlines state fun _ after =>
      discipline.Reach count origin after :=
  agrees_fueled (agrees_skipNewlines reach (by have := state.length_ahead_le_fuel; omega))

/-! ## Recovery -/

/-- An end that is found after a statement failed lies behind its first token. -/
theorem shorter_of_foundAt {next : Token} {rest : List Token} {failed after : ParserState}
    (ahead : state.ahead = next :: rest) (notEnd : next.kind ≠ .endOfInput)
    (suffix : failed.ahead <:+ state.ahead) (later : after.ahead <:+ failed.ahead)
    (found : FoundAt next.span.first failed after) :
    after.ahead.length < state.ahead.length := by
  have laterLength := later.length_le
  rcases Nat.lt_or_ge failed.ahead.length state.ahead.length with shorter | same
  · omega
  · have unchanged := suffix.eq_of_length_le same
    rcases found with fewer | ⟨token, others, failedAhead, atEnd | behind⟩
    · exact Nat.lt_of_lt_of_le fewer suffix.length_le
    · obtain ⟨rfl, _⟩ := List.cons.inj (failedAhead.symm.trans (unchanged.trans ahead))
      exact absurd atEnd notEnd
    · obtain ⟨rfl, _⟩ := List.cons.inj (failedAhead.symm.trans (unchanged.trans ahead))
      exact absurd (Position.le_refl _) behind

/-- After the error of a statement that starts with the next token, at least that token is
taken. -/
theorem agrees_recover {error : SyntaxError} {depth : Nat} {next : Token} {rest : List Token}
    {failed : ParserState} (reach : discipline.Reach count origin state)
    (ahead : state.ahead = next :: rest) (notEnd : next.kind ≠ .endOfInput)
    (ready : failed.Ready) (holds : discipline.Holds (some error) failed)
    (suffix : failed.ahead <:+ state.ahead) :
    discipline.Agrees firm origin (recover error depth next.span.first)
      (recover error depth next.span.first) failed fun _ after =>
        discipline.Reach (count + 1) origin after := by
  have enough : failed.ahead.length < failed.fuel := by
    have := failed.length_ahead_le_fuel
    omega
  have skipped : Skipped next.span.first failed (skipStatement depth next.span.first failed) :=
    skipTokens_cases depth next.span.first ready enough
  have whole := suffix.trans reach.suffix
  unfold Agrees recover
  refine ⟨rfl, ?_⟩
  generalize skipStatement depth next.span.first failed = result at skipped
  cases skipped with
  | @found after passes foundAt =>
    have shorter := shorter_of_foundAt ahead notEnd suffix passes.suffix foundAt
    have fewer : after.ahead.length + (count + 1) ≤ origin.ahead.length := by
      have := reach.fewer
      omega
    have readyAfter := passes.ready ready
    exact ⟨⟨readyAfter.terminated, readyAfter.isFatal⟩,
      discipline.reports (holds_of_passes passes holds), passes.suffix.trans whole, fewer⟩
  | missing passes ends =>
    have readyAfter := passes.ready ready
    exact ⟨readyAfter, discipline.gaveUp readyAfter ends (holds_of_passes passes holds),
      passes.suffix.trans whole, trivial⟩
  | fatal passes ends =>
    have owes := holds_of_passes passes holds
    have readyAfter := passes.ready ready
    refine ⟨⟨readyAfter.terminated, readyAfter.isFatal⟩, ?_, passes.suffix.trans whole,
      trivial⟩
    exact discipline.endsFatally ⟨readyAfter.terminated, readyAfter.isFatal⟩
      ⟨ends.fatal, ends.short⟩ (discipline.reports owes)

end Discipline

end Offside
