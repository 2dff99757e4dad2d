import Offside.Proofs.Parser.Outlook

/-!
Going on after an error: the tokens up to the end of a statement are taken, whatever they are. The
end of input is never passed, and a fatal error ends the skipping as it ends any reading.
-/

namespace Offside

namespace ParserState

/-- An item is drawn or a token is taken. -/
inductive Moves : ParserState → ParserState → Prop
  | draws {state after : ParserState} (draws : Draws state after) : Moves state after
  | takes {state : ParserState} {token : Token} {others : List Token}
      (buffer : state.buffer = token :: others) : Moves state (state.afterToken token others)

/-- Any number of items are drawn and of tokens are taken. -/
def Passes : ParserState → ParserState → Prop :=
  Relation.ReflTransGen Moves

theorem Moves.ready {state after : ParserState} (moves : Moves state after)
    (ready : state.Ready) : after.Ready := by
  cases moves with
  | draws draws => exact draws.ready ready
  | takes buffer => exact ready.afterToken buffer

theorem Moves.suffix {state after : ParserState} (moves : Moves state after) :
    after.ahead <:+ state.ahead := by
  cases moves with
  | draws draws => exact draws.ahead_eq ▸ List.suffix_rfl
  | @takes token others buffer =>
    have ahead : state.ahead = token :: (others ++
        (state.lexer.items state.cancelled).filterMap LexItem.token?) := by
      rw [ahead, buffer, List.cons_append]
    rw [ahead_afterToken buffer ahead]
    split
    next => exact ahead ▸ List.suffix_rfl
    next => exact ahead ▸ List.suffix_cons _ _

theorem Passes.ready {state after : ParserState} (passes : Passes state after)
    (ready : state.Ready) : after.Ready := by
  induction passes with
  | refl => exact ready
  | tail _ moves inductionHypothesis => exact moves.ready inductionHypothesis

theorem Passes.suffix {state after : ParserState} (passes : Passes state after) :
    after.ahead <:+ state.ahead := by
  induction passes with
  | refl => exact List.suffix_rfl
  | tail _ moves inductionHypothesis => exact moves.suffix.trans inductionHypothesis

theorem Fills.passes {state after : ParserState} (fills : Fills state after) :
    Passes state after :=
  Relation.ReflTransGen.mono (fun _ _ => .draws) _ _ fills

theorem Passes.take {state middle : ParserState} (passes : Passes state middle) {token : Token}
    {others : List Token} (buffer : middle.buffer = token :: others) :
    Passes state (middle.afterToken token others) :=
  passes.tail (.takes buffer)

/-- The next token is the end of input, on a line that no line break ends. -/
def EndsInLine (state : ParserState) : Prop :=
  state.AtEnd ∧ state.lexer.endedAtLineBreak = false

end ParserState

namespace Parser

open ParserState

/-- An end that was found without taking any token is the end of input or a token that does not
start the statement. -/
def FoundAt (start : Position) (state after : ParserState) : Prop :=
  after.ahead.length < state.ahead.length ∨
    ∃ token rest, state.ahead = token :: rest ∧
      (token.kind = .endOfInput ∨ start < token.span.first)

/-- What skipping tokens from `origin` comes to: an end of the statement, an end of input that is
none, or a fatal error. -/
inductive Skipped (start : Position) (origin : ParserState) :
    EStateM.Result Abort ParserState Bool → Prop
  | found {after : ParserState} (passes : Passes origin after)
      (foundAt : FoundAt start origin after) : Skipped start origin (.ok true after)
  | missing {after : ParserState} (passes : Passes origin after) (ends : EndsInLine after) :
      Skipped start origin (.ok false after)
  | fatal {after : ParserState} {error : LexError} (passes : Passes origin after)
      (ends : EndsFatally 1 error after) :
      Skipped start origin (.error (.failure (.ofLexError error)) after)

/-- Tokens are skipped also if one was taken before. -/
theorem Skipped.after_taking {start : Position} {origin middle : ParserState}
    {result : EStateM.Result Abort ParserState Bool} (skipped : Skipped start middle result)
    (passes : Passes origin middle) (shorter : middle.ahead.length < origin.ahead.length) :
    Skipped start origin result := by
  cases skipped with
  | found later foundAt =>
    have fewer := later.suffix.length_le
    exact .found (passes.trans later) (Or.inl (by omega))
  | missing later ends => exact .missing (passes.trans later) ends
  | fatal later ends => exact .fatal (passes.trans later) ends

/-- A parser skips tokens from `origin`, some of which were drawn before. -/
def Skips (start : Position) (origin : ParserState) (parser : Parser Bool)
    (state : ParserState) : Prop :=
  Skipped start origin (parser state)

/-- What is done with the next token. -/
theorem skips_peek {start : Position} {origin state : ParserState} {next : Token → Parser Bool}
    (ready : state.Ready) (passes : Passes origin state)
    (skips : ∀ token others rest after, after.buffer = token :: others →
      state.ahead = token :: rest → Fills state after → Skips start origin (next token) after) :
    Skips start origin (peek >>= next) state := by
  unfold Skips
  obtain ⟨after, fills, ⟨token, others, rest, buffer, ahead, result⟩ | ⟨error, ends, _, result⟩⟩ :=
    peek_cases ready
  · rw [bind_ok result]
    exact skips token others rest after buffer ahead fills
  · rw [bind_error result]
    exact .fatal (passes.trans fills.passes) ends

theorem skips_pure_true {start : Position} {origin state : ParserState}
    (passes : Passes origin state) (foundAt : FoundAt start origin state) :
    Skips start origin (pure true) state :=
  .found passes foundAt

/-- What is done after a token is taken that is not the end of input. -/
theorem skips_consume {start : Position} {origin state : ParserState} {next : Token → Parser Bool}
    (ready : state.Ready) (passes : Passes origin state) {token : Token} {rest : List Token}
    (ahead : state.ahead = token :: rest) (notEnd : token.kind ≠ .endOfInput)
    (skips : ∀ after, after.ahead.length < state.ahead.length → Passes origin after →
      Skips start origin (next token) after) :
    Skips start origin (consume >>= next) state := by
  unfold Skips
  obtain ⟨drawn, fills, ⟨first, others, more, buffer, sameAhead, result⟩ |
      ⟨error, ends, _, result⟩⟩ := consume_cases ready
  · obtain ⟨rfl, rfl⟩ := List.cons.inj (sameAhead.symm.trans ahead)
    rw [bind_ok result]
    have drawnPasses : Passes origin drawn := passes.trans fills.passes
    refine skips _ ?_ (drawnPasses.take buffer)
    rw [ahead_afterToken buffer (fills.ahead_eq.trans ahead), if_neg notEnd, ahead,
      List.length_cons]
    exact Nat.lt_succ_self _
  · rw [bind_error result]
    exact .fatal (passes.trans fills.passes) ends

theorem skipTokens_cases (depth : Nat) (start : Position) {fuel : Nat} {state : ParserState}
    (ready : state.Ready) (enough : state.ahead.length < fuel) :
    Skips start state (skipTokens depth start fuel) state := by
  induction fuel generalizing state with
  | zero => omega
  | succ fuel inductionHypothesis =>
    rw [skipTokens]
    refine skips_peek ready .refl fun next others rest middle buffer ahead fills => ?_
    have aheadMiddle := fills.ahead_eq.trans ahead
    have readyMiddle := fills.ready ready
    dsimp only
    split
    next isEnd =>
      unfold Skips
      rw [bind_get]
      cases ended : middle.lexer.endedAtLineBreak with
      | true => exact .found fills.passes (Or.inr ⟨next, rest, ahead, Or.inl isEnd⟩)
      | false => exact .missing fills.passes ⟨⟨next, others, buffer, isEnd⟩, ended⟩
    next notEnd =>
      split
      next =>
        rw [Functor.discard, map_const, Function.comp_apply, bind_map_left]
        exact skips_consume readyMiddle fills.passes aheadMiddle notEnd
          fun after shorter passes =>
            skips_pure_true passes (Or.inl (fills.ahead_eq ▸ shorter))
      next =>
        split
        next isNext =>
          refine skips_pure_true fills.passes (Or.inr ⟨next, rest, ahead, Or.inr ?_⟩)
          simp only [Bool.and_eq_true, decide_eq_true_eq] at isNext
          exact isNext.1.2
        next =>
          refine skips_consume readyMiddle fills.passes aheadMiddle notEnd
            fun after shorter passes => ?_
          rw [fills.ahead_eq] at shorter
          change Skips start state (if _ then _ else _) after
          split
          next => exact skips_pure_true passes (Or.inl shorter)
          next =>
            have later := inductionHypothesis (passes.ready ready) (by omega)
            exact later.after_taking passes shorter

end Parser

end Offside
