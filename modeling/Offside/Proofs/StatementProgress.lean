import Offside.Proofs.DefensiveBranches
import Offside.Proofs.Parser.Rounds

/-!
Statements are read to an end. Every round of a list of statements that does not end it takes a
token, in the text as in a block, whether its statement is read or is gone on after. So there are no
more rounds than tokens, and there is always enough fuel for them. There is also enough for what
goes on after an error, which takes a token whenever it does not stop.
-/

namespace Offside

open ParserState Offside.Parser

/-! ## Skipping -/

/-- A token is taken in every step of skipping that is not the last, so that any fuel beyond the
number of the tokens ahead does the same. -/
theorem Discipline.agrees_skipTokens {discipline : Discipline} {firm : Bool}
    {origin state : ParserState} {count n m : Nat} (depth : Nat) (start : Position)
    (reach : discipline.Reach count origin state) (enough : state.ahead.length < n)
    (enough' : state.ahead.length < m) :
    discipline.Agrees firm origin (skipTokens depth start n) (skipTokens depth start m) state
      fun _ after => discipline.Reach count origin after := by
  induction n generalizing count m origin state with
  | zero => omega
  | succ n inductionHypothesis =>
    obtain ⟨m, rfl⟩ : ∃ fewer, m = fewer + 1 := Nat.exists_eq_succ_of_ne_zero (by omega)
    have again : discipline.Agrees firm state (skipTokens depth start (n + 1))
        (skipTokens depth start (m + 1)) state fun _ after => discipline.Reach 0 state after := by
      rw [skipTokens, skipTokens]
      refine agrees_get ((agrees_peek reach.restart).bind fun next middle peeked => ?_)
      obtain ⟨looked, rest, ahead⟩ := peeked
      dsimp only
      split
      next => exact agrees_get (agrees_pure looked)
      next notEnd =>
        split
        next =>
          exact ((agrees_consume_of_ahead looked ahead notEnd).discard
            fun _ _ consumed => consumed.2).bind
              fun _ _ taken => agrees_pure (taken.weaken (Nat.le_succ 0))
        next =>
          split
          next => exact agrees_pure looked
          next =>
            refine (agrees_consume_of_ahead looked ahead notEnd).bind
              fun skipped after consumed => agrees_get ?_
            obtain ⟨_, taken⟩ := consumed
            have reached := taken.weaken (Nat.le_succ 0)
            have fewer := taken.fewer
            split
            next => exact agrees_pure reached
            next => exact inductionHypothesis reached (by omega) (by omega)
    exact (reach.agrees again).mono fun _ _ later => later.trans reach

/-! ## Lists of statements -/

variable {input : Input} {state looked failed after : ParserState} {last : Kind} {next : Token}
  {fuel : Nat}

/-- The statements of a list come of its rounds, one of each at most, and the last round finds what
ends the list. -/
theorem Lists.rounds (lists : Lists input last state) {statements : List (Statement Span)}
    (result : Grammar.statementsUntil fuel last state = .ok statements after) :
    ∃ n before next, Rounds input last n state before ∧ Stop last before next after ∧
      statements.length ≤ n := by
  induction fuel generalizing state statements with
  | zero => contradiction
  | succ fuel inductionHypothesis =>
    rw [Grammar.statementsUntil] at result
    obtain ⟨_, middle, removed, result⟩ := ok_of_bind result
    obtain ⟨next, looked, peeked, result⟩ := ok_of_bind result
    split at result
    next isLast =>
      obtain ⟨rfl, rfl⟩ := EStateM.Result.ok.inj result
      refine ⟨0, state, next, .none, ⟨⟨middle, removed, peeked⟩, ?_⟩, Nat.le_refl 0⟩
      simpa using isLast
    next goesOn =>
      have round : Round last state next looked :=
        ⟨⟨middle, removed, peeked⟩, by grind, by grind⟩
      have ready := lists.sound.visited.ready
      obtain ⟨readyLooked, _⟩ := looks_ahead ready round.found
      rw [bind_get] at result
      obtain ⟨tried, attempted, read, result⟩ := ok_of_bind result
      obtain ⟨_, suffix, _⟩ := Round.attempts readyLooked read
      cases tried with
      | ok first =>
        obtain ⟨others, _, more, result⟩ := ok_of_bind result
        obtain ⟨rfl, rfl⟩ := EStateM.Result.ok.inj result
        have later := lists.read round read
        obtain ⟨n, before, last, rounds, stop, counted⟩ := inductionHypothesis later more
        have inside : RoundsInside input 0 looked attempted := .none later.sound.visited suffix
        refine ⟨0 + 1 + n, before, last, .read round read inside rounds, stop, ?_⟩
        rw [List.length_cons]
        omega
      | error error =>
        obtain ⟨_, recovered, recovers, result⟩ := ok_of_bind result
        obtain ⟨n, before, last, rounds, stop, counted⟩ :=
          inductionHypothesis (lists.recovered round read recovers) result
        obtain ⟨lookedSound, _⟩ := lists.sound.looks round
        obtain ⟨_, abreast⟩ := lookedSound.attempts read
        have inside : RoundsInside input 0 looked attempted := .none abreast.visitedLeft suffix
        refine ⟨0 + 1 + n, before, last, .recovered round read inside recovers rounds, stop, ?_⟩
        omega

/-! ## All texts -/

/-- Any fuel that is enough for the tokens ahead reads the same text. -/
theorem file_of_fuel {n : Nat} (ready : state.Ready) (enough : 16 * state.ahead.length + 7 ≤ n) :
    within .file (Grammar.file n) state = Parser.file state := by
  have reach := ((Call.reach ready).named (.file :: state.nonTerminals)).restart
  generalize named : { state with nonTerminals := .file :: state.nonTerminals } = inside at reach
  have same : state.ahead = inside.ahead := named ▸ rfl
  rw [same] at enough
  have bound := inside.length_ahead_le_fuel
  have plenty : Discipline.Enough 7 0 inside n inside.fuel := ⟨by omega, by omega⟩
  have read : Call.free.Agrees true inside (Grammar.file n) (Grammar.file inside.fuel) inside _ :=
    Discipline.agrees_grammar_file reach plenty
  rw [Parser.file, within, within, named, read.1, fueled]

/-- The reading of statements goes on, and comes to an end. -/
structure StatementsProgress (input : Input) : Prop where
  /-- A round that reads a statement takes a token. -/
  read {state looked after : ParserState} {last : Kind} {next : Token} {fuel : Nat}
    {first : Statement Span} (visited : Visited input state) (round : Round last state next looked)
    (read : attempt (within .statement (Grammar.statement fuel)) looked = .ok (.ok first) after) :
    Progress state after
  /-- So does one that goes on after an error. -/
  recovered {state looked failed after : ParserState} {last : Kind} {next : Token} {fuel : Nat}
    {error : SyntaxError} {depth : Nat} (visited : Visited input state)
    (round : Round last state next looked)
    (fails :
      attempt (within .statement (Grammar.statement fuel)) looked = .ok (.error error) failed)
    (recovers : recover error depth next.span.first failed = .ok () after) : Progress state after
  /-- No other rounds make up a list, be it that of the text or that of a block. -/
  rounds {state after : ParserState} {last : Kind} {fuel : Nat} {statements : List (Statement Span)}
    (lists : Lists input last state)
    (result : Grammar.statementsUntil fuel last state = .ok statements after) :
    ∃ n before next, Rounds input last n state before ∧ Stop last before next after ∧
      statements.length ≤ n
  /-- At no point are there more rounds than tokens, with all those of the blocks. -/
  begun {state : ParserState} {last : Kind} {n : Nat} (visited : Visited input state)
    (begun : Begun input last n state) : n ≤ state.ahead.length
  begunInText {nonTerminals : List NonTerminal} {n : Nat}
    (begun : Begun input .endOfInput n { input.start with nonTerminals }) :
    n ≤ input.tokens.length
  /-- A list of statements is not given up for want of fuel, nor is a text. -/
  statementsUntil {state after : ParserState} (visited : Visited input state) (last : Kind) :
    Parser.statementsUntil last state ≠ .error .exhausted after
  file (after : ParserState) : Parser.file input.start ≠ .error .exhausted after
  /-- More fuel makes no difference. -/
  fuel {n : Nat} (enough : 16 * input.tokens.length + 7 ≤ n) :
    within .file (Grammar.file n) input.start = Parser.file input.start
  /-- What goes on after an error needs one step for each token ahead and one to stop. -/
  skipTokens {state : ParserState} (visited : Visited input state) (depth : Nat)
    (start : Position) : skipStatement depth start state =
      Parser.skipTokens depth start (state.ahead.length + 1) state
  skipStatement {state after : ParserState} (visited : Visited input state) (depth : Nat)
    (start : Position) : Parser.skipStatement depth start state ≠ .error .exhausted after

theorem statements_progress (input : Input) : StatementsProgress input where
  read visited round read := round.read visited.ready read
  recovered visited round fails recovers := (round.recovered visited.ready fails recovers).1
  rounds lists result := lists.rounds result
  begun visited begun := begun.bound visited.ready
  begunInText {nonTerminals _} begun := begun.bound (Visited.start.names nonTerminals).ready
  statementsUntil visited last :=
    (Call.ends_statementsUntil last).not_exhausted visited.ready
  file _ := Call.ends_file.not_exhausted Visited.start.ready
  fuel enough := file_of_fuel Visited.start.ready (input.ahead_start ▸ enough)
  skipTokens {state} visited depth start := by
    have reach := Call.reach visited.ready
    have bound := state.length_ahead_le_fuel
    have same : Call.free.Agrees true state (Parser.skipTokens depth start state.fuel)
        (Parser.skipTokens depth start (state.ahead.length + 1)) state _ :=
      Discipline.agrees_skipTokens depth start reach (by omega) (Nat.lt_succ_self _)
    exact same.1
  skipStatement {state after} visited depth start exhausted := by
    have bound := state.length_ahead_le_fuel
    have skipped : Skipped start state (Parser.skipStatement depth start state) :=
      skipTokens_cases depth start visited.ready (by omega)
    rw [exhausted] at skipped
    contradiction

end Offside
