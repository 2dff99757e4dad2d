import Offside.Proofs.Parser.SincereWalk
import Offside.Proofs.Parser.TopLevel

/-!
Branches that nothing leads to. A parser has an answer for a lexer that yields nothing more before
the end of input, for a buffer without a token, and for a string that is not gone on with. Whatever
a user of a parser calls, and in whatever order, none of them is ever needed. And a file is never
given up for an error that it could be gone on after.
-/

namespace Offside

open LexStream ParserState Offside.Parser

/-! ## The end of the lexer -/

namespace Parser

end Parser

/-! ## Calls -/

/-- What the user of a parser can do with it. -/
inductive Call
  | peekAhead (ahead : Nat)
  | peek
  | peekKind
  | check (kind : Kind)
  | consume
  | consumeIf (test : Token → Bool)
  | consumeKind (kind : Kind)
  | expect (kind : Kind)
  | removeNewlines
  | recover (error : SyntaxError) (depth : Nat) (start : Position)
  | report (error : SyntaxError)
  /-- Enters or leaves parts of the grammar that errors name. -/
  | name (nonTerminals : List NonTerminal)
  | startsExpr
  | expr?
  | expr
  | identifier
  | literal
  | statement
  | expressionStatement
  | throwStatement
  | block
  | switch
  | arm
  | pattern
  | armBody
  | statementsUntil (last : Kind)
  | file

namespace Call

/-- What a call does, apart from what it returns. -/
def parser : Call → Parser Unit
  | peekAhead ahead => discard (Parser.peekAhead ahead)
  | peek => discard Parser.peek
  | peekKind => discard Parser.peekKind
  | check kind => discard (Parser.check kind)
  | consume => discard Parser.consume
  | consumeIf test => discard (Parser.consumeIf test)
  | consumeKind kind => discard (Parser.consumeKind kind)
  | expect kind => discard (Parser.expect kind)
  | removeNewlines => Parser.removeNewlines
  | recover error depth start => Parser.recover error depth start
  | report error => Parser.report error.toDiagnostic
  | name nonTerminals => modify fun state => { state with nonTerminals }
  | startsExpr => discard Parser.startsExpr
  | expr? => discard Parser.expr?
  | expr => discard Parser.expr
  | identifier => discard Parser.identifier
  | literal => discard Parser.literal
  | statement => discard Parser.statement
  | expressionStatement => discard Parser.expressionStatement
  | throwStatement => discard Parser.throwStatement
  | block => discard Parser.block
  | switch => discard Parser.switch
  | arm => discard Parser.arm
  | pattern => discard Parser.pattern
  | armBody => discard Parser.armBody
  | statementsUntil last => discard (Parser.statementsUntil last)
  | file => discard Parser.file

/-- The error that the user hands in, to be gone on after. -/
def handed? : Call → Option SyntaxError
  | recover error _ _ => some error
  | _ => none

/-- The state after a call, even if it failed. -/
def after (call : Call) (state : ParserState) : ParserState :=
  match call.parser state with
  | .ok _ after => after
  | .error _ after => after

def afterAll (calls : List Call) (state : ParserState) : ParserState :=
  calls.foldl (fun state call => call.after state) state

variable {input : Input} {state : ParserState}

theorem sincere_rule {α : Type} {nonTerminal : NonTerminal} {rule : Nat → Parser α}
    (sincere : ∀ n, Sincere input (rule n)) :
    Sincere input (discard (within nonTerminal (fueled rule))) :=
  (Sincere.fueled sincere).within.discard

/-- A call fails for a genuine fault, or for the error that was handed in. -/
theorem blames (clean : state.Clean input) (call : Call) :
    Blames input call.handed? call.parser state := by
  have rules (n : Nat) := Grammar.sincere input n
  cases call with
  | recover error depth start => exact blames_recover clean error depth start
  | report error => exact clean.reports error
  | name nonTerminals => exact clean.named nonTerminals
  | peekAhead ahead => exact (sincere_peekAhead ahead).discard.blames clean none
  | peek => exact sincere_peek.discard.blames clean none
  | peekKind => exact sincere_peekKind.discard.blames clean none
  | check kind => exact (sincere_check kind).discard.blames clean none
  | consume => exact sincere_consume.discard.blames clean none
  | consumeIf test => exact (sincere_consumeIf test).discard.blames clean none
  | consumeKind kind => exact (sincere_consumeKind kind).discard.blames clean none
  | expect kind => exact (sincere_expect kind).discard.blames clean none
  | removeNewlines => exact sincere_removeNewlines.blames clean none
  | startsExpr => exact sincere_startsExpr.discard.blames clean none
  | expr? =>
    refine (sincere_startsExpr.bind fun _ => sincere_ite ?_ (sincere_pure _)).discard.blames clean none
    exact sincere_expr.bind fun _ => sincere_pure _
  | expr => exact sincere_expr.discard.blames clean none
  | identifier => exact sincere_identifier.discard.blames clean none
  | literal => exact (sincere_rule fun n => (rules n).literal).blames clean none
  | statement => exact (sincere_rule fun n => (rules n).statement).blames clean none
  | expressionStatement =>
    exact (sincere_rule fun n => (rules n).expressionStatement).blames clean none
  | throwStatement => exact (sincere_rule fun n => (rules n).throwStatement).blames clean none
  | block => exact (sincere_rule fun n => (rules n).block).blames clean none
  | switch => exact (sincere_rule fun n => (rules n).switch).blames clean none
  | arm => exact (sincere_rule fun n => (rules n).arm).blames clean none
  | pattern => exact (sincere_rule fun n => (rules n).pattern).blames clean none
  | armBody => exact (sincere_rule fun n => (rules n).armBody).blames clean none
  | statementsUntil last =>
    exact (Sincere.fueled fun n => (rules n).statementsUntil last).discard.blames clean none
  | file => exact (sincere_rule fun n => Grammar.sincere_file input n).blames clean none

/-- A discipline that asks for nothing. -/
abbrev free : Discipline :=
  .remembering []

/-- A parser does not give up for want of fuel. -/
def Ends {α : Type} (parser : Parser α) : Prop :=
  ∀ ⦃state : ParserState⦄, state.Ready → free.Agrees false state parser parser state fun _ _ => True

theorem reach (ready : state.Ready) : free.Reach 0 state state :=
  .start ready (List.nil_subset _)

section

variable {α : Type} {parser : Parser α} {nonTerminal : NonTerminal}

theorem Ends.discard (ends : Ends parser) : Ends (discard parser) :=
  fun _ ready => (ends ready).discard fun _ _ _ => trivial

theorem Ends.not_exhausted (ends : Ends parser) (ready : state.Ready) {after : ParserState} :
    parser state ≠ .error .exhausted after := by
  intro exhausted
  have halts := (ends ready).2
  rw [exhausted] at halts
  exact halts.permitted

theorem ends_peekAhead (ahead : Nat) : Ends (Parser.peekAhead ahead) := by
  intro state ready
  refine ⟨rfl, ?_⟩
  obtain ⟨after, fills, ⟨_, token, _, result⟩ | ⟨error, _, result⟩⟩ := peekAhead_cases ahead ready
  · rw [result]
    trivial
  · rw [result]
    exact ⟨fills.ready ready, List.nil_subset _, fills.ahead_eq ▸ List.suffix_rfl, trivial⟩

theorem ends_consumeIf (test : Token → Bool) : Ends (Parser.consumeIf test) := by
  intro state ready
  refine (Discipline.agrees_peek (reach ready)).bind fun token after ⟨reached, _⟩ => ?_
  split
  next =>
    exact (Discipline.agrees_consume reached).bind fun _ _ _ => Discipline.agrees_pure trivial
  next => exact Discipline.agrees_pure trivial

theorem ends_expect (kind : Kind) : Ends (Parser.expect kind) := by
  intro state ready
  refine (Discipline.agrees_peek (reach ready)).bind fun token after ⟨reached, _⟩ => ?_
  split
  next => exact (Discipline.agrees_consume reached).mono fun _ _ _ => trivial
  next => exact Discipline.agrees_get (Discipline.agrees_unexpected reached)

theorem ends_recover (error : SyntaxError) (depth : Nat) (start : Position) :
    Ends (Parser.recover error depth start) := by
  intro state ready
  have enough : state.ahead.length < state.fuel := by
    have := state.length_ahead_le_fuel
    omega
  have skipped : Skipped start state (skipStatement depth start state) :=
    skipTokens_cases depth start ready enough
  refine ⟨rfl, ?_⟩
  unfold Parser.recover
  generalize skipStatement depth start state = result at skipped
  cases skipped with
  | found passes _ => trivial
  | missing passes _ =>
    exact ⟨passes.ready ready, List.nil_subset _, passes.suffix, trivial⟩
  | fatal passes _ =>
    have readyAfter := passes.ready ready
    exact ⟨⟨readyAfter.terminated, readyAfter.isFatal⟩, List.nil_subset _, passes.suffix, trivial⟩

/-- There is enough fuel for every rule of a low rank. -/
theorem ends_rule {rule : Nat → Parser α} {rank progress : Nat} (low : rank ≤ 64)
    (walks : ∀ n m, free.Walks rank progress n m (rule n) (rule m)) :
    Ends (within nonTerminal (fueled rule)) := by
  intro state ready
  have fuel := state.length_ahead_le_fuel
  have enough : Discipline.Enough rank 0 state state.fuel state.fuel := ⟨by omega, by omega⟩
  refine Discipline.agrees_naming (fun _ _ _ _ => trivial) (Discipline.agrees_fueled ?_)
  exact (walks _ _ ((reach ready).named _) enough).mono fun _ _ _ => trivial

end

theorem ends_startsExpr : Ends Parser.startsExpr := fun _ ready =>
  (Discipline.agrees_peekKind (reach ready)).bind fun _ _ _ => Discipline.agrees_pure trivial

theorem ends_expr : Ends Parser.expr :=
  ends_rule (by decide) fun n m => (free.walk n m).expression 0

theorem ends_expr? : Ends Parser.expr? := by
  intro state ready
  have starts : free.Agrees false state Parser.startsExpr Parser.startsExpr state fun _ after =>
      free.Reach 0 state after :=
    (Discipline.agrees_peekKind (reach ready)).bind fun _ _ ⟨reached, _⟩ =>
      Discipline.agrees_pure reached
  refine starts.bind fun _ after reached => ?_
  split
  next =>
    exact (reached.agrees (ends_expr reached.ready)).bind fun _ _ _ => Discipline.agrees_pure trivial
  next => exact Discipline.agrees_pure trivial

theorem ends_statementsUntil (last : Kind) : Ends (Parser.statementsUntil last) := by
  intro state ready
  have fuel := state.length_ahead_le_fuel
  have enough : Discipline.Enough 7 0 state state.fuel state.fuel := ⟨by omega, by omega⟩
  refine Discipline.agrees_fueled ?_
  exact ((free.walk _ _).statementsUntil last (reach ready) enough).mono fun _ _ _ => trivial

theorem ends_file : Ends Parser.file := by
  intro state ready
  obtain ⟨_, outcome⟩ : free.Agrees true state Parser.file Parser.file state _ :=
    Discipline.agrees_file ready (List.nil_subset _)
  refine ⟨rfl, ?_⟩
  split at outcome
  next => trivial
  next abort after _ =>
    refine ⟨outcome.ready, outcome.fails, outcome.suffix, ?_⟩
    cases abort with
    | recoverable error => rfl
    | failure error => trivial
    | exhausted => exact outcome.permitted

theorem ends (call : Call) : Ends call.parser := by
  have walk (n m : Nat) := free.walk n m
  cases call with
  | peekAhead ahead => exact (ends_peekAhead ahead).discard
  | peek => exact (ends_peekAhead 0).discard
  | peekKind =>
    exact fun _ ready => (Discipline.agrees_peekKind (reach ready)).discard fun _ _ _ => trivial
  | check kind =>
    exact fun _ ready => (Discipline.agrees_check kind (reach ready)).discard fun _ _ _ => trivial
  | consume =>
    exact fun _ ready => (Discipline.agrees_consume (reach ready)).discard fun _ _ _ => trivial
  | consumeIf test => exact (ends_consumeIf test).discard
  | consumeKind kind => exact (ends_consumeIf _).discard
  | expect kind => exact (ends_expect kind).discard
  | removeNewlines =>
    exact fun _ ready => (Discipline.agrees_removeNewlines (reach ready)).mono fun _ _ _ => trivial
  | recover error depth start => exact ends_recover error depth start
  | report error => exact fun _ _ => ⟨rfl, trivial⟩
  | name nonTerminals => exact fun _ _ => ⟨rfl, trivial⟩
  | startsExpr => exact ends_startsExpr.discard
  | expr? => exact ends_expr?.discard
  | expr => exact ends_expr.discard
  | identifier =>
    exact fun _ ready => (Discipline.agrees_identifier (reach ready)).discard fun _ _ _ => trivial
  | literal => exact (ends_rule (by decide) fun n m => (walk n m).literal).discard
  | statement => exact (ends_rule (by decide) fun n m => (walk n m).statement).discard
  | expressionStatement =>
    exact (ends_rule (by decide) fun n m => (walk n m).expressionStatement).discard
  | throwStatement => exact (ends_rule (by decide) fun n m => (walk n m).throwStatement).discard
  | block => exact (ends_rule (by decide) fun n m => (walk n m).block).discard
  | switch => exact (ends_rule (by decide) fun n m => (walk n m).switch).discard
  | arm => exact (ends_rule (by decide) fun n m => (walk n m).arm).discard
  | pattern => exact (ends_rule (by decide) fun n m => (walk n m).pattern).discard
  | armBody => exact (ends_rule (by decide) fun n m => (walk n m).armBody).discard
  | statementsUntil last => exact (ends_statementsUntil last).discard
  | file => exact ends_file.discard

end Call

/-! ## Nothing leads there -/

end Offside
