import Offside.Parser.Grammar
import Offside.Proofs.Parser.Recovery

/-!
Disciplines: what every reading keeps, whatever rule of the grammar it follows. A discipline says
what holds of the states of a parser and of those in which it gives up. It has to be kept by what
a parser does to its state: drawing an item, taking a token, failing, and going on after an error
that is owed until it is reported.

Two runs of a rule agree if they give the same result from the same state. Runs with different
fuel agree once there is enough of it, so agreement is proved along with what holds afterwards.
-/

namespace Offside

open LexStream

/-- What readings keep. `Holds` may owe an error: one that is in the history and was not reported
yet. -/
structure Discipline where
  Holds : Option SyntaxError → ParserState → Prop
  Fails : Abort → ParserState → Prop
  draws : ∀ {owed state after}, ParserState.Draws state after → Holds owed state →
    Holds owed after
  takes : ∀ {owed state token others}, state.buffer = token :: others → Holds owed state →
    Holds owed (state.afterToken token others)
  names : ∀ {owed state} nonTerminals, Holds owed state →
    Holds owed { state with nonTerminals }
  namesFailed : ∀ {abort state} nonTerminals, Fails abort state →
    Fails abort { state with nonTerminals }
  faults : ∀ {state fault span}, (∀ error, fault ≠ .lexical error) → Holds none state →
    Fails (.recoverable ⟨fault, span, state.nonTerminals.reverse⟩) state
  endsFatally : ∀ {state error}, state.Ready → ParserState.EndsFatally 1 error state →
    Holds none state → Fails (.failure (.ofLexError error)) state
  abandons : ∀ {state error}, Fails (.recoverable error) state →
    Holds (some error) { state with failures := state.failures ++ [error] }
  reports : ∀ {state error}, Holds (some error) state →
    Holds none { state with reported := state.reported ++ [error.toDiagnostic] }
  gaveUp : ∀ {state error}, state.Ready → ParserState.EndsInLine state →
    Holds (some error) state → Fails (.failure error) state

/-- Why a reading may give up: never for want of fuel, and a firm one not for an error that can be
recovered from. -/
def Abort.Permitted (firm : Bool) : Abort → Prop
  | .recoverable _ => firm = false
  | .failure _ => True
  | .exhausted => False

namespace Discipline

variable (discipline : Discipline)

/-- The state is one that a reading reaches from `origin` with at least `count` tokens taken. -/
structure Reach (count : Nat) (origin state : ParserState) : Prop where
  ready : state.Ready
  holds : discipline.Holds none state
  suffix : state.ahead <:+ origin.ahead
  fewer : state.ahead.length + count ≤ origin.ahead.length

/-- The state is one in which a reading from `origin` gives up, for a reason that is permitted. -/
structure Halts (firm : Bool) (origin : ParserState) (abort : Abort) (state : ParserState) :
    Prop where
  ready : state.Ready
  fails : discipline.Fails abort state
  suffix : state.ahead <:+ origin.ahead
  permitted : abort.Permitted firm

/-- Two readings do the same from a state, and what holds afterwards. -/
def Agrees {α : Type} (firm : Bool) (origin : ParserState) (left right : Parser α)
    (state : ParserState) (post : α → ParserState → Prop) : Prop :=
  left state = right state ∧
    match left state with
    | .ok value after => post value after
    | .error abort after => discipline.Halts firm origin abort after

variable {discipline} {α β : Type} {firm : Bool} {origin state : ParserState}
  {count : Nat}

/-! ## Composition -/

theorem Agrees.mono {left right : Parser α} {post weaker : α → ParserState → Prop}
    (agrees : discipline.Agrees firm origin left right state post)
    (weaken : ∀ value after, post value after → weaker value after) :
    discipline.Agrees firm origin left right state weaker := by
  obtain ⟨same, outcome⟩ := agrees
  refine ⟨same, ?_⟩
  split at outcome
  · exact weaken _ _ outcome
  · exact outcome

theorem agrees_pure {value : α} {post : α → ParserState → Prop} (holds : post value state) :
    discipline.Agrees firm origin (pure value) (pure value) state post :=
  ⟨rfl, holds⟩

theorem Agrees.bind {left right : Parser α} {nextLeft nextRight : α → Parser β}
    {middle : α → ParserState → Prop} {post : β → ParserState → Prop}
    (agrees : discipline.Agrees firm origin left right state middle)
    (next : ∀ value after, middle value after →
      discipline.Agrees firm origin (nextLeft value) (nextRight value) after post) :
    discipline.Agrees firm origin (left >>= nextLeft) (right >>= nextRight) state post := by
  obtain ⟨same, outcome⟩ := agrees
  unfold Agrees
  cases result : left state with
  | ok value after =>
    rw [result] at outcome
    rw [Parser.bind_ok result, Parser.bind_ok (same ▸ result)]
    exact next value after outcome
  | error abort after =>
    rw [result] at outcome
    rw [Parser.bind_error result, Parser.bind_error (same ▸ result)]
    exact ⟨rfl, outcome⟩

theorem agrees_get {nextLeft nextRight : ParserState → Parser β}
    {post : β → ParserState → Prop}
    (next : discipline.Agrees firm origin (nextLeft state) (nextRight state) state post) :
    discipline.Agrees firm origin (get >>= nextLeft) (get >>= nextRight) state post :=
  next

theorem agrees_fueled {left right : Nat → Parser α} {post : α → ParserState → Prop}
    (agrees : discipline.Agrees firm origin (left state.fuel) (right state.fuel) state post) :
    discipline.Agrees firm origin (Parser.fueled left) (Parser.fueled right) state post :=
  agrees

theorem Agrees.discard {left right : Parser α} {middle : α → ParserState → Prop}
    {post : ParserState → Prop} (agrees : discipline.Agrees firm origin left right state middle)
    (next : ∀ value after, middle value after → post after) :
    discipline.Agrees firm origin (Functor.discard left) (Functor.discard right) state
      fun _ after => post after :=
  agrees.bind fun value after holds => agrees_pure (next value after holds)

/-! ## States -/

theorem Reach.start (ready : state.Ready) (holds : discipline.Holds none state) :
    discipline.Reach 0 state state :=
  ⟨ready, holds, List.suffix_rfl, Nat.le_refl _⟩

theorem Reach.weaken {fewer : Nat} (reach : discipline.Reach count origin state)
    (less : fewer ≤ count) : discipline.Reach fewer origin state :=
  ⟨reach.ready, reach.holds, reach.suffix, by have := reach.fewer; omega⟩

theorem Reach.trans {middle : ParserState} {more : Nat}
    (later : discipline.Reach more middle state) (reach : discipline.Reach count origin middle) :
    discipline.Reach (count + more) origin state :=
  ⟨later.ready, later.holds, later.suffix.trans reach.suffix, by
    have := reach.fewer
    have := later.fewer
    omega⟩

theorem Reach.named (reach : discipline.Reach count origin state)
    (nonTerminals : List NonTerminal) :
    discipline.Reach count origin { state with nonTerminals } :=
  ⟨⟨reach.ready.terminated, reach.ready.isFatal⟩, discipline.names _ reach.holds, reach.suffix,
    reach.fewer⟩

theorem Halts.named {abort : Abort} (halts : discipline.Halts firm origin abort state)
    (nonTerminals : List NonTerminal) :
    discipline.Halts firm origin abort { state with nonTerminals } :=
  ⟨⟨halts.ready.terminated, halts.ready.isFatal⟩, discipline.namesFailed _ halts.fails,
    halts.suffix, halts.permitted⟩

theorem holds_of_passes {owed : Option SyntaxError} {after : ParserState}
    (passes : ParserState.Passes state after) (holds : discipline.Holds owed state) :
    discipline.Holds owed after := by
  induction passes with
  | refl => exact holds
  | tail _ moves inductionHypothesis =>
    cases moves with
    | draws draws => exact discipline.draws draws inductionHypothesis
    | takes buffer => exact discipline.takes buffer inductionHypothesis

theorem Reach.fills {after : ParserState} (reach : discipline.Reach count origin state)
    (fills : ParserState.Fills state after) : discipline.Reach count origin after :=
  ⟨fills.ready reach.ready, holds_of_passes fills.passes reach.holds, fills.ahead_eq ▸ reach.suffix,
    fills.ahead_eq ▸ reach.fewer⟩

theorem Reach.halts_of_endsFatally {error : LexError}
    (reach : discipline.Reach count origin state) (ends : ParserState.EndsFatally 1 error state) :
    discipline.Halts firm origin (.failure (.ofLexError error)) state :=
  ⟨reach.ready, discipline.endsFatally reach.ready ends reach.holds, reach.suffix,
    trivial⟩

/-- A reading may count what it takes from where it starts. -/
theorem Reach.restart (reach : discipline.Reach count origin state) :
    discipline.Reach 0 state state :=
  .start reach.ready reach.holds

/-- A reading may start over from any state that was reached. -/
theorem Reach.agrees {left right : Parser α} {post : α → ParserState → Prop}
    (reach : discipline.Reach count origin state)
    (agrees : discipline.Agrees firm state left right state post) :
    discipline.Agrees firm origin left right state post := by
  obtain ⟨same, outcome⟩ := agrees
  refine ⟨same, ?_⟩
  split at outcome
  next => exact outcome
  next =>
    exact ⟨outcome.ready, outcome.fails, outcome.suffix.trans reach.suffix, outcome.permitted⟩

/-- What an attempt leaves behind if it fails: its error is owed. -/
theorem Agrees.attempt {left right : Parser α} {post : α → ParserState → Prop}
    (agrees : discipline.Agrees false origin left right state post) :
    discipline.Agrees firm origin (Parser.attempt left) (Parser.attempt right) state
      fun result after =>
        match result with
        | .ok value => post value after
        | .error error =>
          after.Ready ∧ discipline.Holds (some error) after ∧ after.ahead <:+ origin.ahead := by
  obtain ⟨same, outcome⟩ := agrees
  unfold Agrees Parser.attempt
  rw [← same]
  refine ⟨rfl, ?_⟩
  cases result : left state with
  | ok value after =>
    rw [result] at outcome
    exact outcome
  | error abort after =>
    rw [result] at outcome
    cases abort with
    | recoverable error =>
      exact ⟨⟨outcome.ready.terminated, outcome.ready.isFatal⟩, discipline.abandons outcome.fails,
        outcome.suffix⟩
    | failure error => exact ⟨outcome.ready, outcome.fails, outcome.suffix, trivial⟩
    | exhausted => exact absurd outcome.permitted id

end Discipline

end Offside
