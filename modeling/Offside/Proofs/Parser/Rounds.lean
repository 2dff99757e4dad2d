import Offside.Proofs.Parser.DerivedWalk
import Offside.Proofs.Parser.Isolation
import Offside.Proofs.Parser.PhraseWalk
import Offside.Proofs.Parser.TopLevel

/-!
The rounds in which statements are read one after another. A round takes at least one token, whether
its statement is read or is left out, unless it comes to the token that ends the list. The rounds of
a block are inside of one round of the list around it, which has the token that opens the block for
itself. That bounds the number of all rounds by that of the tokens.
-/

namespace Offside

open ParserState Offside.Parser

/-! ## Phrases -/

/-- Phrases that can not be derived from nothing. -/
def Phrase.takes : Phrase → Bool
  | .names _ | .upper _ | .listed _ | .subjects _ | .armBlock _ | .arms _ | .statements _ => false
  | .identifier _ | .literal _ | .parts _ _ | .primary _ | .expr _ | .group _ _ _ _ | .arm _
  | .pattern _ | .action _ | .statement _ => true

theorem Derives.shorter {settings : Settings} {failed : Nat} {before after : List Token}
    {phrase : Phrase} (derives : Derives settings failed before phrase after)
    (takes : phrase.takes = true) : after.length < before.length := by
  induction derives with
  | expression _ ends read => exact Nat.lt_of_le_of_lt ends.suffix.length_le (read rfl)
  | throw _ _ ends read =>
    exact Nat.lt_succ_of_lt (Nat.lt_of_le_of_lt ends.suffix.length_le (read rfl))
  -- The parts in these may be nothing at all, but there are tokens around them.
  | fieldGroup _ _ _ _ others _ value name =>
    have names := others.suffix.length_le
    grind [Phrase.takes]
  | rangeFrom _ _ _ right =>
    have upper := right.suffix.length_le
    grind [Phrase.takes]
  | rangeTo _ right => exact Nat.lt_succ_of_le right.suffix.length_le
  | switch _ _ more _ block =>
    have subjects := more.suffix.length_le
    have arms := block.suffix.length_le
    grind [Phrase.takes]
  | group _ inside _ =>
    have values := inside.suffix.length_le
    grind
  | block _ inside _ =>
    have statements := inside.suffix.length_le
    grind
  | _ => grind [Phrase.takes]

/-! ## One round -/

/-- At least one token is taken, and none is given back. -/
structure Progress (state after : ParserState) : Prop where
  ready : after.Ready
  suffix : after.ahead <:+ state.ahead
  shorter : after.ahead.length < state.ahead.length

variable {state looked failed after : ParserState} {last : Kind} {next : Token} {fuel : Nat}

theorem looks_ahead (ready : state.Ready)
    (found : ∃ middle, removeNewlines state = .ok () middle ∧ peek middle = .ok next looked) :
    looked.Ready ∧ looked.ahead <:+ state.ahead ∧ ∃ rest, looked.ahead = next :: rest := by
  obtain ⟨middle, passed, peeked⟩ := found
  have lines := finds_removeNewlines (Past.start ready)
  rw [Finds, passed] at lines
  have token := finds_peek lines.1
  rw [Finds, peeked] at token
  obtain ⟨past, same, rest, ahead⟩ := token
  exact ⟨past.ready, past.suffix, rest, same.trans ahead⟩

/-- What is next ends the list, so that its last round comes to nothing but looking at it. -/
structure Stop (last : Kind) (state : ParserState) (next : Token) (looked : ParserState) :
    Prop where
  found : ∃ middle, removeNewlines state = .ok () middle ∧ peek middle = .ok next looked
  ends : next.kind = last ∨ next.kind = .endOfInput

namespace Round

/-- What an attempt at a statement leaves behind. -/
theorem attempts (ready : looked.Ready) {result : Except SyntaxError (Statement Span)}
    (tried : attempt (within .statement (Grammar.statement fuel)) looked = .ok result after) :
    after.Ready ∧ after.ahead <:+ looked.ahead ∧
      ∀ first, result = .ok first → after.ahead.length < looked.ahead.length := by
  have traces : Traces looked.settings (within .statement (Grammar.statement fuel)) .statement :=
    (Grammar.sound _ fuel).statement.within
  have finds := finds_attempt (Past.start ready) (traces (Past.start ready))
  rw [Finds, tried] at finds
  cases result with
  | ok first =>
    obtain ⟨_, past, derives⟩ := finds
    exact ⟨past.ready, past.suffix, fun _ _ => derives.shorter rfl⟩
  | error error =>
    obtain ⟨_, past⟩ := finds
    refine ⟨past.ready, past.suffix, fun first isOk => ?_⟩
    contradiction

/-- A round whose statement is read takes the tokens of that statement. -/
theorem read (round : Round last state next looked) (ready : state.Ready) {first : Statement Span}
    (read : attempt (within .statement (Grammar.statement fuel)) looked = .ok (.ok first) after) :
    Progress state after := by
  obtain ⟨readyLooked, suffix, _⟩ := looks_ahead ready round.found
  obtain ⟨readyAfter, taken, shorter⟩ := attempts readyLooked read
  exact ⟨readyAfter, taken.trans suffix, Nat.lt_of_lt_of_le (shorter first rfl) suffix.length_le⟩

/-- So does a round whose statement is wrong: where nothing of it was taken before the error, it is
taken in going on. -/
theorem recovered (round : Round last state next looked) (ready : state.Ready) {error : SyntaxError}
    {depth : Nat}
    (fails :
      attempt (within .statement (Grammar.statement fuel)) looked = .ok (.error error) failed)
    (recovers : recover error depth next.span.first failed = .ok () after) :
    Progress state after ∧ after.ahead <:+ failed.ahead := by
  obtain ⟨readyLooked, suffix, rest, ahead⟩ := looks_ahead ready round.found
  obtain ⟨readyFailed, taken, _⟩ := attempts readyLooked fails
  obtain ⟨_, reach⟩ : (Discipline.remembering []).Agrees true looked
      (recover error depth next.span.first) (recover error depth next.span.first) failed _ :=
    Discipline.agrees_recover (.start readyLooked (List.nil_subset _)) ahead round.notEnd
      readyFailed (List.nil_subset _) taken
  have skips := finds_recover error depth next.span.first (Past.start readyFailed)
  rw [Finds, recovers] at skips
  rw [recovers] at reach
  exact ⟨⟨reach.ready, reach.suffix.trans suffix,
    Nat.lt_of_lt_of_le reach.fewer suffix.length_le⟩, skips.1.suffix⟩

end Round

/-! ## All rounds -/

mutual

/-- Rounds of a list of statements one after another, before the one that ends the list. The rounds
inside of their statements are counted along with them. -/
inductive Rounds (input : Input) : Kind → Nat → ParserState → ParserState → Prop
  | none {last : Kind} {state : ParserState} : Rounds input last 0 state state
  | read {last : Kind} {state looked middle after : ParserState} {next : Token}
    {fuel k n : Nat} {first : Statement Span} (round : Round last state next looked)
    (read : attempt (within .statement (Grammar.statement fuel)) looked = .ok (.ok first) middle)
    (inside : RoundsInside input k looked middle) (later : Rounds input last n middle after) :
    Rounds input last (k + 1 + n) state after
  | recovered {last : Kind} {state looked failed middle after : ParserState} {next : Token}
    {fuel k n : Nat} {error : SyntaxError} (round : Round last state next looked)
    (fails :
      attempt (within .statement (Grammar.statement fuel)) looked = .ok (.error error) failed)
    (inside : RoundsInside input k looked failed)
    (recovers : recover error looked.depth next.span.first failed = .ok () middle)
    (later : Rounds input last n middle after) : Rounds input last (k + 1 + n) state after

/-- The rounds of the blocks that are read from one state to another inside of a statement, with
the one that ends each of them. -/
inductive RoundsInside (input : Input) : Nat → ParserState → ParserState → Prop
  | none {state after : ParserState} (visited : Visited input after)
    (suffix : after.ahead <:+ state.ahead) : RoundsInside input 0 state after
  | block {state middle inside closed looked outside after : ParserState}
    {opening next closing : Token} {k n : Nat} (visited : Visited input middle)
    (suffix : middle.ahead <:+ state.ahead) (opened : expect .indent middle = .ok opening inside)
    (rounds : Rounds input .dedent n inside closed) (stop : Stop .dedent closed next looked)
    (taken : expect .dedent looked = .ok closing outside)
    (later : RoundsInside input k outside after) : RoundsInside input (n + 1 + k) state after

end

/-- The rounds of a list of statements that were begun at some point, with those inside of them. The
last one may not be over, and may never be, and so may those of a block inside of it. -/
inductive Begun (input : Input) : Kind → Nat → ParserState → Prop
  | between {last : Kind} {state after : ParserState} {n : Nat}
    (rounds : Rounds input last n state after) : Begun input last n state
  | stopped {last : Kind} {state middle looked : ParserState} {next : Token} {n : Nat}
    (rounds : Rounds input last n state middle) (stop : Stop last middle next looked) :
    Begun input last (n + 1) state
  | inside {last : Kind} {state middle looked after : ParserState} {next : Token} {k n : Nat}
    (rounds : Rounds input last n state middle) (round : Round last middle next looked)
    (inside : RoundsInside input k looked after) : Begun input last (n + (k + 1)) state
  | block {last : Kind} {state middle looked reached inside : ParserState} {next opening : Token}
    {k m n : Nat} (rounds : Rounds input last n state middle)
    (round : Round last middle next looked) (before : RoundsInside input k looked reached)
    (opened : expect .indent reached = .ok opening inside)
    (begun : Begun input .dedent m inside) : Begun input last (n + (k + 1) + m) state

/-- What opens or closes a block is taken. -/
theorem takes_of_expect {kind : Kind} (notEnd : kind ≠ .endOfInput) {token : Token}
    (ready : state.Ready) (expected : expect kind state = .ok token after) :
    after.Ready ∧ after.ahead.length + 1 = state.ahead.length := by
  have finds := finds_expect (Past.start ready) notEnd
  rw [Finds, expected] at finds
  obtain ⟨past, _, ahead⟩ := finds
  exact ⟨past.ready, by rw [ahead, List.length_cons]⟩

mutual

/-- Every round has a token for itself. -/
theorem Rounds.bound {input : Input} {last : Kind} {n : Nat} {state after : ParserState}
    (rounds : Rounds input last n state after) (ready : state.Ready) :
    after.Ready ∧ n + after.ahead.length ≤ state.ahead.length := by
  match rounds with
  | .none => exact ⟨ready, Nat.le_of_eq (Nat.zero_add _)⟩
  | .read round read inside later =>
    obtain ⟨_, suffix, _⟩ := looks_ahead ready round.found
    have progress := round.read ready read
    have looked := suffix.length_le
    have shorter := progress.shorter
    have inner := inside.bound.2
    obtain ⟨readyAfter, outer⟩ := later.bound progress.ready
    exact ⟨readyAfter, by omega⟩
  | .recovered round fails inside recovers later =>
    obtain ⟨_, suffix, _⟩ := looks_ahead ready round.found
    obtain ⟨progress, skipped⟩ := round.recovered ready fails recovers
    have looked := suffix.length_le
    have failed := skipped.length_le
    have shorter := progress.shorter
    have inner := inside.bound.2
    obtain ⟨readyAfter, outer⟩ := later.bound progress.ready
    exact ⟨readyAfter, by omega⟩

/-- In a block that is what closes it for the round that ends it, and what opens it is left for the
round around it. -/
theorem RoundsInside.bound {input : Input} {n : Nat} {state after : ParserState}
    (rounds : RoundsInside input n state after) :
    after.Ready ∧ (n = 0 ∧ after.ahead.length ≤ state.ahead.length ∨
      n + 1 + after.ahead.length ≤ state.ahead.length) := by
  match rounds with
  | .none visited suffix => exact ⟨visited.ready, Or.inl ⟨rfl, suffix.length_le⟩⟩
  | .block visited suffix opened inside stop taken later =>
    obtain ⟨readyInside, opening⟩ := takes_of_expect Kind.noConfusion visited.ready opened
    obtain ⟨readyClosed, inner⟩ := inside.bound readyInside
    obtain ⟨readyLooked, lines, _⟩ := looks_ahead readyClosed stop.found
    obtain ⟨_, closing⟩ := takes_of_expect Kind.noConfusion readyLooked taken
    obtain ⟨readyAfter, outer⟩ := later.bound
    have reached := suffix.length_le
    have passed := lines.length_le
    exact ⟨readyAfter, Or.inr (by omega)⟩

end

/-- There are never more rounds than tokens, wherever reading has got. -/
theorem Begun.bound {input : Input} {n : Nat} (begun : Begun input last n state)
    (ready : state.Ready) : n ≤ state.ahead.length := by
  induction begun with
  | between rounds =>
    have bound := (rounds.bound ready).2
    omega
  | stopped rounds stop =>
    obtain ⟨readyMiddle, outer⟩ := rounds.bound ready
    obtain ⟨_, suffix, rest, ahead⟩ := looks_ahead readyMiddle stop.found
    have looked := suffix.length_le
    rw [ahead, List.length_cons] at looked
    omega
  | inside rounds round inside =>
    obtain ⟨readyMiddle, outer⟩ := rounds.bound ready
    obtain ⟨_, suffix, rest, ahead⟩ := looks_ahead readyMiddle round.found
    have inner := inside.bound.2
    have looked := suffix.length_le
    rw [ahead, List.length_cons] at looked inner
    omega
  | block rounds round before opened begun inductionHypothesis =>
    obtain ⟨readyMiddle, outer⟩ := rounds.bound ready
    obtain ⟨_, suffix, _⟩ := looks_ahead readyMiddle round.found
    obtain ⟨readyReached, inner⟩ := before.bound
    obtain ⟨readyInside, opening⟩ := takes_of_expect Kind.noConfusion readyReached opened
    have looked := suffix.length_le
    have nested := inductionHypothesis readyInside
    omega

end Offside
