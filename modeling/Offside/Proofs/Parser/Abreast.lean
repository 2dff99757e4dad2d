import Offside.Proofs.Parser.Visited

/-!
Two readings side by side. The tokens of two texts correspond up to a seam: where the left text
ends, the right one ends too, or goes on with a line break or behind the level that is closed
there. As long as neither reading is past the seam, both do the same. A single reading is one that
goes side by side with itself.
-/

namespace Offside

open LexStream

def Token.isLine (token : Token) : Bool :=
  token.kind = .newline

/-- Tokens that differ only in where they stand. -/
structure Twins (places : Position → Position → Prop) (left right : Token) : Prop where
  kind : right.kind = left.kind
  text : right.text = left.text
  place : places left.span.first right.span.first

namespace Input

/-- The last token of a text is the colon of a switch or closes a level. -/
def EndsOpen (input : Input) : Prop :=
  ∃ last eof, [last, eof] <:+ input.tokens ∧ eof.kind = .endOfInput ∧
    (last.kind = .symbol .colon ∨ last.kind = .dedent)

end Input

/-- How two texts hang together: which places correspond, and what the right text goes on with
where the left one ends, if it goes on. -/
structure Seam where
  left : Input
  right : Input
  places : Position → Position → Prop
  after : Option (List Token)
  /-- How many attempts more failed in the right reading than in the left one. -/
  extra : Nat
  settings : right.settings = left.settings
  ordered : ∀ {first later first' later' : Position}, places first first' → places later later' →
    (first < later ↔ first' < later')
  together : after = none → right.endsInLineBreak = left.endsInLineBreak
  apart : after ≠ none → left.endsInLineBreak = true

namespace Seam

/-- Where no text goes on behind the left one, nothing is asked of how the left one ends. -/
theorem ends_of_goesOn (left : Input) (goesOn : (none : Option (List Token)) ≠ none) :
    left.endsInLineBreak = true :=
  absurd rfl goesOn

/-- The tokens ahead of two readings that are not past the seam. -/
inductive Ahead (seam : Seam) : List Token → List Token → Prop
  | more {left right : Token} {lefts rights : List Token} (twins : Twins seam.places left right)
    (ahead : seam.Ahead lefts rights) : seam.Ahead (left :: lefts) (right :: rights)
  | together (after : seam.after = none) : seam.Ahead [] []
  | line {last newline : Token} {after : List Token} (isEnd : last.kind = .endOfInput)
    (isLine : newline.kind = .newline) (goesOn : seam.after = some after) :
    seam.Ahead [last] (newline :: after)
  | level {left right last : Token} {after : List Token} (twins : Twins seam.places left right)
    (closes : left.kind = .dedent) (isEnd : last.kind = .endOfInput)
    (goesOn : seam.after = some after) : seam.Ahead [left, last] (right :: after)

end Seam

namespace ParserState

theorem Fills.unchanged {state after : ParserState} (fills : Fills state after) :
    after.depth = state.depth ∧ after.failures = state.failures := by
  induction fills with
  | refl => exact ⟨rfl, rfl⟩
  | tail _ draws inductionHypothesis => cases draws <;> exact inductionHypothesis

theorem ahead_of_buffer {state : ParserState} {token : Token} {others : List Token}
    (buffer : state.buffer = token :: others) : ∃ rest, state.ahead = token :: rest := by
  rw [ahead, buffer, List.cons_append]
  exact ⟨_, rfl⟩

end ParserState

open ParserState

/-- Two readings before the seam. The left one has risen by some levels from where it started. -/
structure Abreast (seam : Seam) (levels : Nat) (origin left right : ParserState) : Prop where
  visitedLeft : Visited seam.left left
  visitedRight : Visited seam.right right
  ahead : seam.Ahead left.ahead right.ahead
  depth : right.depth = left.depth
  failures : right.failures.length = left.failures.length + seam.extra
  rises : Rises levels origin left

/-- The left reading is at its end, and the right one is past the seam, with some tokens taken
behind it. -/
structure Across (seam : Seam) (levels : Nat) (origin : ParserState) (taken : List Token)
    (left right : ParserState) : Prop where
  visitedLeft : Visited seam.left left
  visitedRight : Visited seam.right right
  atEnd : ∃ last, left.ahead = [last] ∧ last.kind = .endOfInput
  after : seam.after = some (taken ++ right.ahead)
  depth : right.depth = 0
  failures : right.failures.length = left.failures.length + seam.extra
  rises : Rises levels origin left

/-- The left reading is at its end behind a switch. -/
structure Doomed (seam : Seam) (origin left : ParserState) : Prop where
  visited : Visited seam.left left
  apart : seam.after ≠ none
  opens : seam.left.EndsOpen
  atEnd : ∃ last, left.ahead = [last] ∧ last.kind = .endOfInput
  rises : ∃ levels, Rises levels origin left

/-- The left reading is at its end, and past the seam nothing but a fatal error is behind some line
breaks. -/
structure Lost (seam : Seam) (origin left right : ParserState) : Prop where
  visited : Visited seam.left left
  after : ∃ lines, seam.after = some lines ∧ ∀ token ∈ lines, token.isLine = true
  atEnd : ∃ last, left.ahead = [last] ∧ last.kind = .endOfInput
  failures : right.failures.length = left.failures.length + seam.extra
  rises : ∃ levels, Rises levels origin left

/-- An error that says that something was expected where the input ends. -/
def SyntaxError.AtEnd (error : SyntaxError) : Prop :=
  ∃ expectations text, error.fault = .expected expectations .endOfInput text

/-- In what two readings may differ at the seam. -/
inductive Slack
  | none
  /-- The right one may end in a fatal error behind the seam. -/
  | final
  /-- The left one may be at its end behind a switch, from where nothing can be read. -/
  | doomed
deriving DecidableEq

section

variable {α β : Type} {seam : Seam} {firm : Bool} {slack : Slack} {levels : Nat}
  {origin left right : ParserState}

/-- Two readings come to the same: a value, an error that can be recovered from unless they are
firm, or an error that nothing can follow. An error at the end of the left text behind a switch
need not be one of the right text. -/
inductive Matches (seam : Seam) (firm : Bool) (slack : Slack) (origin : ParserState)
    (post : α → ParserState → α → ParserState → Prop) :
    EStateM.Result Abort ParserState α → EStateM.Result Abort ParserState α → Prop
  | ok {value other : α} {left right : ParserState} (holds : post value left other right) :
    Matches seam firm slack origin post (.ok value left) (.ok other right)
  | recoverable {error other : SyntaxError} {left right : ParserState} {above : Nat}
    (soft : firm = false) (abreast : Abreast seam above origin left right) :
    Matches seam firm slack origin post (.error (.recoverable error) left)
      (.error (.recoverable other) right)
  | stranded {error : SyntaxError} {left : ParserState}
    {result : EStateM.Result Abort ParserState α} (soft : firm = false)
    (doomed : Doomed seam origin left) (isAtEnd : error.AtEnd) :
    Matches seam firm slack origin post (.error (.recoverable error) left) result
  | failure {error other : SyntaxError} {left right : ParserState} (together : seam.after = none)
    (failures : right.failures.length = left.failures.length + seam.extra) :
    Matches seam firm slack origin post (.error (.failure error) left)
      (.error (.failure other) right)
  | failed {error : SyntaxError} {left : ParserState}
    {result : EStateM.Result Abort ParserState α} (apart : seam.after ≠ none) :
    Matches seam firm slack origin post (.error (.failure error) left) result
  | exhausted {left : ParserState} {result : EStateM.Result Abort ParserState α} :
    Matches seam firm slack origin post (.error .exhausted left) result
  | lost {value : α} {error : SyntaxError} {left right : ParserState} (isFinal : slack = .final)
    (lost : Lost seam origin left right) :
    Matches seam firm slack origin post (.ok value left) (.error (.failure error) right)
  | doomed {value : α} {left : ParserState} {result : EStateM.Result Abort ParserState α}
    (isDoomed : slack = .doomed) (doomed : Doomed seam origin left) :
    Matches seam firm slack origin post (.ok value left) result

/-- Two parsers come to the same from two states. -/
def Alike (seam : Seam) (firm : Bool) (slack : Slack) (origin : ParserState)
    (post : α → ParserState → α → ParserState → Prop) (parser : Parser α) (left : ParserState)
    (parser' : Parser α) (right : ParserState) : Prop :=
  Matches seam firm slack origin post (parser left) (parser' right)

/-- Where two readings arrive: before the seam, or across it if the value allows for that. -/
def Arrives (seam : Seam) (same : α → α → Prop) (across : α → List Token → Prop) (levels : Nat)
    (origin : ParserState) (value : α) (left : ParserState) (other : α) (right : ParserState) :
    Prop :=
  same value other ∧ (Abreast seam levels origin left right ∨
    ∃ taken, across value taken ∧ Across seam levels origin taken left right)

/-! ## Composition -/

theorem alike_pure {value other : α} {post : α → ParserState → α → ParserState → Prop}
    (holds : post value left other right) :
    Alike seam firm slack origin post (pure value) left (pure other) right :=
  .ok holds

namespace Alike

variable {parser parser' : Parser α} {next next' : α → Parser β}
  {middle : α → ParserState → α → ParserState → Prop}
  {post : β → ParserState → β → ParserState → Prop}

/-- One reading after another. Where the first ends at the seam, only a value may be made of what
was read; where the left one is at its end behind a switch, the next has to be right whatever the
right one does. -/
theorem bindWith {before : Slack}
    (first : Alike seam firm before origin middle parser left parser' right)
    (lost : before = .final →
      slack = .final ∧ ∀ value after, ∃ made, next value after = .ok made after)
    (doomed : before = .doomed → ∀ value after result, Doomed seam origin after →
      Matches seam firm slack origin post (next value after) result)
    (later : ∀ value after other after', middle value after other after' →
      Alike seam firm slack origin post (next value) after (next' other) after') :
    Alike seam firm slack origin post (parser >>= next) left (parser' >>= next') right := by
  unfold Alike at first ⊢
  generalize result : parser left = leftResult at first
  generalize result' : parser' right = rightResult at first
  cases first with
  | ok holds =>
    rw [Parser.bind_ok result, Parser.bind_ok result']
    exact later _ _ _ _ holds
  | recoverable soft abreast =>
    rw [Parser.bind_error result, Parser.bind_error result']
    exact .recoverable soft abreast
  | stranded soft doomed isAtEnd =>
    rw [Parser.bind_error result]
    exact .stranded soft doomed isAtEnd
  | failure together failures =>
    rw [Parser.bind_error result, Parser.bind_error result']
    exact .failure together failures
  | failed apart =>
    rw [Parser.bind_error result]
    exact .failed apart
  | exhausted =>
    rw [Parser.bind_error result]
    exact .exhausted
  | @lost value error after after' isFinal isLost =>
    obtain ⟨rfl, isPure⟩ := lost isFinal
    obtain ⟨made, isMade⟩ := isPure value after
    rw [Parser.bind_ok result, Parser.bind_error result', isMade]
    exact .lost rfl isLost
  | doomed isDoomed atEnd =>
    rw [Parser.bind_ok result]
    exact doomed isDoomed _ _ _ atEnd

theorem bind (first : Alike seam firm .none origin middle parser left parser' right)
    (later : ∀ value after other after', middle value after other after' →
      Alike seam firm slack origin post (next value) after (next' other) after') :
    Alike seam firm slack origin post (parser >>= next) left (parser' >>= next') right :=
  first.bindWith Slack.noConfusion Slack.noConfusion later

theorem map (first : Alike seam firm .final origin middle parser left parser' right)
    (isPure : ∀ value after, ∃ made, next value after = .ok made after)
    (later : ∀ value after other after', middle value after other after' →
      Alike seam firm .final origin post (next value) after (next' other) after') :
    Alike seam firm .final origin post (parser >>= next) left (parser' >>= next') right :=
  first.bindWith (fun _ => ⟨rfl, isPure⟩) Slack.noConfusion later

theorem discard {post : ParserState → ParserState → Prop}
    (first : Alike seam firm .none origin middle parser left parser' right)
    (later : ∀ value after other after', middle value after other after' → post after after') :
    Alike seam firm slack origin (fun _ after _ after' => post after after')
      (Functor.discard parser) left (Functor.discard parser') right :=
  first.bind fun value after other after' holds =>
    alike_pure (later value after other after' holds)

theorem get {next next' : ParserState → Parser β}
    (later : Alike seam firm slack origin post (next left) left (next' right) right) :
    Alike seam firm slack origin post (MonadState.get >>= next) left (MonadState.get >>= next')
      right :=
  later

theorem mono {post weaker : α → ParserState → α → ParserState → Prop}
    (first : Alike seam firm slack origin post parser left parser' right)
    (weaken : ∀ value after other after', post value after other after' →
      weaker value after other after') :
    Alike seam firm slack origin weaker parser left parser' right := by
  unfold Alike at first ⊢
  generalize parser left = leftResult at first
  generalize parser' right = rightResult at first
  cases first with
  | ok holds => exact .ok (weaken _ _ _ _ holds)
  | recoverable soft abreast => exact .recoverable soft abreast
  | stranded soft doomed isAtEnd => exact .stranded soft doomed isAtEnd
  | failure together failures => exact .failure together failures
  | failed apart => exact .failed apart
  | exhausted => exact .exhausted
  | lost isFinal lost => exact .lost isFinal lost
  | doomed isDoomed doomed => exact .doomed isDoomed doomed

end Alike

/-! ## States -/

namespace Abreast

theorem start {seam : Seam} (visitedLeft : Visited seam.left left)
    (visitedRight : Visited seam.right right) (ahead : seam.Ahead left.ahead right.ahead)
    (depth : right.depth = left.depth)
    (failures : right.failures.length = left.failures.length + seam.extra) :
    Abreast seam 0 left left right :=
  ⟨visitedLeft, visitedRight, ahead, depth, failures, .refl left⟩

variable (abreast : Abreast seam levels origin left right)

include abreast

theorem rebase : Abreast seam 0 left left right :=
  .start abreast.visitedLeft abreast.visitedRight abreast.ahead abreast.depth abreast.failures

theorem named (names names' : List NonTerminal) :
    Abreast seam levels origin { left with nonTerminals := names }
      { right with nonTerminals := names' } :=
  ⟨abreast.visitedLeft.names names, abreast.visitedRight.names names', abreast.ahead,
    abreast.depth, abreast.failures, abreast.rises.of_same rfl rfl⟩

theorem fills {after after' : ParserState} (fills : Fills left after)
    (fills' : Fills right after') : Abreast seam levels origin after after' := by
  obtain ⟨depth, failures⟩ := fills.unchanged
  obtain ⟨depth', failures'⟩ := fills'.unchanged
  refine ⟨abreast.visitedLeft.fills fills, abreast.visitedRight.fills fills', ?_, ?_, ?_, ?_⟩
  · rw [fills.ahead_eq, fills'.ahead_eq]
    exact abreast.ahead
  · rw [depth, depth']
    exact abreast.depth
  · rw [failures, failures']
    exact abreast.failures
  · exact abreast.rises.of_same fills.ahead_eq depth

end Abreast

/-- A later reading counts from where an earlier one started. -/
theorem Abreast.trans {above : Nat} {after after' : ParserState}
    (abreast : Abreast seam levels origin left right)
    (later : Abreast seam above left after after') :
    Abreast seam (levels + above) origin after after' :=
  ⟨later.visitedLeft, later.visitedRight, later.ahead, later.depth, later.failures,
    abreast.rises.trans later.rises⟩

theorem Across.named {taken : List Token} (across : Across seam levels origin taken left right)
    (names names' : List NonTerminal) :
    Across seam levels origin taken { left with nonTerminals := names }
      { right with nonTerminals := names' } :=
  ⟨across.visitedLeft.names names, across.visitedRight.names names', across.atEnd, across.after,
    across.depth, across.failures, across.rises.of_same rfl rfl⟩

theorem Doomed.named (doomed : Doomed seam origin left) (names : List NonTerminal) :
    Doomed seam origin { left with nonTerminals := names } := by
  obtain ⟨visited, apart, opens, atEnd, levels, rises⟩ := doomed
  exact ⟨visited.names names, apart, opens, atEnd, levels, rises.of_same rfl rfl⟩

theorem Lost.named (lost : Lost seam origin left right) (names names' : List NonTerminal) :
    Lost seam origin { left with nonTerminals := names }
      { right with nonTerminals := names' } := by
  obtain ⟨visited, after, atEnd, failures, levels, rises⟩ := lost
  exact ⟨visited.names names, after, atEnd, failures, levels, rises.of_same rfl rfl⟩

theorem Across.doomed (across : Across seam levels origin [] left right)
    (opens : seam.left.EndsOpen) : Doomed seam origin left :=
  ⟨across.visitedLeft, fun together => by
    rw [across.after] at together
    contradiction, opens, across.atEnd, levels, across.rises⟩

/-- What is read by name is read as without one. -/
theorem alike_within {nonTerminal : NonTerminal} {parser parser' : Parser α}
    {post : α → ParserState → α → ParserState → Prop}
    (unnamed : ∀ value after other after' names names', post value after other after' →
      post value { after with nonTerminals := names } other { after' with nonTerminals := names' })
    (inner : Alike seam firm slack origin post
      parser { left with nonTerminals := nonTerminal :: left.nonTerminals }
      parser' { right with nonTerminals := nonTerminal :: right.nonTerminals }) :
    Alike seam firm slack origin post (Parser.within nonTerminal parser) left
      (Parser.within nonTerminal parser') right := by
  unfold Alike at inner ⊢
  unfold Parser.within
  generalize parser { left with nonTerminals := nonTerminal :: left.nonTerminals } = leftResult
    at inner
  generalize parser' { right with nonTerminals := nonTerminal :: right.nonTerminals } = rightResult
    at inner
  cases inner with
  | ok holds => exact .ok (unnamed _ _ _ _ _ _ holds)
  | recoverable soft abreast => exact .recoverable soft (abreast.named _ _)
  | stranded soft doomed isAtEnd => exact .stranded soft (doomed.named _) isAtEnd
  | failure together failures => exact .failure together failures
  | failed apart => exact .failed apart
  | exhausted => exact .exhausted
  | lost isFinal lost => exact .lost isFinal (lost.named _ _)
  | doomed isDoomed doomed => exact .doomed isDoomed (doomed.named _)

theorem Arrives.unnamed {same : α → α → Prop} {across : α → List Token → Prop} {value other : α}
    (arrives : Arrives seam same across levels origin value left other right)
    (names names' : List NonTerminal) :
    Arrives seam same across levels origin value { left with nonTerminals := names } other
      { right with nonTerminals := names' } := by
  obtain ⟨isSame, abreast | ⟨taken, allowed, across⟩⟩ := arrives
  · exact ⟨isSame, Or.inl (abreast.named names names')⟩
  · exact ⟨isSame, Or.inr ⟨taken, allowed, across.named names names'⟩⟩

end

end Offside
