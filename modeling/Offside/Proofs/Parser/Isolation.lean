import Offside.Proofs.Parser.AbreastWalk

/-!
Blocks and the errors inside of them. A reading goes side by side with itself, so that what holds
of two readings holds of one. Every rule leaves as many levels open as it finds, going on after an
error leads back to the level of the statement that is wrong, and the statements of a block end
where its level is closed. So no error in a block is one of the statements around it.
-/

namespace Offside

open LexStream ParserState Offside.Parser

/-! ## A text beside itself -/

namespace Seam

/-- A text beside itself, with nothing behind it. -/
def single (input : Input) : Seam where
  left := input
  right := input
  places := Eq
  after := none
  extra := 0
  settings := rfl
  ordered := by
    rintro _ _ _ _ rfl rfl
    exact Iff.rfl
  together _ := rfl
  apart := ends_of_goesOn input

theorem single_ahead (input : Input) (tokens : List Token) :
    (single input).Ahead tokens tokens := by
  induction tokens with
  | nil => exact .together rfl
  | cons token tokens inductionHypothesis => exact .more ⟨rfl, rfl, rfl⟩ inductionHypothesis

end Seam

variable {input : Input} {state after : ParserState}

theorem ParserState.Visited.alone (visited : Visited input state) :
    Abreast (.single input) 0 state state state :=
  .start visited visited (Seam.single_ahead input state.ahead) rfl rfl

section

variable {α : Type} {seam : Seam} {firm : Bool} {slack : Slack} {origin : ParserState}
  {post : α → ParserState → α → ParserState → Prop} {parser : Parser α}

theorem Alike.ok_alone (alike : Alike seam firm slack origin post parser state parser state)
    (notDoomed : slack ≠ .doomed) {value : α} (result : parser state = .ok value after) :
    post value after value after := by
  rw [Alike, result] at alike
  cases alike with
  | ok holds => exact holds
  | doomed isDoomed => exact absurd isDoomed notDoomed

theorem Alike.firm_alone (alike : Alike seam true slack origin post parser state parser state)
    {error : SyntaxError} : parser state ≠ .error (.recoverable error) after := by
  intro result
  rw [Alike, result] at alike
  cases alike with
  | recoverable soft => contradiction
  | stranded soft => contradiction

end

/-- A text beside itself is not left. -/
theorem Across.not_single {levels : Nat} {origin left right : ParserState} {taken : List Token} :
    ¬ Across (.single input) levels origin taken left right :=
  fun across => Option.some_ne_none _ across.after.symm

/-- What a rule leaves open where it returns, of which there is as much as where it starts. -/
structure Returns (input : Input) (state after : ParserState) : Prop where
  visited : Visited input after
  depth : after.depth = state.depth

theorem Reads.returns {α : Type} {same : α → α → Prop} {across : α → List Token → Prop}
    {parser : Parser α} (reads : Reads (.single input) .final same across parser parser)
    (visited : Visited input state) {value : α} (result : parser state = .ok value after) :
    Returns input state after := by
  obtain ⟨_, kept | ⟨_, _, crossed⟩⟩ := (reads visited.alone).ok_alone Slack.noConfusion result
  · exact ⟨kept.visitedLeft, kept.rises.depth⟩
  · exact absurd crossed Across.not_single

/-! ## Lists of statements -/

/-- A statement of a list starts with some token, behind the line breaks before it. -/
structure Round (last : Kind) (state : ParserState) (next : Token) (looked : ParserState) :
    Prop where
  found : ∃ middle, removeNewlines state = .ok () middle ∧ peek middle = .ok next looked
  notLast : next.kind ≠ last
  notEnd : next.kind ≠ .endOfInput

/-- The states in which the statements up to some kind of token are read on: at the start of a
text, behind what opens a block, behind a statement that was read, and behind one that is wrong. -/
inductive Lists (input : Input) : Kind → ParserState → Prop
  | file (nonTerminals : List NonTerminal) :
    Lists input .endOfInput { input.start with nonTerminals }
  | block {state after : ParserState} {first : Token} (visited : Visited input state)
    (opened : expect .indent state = .ok first after) : Lists input .dedent after
  | read {last : Kind} {state looked after : ParserState} {next : Token} {fuel : Nat}
    {first : Statement Span} (lists : Lists input last state)
    (round : Round last state next looked)
    (read : attempt (within .statement (Grammar.statement fuel)) looked = .ok (.ok first) after) :
    Lists input last after
  | recovered {last : Kind} {state looked failed after : ParserState} {next : Token} {fuel : Nat}
    {error : SyntaxError} (lists : Lists input last state) (round : Round last state next looked)
    (fails : attempt (within .statement (Grammar.statement fuel)) looked = .ok (.error error) failed)
    (recovers : recover error looked.depth next.span.first failed = .ok () after) :
    Lists input last after

/-- A list of statements is read in one level. -/
structure Lists.Sound (input : Input) (last : Kind) (state : ParserState) : Prop where
  visited : Visited input state
  encloses : (Seam.single input).Encloses last state

theorem Returns.sound {last : Kind} (returns : Returns input state after)
    (encloses : (Seam.single input).Encloses last state) : Lists.Sound input last after :=
  ⟨returns.visited, encloses.of_depth returns.depth⟩

namespace Lists.Sound

variable {last : Kind} (sound : Lists.Sound input last state)

include sound

/-- Looking for the next statement leads to its first token, in the same level. -/
theorem looks {next : Token} {looked : ParserState} (round : Round last state next looked) :
    Lists.Sound input last looked ∧ ∃ rest, looked.ahead = next :: rest := by
  obtain ⟨middle, passed, peeked⟩ := round.found
  have skipped : Abreast (.single input) 0 state middle middle :=
    (@alike_removeNewlines_enclosed _ true .none _ _ _ _ sound.encloses.deep
      sound.visited.alone).ok_alone Slack.noConfusion passed
  obtain ⟨kept, sight, _⟩ :=
    (@alike_peek _ true .none _ _ _ _ skipped).ok_alone Slack.noConfusion peeked
  exact ⟨⟨kept.visitedLeft, sound.encloses.of_depth kept.rises.depth⟩, sight.ahead_eq⟩

theorem not_dedent {next : Token} {rest : List Token} (ahead : state.ahead = next :: rest)
    (notLast : next.kind ≠ last) : next.kind ≠ .dedent := by
  intro closes
  rcases sound.encloses with ⟨isDedent, _⟩ | ⟨_, noDepth, _⟩
  · exact notLast (closes.trans isDedent.symm)
  · have deep := sound.visited.depth_pos ahead closes
    omega

theorem attempts {fuel : Nat} {result : Except SyntaxError (Statement Span)}
    (tried : attempt (within .statement (Grammar.statement fuel)) state = .ok result after) :
    Attempted (.single input) (SameBy Statement.erase) state result after result after :=
  (@alike_attempt _ true .none _ _ _ _ _ _ _ _ sound.encloses.deep
    (reads_within (Seam.walk _ fuel).statement sound.visited.alone)).ok_alone Slack.noConfusion tried

/-- Going on after an error leads back to the level of the statement that is wrong. -/
theorem recovers {next : Token} {rest : List Token} (ahead : state.ahead = next :: rest)
    (notLast : next.kind ≠ last) {fuel : Nat} {error : SyntaxError} {failed : ParserState}
    (fails : attempt (within .statement (Grammar.statement fuel)) state = .ok (.error error) failed)
    (recovered : recover error state.depth next.span.first failed = .ok () after) :
    Returns input state after := by
  obtain ⟨above, abreast⟩ := sound.attempts fails
  have starts : Starts (.single input) state next.span.first next.span.first :=
    ⟨rfl, next, rest, ahead, rfl, sound.not_dedent ahead notLast⟩
  rcases (@alike_recover _ true .none _ _ _ _ _ _ starts sound.visited error error
    abreast).ok_alone Slack.noConfusion recovered with kept | crossed
  · exact ⟨kept.visitedLeft, kept.rises.depth⟩
  · exact absurd crossed Across.not_single

end Lists.Sound

theorem Lists.sound {last : Kind} (lists : Lists input last state) :
    Lists.Sound input last state := by
  induction lists with
  | file nonTerminals =>
    exact ⟨.names .start nonTerminals, Or.inr ⟨rfl, rfl, rfl⟩⟩
  | block visited opened =>
    obtain ⟨_, _, _, arrived⟩ := (@alike_expect _ false .none _ _ _ _ .indent 1 Kind.noConfusion
      Kind.noConfusion (fun token isIndent => levelsAfter?_of_indent isIndent 0)
      Bool.noConfusion visited.alone).ok_alone Slack.noConfusion opened
    have opened := arrived.resolve_right fun crossed => Kind.noConfusion crossed.1
    refine ⟨opened.visitedLeft, Or.inl ⟨rfl, ?_⟩⟩
    have depth := opened.rises.depth
    omega
  | read _ round read inductionHypothesis =>
    obtain ⟨looked, _⟩ := inductionHypothesis.looks round
    obtain ⟨_, kept⟩ := looked.attempts read
    exact Returns.sound ⟨kept.visitedLeft, kept.rises.depth⟩ looked.encloses
  | recovered _ round fails recovers inductionHypothesis =>
    obtain ⟨looked, rest, ahead⟩ := inductionHypothesis.looks round
    exact (looked.recovers ahead round.notLast fails recovers).sound looked.encloses

/-! ## Errors in a block -/

section

variable {seam : Seam} {firm : Bool} {levels : Nat} {origin left right : ParserState}

theorem ParserState.Faces.of_ahead {kind : Kind} (faces : left.Faces kind)
    (ahead : right.ahead = left.ahead) : right.Faces kind := by
  obtain ⟨token, rest, found, isKind⟩ := faces
  exact ⟨token, rest, ahead.trans found, isKind⟩

theorem ParserState.Faces.sight {kind : Kind} (faces : left.Faces kind) (notEnd : kind ≠ .endOfInput)
    {first first' : Token} (sight : Sight seam left right first first') :
    first.kind = kind ∧ first'.kind = kind := by
  obtain ⟨token, rest, found, isKind⟩ := faces
  obtain ⟨others, foundAgain⟩ := sight.ahead_eq
  obtain ⟨rfl, -⟩ := List.cons.inj (found.symm.trans foundAgain)
  have twins := (sight.twins_of_kind (isKind ▸ notEnd)).1
  exact ⟨isKind, twins.kind.trans isKind⟩

/-- What opens a block is read as one, and goes wrong only inside of it. -/
theorem alike_block_of_indent (faces : left.Faces .indent)
    (abreast : Abreast seam levels origin left right) (n : Nat) :
    Alike seam firm .none origin
      (Arrives seam (SameBy Action.erase) (seam.Opens fun _ => true) levels origin)
      (within .block (Grammar.block n)) left (within .block (Grammar.block n)) right :=
  alike_within (fun _ _ _ _ _ _ arrives => arrives.unnamed _ _)
    ((Seam.walk seam n).block (fun _ => faces.of_ahead rfl) (abreast.named _ _))

theorem alike_statement_of_indent (faces : left.Faces .indent)
    (abreast : Abreast seam levels origin left right) (n : Nat) :
    Alike seam firm .none origin (fun _ _ _ _ => True) (Grammar.statement n) left
      (Grammar.statement n) right := by
  cases n with
  | zero => exact Seam.alike_of_exhausted (by rw [Grammar.statement])
  | succ n =>
    rw [Grammar.statement]
    refine (alike_peek abreast).bind ?_
    rintro next _ next' _ ⟨looked, sight, ahead, _⟩
    have faces := faces.of_ahead ahead
    obtain ⟨isIndent, isIndent'⟩ := faces.sight Kind.noConfusion sight
    rw [isIndent, isIndent']
    exact (alike_block_of_indent faces looked n).bind fun _ _ _ _ _ => alike_pure trivial

theorem alike_armBody_of_indent (faces : left.Faces .indent)
    (abreast : Abreast seam levels origin left right) (n : Nat) :
    Alike seam firm .none origin (fun _ _ _ _ => True) (Grammar.armBody n) left
      (Grammar.armBody n) right := by
  cases n with
  | zero => exact Seam.alike_of_exhausted (by rw [Grammar.armBody])
  | succ n =>
    rw [Grammar.armBody]
    refine (alike_peekKind abreast).bind ?_
    rintro kind _ kind' _ ⟨looked, ahead, first, first', sight, rfl, rfl⟩
    have faces := faces.of_ahead ahead
    obtain ⟨isIndent, isIndent'⟩ := faces.sight Kind.noConfusion sight
    rw [isIndent, isIndent']
    exact (alike_block_of_indent faces looked n).mono fun _ _ _ _ _ => trivial

end

/-- Blocks are apart from what is around them, however wrong they are. -/
structure BlocksIsolated (input : Input) : Prop where
  /-- A statement, a block, a switch or an expression that is read leaves open what it found. -/
  statement {state after : ParserState} {fuel : Nat} {value : Statement Span}
    (visited : Visited input state) (result : Grammar.statement fuel state = .ok value after) :
    Returns input state after
  block {state after : ParserState} {fuel : Nat} {value : Action Span}
    (visited : Visited input state) (result : Grammar.block fuel state = .ok value after) :
    Returns input state after
  switch {state after : ParserState} {fuel : Nat} {value : Expr Span}
    (visited : Visited input state) (result : Grammar.switch fuel state = .ok value after) :
    Returns input state after
  expression {state after : ParserState} {fuel minimum : Nat} {value : Expr Span}
    (visited : Visited input state)
    (result : Grammar.expression fuel minimum state = .ok value after) : Returns input state after
  /-- Going on after a statement of a list that is wrong leads back to its level. -/
  recover {last : Kind} {state looked failed after : ParserState} {next : Token} {fuel : Nat}
    {error : SyntaxError} (lists : Lists input last state) (round : Round last state next looked)
    (fails : attempt (within .statement (Grammar.statement fuel)) looked = .ok (.error error) failed)
    (recovers : recover error looked.depth next.span.first failed = .ok () after) :
    Returns input looked after
  /-- The statements of a block end at what closes the level that was opened before them. -/
  statementsUntil {state inside after : ParserState} {opening : Token} {fuel : Nat}
    {statements : List (Statement Span)} (visited : Visited input state)
    (opened : expect .indent state = .ok opening inside)
    (result : Grammar.statementsUntil fuel .dedent inside = .ok statements after) :
    ∃ contents closing rest, inside.ahead = contents ++ closing :: rest ∧
      levelsAfter? 0 (contents.map .token) = some 0 ∧ closing.kind = .dedent ∧
      after.ahead = closing :: rest
  /-- No error in a block is one of the block, nor one of the statement or arm that it is, nor one
  of a list of statements that it is in. -/
  notOfBlock {state after : ParserState} {fuel : Nat} {error : SyntaxError}
    (visited : Visited input state) (faces : state.Faces .indent) :
    Grammar.block fuel state ≠ .error (.recoverable error) after
  notOfStatement {state after : ParserState} {fuel : Nat} {error : SyntaxError}
    (visited : Visited input state) (faces : state.Faces .indent) :
    Grammar.statement fuel state ≠ .error (.recoverable error) after
  notOfArm {state after : ParserState} {fuel : Nat} {error : SyntaxError}
    (visited : Visited input state) (faces : state.Faces .indent) :
    Grammar.armBody fuel state ≠ .error (.recoverable error) after
  notOfList {last : Kind} {state after : ParserState} {fuel : Nat} {error : SyntaxError}
    (lists : Lists input last state) :
    Grammar.statementsUntil fuel last state ≠ .error (.recoverable error) after

theorem Lists.Sound.statementsUntil {last : Kind} {fuel : Nat} {statements : List (Statement Span)}
    (sound : Lists.Sound input last state)
    (result : Grammar.statementsUntil fuel last state = .ok statements after) :
    Abreast (.single input) 0 state after after ∧ ∃ token rest, after.ahead = token :: rest ∧
      (token.kind = last ∨ token.kind = .endOfInput) :=
  (((Seam.walk _ fuel).statementsUntil sound.encloses sound.visited.alone :
    Alike _ true .none _ _ _ _ _ _).ok_alone Slack.noConfusion result).2

theorem blocks_isolated (input : Input) : BlocksIsolated input where
  statement visited result := Reads.returns (Seam.walk _ _).statement visited result
  block visited result :=
    Reads.returns (fun abreast => (Seam.walk _ _).block Bool.noConfusion abreast) visited result
  switch visited result := Reads.returns ((Seam.walk _ _).switch .final) visited result
  expression visited result := Reads.returns ((Seam.walk _ _).expression .final _) visited result
  recover lists round fails recovers := by
    obtain ⟨looked, rest, ahead⟩ := lists.sound.looks round
    exact looked.recovers ahead round.notLast fails recovers
  statementsUntil visited opened result := by
    have sound := (Lists.block visited opened).sound
    obtain ⟨kept, token, rest, ahead, ends⟩ := sound.statementsUntil result
    obtain ⟨contents, found, nested⟩ := kept.rises.taken
    refine ⟨contents, token, rest, ahead ▸ found, nested, ends.resolve_right fun isEnd => ?_, ahead⟩
    have noDepth := kept.visitedLeft.depth_eq_zero ahead isEnd
    have depth := kept.rises.depth
    rcases sound.encloses with ⟨_, deep⟩ | ⟨isEnd, _⟩
    · omega
    · contradiction
  notOfBlock visited faces :=
    ((Seam.walk _ _).block (fun _ => faces) visited.alone : Alike _ true .none _ _ _ _ _ _).firm_alone
  notOfStatement visited faces := (alike_statement_of_indent faces visited.alone _).firm_alone
  notOfArm visited faces := (alike_armBody_of_indent faces visited.alone _).firm_alone
  notOfList lists :=
    ((Seam.walk _ _).statementsUntil lists.sound.encloses lists.sound.visited.alone :
      Alike _ true .none _ _ _ _ _ _).firm_alone

end Offside
