import Offside.Proofs.Parser.TandemText

/-!
A text whose tokens are known beforehand. With all of them buffered from the start, it is read to
the same tree. Nothing is asked of the lexer then until the end of input.
-/

namespace Offside

open LexStream ParserState Offside.Parser

/-- The state with some more tokens buffered, which the lexer yields next. -/
def ParserState.foreseeing (state : ParserState) (tokens : List Token) : ParserState :=
  { state with
    lexer := state.lexer.afterRequests (List.replicate tokens.length state.cancelled)
    buffer := state.buffer ++ tokens }

theorem ParserState.fills_foreseeing {state : ParserState} {tokens : List Token}
    (noFatal : state.fatal = none)
    (known : state.lexer.answers (List.replicate tokens.length state.cancelled) =
      tokens.map .token) :
    Fills state (state.foreseeing tokens) ∧ (state.foreseeing tokens).coming = state.coming := by
  induction tokens generalizing state with
  | nil =>
    have same : state.foreseeing [] = state := by
      unfold foreseeing
      rw [List.append_nil]
      rfl
    rw [same]
    exact ⟨.refl, rfl⟩
  | cons token tokens inductionHypothesis =>
    rw [List.length_cons, List.replicate_succ] at known
    cases found : state.lexer.next? state.cancelled with
    | none =>
      rw [Lexer.answers_of_next?_eq_none found] at known
      contradiction
    | some answer =>
      obtain ⟨item, lexer⟩ := answer
      rw [Lexer.answers, Lexer.answer, Lexer.advance, found] at known
      obtain ⟨rfl, others⟩ := List.cons.inj known
      let drawn : ParserState := { state with lexer, buffer := state.buffer ++ [token] }
      have draws : Draws state drawn := .token noFatal found
      obtain ⟨fills, coming⟩ := @inductionHypothesis drawn noFatal others
      have same : drawn.foreseeing tokens = state.foreseeing (token :: tokens) := by
        unfold foreseeing
        rw [List.length_cons, List.replicate_succ, Lexer.afterRequests, Lexer.afterRequests,
          List.foldl_cons, Lexer.advance, found, List.append_assoc]
        rfl
      rw [same] at fills coming
      refine ⟨.head draws fills, coming.trans ?_⟩
      rw [ParserState.coming, ParserState.coming, Lexer.items_of_next? found, List.map_append,
        List.append_assoc, noFatal]
      rfl

namespace Input

/-- A text in tandem with itself. -/
def alone (input : Input) : Tandem where
  left := input
  right := input
  spans := Eq
  tells := Eq
  spelled := True
  inStep := True
  hinted := false
  join := Tandem.join_congr
  syntactic := Tandem.syntactic_congr
  types _ := rfl
  lineBreaks := rfl

/-- The state in which a text is read with its tokens buffered. -/
def foreseen (input : Input) (tokens : List Token) : ParserState :=
  ParserState.foreseeing { input.start with nonTerminals := [.file] } tokens

/-- A tree that is read from the buffered tokens is that of the text, and its statements stand
where those of the text do. -/
theorem file_of_foreseen {input : Input} {tokens : List Token}
    (known : input.start.lexer.answers (List.replicate tokens.length input.cancelled) =
      tokens.map .token)
    {fuel : Nat} {file : File Span}
    (read : (Grammar.file fuel).run' (input.foreseen tokens) = some file) :
    ∃ found, input.parsed.file? = some found ∧ found.erase = file.erase ∧
      found.statements.map Statement.span = file.statements.map Statement.span := by
  let named : ParserState := { input.start with nonTerminals := [.file] }
  obtain ⟨fills, coming⟩ := @fills_foreseeing named tokens rfl known
  have sound : Lists.Sound input .endOfInput named := (Lists.file [.file]).sound
  have sound' : Lists.Sound input .endOfInput (input.foreseen tokens) :=
    ⟨sound.visited.fills fills, Or.inr ⟨rfl, rfl, rfl⟩⟩
  have ahead : (input.foreseen tokens).ahead = named.ahead := fills.ahead_eq
  have items : input.alone.Items named.coming (input.foreseen tokens).coming :=
    coming ▸ .refl (fun _ => rfl) (fun _ => rfl) _
  have beside : input.alone.Beside named (input.foreseen tokens) :=
    ⟨sound.visited, sound'.visited, items, rfl, ahead ▸ rfl, .nil, fun _ => .nil⟩
  have meets := Tandem.meet_whole sound sound' beside named.fuel fuel
  unfold Tandem.Meet at meets
  generalize whole : Grammar.file named.fuel named = result at meets
  unfold EStateM.run' EStateM.run at read
  generalize Grammar.file fuel (input.foreseen tokens) = foreseen at meets read
  cases meets with
  | ok holds =>
    obtain rfl := Option.some.inj read
    have parsed : Parser.file input.start = .ok _ _ := within_of_ok whole
    obtain ⟨same, spans⟩ := Tandem.statements_same holds.1
    have isFile := congrArg (fun result => (Parsed.ofResult result).file?) parsed
    refine ⟨_, isFile, ?_, List.forall₂_eq_eq_eq ▸ spans⟩
    rw [File.erase, File.erase, same, alone, Statement.unhintAll_false]
  | exhaustedLeft =>
    have exhausted : Parser.file input.start = .error _ _ := within_of_error whole
    obtain ⟨_, isFailure⟩ := Input.failure_of_file exhausted
    exact Abort.noConfusion isFailure
  | recoverable => contradiction
  | failure => contradiction
  | exhaustedRight => contradiction

end Input

end Offside
