import Offside.Lexer.Error
import Offside.Scan.Escape
import Offside.Scan.Word
import Offside.Token

/-!
Splitting a text into tokens, one step at a time. A step passes over what stands before the next
token, takes that token, and yields it with the layout of its line and the errors in it. Every
step ends the tokens or takes some of the text: `LexState.advances_step`.
-/

namespace Offside

/-- What the lexer is inside of. -/
inductive LexMode
  | string (start : Position)
  /-- An interpolation, with the number of curly brackets open in it. -/
  | interpolation (braces : Nat)
deriving DecidableEq, Repr, Inhabited

inductive LexItem
  | token (token : Token)
  | error (error : LexError)
deriving DecidableEq, Repr, Inhabited

/-- The state of a lexer between two steps. -/
structure LexState where
  rest : List Char
  position : Position
  /-- What the text is inside of, the innermost first. Code outside of all strings is inside of
  nothing. -/
  modes : List LexMode
  layout : Layout
  /-- No code was taken since the last line break, or at all. -/
  atLineStart : Bool
  lastKind : Option Kind
  finished : Bool
  /-- The last line of code was ended by a line break. Known once the tokens have ended. -/
  endedAtLineBreak : Bool
deriving Repr, Inhabited

/-- The items of a step and the state after it. -/
abbrev LexStep := List LexItem × LexState

namespace LexState

/-- The state before the first character of a source text. A byte order mark is no part of the
first line. -/
def ofSource (tabWidth : Nat) (source : List Char) : LexState :=
  let (rest, position) : List Char × Position :=
    match source with
    | '\ufeff' :: rest => (rest, ⟨'\ufeff'.utf8Size, 1, 1⟩)
    | _ => (source, .start)
  { rest, position
    modes := []
    layout := .ofTabWidth tabWidth
    atLineStart := true
    lastKind := none
    finished := false
    endedAtLineBreak := false }

def take (state : LexState) (split : Scan.Split) : LexState :=
  { state with rest := split.rest, position := state.position.advance split.text }

def spanOf (state : LexState) (split : Scan.Split) : Span :=
  ⟨state.position, state.position.advance split.text⟩

def tokenOf (state : LexState) (kind : Kind) (split : Scan.Split) : LexItem :=
  .token ⟨kind, String.ofList split.text, state.spanOf split⟩

/-- Takes a piece of the text as a token, followed by the errors in it. -/
def yield (state : LexState) (kind : Kind) (split : Scan.Split) (errors : List LexError) :
    LexStep :=
  (state.tokenOf kind split :: errors.map .error, { state.take split with lastKind := some kind })

def structural (state : LexState) (kind : Kind) : LexItem :=
  .token (.structural kind (.emptyAt state.position))

/-- Ends the tokens in the middle of something. -/
def fail (state : LexState) (construct : Unterminated) (span : Span) : LexStep :=
  ([.error ⟨.unterminated construct, span⟩], { state with finished := true })

/-- Where the innermost open string starts. -/
def openString? (state : LexState) : Option Position :=
  state.modes.findSome? fun
    | .string start => some start
    | .interpolation _ => none

/-- Closes every level and ends the tokens. A text can not end inside a string. -/
def finish (state : LexState) : LexStep :=
  match state.openString? with
  | some start => state.fail .stringLiteral ⟨start, state.position⟩
  | none =>
    let (dedents, layout) := state.layout.finish
    (List.replicate dedents (state.structural .dedent) ++ [state.structural .endOfInput],
      { state with
        layout
        lastKind := some .endOfInput
        finished := true
        endedAtLineBreak := state.atLineStart && state.lastKind.isSome })

/-! ## Strings and characters -/

/-- The text that pieces of a literal stand for, and the escapes in them that can not be decoded.
Each of those stands for the replacement character. -/
def decode : Position → List Scan.Spelled → List Char × List LexError
  | _, [] => ([], [])
  | position, ⟨text, piece⟩ :: pieces =>
    let next := position.advance text
    let (value, errors) := decode next pieces
    match piece with
    | .text characters => (characters ++ value, errors)
    | .char c => (c :: value, errors)
    | .elided => (value, errors)
    | .invalid characters =>
      ('\ufffd' :: value,
        ⟨.invalidEscape (String.ofList characters), ⟨position, next⟩⟩ :: errors)

/-- A part of a string: its end, the start of an interpolation, or a fragment. -/
def stringPart (state : LexState) (start : Position) : LexStep :=
  match state.rest with
  | '"' :: rest =>
    { state with modes := state.modes.tail }.yield .stringEnd ⟨['"'], rest⟩ []
  | '\x7b' :: rest =>
    { state with
      modes := .interpolation 0 :: state.modes
      layout := state.layout.openBracket }.yield .interpolationStart ⟨['\x7b'], rest⟩ []
  | rest =>
    let body := Scan.stringBody rest
    if body.value = [] then state.fail .stringLiteral ⟨start, state.position⟩
    else
      let (value, errors) := decode state.position body.value
      state.yield (.stringFragment (String.ofList value)) body.toSplit errors

def stringStart (state : LexState) (split : Scan.Split) : LexStep :=
  { state with modes := .string state.position :: state.modes }.yield .stringStart split []

/-- A character literal, given the text after its opening quote. -/
def characterLiteral (state : LexState) (rest : List Char) : LexStep :=
  let inside := state.position.advance ['\'']
  let body := Scan.charBody rest
  match body.rest with
  | '\'' :: after =>
    let split : Scan.Split := ⟨'\'' :: body.text ++ ['\''], after⟩
    let (value, errors) := decode inside body.value
    let invalid (fault : CharacterFault) : LexStep :=
      state.yield (.char '\ufffd') split
        (errors ++ [⟨.invalidCharacter (String.ofList split.text) fault, state.spanOf split⟩])
    match value with
    | [c] => state.yield (.char c) split errors
    | [] => invalid .empty
    | _ => invalid .several
  | _ => state.fail .characterLiteral ⟨state.position, inside.advance body.text⟩

/-! ## Code -/

/-- What a symbol does to the brackets. A curly bracket that closes an interpolation is no
symbol. -/
def bracket (state : LexState) (symbol : Symbol) : Kind × LexState :=
  match symbol with
  | .leftParen | .leftBracket =>
    (.symbol symbol, { state with layout := state.layout.openBracket })
  | .rightParen | .rightBracket =>
    (.symbol symbol, { state with layout := state.layout.closeBracket })
  | .leftCurly =>
    let modes := match state.modes with
      | .interpolation braces :: outer => .interpolation (braces + 1) :: outer
      | modes => modes
    (.symbol symbol, { state with modes, layout := state.layout.openBracket })
  | .rightCurly =>
    let state := { state with layout := state.layout.closeBracket }
    match state.modes with
    | .interpolation 0 :: outer => (.interpolationEnd, { state with modes := outer })
    | .interpolation (braces + 1) :: outer =>
      (.symbol symbol, { state with modes := .interpolation braces :: outer })
    | _ => (.symbol symbol, state)
  | _ => (.symbol symbol, state)

/-- An operand may start here, so that a sign belongs to the number after it. -/
def atOperand (state : LexState) : Bool :=
  !state.lastKind.any Kind.endsOperand

/-- A token of code that starts with `c` and is neither a string nor a character. A character
that starts no token is passed over with an error. -/
def plainToken (state : LexState) (c : Char) (rest : List Char) : LexStep :=
  let input := c :: rest
  match Scan.numeral? state.atOperand input with
  | some number =>
    let (kind, fault) := number.value.evaluate
    let text := String.ofList number.text
    let errors := fault.toList.map fun fault =>
      (⟨.invalidNumber text fault, state.spanOf number.toSplit⟩ : LexError)
    state.yield kind number.toSplit errors
  | none =>
    match Scan.word? input with
    | some word => state.yield word.value word.toSplit []
    | none =>
      match Scan.symbol? input with
      | some symbol =>
        let (kind, state) := state.bracket symbol.value
        state.yield kind symbol.toSplit []
      | none =>
        let split : Scan.Split := ⟨[c], rest⟩
        ([.error ⟨.unexpectedCharacter c, state.spanOf split⟩], state.take split)

/-- The next token of code. The text is at its first character, or at its end. -/
def codeToken (state : LexState) : LexStep :=
  match state.rest with
  | [] => state.finish
  | '/' :: '*' :: rest =>
    let split : Scan.Split := ⟨'/' :: '*' :: rest, []⟩
    (state.take split).fail .blockComment (state.spanOf split)
  | '"' :: rest => state.stringStart ⟨['"'], rest⟩
  | '$' :: '"' :: rest => state.stringStart ⟨['$', '"'], rest⟩
  | '\'' :: rest => state.characterLiteral rest
  | c :: rest => state.plainToken c rest

def layoutKinds : LineLayout → List Kind
  | .start => []
  | .newline => [.newline]
  | .indent => [.indent]
  | .dedent levels => List.replicate levels .dedent

/-- The tokens that a line starts with, whether or not its width fits the levels. -/
def lineKinds : Except IndentationFault LineLayout → List Kind
  | .ok lineLayout => layoutKinds lineLayout
  | .error fault => layoutKinds (.dedent fault.dedents)

def lineErrors (span : Span) : Except IndentationFault LineLayout → List LexError
  | .ok _ => []
  | .error fault => [⟨.indentation fault, span⟩]

/-- Takes the indentation of a line of code and yields its layout. -/
def indentation (state : LexState) : LexStep :=
  let lead := Scan.leading state.rest
  let span := state.spanOf lead
  let measured := state.layout.measure lead.text
  let (result, layout) := state.layout.line measured.width
  let state := { state.take lead with layout, atLineStart := false }
  let mixed : List LexError := if measured.mixed then [⟨.mixedIndentation, span⟩] else []
  let kinds := lineKinds result
  (mixed.map .error ++ kinds.map state.structural ++ (lineErrors span result).map .error,
    { state with lastKind := kinds.getLast?.or state.lastKind })

/-- The first token of the next line of code, with the layout of that line. -/
def lineStart (state : LexState) : LexStep :=
  let state := state.take (Scan.blankLines state.rest)
  if state.rest = [] then state.finish
  else
    let (items, state) := state.indentation
    let (more, state) := (state.take (Scan.trivia state.rest)).codeToken
    (items ++ more, state)

/-- The next token of code. Outside of brackets it may be on a new line. -/
def code (state : LexState) : LexStep :=
  if state.layout.inBrackets then (state.take (Scan.wrapped state.rest)).codeToken
  else if state.atLineStart then state.lineStart
  else
    let state := state.take (Scan.trivia state.rest)
    match Scan.lineBreak? state.rest with
    | some lineBreak => { state.take lineBreak with atLineStart := true }.lineStart
    | none => state.codeToken

def step (state : LexState) : LexStep :=
  match state.modes with
  | .string start :: _ => state.stringPart start
  | _ => state.code

def cancel (state : LexState) : LexStep :=
  ([.error ⟨.cancelled, .emptyAt state.position⟩], { state with finished := true })

/-! ## Progress -/

/-- The tokens ended, or some of the text was taken. -/
def Advances (before after : LexState) : Prop :=
  after.finished = true ∨ after.rest.length < before.rest.length

theorem Advances.of_le {before middle after : LexState}
    (shorter : middle.rest.length ≤ before.rest.length) (advances : Advances middle after) :
    Advances before after :=
  advances.imp_right fun less => Nat.lt_of_lt_of_le less shorter

theorem advances_yield (state : LexState) (kind : Kind) {split : Scan.Split}
    (errors : List LexError) (takes : split.Takes state.rest) :
    Advances state (state.yield kind split errors).2 :=
  Or.inr takes.length_lt

theorem advances_finish (state : LexState) : Advances state state.finish.2 := by
  unfold finish
  split <;> exact Or.inl rfl

theorem length_take_le (state : LexState) {split : Scan.Split} (splitOf : split.Of state.rest) :
    (state.take split).rest.length ≤ state.rest.length :=
  splitOf.length_le

theorem bracket_rest (state : LexState) (symbol : Symbol) :
    (state.bracket symbol).2.rest = state.rest := by
  unfold bracket
  split <;> try rfl
  dsimp only
  split <;> rfl

theorem advances_stringPart (state : LexState) (start : Position) :
    Advances state (state.stringPart start).2 := by
  unfold stringPart
  split
  next rest equality => exact Or.inr (by simp [yield, take, equality])
  next rest equality => exact Or.inr (by simp [yield, take, equality])
  next =>
    dsimp only
    split
    · exact Or.inl rfl
    · next nonempty =>
      refine advances_yield state _ _ ⟨?_, Scan.of_stringBody state.rest⟩
      unfold Scan.stringBody at nonempty ⊢
      split at nonempty
      · simp at nonempty
      · next piece found =>
        simp [Scan.Split.after, (Scan.takes_of_stringPiece? found).1]

theorem advances_characterLiteral (state : LexState) {rest : List Char}
    (equality : state.rest = '\'' :: rest) : Advances state (state.characterLiteral rest).2 := by
  unfold characterLiteral
  dsimp only
  split
  next after bodyRest =>
    have body := Scan.of_charBody rest
    unfold Scan.Split.Of at body
    rw [bodyRest] at body
    have takes : (⟨'\'' :: (Scan.charBody rest).text ++ ['\''], after⟩ : Scan.Split).Takes
        state.rest := by
      refine ⟨by simp, ?_⟩
      rw [equality]
      simpa [Scan.Split.Of] using body
    have finished := fun kind errors => advances_yield state kind errors takes
    generalize decode _ _ = decoded
    obtain ⟨value, errors⟩ := decoded
    rcases value with _ | ⟨c, _ | ⟨other, more⟩⟩
    · exact finished _ _
    · exact finished _ _
    · exact finished _ _
  next => exact Or.inl rfl

theorem advances_plainToken (state : LexState) {c : Char} {rest : List Char}
    (equality : state.rest = c :: rest) : Advances state (state.plainToken c rest).2 := by
  unfold plainToken
  dsimp only
  split
  next number found =>
    exact advances_yield state _ _ (equality ▸ Scan.takes_of_numeral? found)
  next =>
    split
    next word found => exact advances_yield state _ _ (equality ▸ Scan.takes_of_word? found)
    next =>
      split
      next symbol found =>
        have takes := Scan.takes_of_symbol? found
        refine Advances.of_le (Nat.le_of_eq (congrArg List.length (bracket_rest state _)))
          (advances_yield _ _ _ ?_)
        rw [bracket_rest, equality]
        exact takes
      next => exact Or.inr (by simp [take, equality])

theorem advances_codeToken (state : LexState) : Advances state state.codeToken.2 := by
  unfold codeToken
  split
  next => exact advances_finish state
  next => exact Or.inl rfl
  next rest equality => exact Or.inr (by simp [stringStart, yield, take, equality])
  next rest equality =>
    refine Or.inr ?_
    rw [equality]
    show rest.length < rest.length + 2
    omega
  next rest equality => exact advances_characterLiteral state equality
  next equality => exact advances_plainToken state equality

theorem advances_take_codeToken (state : LexState) {split : Scan.Split}
    (splitOf : split.Of state.rest) : Advances state (state.take split).codeToken.2 :=
  Advances.of_le (length_take_le state splitOf) (advances_codeToken _)

theorem length_indentation_le (state : LexState) :
    state.indentation.2.rest.length ≤ state.rest.length :=
  (Scan.of_leading state.rest).length_le

theorem advances_lineStart (state : LexState) : Advances state state.lineStart.2 := by
  unfold lineStart
  dsimp only
  have taken := length_take_le state (Scan.of_blankLines state.rest)
  split
  · exact Advances.of_le taken (advances_finish _)
  · exact Advances.of_le (Nat.le_trans (length_indentation_le _) taken)
      (advances_take_codeToken _ (Scan.of_trivia _))

theorem advances_code (state : LexState) : Advances state state.code.2 := by
  unfold code
  split
  · exact advances_take_codeToken state (Scan.of_wrapped state.rest)
  · split
    · exact advances_lineStart state
    · dsimp only
      have taken := length_take_le state (Scan.of_trivia state.rest)
      split
      next lineBreak found =>
        have shorter := (Scan.takes_of_lineBreak? found).length_lt
        exact Advances.of_le (Nat.le_of_lt (Nat.lt_of_lt_of_le shorter taken))
          (advances_lineStart _)
      next => exact Advances.of_le taken (advances_codeToken _)

/-- A step ends the tokens or takes some of the text. -/
theorem advances_step (state : LexState) : Advances state state.step.2 := by
  unfold step
  split
  · exact advances_stringPart state _
  · exact advances_code state

/-- A bound on the steps to come. -/
def remaining (state : LexState) : Nat :=
  if state.finished then 0 else state.rest.length + 1

theorem remaining_lt_of_advances {before after : LexState} (running : before.finished = false)
    (advances : Advances before after) : after.remaining < before.remaining := by
  unfold remaining
  rw [running]
  rcases advances with ended | shorter
  · simp [ended]
  · simp only [Bool.false_eq_true, if_false]
    split
    · omega
    · omega

end LexState

end Offside
