import Offside.Proofs.Lexer.Extend
import Offside.Proofs.Scan.Pieces

/-!
What a step of the lexer can be, said once. A step passes over a gap, yields the layout of a line
if one starts there, and then reads one piece of the text: a token of code, a part of a string, a
character that starts nothing, or the end of the tokens. Every claim about all steps is a claim
about these cases.
-/

namespace Offside

open LexStream LexMode

namespace Kind

/-- The brackets open after a token. An interpolation counts as one, and a bracket that closes
nothing changes nothing. -/
def bracketsAfter (kind : Kind) (brackets : Nat) : Nat :=
  match kind with
  | .symbol .leftParen | .symbol .leftBracket | .symbol .leftCurly | .interpolationStart =>
    brackets + 1
  | .symbol .rightParen | .symbol .rightBracket | .symbol .rightCurly | .interpolationEnd =>
    brackets - 1
  | _ => brackets

/-- Kinds of tokens that a string is made of, or an interpolation is closed by. -/
def isOfString : Kind → Bool
  | .stringStart | .stringFragment _ | .interpolationStart | .interpolationEnd | .stringEnd => true
  | _ => false

/-- Kinds of single tokens of code: words and literals, which leave the brackets alone. -/
structure IsPlain (kind : Kind) : Prop where
  structural : kind.isStructural = false
  ofString : kind.isOfString = false
  brackets : ∀ brackets, kind.bracketsAfter brackets = brackets

theorem isPlain_ofWord (word : String) : (Kind.ofWord word).IsPlain := by
  unfold Kind.ofWord
  split
  · exact ⟨rfl, rfl, fun _ => rfl⟩
  · split
    · exact ⟨rfl, rfl, fun _ => rfl⟩
    · split
      · exact ⟨rfl, rfl, fun _ => rfl⟩
      · split
        · exact ⟨rfl, rfl, fun _ => rfl⟩
        · split
          · exact ⟨rfl, rfl, fun _ => rfl⟩
          · exact ⟨rfl, rfl, fun _ => rfl⟩

theorem isPlain_evaluate (numeral : Scan.Numeral) : numeral.evaluate.1.IsPlain := by
  unfold Scan.Numeral.evaluate
  split
  · exact ⟨rfl, rfl, fun _ => rfl⟩
  · split
    · exact ⟨rfl, rfl, fun _ => rfl⟩
    · exact ⟨rfl, rfl, fun _ => rfl⟩

end Kind

namespace LexState

/-! ## Pieces -/

/-- Where a character literal is split off that is closed with `after` behind it. -/
def literalSplit (rest after : List Char) : Scan.Split :=
  ⟨'\'' :: (Scan.charBody rest).text ++ ['\''], after⟩

/-- What the inside of a character literal stands for, and the errors in it. -/
def literalValue (state : LexState) (rest : List Char) : List Char × List LexError :=
  decode (state.position.advance ['\'']) (Scan.charBody rest).value

/-- A token of code at the start of the text: its kind, the split that takes it, the errors in it,
and the state that yields it, in which the brackets and what the text is inside of are those after
the token. -/
inductive TakesCode (state : LexState) : Kind → Scan.Split → List LexError → LexState → Prop
  | stringStart {split : Scan.Split} (splitOf : split.Of state.rest)
    (spelled : split.text = ['"'] ∨ split.text = ['$', '"']) :
    TakesCode state .stringStart split [] { state with modes := .string state.position :: state.modes }
  | character {rest after : List Char} {c : Char} (found : state.rest = '\'' :: rest)
    (closed : (Scan.charBody rest).rest = '\'' :: after)
    (single : (state.literalValue rest).1 = [c]) :
    TakesCode state (.char c) (literalSplit rest after) (state.literalValue rest).2 state
  | wrongCharacter {rest after : List Char} (fault : CharacterFault)
    (found : state.rest = '\'' :: rest) (closed : (Scan.charBody rest).rest = '\'' :: after) :
    TakesCode state (.char '\ufffd') (literalSplit rest after)
      ((state.literalValue rest).2 ++
        [⟨.invalidCharacter (String.ofList (literalSplit rest after).text) fault,
          state.spanOf (literalSplit rest after)⟩]) state
  | number {number : Scan.Scanned Scan.Numeral}
    (found : Scan.numeral? state.atOperand state.rest = some number) :
    TakesCode state number.value.evaluate.1 number.toSplit
      (number.value.evaluate.2.toList.map fun fault =>
        ⟨.invalidNumber (String.ofList number.text) fault, state.spanOf number.toSplit⟩) state
  | word {word : Scan.Scanned Kind} (noNumber : Scan.numeral? state.atOperand state.rest = none)
    (found : Scan.word? state.rest = some word) : TakesCode state word.value word.toSplit [] state
  | symbol {symbol : Scan.Scanned Symbol}
    (noNumber : Scan.numeral? state.atOperand state.rest = none)
    (noWord : Scan.word? state.rest = none) (found : Scan.symbol? state.rest = some symbol) :
    TakesCode state (state.bracket symbol.value).1 symbol.toSplit [] (state.bracket symbol.value).2

/-- A part of a string at the start of the text. -/
inductive TakesPart (state : LexState) : Kind → Scan.Split → List LexError → LexState → Prop
  | stringEnd {rest : List Char} (found : state.rest = '"' :: rest) :
    TakesPart state .stringEnd ⟨['"'], rest⟩ [] { state with modes := state.modes.tail }
  | interpolationStart {rest : List Char} (found : state.rest = '\x7b' :: rest) :
    TakesPart state .interpolationStart ⟨['\x7b'], rest⟩ []
      { state with modes := .interpolation 0 :: state.modes, layout := state.layout.openBracket }
  | fragment (nonempty : (Scan.stringBody state.rest).value ≠ []) :
    TakesPart state
      (.stringFragment (String.ofList (decode state.position (Scan.stringBody state.rest).value).1))
      (Scan.stringBody state.rest).toSplit
      (decode state.position (Scan.stringBody state.rest).value).2 state

/-- A construct at the start of the text that is never closed: the state in which that is known,
and the error. A string is given up where its line or the text ends, a character where it has no
more pieces and its quote is missing. -/
inductive Fails (state : LexState) : LexState → Unterminated → Span → Prop
  | string {start : Position} (opened : state.openString? = some start)
    (stops : Scan.AtStop ['\n'] state.rest) :
    Fails state state .stringLiteral ⟨start, state.position⟩
  | character {rest : List Char} (found : state.rest = '\'' :: rest)
    (unclosed : ∀ after, (Scan.charBody rest).rest ≠ '\'' :: after) :
    Fails state state .characterLiteral
      ⟨state.position, (state.position.advance ['\'']).advance (Scan.charBody rest).text⟩
  | comment {split : Scan.Split} (takes : split.Takes state.rest) :
    Fails state (state.take split) .blockComment (state.spanOf split)

/-- What reading one piece of the text comes to. -/
inductive Reads (state : LexState) : LexStep → Prop
  | code {kind : Kind} {split : Scan.Split} {errors : List LexError} {after : LexState}
    (outside : ¬ InString state.modes) (takes : TakesCode state kind split errors after) :
    Reads state (after.yield kind split errors)
  | part {kind : Kind} {split : Scan.Split} {errors : List LexError} {after : LexState}
    (inside : InString state.modes) (takes : TakesPart state kind split errors after) :
    Reads state (after.yield kind split errors)
  | unexpected {c : Char} {rest : List Char} (outside : ¬ InString state.modes)
    (found : state.rest = c :: rest) :
    Reads state ([.error ⟨.unexpectedCharacter c, state.spanOf ⟨[c], rest⟩⟩], state.take ⟨[c], rest⟩)
  | ends (nothing : state.rest = []) (closed : state.openString? = none) : Reads state state.finish
  | fails {middle : LexState} {construct : Unterminated} {span : Span}
    (fails : Fails state middle construct span) : Reads state (middle.fail construct span)

theorem Fails.modes {state middle : LexState} {construct : Unterminated} {span : Span}
    (fails : Fails state middle construct span) : middle.modes = state.modes := by
  cases fails <;> rfl

theorem reads_finish {state : LexState} (nothing : state.rest = []) : Reads state state.finish := by
  cases opened : state.openString? with
  | none => exact .ends nothing opened
  | some start =>
    unfold finish
    rw [opened]
    exact .fails (.string opened (Or.inl nothing))

theorem reads_characterLiteral {state : LexState} {rest : List Char}
    (outside : ¬ InString state.modes) (found : state.rest = '\'' :: rest) :
    Reads state (state.characterLiteral rest) := by
  by_cases closes : ∃ after, (Scan.charBody rest).rest = '\'' :: after
  · obtain ⟨after, closed⟩ := closes
    rw [characterLiteral_of_closed closed]
    rcases state.closedLiteral_eq (literalSplit rest after) (state.literalValue rest).1
      (state.literalValue rest).2 with ⟨c, single, result⟩ | ⟨fault, result⟩
    · exact result ▸ .code outside (.character found closed single)
    · exact result ▸ .code outside (.wrongCharacter fault found closed)
  · have unclosed : ∀ after, (Scan.charBody rest).rest ≠ '\'' :: after :=
      fun after closed => closes ⟨after, closed⟩
    rw [characterLiteral_of_open unclosed]
    exact .fails (.character found unclosed)

theorem reads_plainToken {state : LexState} {c : Char} {rest : List Char}
    (outside : ¬ InString state.modes) (found : state.rest = c :: rest) :
    Reads state (state.plainToken c rest) := by
  unfold plainToken
  dsimp only
  rw [← found]
  split
  next number isNumber => exact .code outside (.number isNumber)
  next noNumber =>
    split
    next word isWord => exact .code outside (.word noNumber isWord)
    next noWord =>
      split
      next symbol isSymbol => exact .code outside (.symbol noNumber noWord isSymbol)
      next => exact .unexpected outside found

theorem reads_codeToken {state : LexState} (outside : ¬ InString state.modes) :
    Reads state state.codeToken := by
  unfold codeToken
  split
  next nothing => exact reads_finish nothing
  next found => exact .fails (.comment ⟨List.cons_ne_nil _ _, found ▸ List.append_nil _⟩)
  next found => exact .code outside (.stringStart found.symm (Or.inl rfl))
  next found => exact .code outside (.stringStart found.symm (Or.inr rfl))
  next found => exact reads_characterLiteral outside found
  next found => exact reads_plainToken outside found

theorem reads_stringPart {state : LexState} {start : Position} {outer : List LexMode}
    (modes : state.modes = .string start :: outer) : Reads state (state.stringPart start) := by
  have inside : InString state.modes := ⟨start, outer, modes⟩
  unfold stringPart
  split
  next found => exact .part inside (.stringEnd found)
  next found => exact .part inside (.interpolationStart found)
  next noEnd noInterpolation =>
    dsimp only
    split
    next nothing =>
      have stops := Scan.atStop_of_stringBody nothing
      refine .fails (.string ?_ (stops.lineFeed noEnd noInterpolation))
      rw [openString?, modes]
      rfl
    next nonempty => exact .part inside (.fragment nonempty)

/-! ## What pieces have in common -/

section

variable {state after : LexState} {kind : Kind} {split : Scan.Split} {errors : List LexError}

theorem takes_literalSplit {rest others : List Char}
    (closed : (Scan.charBody rest).rest = '\'' :: others) :
    (literalSplit rest others).Takes ('\'' :: rest) := by
  refine ⟨List.cons_ne_nil _ _, ?_⟩
  have body := Scan.of_charBody rest
  unfold Scan.Split.Of at body
  rw [closed] at body
  simpa [Scan.Split.Of, literalSplit] using body

/-- A symbol changes what the text is inside of and the brackets, and nothing else. -/
theorem bracket_cases (state : LexState) (symbol : Symbol) :
    (state.bracket symbol).1.isStructural = false ∧
      (state.bracket symbol).2 = { state with
        modes := (state.bracket symbol).2.modes
        layout := { state.layout with
          brackets := (state.bracket symbol).1.bracketsAfter state.layout.brackets } } := by
  obtain ⟨rest, position, modes, layout, atLineStart, lastKind, finished, endedAtLineBreak⟩ := state
  cases symbol with
  | leftCurly => exact ⟨rfl, rfl⟩
  | rightCurly =>
    rcases modes with _ | ⟨_ | ⟨_ | braces⟩, outer⟩
    · exact ⟨rfl, rfl⟩
    · exact ⟨rfl, rfl⟩
    · exact ⟨rfl, rfl⟩
    · exact ⟨rfl, rfl⟩
  | _ => exact ⟨rfl, rfl⟩

/-- A piece that is taken as a token: some of the text, with nothing changed but what the text is
inside of and the brackets, which the kind of the token tells. -/
structure IsPiece (state : LexState) (kind : Kind) (split : Scan.Split) (after : LexState) :
    Prop where
  takes : split.Takes state.rest
  structural : kind.isStructural = false
  frame : after = { state with
    modes := after.modes
    layout := { state.layout with brackets := kind.bracketsAfter state.layout.brackets } }

theorem IsPiece.brackets (piece : IsPiece state kind split after) :
    after.layout.brackets = kind.bracketsAfter state.layout.brackets := by
  rw [piece.frame]

theorem IsPiece.finished (piece : IsPiece state kind split after) :
    after.finished = state.finished := by
  rw [piece.frame]

theorem isPiece_of_isPlain (takes : split.Takes state.rest) (plain : kind.IsPlain) :
    IsPiece state kind split state := by
  refine ⟨takes, plain.structural, ?_⟩
  rw [plain.brackets]

theorem TakesCode.isPiece (takes : TakesCode state kind split errors after) :
    IsPiece state kind split after := by
  have plainChar : ∀ c, (Kind.char c).IsPlain := fun _ => ⟨rfl, rfl, fun _ => rfl⟩
  cases takes with
  | stringStart splitOf spelled =>
    refine ⟨⟨?_, splitOf⟩, rfl, rfl⟩
    rcases spelled with spelled | spelled
    · exact spelled ▸ List.cons_ne_nil _ _
    · exact spelled ▸ List.cons_ne_nil _ _
  | character found closed _ =>
    exact isPiece_of_isPlain (found ▸ takes_literalSplit closed) (plainChar _)
  | wrongCharacter _ found closed =>
    exact isPiece_of_isPlain (found ▸ takes_literalSplit closed) (plainChar _)
  | number found => exact isPiece_of_isPlain (Scan.takes_of_numeral? found) (Kind.isPlain_evaluate _)
  | word _ found =>
    have takes := Scan.takes_of_word? found
    obtain ⟨split, _, rfl⟩ := Option.map_eq_some_iff.mp found
    exact isPiece_of_isPlain takes (Kind.isPlain_ofWord _)
  | symbol _ _ found =>
    obtain ⟨structural, frame⟩ := bracket_cases state _
    exact ⟨Scan.takes_of_symbol? found, structural, frame⟩

theorem TakesPart.isPiece (takes : TakesPart state kind split errors after) :
    IsPiece state kind split after := by
  cases takes with
  | stringEnd found => exact ⟨⟨List.cons_ne_nil _ _, found.symm⟩, rfl, rfl⟩
  | interpolationStart found => exact ⟨⟨List.cons_ne_nil _ _, found.symm⟩, rfl, rfl⟩
  | fragment nonempty =>
    exact ⟨⟨stringBody_text_ne_nil nonempty, Scan.of_stringBody state.rest⟩, rfl, rfl⟩

end

/-! ## Steps -/

/-- The state in which a line starts: outside of brackets either no code was taken yet, or a line
break is next. -/
inductive LineStarts (state : LexState) : LexState → Prop
  | here (atStart : state.atLineStart = true) : LineStarts state state
  | next {lineBreak : Scan.Split} (notAtStart : state.atLineStart = false)
    (found : Scan.lineBreak? (Scan.trivia state.rest).rest = some lineBreak) :
    LineStarts state (state.nextLine lineBreak)

/-- The state in which the first token of a line is read, behind its indentation. -/
def atCode (line : LexState) : LexState :=
  line.pastBlank.indentation.2.take (Scan.trivia line.pastBlank.indentation.2.rest)

/-- All that a step can be. -/
inductive Stepped (state : LexState) : LexStep → Prop
  | inString {step : LexStep} (inside : InString state.modes) (reads : Reads state step) :
    Stepped state step
  | inBrackets {step : LexStep} (outside : ¬ InString state.modes)
    (brackets : state.layout.inBrackets = true)
    (reads : Reads (state.take (Scan.wrapped state.rest)) step) : Stepped state step
  | inLine {step : LexStep} (outside : ¬ InString state.modes)
    (noBrackets : state.layout.inBrackets = false) (notAtStart : state.atLineStart = false)
    (missing : Scan.lineBreak? (Scan.trivia state.rest).rest = none)
    (reads : Reads (state.take (Scan.trivia state.rest)) step) : Stepped state step
  | blank {line : LexState} (outside : ¬ InString state.modes)
    (noBrackets : state.layout.inBrackets = false) (starts : LineStarts state line)
    (reads : Reads line.pastBlank line.pastBlank.finish) : Stepped state line.pastBlank.finish
  | line {line : LexState} {step : LexStep} (outside : ¬ InString state.modes)
    (noBrackets : state.layout.inBrackets = false) (starts : LineStarts state line)
    (something : line.pastBlank.rest ≠ []) (reads : Reads line.atCode step) :
    Stepped state (line.pastBlank.indentation.1 ++ step.1, step.2)

theorem LineStarts.modes {state line : LexState} (starts : LineStarts state line) :
    line.modes = state.modes := by
  cases starts <;> rfl

theorem LineStarts.finished {state line : LexState} (starts : LineStarts state line) :
    line.finished = state.finished := by
  cases starts <;> rfl

theorem stepped_lineStart {state line : LexState} (outside : ¬ InString state.modes)
    (noBrackets : state.layout.inBrackets = false) (starts : LineStarts state line) :
    Stepped state line.lineStart := by
  by_cases nothing : line.pastBlank.rest = []
  · rw [lineStart_of_blank nothing]
    exact .blank outside noBrackets starts (reads_finish nothing)
  · have outsideLine : ¬ InString line.atCode.modes := by
      change ¬ InString line.modes
      rw [starts.modes]
      exact outside
    rw [lineStart_of_code nothing]
    exact .line outside noBrackets starts nothing (reads_codeToken outsideLine)

theorem stepped (state : LexState) : Stepped state state.step := by
  by_cases inside : InString state.modes
  · obtain ⟨start, outer, modes⟩ := inside
    rw [step_of_string modes]
    exact .inString ⟨start, outer, modes⟩ (reads_stringPart modes)
  · rw [step_of_code inside]
    cases brackets : state.layout.inBrackets with
    | true =>
      rw [code_of_brackets brackets]
      exact .inBrackets inside brackets (reads_codeToken inside)
    | false =>
      cases atStart : state.atLineStart with
      | true =>
        rw [code_of_atLineStart brackets atStart]
        exact stepped_lineStart inside brackets (.here atStart)
      | false =>
        cases found : Scan.lineBreak? (Scan.trivia state.rest).rest with
        | none =>
          rw [code_of_inLine brackets atStart found]
          exact .inLine inside brackets atStart found (reads_codeToken inside)
        | some lineBreak =>
          rw [code_of_lineBreak brackets atStart found]
          exact stepped_lineStart inside brackets (.next atStart found)

end LexState

end Offside
