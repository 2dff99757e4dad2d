import Offside.Proofs.Lexer.Lines
import Offside.Proofs.Lexer.Placement
import Offside.Proofs.Parser.Ending
import Offside.Proofs.Scan.Extend

/-!
The steps of a lexer on a text that more text follows. Up to the end of a text that ends with a line
break, the steps do not depend on what follows. If its last line of code is ended there, they lead to
a state in front of a line, from which the lexer goes on with what follows.
-/

namespace Offside

open LexStream Text LexMode

namespace Position

/-- The place in a text that stands behind some lines. -/
def moved (bytes lines : Nat) (position : Position) : Position :=
  ⟨position.offset + bytes, position.line + lines, position.column⟩

/-- Behind a line break a line starts. -/
theorem exists_moved_of_endsLine (position : Position) {text : List Char} (ends : EndsLine text) :
    ∃ bytes lines, position.advance text = start.moved bytes lines := by
  obtain ⟨line, rfl, _⟩ := ends
  refine ⟨(position.advance line).offset + '\n'.utf8Size, (position.advance line).line, ?_⟩
  rw [advance_append, advance_cons, advance_nil, past, if_pos rfl, moved, start, Nat.zero_add,
    Nat.add_comm 1]

end Position

namespace Layout

/-- A layout behind the first line of a text: only the level of width zero is not listed. -/
structure Begun (tabWidth : Nat) (layout : Layout) : Prop where
  tabWidth : layout.tabWidth = tabWidth
  started : layout.started = true
  positive : ∀ level ∈ layout.levels, 0 < level

/-- What brackets and the end of a text do to a layout: no level is opened. -/
structure Keeps (before after : Layout) : Prop where
  tabWidth : after.tabWidth = before.tabWidth
  started : after.started = before.started
  levels : after.levels ⊆ before.levels

variable {before middle after : Layout} {tabWidth : Nat}

theorem Keeps.refl (layout : Layout) : Keeps layout layout :=
  ⟨rfl, rfl, fun _ => id⟩

theorem Keeps.of_brackets (layout : Layout) (brackets : Nat) : Keeps layout { layout with brackets } :=
  ⟨rfl, rfl, fun _ => id⟩

theorem Keeps.trans (earlier : Keeps before middle) (later : Keeps middle after) :
    Keeps before after :=
  ⟨later.tabWidth.trans earlier.tabWidth, later.started.trans earlier.started,
    fun _ member => earlier.levels (later.levels member)⟩

theorem Keeps.begun (keeps : Keeps before after) (begun : Begun tabWidth before) :
    Begun tabWidth after :=
  ⟨keeps.tabWidth.trans begun.tabWidth, keeps.started.trans begun.started,
    fun level member => begun.positive level (keeps.levels member)⟩

/-- Behind a line of code the layout has begun. -/
theorem begun_line {layout : Layout} (sameWidth : layout.tabWidth = tabWidth)
    (positive : ∀ level ∈ layout.levels, 0 < level) (width : Nat) :
    Begun tabWidth (layout.line width).2 := by
  unfold line
  split
  next => exact ⟨sameWidth, rfl, positive⟩
  next =>
    split
    next deeper =>
      refine ⟨sameWidth, rfl, fun level member => ?_⟩
      rcases List.mem_cons.mp member with rfl | isOuter
      · exact Nat.zero_lt_of_lt deeper
      · exact positive level isOuter
    next =>
      have closed : ∀ level ∈ closeAbove width layout.levels, 0 < level := fun level member =>
        positive level ((List.dropWhile_sublist _).mem member)
      dsimp only
      split
      next => exact ⟨sameWidth, rfl, closed⟩
      next => exact ⟨sameWidth, rfl, closed⟩

end Layout

namespace LexState

/-- The state with more text behind the rest. -/
def append (more : List Char) (state : LexState) : LexState :=
  { state with rest := state.rest ++ more }

end LexState

/-- A step that leaves more text behind the rest. -/
def LexStep.append (more : List Char) (step : LexStep) : LexStep :=
  (step.1, step.2.append more)

namespace LexState

variable {state : LexState} {tabWidth : Nat} (more : List Char)

theorem append_nil (state : LexState) : state.append [] = state := by
  rw [append, List.append_nil]

/-! ## Single steps -/

theorem stringPart_of_fragment {start : Position} (noQuote : ∀ rest, state.rest ≠ '"' :: rest)
    (noBrace : ∀ rest, state.rest ≠ '\x7b' :: rest) :
    state.stringPart start =
      if (Scan.stringBody state.rest).value = [] then
        state.fail .stringLiteral ⟨start, state.position⟩
      else
        state.yield (.stringFragment
            (String.ofList (decode state.position (Scan.stringBody state.rest).value).1))
          (Scan.stringBody state.rest).toSplit
          (decode state.position (Scan.stringBody state.rest).value).2 := by
  unfold stringPart
  split
  next found => exact absurd found (noQuote _)
  next found => exact absurd found (noBrace _)
  next => rfl

theorem stringPart_append (start : Position) (ends : EndsLine state.rest) :
    (state.append more).stringPart start = LexStep.append more (state.stringPart start) := by
  obtain ⟨rest, position, modes, layout, atLineStart, lastKind, finished, endedAtLineBreak⟩ := state
  obtain ⟨c, others, rfl⟩ := EndsLine.exists_cons ends
  by_cases quote : c = '"'
  · subst quote
    rfl
  · by_cases brace : c = '\x7b'
    · subst brace
      rfl
    · rw [stringPart_of_fragment, stringPart_of_fragment, append]
      · rw [(Scan.stringBody_extend more ends).1]
        by_cases nothing : (Scan.stringBody (c :: others)).value = []
        · simp only [Scan.Scanned.extend, nothing, ↓reduceIte]
          rfl
        · simp only [Scan.Scanned.extend, nothing, ↓reduceIte]
          rfl
      · exact fun rest found => quote (List.cons.inj found).1
      · exact fun rest found => brace (List.cons.inj found).1
      · exact fun rest found => quote (List.cons.inj found).1
      · exact fun rest found => brace (List.cons.inj found).1

/-- Without a closing quote there is no character literal. -/
theorem characterLiteral_of_open {rest : List Char}
    (noQuote : ∀ after, (Scan.charBody rest).rest ≠ '\'' :: after) :
    state.characterLiteral rest = state.fail .characterLiteral
      ⟨state.position, (state.position.advance ['\'']).advance (Scan.charBody rest).text⟩ := by
  unfold characterLiteral
  dsimp only
  split
  next found => exact absurd found (noQuote _)
  next => rfl

/-- What a character literal that is closed comes to, by what its inside stands for. -/
def closedLiteral (state : LexState) (split : Scan.Split) (value : List Char)
    (errors : List LexError) : LexStep :=
  let invalid (fault : CharacterFault) : LexStep :=
    state.yield (.char '\ufffd') split
      (errors ++ [⟨.invalidCharacter (String.ofList split.text) fault, state.spanOf split⟩])
  match value with
  | [c] => state.yield (.char c) split errors
  | [] => invalid .empty
  | _ => invalid .several

theorem characterLiteral_of_closed {rest after : List Char}
    (closed : (Scan.charBody rest).rest = '\'' :: after) :
    state.characterLiteral rest =
      state.closedLiteral ⟨'\'' :: (Scan.charBody rest).text ++ ['\''], after⟩
        (decode (state.position.advance ['\'']) (Scan.charBody rest).value).1
        (decode (state.position.advance ['\'']) (Scan.charBody rest).value).2 := by
  unfold characterLiteral
  dsimp only
  split
  next others found =>
    obtain ⟨-, rfl⟩ := List.cons.inj (closed.symm.trans found)
    rfl
  next noQuote => exact absurd closed (noQuote after)

/-- A closed literal is a character, or an error and the replacement character. -/
theorem closedLiteral_eq (state : LexState) (split : Scan.Split) (value : List Char)
    (errors : List LexError) :
    (∃ c, value = [c] ∧ state.closedLiteral split value errors = state.yield (.char c) split errors) ∨
      ∃ fault, state.closedLiteral split value errors = state.yield (.char '\ufffd') split
        (errors ++ [⟨.invalidCharacter (String.ofList split.text) fault, state.spanOf split⟩]) := by
  rcases value with _ | ⟨c, _ | ⟨other, others⟩⟩
  · exact Or.inr ⟨.empty, rfl⟩
  · exact Or.inl ⟨c, rfl, rfl⟩
  · exact Or.inr ⟨.several, rfl⟩

theorem closedLiteral_append (state : LexState) (split : Scan.Split) (value : List Char)
    (errors : List LexError) :
    (state.append more).closedLiteral (split.extend more) value errors =
      LexStep.append more (state.closedLiteral split value errors) := by
  rcases value with _ | ⟨c, _ | ⟨other, others⟩⟩
  · rfl
  · rfl
  · rfl

theorem characterLiteral_append {rest : List Char} (ends : EndsLine rest) :
    (state.append more).characterLiteral (rest ++ more) =
      LexStep.append more (state.characterLiteral rest) := by
  obtain ⟨same, endsBody⟩ := Scan.charBody_extend more ends
  obtain ⟨c, others, found⟩ := EndsLine.exists_cons endsBody
  by_cases quote : c = '\''
  · subst quote
    have foundLonger : (Scan.charBody (rest ++ more)).rest = '\'' :: (others ++ more) := by
      rw [same, Scan.Scanned.extend, found, List.cons_append]
    rw [characterLiteral_of_closed found, characterLiteral_of_closed foundLonger, same,
      ← closedLiteral_append]
    rfl
  · have noQuote : ∀ after, (Scan.charBody rest).rest ≠ '\'' :: after := by
      intro after closed
      rw [found] at closed
      exact quote (List.cons.inj closed).1
    have noQuoteLonger : ∀ after, (Scan.charBody (rest ++ more)).rest ≠ '\'' :: after := by
      intro after closed
      rw [same, Scan.Scanned.extend, found] at closed
      exact quote (List.cons.inj closed).1
    rw [characterLiteral_of_open noQuote, characterLiteral_of_open noQuoteLonger, same]
    rfl

theorem bracket_append (state : LexState) (symbol : Symbol) :
    (state.append more).bracket symbol =
      ((state.bracket symbol).1, (state.bracket symbol).2.append more) := by
  cases symbol with
  | rightCurly =>
    obtain ⟨rest, position, modes, layout, atLineStart, lastKind, finished, endedAtLineBreak⟩ := state
    rcases modes with _ | ⟨_ | ⟨_ | braces⟩, outer⟩
    · rfl
    · rfl
    · rfl
    · rfl
  | _ => rfl

theorem plainToken_append {c : Char} {rest : List Char} (ends : EndsLine (c :: rest)) :
    (state.append more).plainToken c (rest ++ more) = LexStep.append more (state.plainToken c rest) := by
  have sameNumber := Scan.numeral?_extend more state.atOperand ends
  have sameWord := Scan.word?_extend more ends
  have sameSymbol := Scan.symbol?_extend more ends
  have sameOperand : (state.append more).atOperand = state.atOperand := rfl
  rw [List.cons_append] at sameNumber sameWord sameSymbol
  simp only [plainToken, sameOperand, sameNumber, sameWord, sameSymbol]
  cases Scan.numeral? state.atOperand (c :: rest) with
  | some number => rfl
  | none =>
    cases Scan.word? (c :: rest) with
    | some word => rfl
    | none =>
      cases Scan.symbol? (c :: rest) with
      | some symbol =>
        simp only [Option.map_none, Option.map_some, Scan.Scanned.extend, bracket_append]
        rfl
      | none => rfl

/-- Where neither a comment nor a literal in quotes starts, there is a plain token. -/
theorem codeToken_of_plain {c : Char} {rest : List Char} (found : state.rest = c :: rest)
    (closed : Scan.NoBlock state.rest) (noString : c ≠ '"') (noCharacter : c ≠ '\'')
    (noDollar : c = '$' → rest.head? ≠ some '"') : state.codeToken = state.plainToken c rest := by
  unfold codeToken
  split
  next nothing =>
    rw [found] at nothing
    contradiction
  next opens => exact absurd opens (closed _)
  next opens =>
    rw [found] at opens
    exact absurd (List.cons.inj opens).1 noString
  next opens =>
    rw [found] at opens
    obtain ⟨rfl, rfl⟩ := List.cons.inj opens
    exact absurd rfl (noDollar rfl)
  next opens =>
    rw [found] at opens
    exact absurd (List.cons.inj opens).1 noCharacter
  next same =>
    rw [found] at same
    obtain ⟨rfl, rfl⟩ := List.cons.inj same
    rfl

theorem codeToken_append (ends : EndsLine state.rest) (closed : Scan.NoBlock state.rest) :
    (state.append more).codeToken = LexStep.append more state.codeToken := by
  obtain ⟨rest, position, modes, layout, atLineStart, lastKind, finished, endedAtLineBreak⟩ := state
  obtain ⟨c, rest, rfl⟩ := EndsLine.exists_cons ends
  have closedLonger : Scan.NoBlock (c :: rest ++ more) := by
    intro others opens
    obtain ⟨rfl, whole⟩ := List.cons.inj opens
    obtain ⟨next, rest, rfl⟩ := EndsLine.exists_cons (EndsLine.tail ends (by decide))
    obtain ⟨rfl, _⟩ := List.cons.inj whole
    exact closed rest rfl
  by_cases quotes : c = '"'
  · subst quotes
    rfl
  · by_cases quote : c = '\''
    · subst quote
      exact characterLiteral_append more (EndsLine.tail ends (by decide))
    · by_cases dollar : c = '$' ∧ rest.head? = some '"'
      · obtain ⟨rfl, opens⟩ := dollar
        cases rest with
        | nil => contradiction
        | cons next rest =>
          obtain rfl := Option.some.inj opens
          rfl
      · have noDollar : c = '$' → rest.head? ≠ some '"' := fun isDollar opens =>
          dollar ⟨isDollar, opens⟩
        have noDollarLonger : c = '$' → (rest ++ more).head? ≠ some '"' := by
          rintro rfl
          obtain ⟨next, rest, rfl⟩ := EndsLine.exists_cons (EndsLine.tail ends (by decide))
          exact noDollar rfl
        rw [codeToken_of_plain rfl closed quotes quote noDollar, ← plainToken_append more ends]
        exact @codeToken_of_plain (append more _) c (rest ++ more) rfl closedLonger quotes quote
          noDollarLonger

theorem indentation_append (ends : EndsLine state.rest) :
    (state.append more).indentation = LexStep.append more state.indentation ∧
      EndsLine state.indentation.2.rest := by
  obtain ⟨same, endsLead⟩ := Scan.leading_extend more ends
  refine ⟨?_, endsLead⟩
  unfold indentation
  simp only [append, same]
  rfl

theorem finished_finish (state : LexState) : state.finish.2.finished = true := by
  unfold finish
  split <;> rfl

/-- A token that does not end the tokens is neither at the end of the text nor in a block comment
that is never closed. -/
theorem code_of_running (running : state.codeToken.2.finished = false) :
    state.rest ≠ [] ∧ Scan.NoBlock state.rest := by
  refine ⟨fun nothing => ?_, fun rest opens => ?_⟩
  · have ends : state.codeToken = state.finish := by
      rw [codeToken, nothing]
    rw [ends, finished_finish] at running
    contradiction
  · unfold codeToken at running
    rw [opens] at running
    contradiction

/-- The next token of code on the same line. -/
def inLine (state : LexState) : LexStep :=
  (state.take (Scan.trivia state.rest)).codeToken

theorem inLine_append (ends : EndsLine state.rest) (running : state.inLine.2.finished = false) :
    (state.append more).inLine = LexStep.append more state.inLine := by
  obtain ⟨something, closed⟩ := code_of_running running
  obtain ⟨same, endsCode⟩ := Scan.trivia_extend more ends closed
  rw [inLine, append, same]
  exact @codeToken_append (state.take (Scan.trivia state.rest)) more endsCode closed

/-- The next token of code inside of brackets. -/
def inBrackets (state : LexState) : LexStep :=
  (state.take (Scan.wrapped state.rest)).codeToken

theorem inBrackets_append (ends : EndsLine state.rest)
    (running : state.inBrackets.2.finished = false) :
    (state.append more).inBrackets = LexStep.append more state.inBrackets := by
  obtain ⟨something, closed⟩ := code_of_running running
  obtain ⟨same, endsCode⟩ := Scan.wrapped_extend more ends something closed
  rw [inBrackets, append, same]
  exact @codeToken_append (state.take (Scan.wrapped state.rest)) more endsCode closed

/-! ### Lines -/

/-- The state behind the lines without code. -/
def pastBlank (state : LexState) : LexState :=
  state.take (Scan.blankLines state.rest)

/-- A line of code is its layout and its first token. -/
theorem lineStart_of_code (something : state.pastBlank.rest ≠ []) :
    state.lineStart = (state.pastBlank.indentation.1 ++ state.pastBlank.indentation.2.inLine.1,
      state.pastBlank.indentation.2.inLine.2) := by
  unfold lineStart
  exact if_neg something

theorem lineStart_of_blank (nothing : state.pastBlank.rest = []) :
    state.lineStart = state.pastBlank.finish := by
  unfold lineStart
  exact if_pos nothing

theorem lineStart_append (ends : EndsLine state.rest)
    (running : state.lineStart.2.finished = false) :
    (state.append more).lineStart = LexStep.append more state.lineStart := by
  have something : state.pastBlank.rest ≠ [] := by
    intro nothing
    rw [lineStart_of_blank nothing, finished_finish] at running
    contradiction
  rw [lineStart_of_code something] at running
  obtain ⟨same, endsCode⟩ := Scan.blankLines_extend more ends something (code_of_running running).2
  have past : (state.append more).pastBlank = state.pastBlank.append more := by
    rw [pastBlank, append, same]
    rfl
  have somethingLonger : (state.append more).pastBlank.rest ≠ [] := by
    rw [past]
    exact List.append_ne_nil_of_left_ne_nil something more
  obtain ⟨sameLayout, endsLayout⟩ := @indentation_append state.pastBlank more endsCode
  have sameLine := inLine_append more endsLayout running
  rw [lineStart_of_code something, lineStart_of_code somethingLonger, past, sameLayout]
  dsimp only [LexStep.append]
  rw [sameLine]
  rfl

/-- The state in front of the line behind a line break. -/
def nextLine (state : LexState) (lineBreak : Scan.Split) : LexState :=
  { (state.take (Scan.trivia state.rest)).take lineBreak with atLineStart := true }

theorem code_of_brackets (inside : state.layout.inBrackets = true) :
    state.code = state.inBrackets := by
  rw [code, if_pos inside]
  rfl

theorem code_of_atLineStart (outside : state.layout.inBrackets = false)
    (atStart : state.atLineStart = true) : state.code = state.lineStart := by
  rw [code, if_neg (by simp [outside]), if_pos atStart]

theorem code_of_inLine (outside : state.layout.inBrackets = false)
    (notAtStart : state.atLineStart = false)
    (missing : Scan.lineBreak? (Scan.trivia state.rest).rest = none) :
    state.code = state.inLine := by
  have none : Scan.lineBreak? (state.take (Scan.trivia state.rest)).rest = none := missing
  rw [code, if_neg (by simp [outside]), if_neg (by simp [notAtStart])]
  dsimp only
  rw [none]
  rfl

theorem code_of_lineBreak (outside : state.layout.inBrackets = false)
    (notAtStart : state.atLineStart = false) {lineBreak : Scan.Split}
    (found : Scan.lineBreak? (Scan.trivia state.rest).rest = some lineBreak) :
    state.code = (state.nextLine lineBreak).lineStart := by
  have some : Scan.lineBreak? (state.take (Scan.trivia state.rest)).rest = some lineBreak := found
  rw [code, if_neg (by simp [outside]), if_neg (by simp [notAtStart])]
  dsimp only
  rw [some]
  rfl

/-! ## What stays in a line -/

/-- What a token of code or a part of a string leaves as it is. -/
structure StaysInLine (before after : LexState) : Prop where
  rest : after.rest <:+ before.rest
  layout : before.layout.Keeps after.layout
  atLineStart : after.atLineStart = before.atLineStart
  unended : before.atLineStart = false → after.endedAtLineBreak = before.endedAtLineBreak

theorem StaysInLine.trans {before middle after : LexState} (earlier : StaysInLine before middle)
    (later : StaysInLine middle after) : StaysInLine before after :=
  ⟨later.rest.trans earlier.rest, earlier.layout.trans later.layout,
    later.atLineStart.trans earlier.atLineStart, fun notAtStart =>
      (later.unended (earlier.atLineStart.trans notAtStart)).trans (earlier.unended notAtStart)⟩

theorem staysInLine_of_modes (state : LexState) (modes : List LexMode) :
    StaysInLine state { state with modes } :=
  ⟨List.suffix_rfl, .refl _, rfl, fun _ => rfl⟩

theorem staysInLine_take (state : LexState) {split : Scan.Split} (splitOf : split.Of state.rest) :
    StaysInLine state (state.take split) :=
  ⟨⟨split.text, splitOf⟩, .refl _, rfl, fun _ => rfl⟩

theorem staysInLine_yield (state : LexState) (kind : Kind) {split : Scan.Split}
    (errors : List LexError) (suffix : split.rest <:+ state.rest) :
    StaysInLine state (state.yield kind split errors).2 :=
  ⟨suffix, .refl _, rfl, fun _ => rfl⟩

theorem staysInLine_fail (state : LexState) (construct : Unterminated) (span : Span) :
    StaysInLine state (state.fail construct span).2 :=
  ⟨List.suffix_rfl, .refl _, rfl, fun _ => rfl⟩

theorem staysInLine_finish (state : LexState) (unended : state.endedAtLineBreak = false) :
    StaysInLine state state.finish.2 := by
  unfold finish
  split
  next => exact staysInLine_fail state _ _
  next =>
    refine ⟨List.suffix_rfl, ⟨rfl, rfl, List.nil_subset _⟩, rfl, fun notAtStart => ?_⟩
    dsimp only
    rw [notAtStart, unended]
    rfl

theorem suffix_of_of {split : Scan.Split} {input : List Char} (splitOf : split.Of input) :
    split.rest <:+ input :=
  ⟨split.text, splitOf⟩

theorem staysInLine_stringPart (state : LexState) (start : Position) :
    StaysInLine state (state.stringPart start).2 := by
  unfold stringPart
  split
  next rest found =>
    refine (staysInLine_of_modes state _).trans (staysInLine_yield _ _ _ ?_)
    exact found ▸ List.suffix_cons _ rest
  next rest found =>
    exact ⟨found ▸ List.suffix_cons _ rest, .of_brackets _ _, rfl, fun _ => rfl⟩
  next =>
    dsimp only
    split
    next => exact staysInLine_fail state _ _
    next => exact staysInLine_yield state _ _ (suffix_of_of (Scan.of_stringBody state.rest))

theorem staysInLine_characterLiteral (state : LexState) {rest : List Char}
    (found : state.rest = '\'' :: rest) : StaysInLine state (state.characterLiteral rest).2 := by
  unfold characterLiteral
  dsimp only
  split
  next after bodyRest =>
    have suffix : after <:+ state.rest := by
      have body := suffix_of_of (Scan.of_charBody rest)
      rw [bodyRest] at body
      exact found ▸ ((List.suffix_cons _ after).trans body).trans (List.suffix_cons _ rest)
    have yielded := fun kind errors => @staysInLine_yield state kind
      ⟨'\'' :: (Scan.charBody rest).text ++ ['\''], after⟩ errors suffix
    generalize decode _ _ = decoded
    obtain ⟨value, errors⟩ := decoded
    rcases value with _ | ⟨c, _ | ⟨other, others⟩⟩
    · exact yielded _ _
    · exact yielded _ _
    · exact yielded _ _
  next => exact staysInLine_fail state _ _

theorem staysInLine_bracket (state : LexState) (symbol : Symbol) :
    StaysInLine state (state.bracket symbol).2 := by
  unfold bracket
  split
  case h_6 =>
    dsimp only
    split <;> exact ⟨List.suffix_rfl, .of_brackets _ _, rfl, fun _ => rfl⟩
  all_goals exact ⟨List.suffix_rfl, .of_brackets _ _, rfl, fun _ => rfl⟩

theorem staysInLine_plainToken (state : LexState) {c : Char} {rest : List Char}
    (found : state.rest = c :: rest) : StaysInLine state (state.plainToken c rest).2 := by
  unfold plainToken
  dsimp only
  split
  next number isNumber =>
    exact staysInLine_yield state _ _ (suffix_of_of (found ▸ (Scan.takes_of_numeral? isNumber).2))
  next =>
    split
    next word isWord =>
      exact staysInLine_yield state _ _ (suffix_of_of (found ▸ (Scan.takes_of_word? isWord).2))
    next =>
      split
      next symbol isSymbol =>
        refine (staysInLine_bracket state symbol.value).trans (staysInLine_yield _ _ _ ?_)
        rw [bracket_rest, found]
        exact suffix_of_of (Scan.takes_of_symbol? isSymbol).2
      next => exact ⟨found ▸ List.suffix_cons _ rest, .refl _, rfl, fun _ => rfl⟩

theorem staysInLine_codeToken (state : LexState) (unended : state.endedAtLineBreak = false) :
    StaysInLine state state.codeToken.2 := by
  unfold codeToken
  split
  next => exact staysInLine_finish state unended
  next rest found => exact ⟨List.nil_suffix, .refl _, rfl, fun _ => rfl⟩
  next rest found =>
    exact ⟨found ▸ List.suffix_cons _ rest, .refl _, rfl, fun _ => rfl⟩
  next rest found =>
    refine ⟨?_, .refl _, rfl, fun _ => rfl⟩
    exact found ▸ (List.suffix_cons _ rest).trans (List.suffix_cons _ _)
  next rest found => exact staysInLine_characterLiteral state found
  next found => exact staysInLine_plainToken state found

/-! ## Steps -/

theorem step_of_string {start : Position} {outer : List LexMode}
    (modes : state.modes = .string start :: outer) : state.step = state.stringPart start := by
  rw [step, modes]

theorem step_of_code (outside : ¬ InString state.modes) : state.step = state.code := by
  unfold step
  split
  next start outer modes => exact absurd ⟨start, outer, modes⟩ outside
  next => rfl

theorem nextLine_append (ends : EndsLine state.rest) {lineBreak : Scan.Split}
    (found : Scan.lineBreak? (Scan.trivia state.rest).rest = some lineBreak) :
    Scan.lineBreak? (Scan.trivia (state.append more).rest).rest =
        some (lineBreak.extend more) ∧
      (state.append more).nextLine (lineBreak.extend more) = (state.nextLine lineBreak).append more := by
  obtain ⟨same, endsGap⟩ := Scan.trivia_extend more ends (Scan.noBlock_of_lineBreak? found)
  refine ⟨?_, ?_⟩
  · rw [append, same, Scan.Split.extend, Scan.lineBreak?_extend more endsGap, found, Option.map_some]
  · rw [nextLine, append, same]
    rfl

theorem code_append (ends : EndsLine state.rest) (running : state.code.2.finished = false) :
    (state.append more).code = LexStep.append more state.code := by
  cases brackets : state.layout.inBrackets with
  | true =>
    have bracketsLonger : (state.append more).layout.inBrackets = true := brackets
    rw [code_of_brackets brackets] at running ⊢
    rw [code_of_brackets bracketsLonger]
    exact inBrackets_append more ends running
  | false =>
    have noBrackets : (state.append more).layout.inBrackets = false := brackets
    cases atStart : state.atLineStart with
    | true =>
      have atStartLonger : (state.append more).atLineStart = true := atStart
      rw [code_of_atLineStart brackets atStart] at running ⊢
      rw [code_of_atLineStart noBrackets atStartLonger]
      exact lineStart_append more ends running
    | false =>
      have notAtStart : (state.append more).atLineStart = false := atStart
      cases found : Scan.lineBreak? (Scan.trivia state.rest).rest with
      | none =>
        rw [code_of_inLine brackets atStart found] at running ⊢
        obtain ⟨same, endsCode⟩ := Scan.trivia_extend more ends (code_of_running running).2
        rw [code_of_inLine noBrackets notAtStart]
        · exact inLine_append more ends running
        · rw [append, same, Scan.Split.extend, Scan.lineBreak?_extend more endsCode, found,
            Option.map_none]
      | some lineBreak =>
        obtain ⟨foundLonger, same⟩ := nextLine_append more ends found
        rw [code_of_lineBreak brackets atStart found] at running ⊢
        rw [code_of_lineBreak noBrackets notAtStart foundLonger, same]
        refine lineStart_append more ?_ running
        have endsGap := (Scan.trivia_extend more ends (Scan.noBlock_of_lineBreak? found)).2
        refine Scan.endsLine_of_lineBreak? endsGap found fun nothing => ?_
        have noCode : (state.nextLine lineBreak).pastBlank.rest = [] := by
          change (Scan.blankLines lineBreak.rest).rest = []
          rw [nothing, @Scan.blankLines_of_nil [] (congrArg Scan.Split.rest Scan.trivia_nil)]
        rw [lineStart_of_blank noCode, finished_finish] at running
        contradiction

/-- A step that does not end the tokens does not depend on what follows the text. -/
theorem step_append (ends : EndsLine state.rest) (running : state.step.2.finished = false) :
    (state.append more).step = LexStep.append more state.step := by
  by_cases inString : InString state.modes
  · obtain ⟨start, outer, modes⟩ := inString
    have modesLonger : (state.append more).modes = .string start :: outer := modes
    rw [step_of_string modes, step_of_string modesLonger]
    exact stringPart_append more start ends
  · have outside : ¬ InString (state.append more).modes := inString
    rw [step_of_code inString] at running ⊢
    rw [step_of_code outside]
    exact code_append more ends running

/-! ## The end of the last line -/

/-- Some code was taken. -/
structure Begun (tabWidth : Nat) (state : LexState) : Prop where
  layout : state.layout.Begun tabWidth
  notAtStart : state.atLineStart = false
  unended : state.endedAtLineBreak = false

theorem StaysInLine.begun {before after : LexState} (stays : StaysInLine before after)
    (begun : Begun tabWidth before) : Begun tabWidth after :=
  ⟨stays.layout.begun begun.layout, stays.atLineStart.trans begun.notAtStart,
    (stays.unended begun.notAtStart).trans begun.unended⟩

/-- The first token of a line is behind its start. -/
theorem begun_lineStart (sameWidth : state.layout.tabWidth = tabWidth)
    (positive : ∀ level ∈ state.layout.levels, 0 < level)
    (unended : state.endedAtLineBreak = false) (something : state.pastBlank.rest ≠ []) :
    Begun tabWidth state.lineStart.2 ∧ state.lineStart.2.rest <:+ state.rest := by
  have begun : Begun tabWidth state.pastBlank.indentation.2 :=
    ⟨Layout.begun_line sameWidth positive _, rfl, unended⟩
  have stays : StaysInLine state.pastBlank.indentation.2
      state.pastBlank.indentation.2.inLine.2 :=
    (staysInLine_take _ (Scan.of_trivia _)).trans (staysInLine_codeToken _ unended)
  rw [lineStart_of_code something]
  refine ⟨stays.begun begun, stays.rest.trans ?_⟩
  exact (suffix_of_of (Scan.of_leading state.pastBlank.rest)).trans
    (suffix_of_of (Scan.of_blankLines state.rest))

/-- A step behind some code stays behind it, unless no code is left behind the line break. -/
theorem Begun.step_cases (begun : Begun tabWidth state) :
    (Begun tabWidth state.step.2 ∧ state.step.2.rest <:+ state.rest) ∨
      ∃ lineBreak, ¬ InString state.modes ∧ state.layout.inBrackets = false ∧
        Scan.lineBreak? (Scan.trivia state.rest).rest = some lineBreak ∧
        (state.nextLine lineBreak).pastBlank.rest = [] := by
  by_cases inString : InString state.modes
  · obtain ⟨start, outer, modes⟩ := inString
    have stays := staysInLine_stringPart state start
    rw [step_of_string modes]
    exact Or.inl ⟨stays.begun begun, stays.rest⟩
  · rw [step_of_code inString]
    cases brackets : state.layout.inBrackets with
    | true =>
      have stays : StaysInLine state state.inBrackets.2 :=
        (staysInLine_take _ (Scan.of_wrapped _)).trans (staysInLine_codeToken _ begun.unended)
      rw [code_of_brackets brackets]
      exact Or.inl ⟨stays.begun begun, stays.rest⟩
    | false =>
      cases found : Scan.lineBreak? (Scan.trivia state.rest).rest with
      | none =>
        have stays : StaysInLine state state.inLine.2 :=
          (staysInLine_take _ (Scan.of_trivia _)).trans (staysInLine_codeToken _ begun.unended)
        rw [code_of_inLine brackets begun.notAtStart found]
        exact Or.inl ⟨stays.begun begun, stays.rest⟩
      | some lineBreak =>
        by_cases nothing : (state.nextLine lineBreak).pastBlank.rest = []
        · exact Or.inr ⟨lineBreak, inString, rfl, rfl, nothing⟩
        · obtain ⟨later, suffix⟩ := @begun_lineStart (state.nextLine lineBreak) tabWidth
            begun.layout.tabWidth begun.layout.positive begun.unended nothing
          rw [code_of_lineBreak brackets begun.notAtStart found]
          refine Or.inl ⟨later, suffix.trans ?_⟩
          exact (suffix_of_of (Scan.takes_of_lineBreak? found).2).trans
            (suffix_of_of (Scan.of_trivia state.rest))

/-- The state behind a text whose last line of code is ended by a line break. -/
structure EndedLine (tabWidth : Nat) (state : LexState) : Prop where
  running : state.finished = false
  unended : state.endedAtLineBreak = false
  rest : state.rest = []
  outside : state.modes = []
  noBrackets : state.layout.inBrackets = false
  layout : state.layout.Begun tabWidth
  atLineStart : state.atLineStart = true
  hasCode : state.lastKind.isSome = true
  place : ∃ bytes lines, state.position = Position.start.moved bytes lines

theorem modes_eq_nil_of_openString? (stacked : Stacked state.modes)
    (closed : state.openString? = none) : state.modes = [] := by
  unfold openString? at closed
  generalize state.modes = modes at stacked closed
  cases stacked with
  | code => rfl
  | string start => contradiction
  | interpolation braces start => contradiction

/-- Lines without code go on behind the text. -/
theorem pastBlank_append (atEnd : state.rest = [] ∨ EndsLine state.rest)
    (nothing : state.pastBlank.rest = []) :
    (state.append more).pastBlank = (state.pastBlank.append more).pastBlank := by
  have whole : (Scan.blankLines state.rest).text = state.rest := by
    have splitOf := Scan.of_blankLines state.rest
    unfold Scan.Split.Of at splitOf
    rwa [show (Scan.blankLines state.rest).rest = [] from nothing, List.append_nil] at splitOf
  have later : Scan.blankLines (state.rest ++ more) = (Scan.blankLines more).after state.rest := by
    rcases atEnd with isNil | ends
    · rw [isNil]
      rfl
    · exact Scan.blankLines_extend_blank more ends nothing
  have rest : (state.pastBlank.append more).rest = more := by
    rw [append, nothing, List.nil_append]
  rw [pastBlank, append, later, pastBlank, rest, take, take, append, pastBlank, take, whole,
    Scan.Split.after, Position.advance_append]

theorem lineStart_of_pastBlank {other : LexState} (same : state.pastBlank = other.pastBlank) :
    state.lineStart = other.lineStart := by
  unfold pastBlank at same
  rw [lineStart, lineStart, same]

/-- A text whose last line of code is ended goes on with the lines that follow it. -/
theorem Begun.ends (begun : Begun tabWidth state) (stacked : Stacked state.modes)
    (running : state.finished = false) (ends : EndsLine state.rest)
    (ended : state.step.2.endedAtLineBreak = true) :
    ∃ line, EndedLine tabWidth line ∧ state.position ≤ line.position ∧
      ∀ more, (state.append more).step = (line.append more).step := by
  rcases begun.step_cases with ⟨later, _⟩ | ⟨lineBreak, inString, brackets, found, nothing⟩
  · rw [later.unended] at ended
    contradiction
  · have endsGap := (Scan.trivia_extend [] ends (Scan.noBlock_of_lineBreak? found)).2
    rw [step_of_code inString, code_of_lineBreak brackets begun.notAtStart found,
      lineStart_of_blank nothing, finish] at ended
    split at ended
    next =>
      rw [fail, show (state.nextLine lineBreak).pastBlank.endedAtLineBreak = false
        from begun.unended] at ended
      contradiction
    next closed =>
      have hasCode : state.lastKind.isSome = true := ended
      have outside : state.modes = [] := modes_eq_nil_of_openString? stacked closed
      have taken := (Scan.takes_of_lineBreak? found).2
      have whole : (Scan.blankLines lineBreak.rest).text = lineBreak.rest := by
        have splitOf := Scan.of_blankLines lineBreak.rest
        unfold Scan.Split.Of at splitOf
        rwa [show (Scan.blankLines lineBreak.rest).rest = [] from nothing, List.append_nil] at splitOf
      have position : (state.nextLine lineBreak).pastBlank.position =
          state.position.advance state.rest := by
        have gap := Scan.of_trivia state.rest
        unfold Scan.Split.Of at gap taken
        rw [← gap, ← taken, Position.advance_append, Position.advance_append]
        exact congrArg _ whole
      refine ⟨(state.nextLine lineBreak).pastBlank,
        ⟨running, begun.unended, nothing, outside, brackets, begun.layout, rfl, hasCode, ?_⟩, ?_,
        fun more => ?_⟩
      · rw [position]
        exact Position.exists_moved_of_endsLine _ ends
      · rw [position]
        exact Position.le_advance _ _
      · obtain ⟨foundLonger, same⟩ := nextLine_append more ends found
        have atEnd : (state.nextLine lineBreak).rest = [] ∨ EndsLine (state.nextLine lineBreak).rest := by
          by_cases isNil : lineBreak.rest = []
          · exact Or.inl isNil
          · exact Or.inr (Scan.endsLine_of_lineBreak? endsGap found isNil)
        have notInString : ¬ InString ((state.nextLine lineBreak).pastBlank.append more).modes :=
          inString
        have noBrackets : ((state.nextLine lineBreak).pastBlank.append more).layout.inBrackets = false :=
          brackets
        rw [@step_of_code (state.append more) inString, step_of_code notInString,
          @code_of_lineBreak (state.append more) brackets begun.notAtStart _ foundLonger,
          code_of_atLineStart noBrackets rfl, same]
        exact lineStart_of_pastBlank (pastBlank_append more atEnd nothing)

/-! ## Whole texts -/

/-- The lexer after all items from a state on. -/
def final (cancelled : Bool) (state : LexState) : Lexer :=
  Lexer.drained cancelled ⟨state, []⟩

theorem drained_eq_final (cancelled : Bool) (state : LexState) (pending : List LexItem) :
    Lexer.drained cancelled ⟨state, pending⟩ = state.final cancelled := by
  induction pending with
  | nil => rfl
  | cons item pending inductionHypothesis =>
    rw [Lexer.drained_of_next? (Lexer.next?_cons cancelled state item pending), inductionHypothesis]

theorem final_of_finished (cancelled : Bool) (finished : state.finished = true) :
    state.final cancelled = ⟨state, []⟩ :=
  Lexer.drained_of_next?_eq_none (Lexer.next?_of_finished cancelled finished)

theorem final_of_running (cancelled : Bool) (running : state.finished = false) :
    state.final cancelled = (state.proceed cancelled).2.final cancelled := by
  obtain ⟨item, pending, _, found⟩ := Lexer.next?_of_running cancelled running
  rw [final, Lexer.drained_of_next? found, drained_eq_final]

/-- From one state the lexer comes to another behind some items, whatever more follows. -/
structure LeadsTo (state : LexState) (items : List LexItem) (line : LexState) : Prop where
  moved : state.position ≤ line.position
  before : ∀ token ∈ tokens items, token.span.first < line.position
  stream : ∀ more, (state.append more).stream false = items ++ (line.append more).stream false
  final : ∀ more, (state.append more).final false = (line.append more).final false

theorem LeadsTo.of_step {items : List LexItem} {line : LexState} (running : state.finished = false)
    (goesOn : state.step.2.finished = false) (ends : EndsLine state.rest)
    (later : LeadsTo state.step.2 items line) : LeadsTo state (state.step.1 ++ items) line := by
  have placed := (placed_step state).1
  refine ⟨Position.le_trans placed.moved later.moved, ?_, fun more => ?_, fun more => ?_⟩
  · intro token member
    rw [tokens_append] at member
    rcases List.mem_append.mp member with inStep | inItems
    · exact Position.lt_of_lt_of_le (placed.upper goesOn token inStep) later.moved
    · exact later.before token inItems
  · have proceeds : (state.append more).proceed false = LexStep.append more state.step :=
      step_append more ends goesOn
    rw [@stream_of_running false (state.append more) running, proceeds, List.append_assoc,
      ← later.stream more]
    rfl
  · have proceeds : (state.append more).proceed false = LexStep.append more state.step :=
      step_append more ends goesOn
    rw [@final_of_running (state.append more) false running, proceeds, ← later.final more]
    rfl

theorem LeadsTo.of_same_step {line : LexState} (running : state.finished = false)
    (lineRunning : line.finished = false) (moved : state.position ≤ line.position)
    (same : ∀ more, (state.append more).step = (line.append more).step) : LeadsTo state [] line := by
  refine ⟨moved, fun _ member => absurd member List.not_mem_nil, fun more => ?_, fun more => ?_⟩
  · rw [@stream_of_running false (state.append more) running,
      @stream_of_running false (line.append more) lineRunning]
    rw [show (state.append more).proceed false = _ from same more]
    rfl
  · rw [@final_of_running (state.append more) false running,
      @final_of_running (line.append more) false lineRunning]
    rw [show (state.append more).proceed false = _ from same more]
    rfl

/-- Code at the very end of a text is not ended. -/
theorem Begun.unended_of_nil (begun : Begun tabWidth state) (running : state.finished = false)
    (nothing : state.rest = []) : (state.final false).endedAtLineBreak = false := by
  rcases begun.step_cases with ⟨later, _⟩ | ⟨lineBreak, _, _, found, _⟩
  · have finished : (state.proceed false).2.finished = true := by
      refine state.advances_step.resolve_right fun shorter => ?_
      rw [nothing] at shorter
      exact absurd shorter (Nat.not_lt_zero _)
    rw [final_of_running false running, final_of_finished false finished]
    exact later.unended
  · rw [nothing, Scan.trivia_nil] at found
    contradiction

/-- Behind some code the lexer comes to the end of the last line. -/
theorem Begun.leadsTo {state : LexState} (begun : Begun tabWidth state) (stacked : Stacked state.modes)
    (running : state.finished = false) (ends : EndsLine state.rest)
    (ended : (state.final false).endedAtLineBreak = true) :
    ∃ items line, EndedLine tabWidth line ∧ LeadsTo state items line := by
  have proceeds : state.proceed false = state.step := rfl
  have stackedLater : Stacked state.step.2.modes := (quoted_step stacked).stacked
  have fewer : state.step.2.remaining < state.remaining :=
    remaining_lt_of_advances running state.advances_step
  rw [final_of_running false running, proceeds] at ended
  cases goesOn : state.step.2.finished with
  | true =>
    rw [final_of_finished false goesOn] at ended
    obtain ⟨line, endedLine, moved, same⟩ := begun.ends stacked running ends ended
    exact ⟨[], line, endedLine, .of_same_step running endedLine.running moved same⟩
  | false =>
    rcases begun.step_cases with ⟨later, suffix⟩ | ⟨lineBreak, inString, brackets, found, nothing⟩
    · have more : state.step.2.rest ≠ [] := by
        intro nothing
        rw [later.unended_of_nil goesOn nothing] at ended
        contradiction
      obtain ⟨items, line, endedLine, leadsTo⟩ :=
        later.leadsTo stackedLater goesOn (ends.of_suffix suffix more) ended
      exact ⟨_, line, endedLine, leadsTo.of_step running goesOn ends⟩
    · rw [step_of_code inString, code_of_lineBreak brackets begun.notAtStart found,
        lineStart_of_blank nothing, finished_finish] at goesOn
      contradiction
termination_by state.remaining

theorem ofSource_append (tabWidth : Nat) {source : List Char} (nonempty : source ≠ []) :
    ofSource tabWidth (source ++ more) = (ofSource tabWidth source).append more := by
  obtain ⟨c, rest, rfl⟩ := List.exists_cons_of_ne_nil nonempty
  by_cases mark : c = '\ufeff'
  · subst mark
    rfl
  · rw [List.cons_append, ofSource_of_noMark, ofSource_of_noMark]
    · rfl
    · simpa using mark
    · simpa using mark

theorem endsLine_ofSource (tabWidth : Nat) {source : List Char} (ends : EndsLine source) :
    EndsLine (ofSource tabWidth source).rest := by
  obtain ⟨c, rest, rfl⟩ := ends.exists_cons
  by_cases mark : c = '\ufeff'
  · subst mark
    exact ends.tail (by decide)
  · rw [ofSource_of_noMark]
    · exact ends
    · simpa using mark

/-- A text starts with a line of code, if it has code at all. -/
theorem step_ofSource (tabWidth : Nat) (source : List Char) :
    (ofSource tabWidth source).step = (ofSource tabWidth source).lineStart := by
  have outside : ¬ InString (ofSource tabWidth source).modes := by
    rintro ⟨start, outer, modes⟩
    contradiction
  rw [step_of_code outside, code_of_atLineStart rfl rfl]

/-- A text whose last line of code is ended leads to the end of that line. -/
theorem leadsTo_ofSource (tabWidth : Nat) {source : List Char} (ends : EndsLine source)
    (ended : ((ofSource tabWidth source).final false).endedAtLineBreak = true) :
    ∃ items line, EndedLine tabWidth line ∧ LeadsTo (ofSource tabWidth source) items line := by
  have first := step_ofSource tabWidth source
  have proceeds : (ofSource tabWidth source).proceed false = (ofSource tabWidth source).step := rfl
  rw [@final_of_running (ofSource tabWidth source) false rfl, proceeds] at ended
  have hasCode : (ofSource tabWidth source).pastBlank.rest ≠ [] := by
    intro nothing
    rw [first, lineStart_of_blank nothing, final_of_finished false (finished_finish _)] at ended
    contradiction
  obtain ⟨begun, suffix⟩ := @begun_lineStart (ofSource tabWidth source) tabWidth rfl
    (fun _ member => absurd member List.not_mem_nil) rfl hasCode
  rw [← first] at begun suffix
  cases goesOn : (ofSource tabWidth source).step.2.finished with
  | true =>
    rw [final_of_finished false goesOn] at ended
    exact absurd (ended.symm.trans begun.unended) Bool.noConfusion
  | false =>
    have endsSource := endsLine_ofSource tabWidth ends
    have more : (ofSource tabWidth source).step.2.rest ≠ [] := by
      intro nothing
      rw [begun.unended_of_nil goesOn nothing] at ended
      contradiction
    obtain ⟨items, line, endedLine, leadsTo⟩ := begun.leadsTo
      (@quoted_step (ofSource tabWidth source) .code).stacked goesOn
      (endsSource.of_suffix suffix more) ended
    exact ⟨_, line, endedLine, leadsTo.of_step rfl goesOn endsSource⟩

end LexState

end Offside
