import Offside.Proofs.Lexer.Behind
import Offside.Proofs.Lexer.CutStrings

/-!
The lexer on texts whose line breaks differ by carriage returns. As long as no string comes to the
end of its line, each step yields items at the same lines and columns, and leads to states that again
are in front of such texts.
-/

namespace Offside

open LexStream LexMode
open Text (WithReturns AtFeed)

structure Span.Alike (left right : Span) : Prop where
  first : Position.Alike left.first right.first
  last : Position.Alike left.last right.last

/-- Tokens of one kind at the same lines and columns. Those that can not hold a line break have the
same text. -/
structure Token.Alike (left right : Token) : Prop where
  kind : right.kind = left.kind
  name : left.kind = .identifier → right.text = left.text
  span : Span.Alike left.span right.span

/-- Errors of one kind that start at the same line and column. -/
structure LexError.Alike (left right : LexError) : Prop where
  kind : right.fault.diagnosticKind = left.fault.diagnosticKind
  severity : right.fault.severity = left.fault.severity
  isFatal : right.isFatal = left.isFatal
  first : Position.Alike left.span.first right.span.first

inductive LexItem.Alike : LexItem → LexItem → Prop
  | token {left right : Token} (alike : Token.Alike left right) : Alike (.token left) (.token right)
  | error {left right : LexError} (alike : LexError.Alike left right) :
    Alike (.error left) (.error right)

inductive LexMode.Aligned : LexMode → LexMode → Prop
  | string {start start' : Position} (alike : Position.Alike start start') :
    Aligned (.string start) (.string start')
  | interpolation (braces : Nat) : Aligned (.interpolation braces) (.interpolation braces)

/-- States in front of texts whose line breaks differ by carriage returns. -/
structure LexState.Alike (left right : LexState) : Prop where
  rest : WithReturns left.rest right.rest
  position : Position.Alike left.position right.position
  modes : List.Forall₂ LexMode.Aligned left.modes right.modes
  layout : right.layout = left.layout
  atLineStart : right.atLineStart = left.atLineStart
  lastKind : right.lastKind = left.lastKind
  finished : right.finished = left.finished
  endedAtLineBreak : right.endedAtLineBreak = left.endedAtLineBreak

structure LexStep.Alike (left right : LexStep) : Prop where
  items : List.Forall₂ LexItem.Alike left.1 right.1
  state : LexState.Alike left.2 right.2

theorem LexError.Alike.of_fault {fault : LexFault} {span span' : Span}
    (first : Position.Alike span.first span'.first) :
    LexError.Alike ⟨fault, span⟩ ⟨fault, span'⟩ :=
  ⟨rfl, rfl, rfl, first⟩

namespace LexState

/-! ## Pieces of literals -/

section

variable {position position' : Position} {pieces pieces' : List Scan.Spelled}

/-- Pieces that are alike stand for the same. -/
theorem decode_alike (alike : Position.Alike position position')
    (all : List.Forall₂ Scan.Spelled.Alike pieces pieces') :
    (decode position' pieces').1 = (decode position pieces).1 := by
  induction all generalizing position position' with
  | nil => rfl
  | @cons spelled spelled' _ _ same _ inductionHypothesis =>
    obtain ⟨text, piece⟩ := spelled
    obtain ⟨text', piece'⟩ := spelled'
    obtain rfl : piece' = piece := same.piece
    have later := inductionHypothesis (alike.advance same.text)
    rw [decode, decode]
    cases piece' with
    | text characters => exact congrArg (characters ++ ·) later
    | char c => exact congrArg (c :: ·) later
    | elided => exact later
    | invalid characters => exact congrArg ('\ufffd' :: ·) later

theorem decode_faults (alike : Position.Alike position position')
    (faults : Scan.Faults pieces pieces') :
    List.Forall₂ LexError.Alike (decode position pieces).2 (decode position' pieces').2 := by
  have invalid {position position' : Position} (alike : Position.Alike position position')
      (characters characters' : List Char) (next next' : Position) :
      LexError.Alike ⟨.invalidEscape (String.ofList characters), ⟨position, next⟩⟩
        ⟨.invalidEscape (String.ofList characters'), ⟨position', next'⟩⟩ :=
    ⟨rfl, rfl, rfl, alike⟩
  induction faults generalizing position position' with
  | nil => exact .nil
  | @cons spelled spelled' _ _ same _ inductionHypothesis =>
    obtain ⟨text, piece⟩ := spelled
    obtain ⟨text', piece'⟩ := spelled'
    obtain rfl : piece' = piece := same.piece
    have later := inductionHypothesis (alike.advance same.text)
    rw [decode, decode]
    cases piece' with
    | invalid characters => exact .cons (invalid alike _ _ _ _) later
    | _ => exact later
  | @last spelled spelled' isBroken =>
    obtain ⟨text, piece⟩ := spelled
    obtain ⟨text', piece'⟩ := spelled'
    rw [decode, decode]
    cases piece with
    | invalid characters =>
      cases piece' with
      | invalid characters' => exact .cons (invalid alike _ _ _ _) .nil
      | _ => contradiction
    | _ =>
      cases piece' with
      | invalid characters' => contradiction
      | _ => exact .nil
  | @extra spelled sound =>
    obtain ⟨text, piece⟩ := spelled
    rw [decode]
    cases piece with
    | invalid characters => contradiction
    | _ => exact .nil

end

/-! ## Single steps -/

theorem stringPart_of_quote {state : LexState} {start : Position} {rest : List Char}
    (found : state.rest = '"' :: rest) :
    state.stringPart start =
      { state with modes := state.modes.tail }.yield .stringEnd ⟨['"'], rest⟩ [] := by
  rw [stringPart, found]
  rfl

theorem stringPart_of_brace {state : LexState} {start : Position} {rest : List Char}
    (found : state.rest = '\x7b' :: rest) :
    state.stringPart start =
      { state with
        modes := .interpolation 0 :: state.modes
        layout := state.layout.openBracket }.yield .interpolationStart ⟨['\x7b'], rest⟩ [] := by
  rw [stringPart, found]
  rfl

namespace Alike

variable {left right : LexState} {split split' : Scan.Split} (alike : Alike left right)

include alike

theorem take (level : split.Level split') : Alike (left.take split) (right.take split') :=
  { alike with
    rest := level.rest
    position := alike.position.advance level.text }

theorem spanOf (level : split.Level split') :
    Span.Alike (left.spanOf split) (right.spanOf split') :=
  ⟨alike.position, alike.position.advance level.text⟩

theorem tokenOf {kind : Kind} (level : split.Level split')
    (name : kind = .identifier → split'.text = split.text) :
    LexItem.Alike (left.tokenOf kind split) (right.tokenOf kind split') :=
  .token ⟨rfl, fun isName => congrArg String.ofList (name isName), alike.spanOf level⟩

theorem structural (kind : Kind) : LexItem.Alike (left.structural kind) (right.structural kind) :=
  .token ⟨rfl, fun _ => rfl, alike.position, alike.position⟩

theorem yield {kind : Kind} {errors errors' : List LexError} (level : split.Level split')
    (name : kind = .identifier → split'.text = split.text)
    (all : List.Forall₂ LexError.Alike errors errors') :
    LexStep.Alike (left.yield kind split errors) (right.yield kind split' errors') := by
  refine ⟨.cons (alike.tokenOf level name) ?_, { alike.take level with lastKind := rfl }⟩
  exact List.forall₂_map_left_iff.mpr (List.forall₂_map_right_iff.mpr (all.imp fun _ _ => .error))

theorem yield_same {kind : Kind} {errors errors' : List LexError} (same : split.Same split')
    (all : List.Forall₂ LexError.Alike errors errors') :
    LexStep.Alike (left.yield kind split errors) (right.yield kind split' errors') :=
  alike.yield same.toLevel (fun _ => same.same) all

theorem fail {construct : Unterminated} {span span' : Span}
    (first : Position.Alike span.first span'.first) :
    LexStep.Alike (left.fail construct span) (right.fail construct span') :=
  ⟨.cons (.error (.of_fault first)) .nil, { alike with finished := rfl }⟩

theorem openString?_rel : Option.Rel Position.Alike left.openString? right.openString? := by
  have modes := alike.modes
  unfold openString?
  generalize left.modes = lefts at modes
  generalize right.modes = rights at modes
  induction modes with
  | nil => exact .none
  | cons mode _ inductionHypothesis =>
    cases mode with
    | string start => exact .some start
    | interpolation braces => exact inductionHypothesis

theorem finish : LexStep.Alike left.finish right.finish := by
  have strings := alike.openString?_rel
  unfold LexState.finish
  generalize left.openString? = start at strings ⊢
  generalize right.openString? = start' at strings ⊢
  cases strings with
  | some first => exact alike.fail first
  | none =>
    dsimp only
    rw [alike.layout, alike.atLineStart, alike.lastKind]
    refine ⟨List.rel_append ?_ (.cons (alike.structural _) .nil),
      { alike with
        layout := rfl
        atLineStart := rfl
        lastKind := rfl
        finished := rfl
        endedAtLineBreak := rfl }⟩
    induction left.layout.finish.1 with
    | zero => exact .nil
    | succ count inductionHypothesis => exact .cons (alike.structural _) inductionHypothesis

theorem modes_tail : List.Forall₂ LexMode.Aligned left.modes.tail right.modes.tail := by
  have modes := alike.modes
  generalize left.modes = lefts at modes ⊢
  generalize right.modes = rights at modes ⊢
  cases modes with
  | nil => exact .nil
  | cons _ outer => exact outer

/-- A part of a string that does not come to the end of its line. -/
theorem stringPart {start start' : Position} (first : Position.Alike start start')
    (closed : ¬ AtFeed (Scan.stringBody left.rest).rest) :
    LexStep.Alike (left.stringPart start) (right.stringPart start') := by
  have returns := alike.rest
  have same {c : Char} (noFeed : c ≠ '\n') (noReturn : c ≠ '\r') :=
    returns.head?_iff (c := c) noFeed noReturn
  by_cases quote : left.rest.head? = some '"'
  · obtain ⟨rest, rest', found, found', later⟩ := returns.starts quote (by decide)
    have outer : Alike { left with modes := left.modes.tail } { right with modes := right.modes.tail } :=
      { alike with modes := alike.modes_tail }
    rw [stringPart_of_quote found, stringPart_of_quote found']
    exact outer.yield_same ⟨⟨.single (by decide) (by decide), later⟩, rfl⟩ .nil
  · by_cases brace : left.rest.head? = some '\x7b'
    · obtain ⟨rest, rest', found, found', later⟩ := returns.starts brace (by decide)
      have inner : Alike
          { left with modes := .interpolation 0 :: left.modes, layout := left.layout.openBracket }
          { right with modes := .interpolation 0 :: right.modes, layout := right.layout.openBracket } :=
        { alike with
          modes := .cons (.interpolation 0) alike.modes
          layout := congrArg Layout.openBracket alike.layout }
      rw [stringPart_of_brace found, stringPart_of_brace found']
      exact inner.yield_same ⟨⟨.single (by decide) (by decide), later⟩, rfl⟩ .nil
    · have quote' := (not_congr (same (c := '"') (by decide) (by decide))).mpr quote
      have brace' := (not_congr (same (c := '\x7b') (by decide) (by decide))).mpr brace
      obtain ⟨faults, _, level, pieces⟩ := Scan.stringBody_alike alike.rest
      rw [stringPart_of_fragment (fun rest found => quote (by rw [found]; rfl))
          (fun rest found => brace (by rw [found]; rfl)),
        stringPart_of_fragment (fun rest found => quote' (by rw [found]; rfl))
          (fun rest found => brace' (by rw [found]; rfl)),
        decode_alike alike.position (pieces closed)]
      have all := pieces closed
      by_cases nothing : (Scan.stringBody left.rest).value = []
      · rw [nothing] at all
        rw [if_pos nothing, if_pos (List.forall₂_nil_left_iff.mp all)]
        exact alike.fail first
      · have something : (Scan.stringBody right.rest).value ≠ [] := by
          intro nothing'
          rw [nothing'] at all
          exact nothing (List.forall₂_nil_right_iff.mp all)
        rw [if_neg nothing, if_neg something]
        exact alike.yield (level closed) (fun isName => Kind.noConfusion isName)
          (decode_faults alike.position faults)

/-! ## Characters -/

theorem closedLiteral {value : List Char} {errors errors' : List LexError}
    (level : split.Level split') (all : List.Forall₂ LexError.Alike errors errors') :
    LexStep.Alike (left.closedLiteral split value errors)
      (right.closedLiteral split' value errors') := by
  have invalid (fault : CharacterFault) : LexStep.Alike
      (left.yield (.char '\ufffd') split
        (errors ++ [⟨.invalidCharacter (String.ofList split.text) fault, left.spanOf split⟩]))
      (right.yield (.char '\ufffd') split'
        (errors' ++ [⟨.invalidCharacter (String.ofList split'.text) fault, right.spanOf split'⟩])) :=
    alike.yield level (fun isName => Kind.noConfusion isName)
      (List.rel_append all (.cons ⟨rfl, rfl, rfl, alike.position⟩ .nil))
  rcases value with _ | ⟨c, _ | ⟨other, others⟩⟩
  · exact invalid .empty
  · exact alike.yield level (fun isName => Kind.noConfusion isName) all
  · exact invalid .several

theorem characterLiteral {rest rest' : List Char} (found : left.rest = '\'' :: rest)
    (found' : right.rest = '\'' :: rest') :
    LexStep.Alike (left.characterLiteral rest) (right.characterLiteral rest') := by
  have quote : WithReturns ['\''] ['\''] := .single (by decide) (by decide)
  have behind : WithReturns rest rest' := by
    have returns := alike.rest
    rw [found, found'] at returns
    obtain ⟨_, others, same, later⟩ := returns.cons_inv (by decide)
    exact (List.cons.inj same).2 ▸ later
  have inside := alike.position.advance quote
  obtain ⟨faults, cut, level, pieces⟩ := Scan.charBody_alike behind
  by_cases closes : ∃ after, (Scan.charBody rest).rest = '\'' :: after
  · obtain ⟨after, isAfter⟩ := closes
    have calm : ¬ AtFeed (Scan.charBody rest).rest := by
      rw [isAfter]
      exact fun atFeed => absurd (Option.some.inj atFeed) (by decide)
    have levels := level calm
    have later := levels.rest
    rw [isAfter] at later
    obtain ⟨_, after', isAfter', afters⟩ := later.cons_inv (by decide)
    rw [characterLiteral_of_closed isAfter, characterLiteral_of_closed isAfter',
      decode_alike inside (pieces calm)]
    exact alike.closedLiteral ⟨(quote.append levels.text).append quote, afters⟩
      (decode_faults inside faults)
  · have open' : ∀ after, (Scan.charBody rest').rest ≠ '\'' :: after := by
      intro after isAfter
      by_cases atFeed : AtFeed (Scan.charBody rest).rest
      · have atFeed' := cut atFeed
        rw [isAfter] at atFeed'
        exact absurd (Option.some.inj atFeed') (by decide)
      · have same := (level atFeed).rest.head?_iff (c := '\'') (by decide) (by decide)
        rw [isAfter] at same
        obtain ⟨others, isOthers⟩ := List.head?_eq_some_iff.mp (same.mp rfl)
        exact closes ⟨others, isOthers⟩
    rw [characterLiteral_of_open fun after isAfter => closes ⟨after, isAfter⟩,
      characterLiteral_of_open open']
    exact alike.fail alike.position

/-! ## Code -/

theorem bracket (symbol : Symbol) :
    (right.bracket symbol).1 = (left.bracket symbol).1 ∧
      Alike (left.bracket symbol).2 (right.bracket symbol).2 := by
  have opened : Alike { left with layout := left.layout.openBracket }
      { right with layout := right.layout.openBracket } :=
    { alike with layout := congrArg Layout.openBracket alike.layout }
  have closed : Alike { left with layout := left.layout.closeBracket }
      { right with layout := right.layout.closeBracket } :=
    { alike with layout := congrArg Layout.closeBracket alike.layout }
  have modes := alike.modes
  cases symbol with
  | leftParen => exact ⟨rfl, opened⟩
  | leftBracket => exact ⟨rfl, opened⟩
  | rightParen => exact ⟨rfl, closed⟩
  | rightBracket => exact ⟨rfl, closed⟩
  | leftCurly =>
    unfold LexState.bracket
    dsimp only
    generalize left.modes = lefts at modes ⊢
    generalize right.modes = rights at modes ⊢
    refine ⟨rfl, { opened with modes := ?_ }⟩
    cases modes with
    | nil => exact .nil
    | cons mode outer =>
      cases mode with
      | string start => exact .cons (.string start) outer
      | interpolation braces => exact .cons (.interpolation _) outer
  | rightCurly =>
    unfold LexState.bracket
    dsimp only
    generalize found : left.modes = lefts at modes ⊢
    generalize found' : right.modes = rights at modes ⊢
    cases modes with
    | nil => exact ⟨rfl, { closed with modes := .nil }⟩
    | cons mode outer =>
      cases mode with
      | string start => exact ⟨rfl, { closed with modes := .cons (.string start) outer }⟩
      | interpolation braces =>
        cases braces with
        | zero => exact ⟨rfl, { closed with modes := outer }⟩
        | succ braces => exact ⟨rfl, { closed with modes := .cons (.interpolation braces) outer }⟩
  | _ => exact ⟨rfl, alike⟩

theorem atOperand : right.atOperand = left.atOperand := by
  rw [LexState.atOperand, LexState.atOperand, alike.lastKind]

theorem plainToken {c : Char} {rest rest' : List Char} (noFeed : c ≠ '\n') (noReturn : c ≠ '\r')
    (behind : WithReturns rest rest') :
    LexStep.Alike (left.plainToken c rest) (right.plainToken c rest') := by
  have returns : WithReturns (c :: rest) (c :: rest') := .plain noFeed noReturn behind
  have numerals := Scan.numeral?_same left.atOperand returns
  have words := Scan.word?_same returns
  have symbols := Scan.symbol?_same returns
  unfold LexState.plainToken
  dsimp only
  rw [alike.atOperand]
  generalize Scan.numeral? left.atOperand (c :: rest) = numeral at numerals ⊢
  generalize Scan.numeral? left.atOperand (c :: rest') = numeral' at numerals ⊢
  cases numerals with
  | some same =>
    dsimp only
    rw [same.value]
    refine alike.yield_same same.toSame ?_
    generalize (Scan.Numeral.evaluate _).2 = fault
    cases fault with
    | none => exact .nil
    | some fault => exact .cons ⟨rfl, rfl, rfl, alike.position⟩ .nil
  | none =>
    dsimp only
    generalize Scan.word? (c :: rest) = word at words ⊢
    generalize Scan.word? (c :: rest') = word' at words ⊢
    cases words with
    | some same =>
      dsimp only
      rw [same.value]
      exact alike.yield_same same.toSame .nil
    | none =>
      dsimp only
      generalize Scan.symbol? (c :: rest) = symbol at symbols ⊢
      generalize Scan.symbol? (c :: rest') = symbol' at symbols ⊢
      cases symbols with
      | @some symbol symbol' same =>
        obtain ⟨kind, after⟩ := alike.bracket symbol.value
        dsimp only
        rw [same.value, kind]
        exact after.yield_same same.toSame .nil
      | none =>
        have level : (⟨[c], rest⟩ : Scan.Split).Level ⟨[c], rest'⟩ := ⟨.single noFeed noReturn, behind⟩
        exact ⟨.cons (.error (.of_fault alike.position)) .nil, alike.take level⟩

theorem stringStart (same : split.Same split') :
    LexStep.Alike (left.stringStart split) (right.stringStart split') := by
  have inner : Alike { left with modes := .string left.position :: left.modes }
      { right with modes := .string right.position :: right.modes } :=
    { alike with modes := .cons (.string alike.position) alike.modes }
  exact inner.yield_same same .nil

/-- The next token of code, where no line break comes next. -/
theorem codeToken (calm : ¬ AtFeed left.rest) : LexStep.Alike left.codeToken right.codeToken := by
  have returns := alike.rest
  generalize found : left.rest = rest at returns calm
  generalize found' : right.rest = rest' at returns
  cases returns with
  | nil =>
    rw [LexState.codeToken, found, LexState.codeToken, found']
    exact alike.finish
  | feed => exact absurd rfl calm
  | returned => exact absurd rfl calm
  | @plain c rest rest' noFeed noReturn behind =>
    by_cases block : c = '/' ∧ rest.head? = some '*'
    · obtain ⟨rfl, star⟩ := block
      obtain ⟨others, others', rfl, rfl, later⟩ := behind.starts star (by decide)
      have level : (⟨'/' :: '*' :: others, []⟩ : Scan.Split).Level ⟨'/' :: '*' :: others', []⟩ :=
        ⟨.plain noFeed noReturn behind, .nil⟩
      rw [LexState.codeToken, found, LexState.codeToken, found']
      exact (alike.take level).fail alike.position
    · by_cases dollar : c = '$' ∧ rest.head? = some '"'
      · obtain ⟨rfl, quote⟩ := dollar
        obtain ⟨others, others', rfl, rfl, later⟩ := behind.starts quote (by decide)
        have opening : WithReturns ['$', '"'] ['$', '"'] := Scan.returns_self (by decide) (by decide)
        rw [LexState.codeToken, found, LexState.codeToken, found']
        exact alike.stringStart ⟨⟨opening, later⟩, rfl⟩
      · by_cases quotes : c = '"'
        · subst quotes
          rw [LexState.codeToken, found, LexState.codeToken, found']
          exact alike.stringStart ⟨⟨.single noFeed noReturn, behind⟩, rfl⟩
        · by_cases quote : c = '\''
          · subst quote
            rw [LexState.codeToken, found, LexState.codeToken, found']
            exact alike.characterLiteral found found'
          · have closed : Scan.NoBlock left.rest := by
              intro others opens
              obtain ⟨rfl, rfl⟩ := List.cons.inj (found.symm.trans opens)
              exact block ⟨rfl, rfl⟩
            have closed' : Scan.NoBlock right.rest := by
              intro others opens
              obtain ⟨rfl, rfl⟩ := List.cons.inj (found'.symm.trans opens)
              exact block ⟨rfl, (behind.head?_iff (by decide) (by decide)).mp rfl⟩
            have noDollar : c = '$' → rest.head? ≠ some '"' :=
              fun isDollar opens => dollar ⟨isDollar, opens⟩
            have noDollar' : c = '$' → rest'.head? ≠ some '"' := fun isDollar opens =>
              dollar ⟨isDollar, (behind.head?_iff (by decide) (by decide)).mp opens⟩
            rw [codeToken_of_plain found closed quotes quote noDollar,
              codeToken_of_plain found' closed' quotes quote noDollar']
            exact alike.plainToken noFeed noReturn behind

/-! ## Lines -/

/-- The indentation of a line with something in it. -/
theorem indentation (calm : ¬ AtFeed (Scan.leading left.rest).rest) :
    LexStep.Alike left.indentation right.indentation := by
  have noFeed : '\n' ∉ (Scan.leading left.rest).text := fun member =>
    absurd (List.mem_takeWhile_imp member) (by decide)
  have same := ((Scan.leading_passes alike.rest).cuts noFeed).resolve_right fun cut => calm cut.1
  have span := alike.spanOf same.toLevel
  have sameLayout := alike.layout
  have taken (layout : Layout) :
      Alike { left.take (Scan.leading left.rest) with layout, atLineStart := false }
        { right.take (Scan.leading right.rest) with layout, atLineStart := false } :=
    { alike.take same.toLevel with layout := rfl, atLineStart := rfl }
  unfold LexState.indentation
  dsimp only
  rw [same.same, sameLayout]
  generalize left.layout.measure (Scan.leading left.rest).text = measured
  generalize left.layout.line measured.width = line
  refine ⟨?_, { taken line.2 with lastKind := congrArg (Option.or _) alike.lastKind }⟩
  refine List.rel_append (List.rel_append ?_ ?_) ?_
  · cases measured.mixed with
    | false => exact .nil
    | true => exact .cons (.error (.of_fault span.first)) .nil
  · induction lineKinds line.1 with
    | nil => exact .nil
    | cons kind kinds inductionHypothesis =>
      exact .cons ((taken line.2).structural kind) inductionHypothesis
  · cases line.1 with
    | ok lineLayout => exact .nil
    | error fault => exact .cons (.error (.of_fault span.first)) .nil

/-- The next token of code behind what stands before it, which no line break follows. -/
theorem inLine (noLineBreak : Scan.lineBreak? (Scan.trivia left.rest).rest = none) :
    LexStep.Alike left.inLine right.inLine := by
  have calm := Scan.calm_of_lineBreak? noLineBreak
  exact (alike.take ((Scan.trivia_passes alike.rest).level_of_calm calm)).codeToken calm

theorem pastBlank : Alike left.pastBlank right.pastBlank :=
  alike.take (Scan.blankLines_level alike.rest)

theorem lineStart : LexStep.Alike left.lineStart right.lineStart := by
  have past := alike.pastBlank
  by_cases nothing : left.pastBlank.rest = []
  · rw [lineStart_of_blank nothing, lineStart_of_blank (past.rest.eq_nil_iff.mpr nothing)]
    exact past.finish
  · have noLineBreak : Scan.lineBreak?
        (Scan.trivia (Scan.leading left.pastBlank.rest).rest).rest = none :=
      Scan.noLineBreak_of_blankLines left.rest nothing
    have calm : ¬ AtFeed (Scan.leading left.pastBlank.rest).rest := by
      intro atFeed
      obtain ⟨rest, found⟩ := List.head?_eq_some_iff.mp atFeed
      rw [found, Scan.trivia_feed] at noLineBreak
      contradiction
    obtain ⟨items, after⟩ := past.indentation calm
    obtain ⟨more, ends⟩ := after.inLine noLineBreak
    rw [lineStart_of_code nothing, lineStart_of_code ((not_congr past.rest.eq_nil_iff).mpr nothing)]
    exact ⟨List.rel_append items more, ends⟩

theorem code : LexStep.Alike left.code right.code := by
  cases brackets : left.layout.inBrackets with
  | true =>
    have level := Scan.wrapped_level alike.rest
    rw [code_of_brackets brackets, code_of_brackets (alike.layout ▸ brackets)]
    exact (alike.take level).codeToken (Scan.calm_wrapped left.rest)
  | false =>
    have brackets' : right.layout.inBrackets = false := alike.layout ▸ brackets
    cases start : left.atLineStart with
    | true =>
      rw [code_of_atLineStart brackets start,
        code_of_atLineStart brackets' (alike.atLineStart.trans start)]
      exact alike.lineStart
    | false =>
      have start' : right.atLineStart = false := alike.atLineStart.trans start
      have breaks := (Scan.trivia_passes alike.rest).lineBreak?
      generalize found : Scan.lineBreak? (Scan.trivia left.rest).rest = lineBreak at breaks
      generalize found' : Scan.lineBreak? (Scan.trivia right.rest).rest = lineBreak' at breaks
      cases breaks with
      | none =>
        rw [code_of_inLine brackets start found, code_of_inLine brackets' start' found']
        exact alike.inLine found
      | @some lineBreak lineBreak' level =>
        have next : Alike (left.nextLine lineBreak) (right.nextLine lineBreak') := by
          have position := (alike.take level).position
          dsimp only [LexState.take, Scan.Split.after] at position
          rw [Position.advance_append, Position.advance_append] at position
          exact { alike with rest := level.rest, position := position, atLineStart := rfl }
        rw [code_of_lineBreak brackets start found, code_of_lineBreak brackets' start' found']
        exact next.lineStart

/-- A step from a state in which no string comes to the end of its line. -/
theorem step (calm : ¬ left.Cut) : LexStep.Alike left.step right.step := by
  have modes := alike.modes
  generalize found : left.modes = lefts at modes
  generalize found' : right.modes = rights at modes
  cases modes with
  | nil =>
    rw [step_of_code (found ▸ not_inString_nil), step_of_code (found' ▸ not_inString_nil)]
    exact alike.code
  | cons mode outer =>
    cases mode with
    | string first =>
      rw [step_of_string found, step_of_string found']
      exact alike.stringPart first fun atFeed => calm ⟨⟨_, _, found⟩, atFeed⟩
    | interpolation braces =>
      rw [step_of_code (found ▸ not_inString_interpolation _ _),
        step_of_code (found' ▸ not_inString_interpolation _ _)]
      exact alike.code

/-- A string that comes to the end of its line breaks off in both texts. -/
theorem breaks (running : left.finished = false) (cut : left.Cut) :
    ∃ start start', Position.Alike start start' ∧ Breaks left start ∧ Breaks right start' := by
  obtain ⟨⟨start, outer, modes⟩, atFeed⟩ := cut
  have all := alike.modes
  rw [modes] at all
  obtain ⟨mode, outer', same, _, modes'⟩ := List.forall₂_cons_left_iff.mp all
  cases same with
  | string first =>
    have atFeed' := (Scan.stringBody_alike alike.rest).cut atFeed
    exact ⟨_, _, first, breaks_of_cut running modes atFeed,
      breaks_of_cut (alike.finished.trans running) modes' atFeed'⟩

end Alike

/-! ## Whole runs -/

/-- What holds of the ends of two runs, or once a string comes to the end of its line, and is kept by
steps backwards, holds all along. -/
theorem Alike.run_induction {motive : ∀ left right, Alike left right → Prop}
    (finished : ∀ {left right} (alike : Alike left right), left.finished = true →
      motive left right alike)
    (cut : ∀ {left right} (alike : Alike left right), left.finished = false → left.Cut →
      motive left right alike)
    (step : ∀ {left right} (alike : Alike left right), left.finished = false →
      ∀ calm : ¬ left.Cut, motive left.step.2 right.step.2 (alike.step calm).state →
        motive left right alike)
    {left right : LexState} (alike : Alike left right) : motive left right alike := by
  cases running : left.finished with
  | true => exact finished alike running
  | false =>
    by_cases isCut : left.Cut
    · exact cut alike running isCut
    · have fewer : left.step.2.remaining < left.remaining :=
        remaining_lt_of_advances running left.advances_step
      exact step alike running isCut (run_induction finished cut step (alike.step isCut).state)
termination_by left.remaining

/-- The last lines of both texts are ended by line breaks, or neither is. -/
theorem Alike.endedAtLineBreak_final {left right : LexState} (alike : Alike left right) :
    (right.final false).state.endedAtLineBreak = (left.final false).state.endedAtLineBreak := by
  induction alike using Alike.run_induction with
  | finished alike ended =>
    rw [final_of_finished false ended, final_of_finished false (alike.finished.trans ended)]
    exact alike.endedAtLineBreak
  | cut alike running cut =>
    obtain ⟨_, _, _, breaks, breaks'⟩ := alike.breaks running cut
    rw [breaks.endedAtLineBreak, breaks'.endedAtLineBreak, alike.endedAtLineBreak]
  | step alike running _ inductionHypothesis =>
    rw [final_of_running false running, final_of_running false (alike.finished.trans running)]
    exact inductionHypothesis

theorem alike_ofSource (tabWidth : Nat) {source source' : List Char}
    (returns : WithReturns source source') :
    Alike (ofSource tabWidth source) (ofSource tabWidth source') := by
  have start {rest rest' : List Char} (position : Position) (returns : WithReturns rest rest') :
      Alike ⟨rest, position, [], .ofTabWidth tabWidth, true, none, false, false⟩
        ⟨rest', position, [], .ofTabWidth tabWidth, true, none, false, false⟩ :=
    ⟨returns, ⟨rfl, rfl⟩, .nil, rfl, rfl, rfl, rfl, rfl⟩
  by_cases mark : source.head? = some '\ufeff'
  · obtain ⟨rest, rest', rfl, rfl, behind⟩ := returns.starts mark (by decide)
    exact start _ behind
  · have noMark := (not_congr (returns.head?_iff (by decide) (by decide))).mpr mark
    rw [ofSource_of_noMark mark, ofSource_of_noMark noMark]
    exact start _ returns

end LexState

end Offside
