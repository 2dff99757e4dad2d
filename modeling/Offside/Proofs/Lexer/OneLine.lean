import Offside.Proofs.Lexer.Extend
import Offside.Proofs.Lexer.Reread
import Offside.Proofs.Scan.Codeless

/-!
Texts of a single line, with or without a line break behind it. There may be any number of spaces
between its tokens, but no indentation before them.
-/

namespace Offside

open Lexeme

/-- What is behind the last token of a text: nothing, or a line break. -/
def lineEnd (broken : Bool) : List Char :=
  if broken then ['\n'] else []

theorem ended_lineEnd (broken : Bool) : Scan.Ended (lineEnd broken) := by
  cases broken with
  | false => exact Scan.ended_nil
  | true => exact Scan.ended_cons (Or.inr rfl)

namespace LexState

/-! ## The line in its text -/

/-- A text that starts with code is read from its first character on. -/
theorem stream_ofSource_of_opens (tabWidth : Nat) {input : List Char} (opens : Scan.Opens input) :
    ∃ code : LexState, (ofSource tabWidth input).stream false =
        code.codeToken.1 ++ code.codeToken.2.stream false ∧
      code.rest = input ∧ AtLine code ∧ code.atLineStart = false ∧ code.layout.levels = [] ∧
      code.lastKind = none := by
  have initial := ofSource_of_noMark opens.noMark tabWidth
  have laid : (ofSource tabWidth input).layout.line 0 =
      (.ok .start, { Layout.ofTabWidth tabWidth with started := true }) := by
    rw [initial]
    rfl
  have rest : (ofSource tabWidth input).rest = List.replicate 0 ' ' ++ input := by
    rw [initial]
    rfl
  obtain ⟨tokens, code, kinds, items, position, equality⟩ :=
    fromLine_eq (by decide) opens rest laid
  obtain rfl : tokens = [] := List.map_eq_nil_iff.mp kinds
  have atLine : AtLine (ofSource tabWidth input) := by
    rw [initial]
    exact ⟨rfl, rfl, rfl⟩
  have proceeds :
      (ofSource tabWidth input).proceed false = (ofSource tabWidth input).lineStart := by
    rw [initial]
    rfl
  refine ⟨code, ?_, ?_, ?_, ?_, ?_, ?_⟩
  · rw [stream_of_running false atLine.running, proceeds]
    exact items
  · rw [equality]
  · rw [equality]
    exact atLine.moved rfl _ _ _ _
  · rw [equality]
  · rw [equality]
    rfl
  · rw [equality, initial]
    rfl

/-- At the end of the text, in the middle of a line at the outermost level. -/
theorem stream_ended {state : LexState} (atLine : AtLine state) (inLine : state.atLineStart = false)
    (outermost : state.layout.levels = []) (rest : state.rest = []) :
    ∃ token : Token, token.lexeme = .layout .endOfInput ∧ state.stream false = [.token token] := by
  have coded : state.proceed false = (state.take (.nothing [])).codeToken := by
    change state.step = _
    unfold step
    rw [atLine.outside]
    dsimp only
    unfold code
    rw [if_neg (by simp [atLine.noBrackets]), if_neg (by simp [inLine]), rest, Scan.trivia_nil]
    rfl
  have outside : (state.take (.nothing [])).openString? = none := by
    rw [openString?, take, atLine.outside]
    rfl
  have ended : (state.take (.nothing [])).codeToken = (state.take (.nothing [])).finish := by
    unfold codeToken
    rfl
  have closes :
      (state.take (.nothing [])).layout.finish = (0, { state.layout with levels := [] }) := by
    change state.layout.finish = _
    rw [Layout.finish, Layout.depth, outermost]
    rfl
  rw [stream_of_running false atLine.running, coded, ended, finish, outside]
  simp only [closes]
  rw [stream_of_finished false rfl]
  exact ⟨_, rfl, rfl⟩

/-- A line break behind the last line makes no difference. -/
theorem stream_lineEnd {state : LexState} {broken : Bool} (atLine : AtLine state)
    (inLine : state.atLineStart = false) (outermost : state.layout.levels = [])
    (rest : state.rest = lineEnd broken) :
    ∃ token : Token, token.lexeme = .layout .endOfInput ∧ state.stream false = [.token token] := by
  cases broken with
  | false => exact stream_ended atLine inLine outermost rest
  | true =>
    obtain ⟨position, starts⟩ := stream_lineFeed atLine inLine rest
    obtain ⟨tokens, same, items⟩ := tells_end (atLine.moved atLine.noBrackets [] position true
      state.lastKind) rfl
    rw [outermost] at same
    obtain ⟨token, rfl, isEnd⟩ := List.map_eq_singleton_iff.mp same
    exact ⟨token, isEnd, starts.trans items⟩

/-- A text whose code comes to the given lexemes and ends in the line it starts in. -/
theorem items_of_flows (tabWidth : Nat) {input : List Char} {broken : Bool}
    (opens : Scan.Opens input) {lexemes : List Lexeme}
    (flows : ∀ code : LexState, code.rest = input → AtLine code → code.atLineStart = false →
      code.lastKind = none → ∃ position lastKind, Flows code.codeToken lexemes
        { code with rest := lineEnd broken, position, lastKind }) :
    ∃ tokens : List Token, tokens.map Token.lexeme = lexemes ++ [.layout .endOfInput] ∧
      (Lexer.ofSource tabWidth input).items false = tokens.map .token := by
  obtain ⟨code, stream, rest, atLine, inLine, outermost, first⟩ :=
    stream_ofSource_of_opens tabWidth opens
  obtain ⟨position, lastKind, tokens, same, items⟩ := flows code rest atLine inLine first
  obtain ⟨last, isEnd, ended⟩ := stream_lineEnd
    (atLine.moved atLine.noBrackets (lineEnd broken) position code.atLineStart lastKind) inLine
    outermost rfl
  refine ⟨tokens ++ [last], by rw [List.map_append, same, List.map_singleton, isEnd], ?_⟩
  change (ofSource tabWidth input).stream false = _
  rw [stream, items, List.map_append]
  exact congrArg (tokens.map LexItem.token ++ ·) ended

end LexState

/-! ## Spaces -/

theorem Text.gaps_spaces (count : Nat) : Gaps (List.replicate count ' ') := by
  induction count with
  | zero => exact .nil
  | succ count inductionHypothesis => exact .blank rfl inductionHypothesis

theorem LexState.step_spaces {state : LexState} (atLine : AtLine state)
    (inLine : state.atLineStart = false) {count : Nat} {input : List Char}
    (opens : Scan.Opens input) (rest : state.rest = List.replicate count ' ' ++ input) :
    state.step = (state.take ⟨List.replicate count ' ', input⟩).codeToken := by
  have passed : Scan.trivia state.rest = ⟨List.replicate count ' ', input⟩ := by
    rw [rest, Scan.trivia_of_gaps (Text.gaps_spaces count), Scan.trivia_of_opens opens,
      Scan.Split.after, Scan.Split.nothing, List.append_nil]
  rw [step_of_code (atLine.outside ▸ LexMode.not_inString_nil),
    code_of_inLine atLine.noBrackets inLine (by rw [passed]; exact opens.noBreak)]
  change (state.take (Scan.trivia state.rest)).codeToken = _
  rw [passed]

namespace Lexeme

/-- Lexemes with any number of spaces between them, but at least one. -/
def line (gaps : Nat → Nat) : List Lexeme → List Char
  | [] => []
  | [last] => last.text.toList
  | first :: next :: others =>
    first.text.toList ++ (List.replicate (gaps 0 + 1) ' ' ++
      line (fun index => gaps (index + 1)) (next :: others))

/-- In front of the given text the lexeme is read back as a token of code. -/
structure Stands (lexeme : Lexeme) (follow : List Char) : Prop where
  opens : Scan.Opens (lexeme.text.toList ++ follow)
  flows : ∀ state : LexState, state.rest = lexeme.text.toList ++ follow →
    ∃ position, LexState.Flows state.codeToken [lexeme]
      { state with rest := follow, position, lastKind := some lexeme.kind }

theorem Coded.stands {lexeme : Lexeme} (coded : lexeme.Coded id) {follow : List Char}
    (setOff : Scan.SetOff follow) : lexeme.Stands follow :=
  ⟨coded.opens follow setOff, fun _ rest => LexState.flows_of_coded coded setOff rest⟩

/-- A word may also be the last of a text. -/
theorem stands_word {text : String} (isName : Text.isName text.toList = true) {follow : List Char}
    (ended : Scan.Ended follow) : (word text).Stands follow := by
  have setOff := Scan.setOff_lineFeed []
  obtain ⟨found, _⟩ := Scan.word?_cut (Scan.word?_append isName setOff) ended
  rw [String.ofList_toList] at found
  refine ⟨LexState.opens_of_isName isName follow, fun state rest => ?_⟩
  have same : Token.lexeme ⟨Kind.ofWord text, String.ofList text.toList,
      state.spanOf ⟨text.toList, follow⟩⟩ = word text := by
    rw [Token.lexeme, String.ofList_toList]
    rfl
  rw [LexState.codeToken_of_isName isName found ended rest, ← same]
  exact ⟨_, LexState.flows_token _ _⟩

variable {lexemes : List Lexeme} {follow : List Char}

theorem opens_line (gaps : Nat → Nat) {first : Lexeme} {others : List Lexeme}
    (coded : ∀ lexeme ∈ first :: others, lexeme.Coded id)
    (stands : ∀ last ∈ (first :: others).getLast?, last.Stands follow) :
    Scan.Opens (line gaps (first :: others) ++ follow) := by
  cases others with
  | nil => exact (stands first rfl).opens
  | cons next others =>
    rw [line, List.append_assoc]
    exact (coded first List.mem_cons_self).opens _ (Scan.setOff_space _)

end Lexeme

/-- The lexemes of a line are yielded one after another. -/
theorem LexState.flows_line {follow : List Char} {lexemes : List Lexeme}
    (coded : ∀ lexeme ∈ lexemes, lexeme.Coded id)
    (stands : ∀ last ∈ lexemes.getLast?, last.Stands follow) (nonempty : lexemes ≠ [])
    (gaps : Nat → Nat) (state : LexState) (atLine : AtLine state)
    (inLine : state.atLineStart = false) (rest : state.rest = Lexeme.line gaps lexemes ++ follow) :
    ∃ position lastKind,
      Flows state.codeToken lexemes { state with rest := follow, position, lastKind } := by
  induction lexemes generalizing gaps state with
  | nil => exact absurd rfl nonempty
  | cons first others inductionHypothesis =>
    cases others with
    | nil =>
      obtain ⟨position, flows⟩ := (stands first rfl).flows state rest
      exact ⟨position, _, flows⟩
    | cons next others =>
      obtain ⟨codedFirst, codedOthers⟩ := List.forall_mem_cons.mp coded
      rw [List.getLast?_cons_cons] at stands
      rw [Lexeme.line, List.append_assoc, List.append_assoc] at rest
      obtain ⟨position, flows⟩ := (codedFirst.stands (Scan.setOff_space _)).flows state rest
      have opens := opens_line (fun index => gaps (index + 1)) codedOthers stands
      have atRead := atLine.moved atLine.noBrackets
        (List.replicate (gaps 0 + 1) ' ' ++
          (Lexeme.line (fun index => gaps (index + 1)) (next :: others) ++ follow))
        position state.atLineStart (some first.kind)
      have step := step_spaces atRead inLine opens rfl
      obtain ⟨last, lastKind, later⟩ :=
        inductionHypothesis codedOthers stands (List.cons_ne_nil _ _)
        _ _ (atLine.moved atLine.noBrackets _ _ state.atLineStart (some first.kind)) inLine rfl
      exact ⟨last, lastKind, flows.trans (yields_of_flows atLine.running (step ▸ later))⟩

end Offside
