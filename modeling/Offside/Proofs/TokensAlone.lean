import Offside.Proofs.Concatenation
import Offside.Proofs.Parser.TandemText

/-!
A tree depends on tokens alone. Two texts that are split into the same tokens are read alike,
wherever the tokens stand and whatever errors the lexer finds between them. Places decide only where
reading goes on after an error, and all tokens of a text come in order.
-/

namespace Offside

open LexStream ParserState

namespace Tandem

variable {pair : Tandem}

/-- Items correspond if their tokens do, where no error ends them and the errors between them need
not correspond. -/
theorem Items.of_tokens (apart : ¬ pair.inStep) {lefts rights : List LexItem}
    (harmless : ∀ error, .error error ∈ lefts → error.isFatal = false)
    (harmless' : ∀ error, .error error ∈ rights → error.isFatal = false)
    (all : List.Forall₂ pair.Counterparts (tokens lefts) (tokens rights)) :
    pair.Items lefts rights := by
  induction lefts generalizing rights with
  | nil =>
    induction rights with
    | nil => exact .nil
    | cons item rights inductionHypothesis =>
      cases item with
      | token token => cases all
      | error error =>
        exact .rightError apart (harmless' error List.mem_cons_self)
          (inductionHypothesis (fun _ member => harmless' _ (List.mem_cons_of_mem _ member)) all)
  | cons item lefts inductionHypothesis =>
    cases item with
    | error error =>
      exact .leftError apart (harmless error List.mem_cons_self)
        (inductionHypothesis (fun _ member => harmless _ (List.mem_cons_of_mem _ member)) harmless'
          all)
    | token token =>
      induction rights with
      | nil => cases all
      | cons item rights further =>
        cases item with
        | error error =>
          exact .rightError apart (harmless' error List.mem_cons_self)
            (further (fun _ member => harmless' _ (List.mem_cons_of_mem _ member)) all)
        | token token' =>
          cases all with
          | cons counterparts all =>
            exact .token counterparts
              (inductionHypothesis (fun _ member => harmless _ (List.mem_cons_of_mem _ member))
                (fun _ member => harmless' _ (List.mem_cons_of_mem _ member)) all)

end Tandem

/-! ## Texts with the same tokens -/

/-- Two texts that are split into the same tokens, to the end of both, and are read with the same
names of types. -/
structure SameTokens (first second : Input) : Prop where
  types : ∀ name, second.settings.isTypeName name = first.settings.isTypeName name
  endsInEof : EndsInEof first.lexed.items
  tokens : second.tokens.map Token.lexeme = first.tokens.map Token.lexeme
  lineBreaks : second.endsInLineBreak = first.endsInLineBreak

namespace SameTokens

variable {first second : Input} (same : SameTokens first second)

include same

theorem endsInEof_second : EndsInEof second.lexed.items := by
  obtain ⟨token, member, isEnd⟩ := same.endsInEof
  have inTokens : token.lexeme ∈ first.tokens.map Token.lexeme :=
    List.mem_map_of_mem (mem_tokens.mpr member)
  rw [← same.tokens] at inTokens
  obtain ⟨other, isOther, sameLexeme⟩ := List.mem_map.mp inTokens
  exact ⟨other, mem_tokens.mp isOther, (congrArg Lexeme.kind sameLexeme).trans isEnd⟩

/-- The texts in tandem. Nothing is said of places, and of errors that they have the same
messages. -/
def tandem : Tandem where
  left := first
  right := second
  spans _ _ := True
  tells diagnostic other := other.message = diagnostic.message
  spelled := True
  inStep := False
  hinted := false
  join _ _ := trivial
  syntactic message _ := message trivial
  types := same.types
  lineBreaks := same.lineBreaks

theorem counterparts : List.Forall₂ same.tandem.Counterparts first.tokens second.tokens := by
  have lexemes : List.Forall₂ (fun token other : Token => other.lexeme = token.lexeme) first.tokens
      second.tokens := by
    have all : List.Forall₂ Eq (second.tokens.map Token.lexeme) (first.tokens.map Token.lexeme) :=
      List.forall₂_eq_eq_eq ▸ same.tokens
    exact (List.forall₂_map_right_iff.mp (List.forall₂_map_left_iff.mp all)).flip
  refine lexemes.imp fun token other sameLexeme => ?_
  have text := congrArg Lexeme.text sameLexeme
  exact ⟨congrArg Lexeme.kind sameLexeme, fun _ => text, fun _ => text, trivial⟩

theorem answers : same.tandem.Answers := by
  have harmless {input : Input} (ends : EndsInEof input.lexed.items) :
      ∀ error, .error error ∈ input.lexed.items → error.isFatal = false := by
    intro error member
    have terminated : Terminated input.lexed.items := LexState.terminated_stream input.cancelled rfl
    cases isFatal : error.isFatal with
    | false => rfl
    | true => exact absurd ends (terminated.not_both ⟨error, member, isFatal⟩)
  exact Tandem.answers (.of_tokens id (harmless same.endsInEof) (harmless same.endsInEof_second)
    same.counterparts)

end SameTokens

/-- What is wrong with statements of a text: its diagnostics but for those of the lexer. -/
structure Input.Fails (input : Input) (failed : List Diagnostic) : Prop where
  balanced : input.parsed.diagnostics.Perm
    ((tokenize input.settings input.cancelled input.source).diagnostics ++ failed)
  syntactic : ∀ diagnostic ∈ failed, diagnostic.kind = .syntactic ∧ diagnostic.severity = .error

theorem Input.fails (input : Input) : input.Fails input.ended.failed := by
  obtain ⟨reported, result, settled⟩ :=
    settled_ended input.settings input.cancelled input.source
  have accounted := settled.accounted result
  exact ⟨accounted.balanced, accounted.syntactic⟩

/-- Texts with the same tokens have the same tree up to spans, or none, and the same is wrong with
their statements. -/
theorem parse_of_tokens {first second : Input} (same : SameTokens first second) :
    second.parsed.file?.map File.erase = first.parsed.file?.map File.erase ∧
      ∃ failed failed', first.Fails failed ∧ second.Fails failed' ∧
        (failed'.map Diagnostic.message).Perm (failed.map Diagnostic.message) := by
  obtain ⟨trees, failures, _⟩ := same.answers
  constructor
  · change same.tandem.right.parsed.file?.map _ = same.tandem.left.parsed.file?.map _
    generalize same.tandem.left.parsed.file? = tree at trees ⊢
    generalize same.tandem.right.parsed.file? = tree' at trees ⊢
    cases trees with
    | none => rfl
    | @some file file' all =>
      have erased : Statement.eraseAll file'.statements =
          Statement.eraseAll (Statement.unhintAll false file.statements) :=
        (Tandem.statements_same all).1
      rw [Statement.unhintAll_false] at erased
      simp only [Option.map_some, File.erase, erased]
  · refine ⟨_, _, first.fails, second.fails, .of_eq ?_⟩
    have messages : List.Forall₂ (fun error error' : SyntaxError =>
        error'.toDiagnostic.message = error.toDiagnostic.message) first.ended.failures
        second.ended.failures := failures
    rw [failed, failed, List.map_map, List.map_map]
    generalize first.ended.failures = errors at messages
    generalize second.ended.failures = errors' at messages
    induction messages with
    | nil => rfl
    | cons message _ inductionHypothesis =>
      exact congrArg₂ List.cons message inductionHypothesis

/-- A text with a statement that is wrong. -/
def Input.dense : Input :=
  .of default "x + * x\n;\n".toList

/-- The same with blanks, a comment, an empty line and a character that starts no token. -/
def Input.loose : Input :=
  .of ⟨4, [], by decide⟩ "x +  * x // x\n\n@;\n".toList

theorem parse_of_tokens_loose :
    SameTokens .dense .loose ∧
      Input.loose.parsed.file?.map File.erase = Input.dense.parsed.file?.map File.erase ∧
        ∃ failed failed', Input.dense.Fails failed ∧ Input.loose.Fails failed' ∧
          (failed'.map Diagnostic.message).Perm (failed.map Diagnostic.message) := by
  have items : Input.dense.lexed.items =
      (Lexer.ofSource 8 "x + * x\n;\n".toList).answers (List.replicate 8 false) :=
    Lexer.items_eq_answers (by decide +kernel)
  have items' : Input.loose.lexed.items =
      (Lexer.ofSource 4 "x +  * x // x\n\n@;\n".toList).answers (List.replicate 8 false) :=
    Lexer.items_eq_answers (by decide +kernel)
  have lineBreak : Input.dense.endsInLineBreak = true :=
    @Input.endsInLineBreak_of_requests _ _ 8 (by decide +kernel) (by decide +kernel)
  have lineBreak' : Input.loose.endsInLineBreak = true :=
    @Input.endsInLineBreak_of_requests _ _ 8 (by decide +kernel) (by decide +kernel)
  have same : SameTokens .dense .loose := by
    refine ⟨fun _ => rfl, ?_, ?_, lineBreak'.trans lineBreak.symm⟩
    · rw [items]
      exact ⟨.structural .endOfInput (.emptyAt ⟨10, 3, 1⟩), by decide +kernel, rfl⟩
    · rw [Input.tokens, Input.tokens, items, items']
      decide +kernel
  exact ⟨same, parse_of_tokens same⟩

end Offside
