import Offside.Proofs.Parser.Operand

/-!
Reading names and literals as they are written.
-/

namespace Offside

open Lexeme

/-! ## Names -/

theorem Sees.identifier {settings : Settings} {state : ParserState} {rest : List Lexeme}
    {name : Identifier Unit} (isIdentifier : IsIdentifier name.name)
    (sees : Sees settings (word name.name :: rest) state) :
    Delivers settings (fun _ => Parser.within .identifier Grammar.identifier) state
      (fun read => read.erase = name) rest := by
  have kind : (word name.name).kind = .identifier := isIdentifier.isUnreserved
  refine Delivers.within sees fun named sees => ?_
  have expected := sees.expect (by rw [kind]; exact Kind.noConfusion)
  rw [kind] at expected
  refine expected.bind fun token _ same sees => Delivers.pure sees ?_
  exact congrArg (fun lexeme => Identifier.mk lexeme.text ()) same

theorem Sees.fieldNames {settings : Settings} {state : ParserState} {rest : List Lexeme}
    {names : List (Identifier Unit)} (identifiers : ∀ name ∈ names, IsIdentifier name.name)
    (sees : Sees settings (otherNames names ++ symbol .rightParen :: rest) state) :
    Delivers settings Grammar.fieldNames state (fun read => read.map Identifier.erase = names)
      (symbol .rightParen :: rest) := by
  induction names generalizing state with
  | nil =>
    apply Delivers.succ
    simp only [Grammar.fieldNames]
    refine (sees.consumeOther (by decide)).bind fun comma _ missing sees => ?_
    rw [missing]
    exact Delivers.pure sees rfl
  | cons name names inductionHypothesis =>
    have first := identifiers name List.mem_cons_self
    have noParen : (word name.name).kind ≠ .symbol .rightParen := by
      rw [show (word name.name).kind = .identifier from first.isUnreserved]
      exact Kind.noConfusion
    apply Delivers.succ
    simp only [Grammar.fieldNames]
    refine (sees.consumeKind Kind.noConfusion).bind fun comma _ found sees => ?_
    rw [Option.isSome_iff_ne_none] at found
    simp only [Option.isNone_iff_eq_none, if_neg found]
    refine (sees.check _).bind fun closes _ same sees => ?_
    simp only [same, decide_eq_false noParen]
    refine (sees.identifier first).bind fun read _ sameName sees => ?_
    have later : ∀ other ∈ names, IsIdentifier other.name := fun other member =>
      identifiers other (List.mem_cons_of_mem name member)
    refine (inductionHypothesis later sees).bind fun more _ sameMore sees => ?_
    exact Delivers.pure sees (by rw [List.map_cons, sameName, sameMore])

/-! ## Literals -/

/-- The literal that a single token stands for. -/
def Kind.literal? : Kind → Option (Literal Unit)
  | .integer value => some (.integer value ())
  | .char value => some (.char value ())
  | .boolean value => some (.boolean value ())
  | .nothing => some (.nothing ())
  | .placeholder => some (.placeholder ())
  | _ => none

theorem Kind.isLiteral_of_literal? {kind : Kind} {literal : Literal Unit}
    (isLiteral : kind.literal? = some literal) :
    kind.startsPrimary = true ∧ kind.isLiteral = true ∧ kind ≠ .stringStart ∧
      kind ≠ .endOfInput := by
  cases kind
  all_goals first | exact ⟨rfl, rfl, Kind.noConfusion, Kind.noConfusion⟩ | contradiction

theorem Sees.simpleLiteral {settings : Settings} {state : ParserState} {lexeme : Lexeme}
    {rest : List Lexeme} (sees : Sees settings (lexeme :: rest) state) {literal : Literal Unit}
    (isLiteral : lexeme.kind.literal? = some literal) :
    Delivers settings (fun _ => Grammar.simpleLiteral) state (fun read => read.erase = literal)
      rest := by
  refine (sees.consume (Kind.isLiteral_of_literal? isLiteral).2.2.2).bind
    fun token after same seesRest => ?_
  obtain ⟨kind, text, span⟩ := token
  subst same
  change kind.literal? = some literal at isLiteral
  cases kind
  all_goals first | contradiction | (obtain rfl := Option.some.inj isLiteral)
  all_goals exact Delivers.pure seesRest rfl

/-- The literal is read back anywhere. -/
structure Literal.Readable (settings : Settings) (literal : Literal Unit) : Prop where
  starts : ∃ first others, literal.lexemes = first :: others ∧ first.kind.startsPrimary = true ∧
    (first.kind.isLiteral || first.kind = .stringStart) = true
  reads : ∀ {state rest}, Sees settings (literal.lexemes ++ rest) state →
    Delivers settings Grammar.literal state (fun read => read.erase = literal) rest

theorem Literal.readable_of_literal? {settings : Settings} {literal : Literal Unit}
    {lexeme : Lexeme} (lexemes : literal.lexemes = [lexeme])
    (isLiteral : lexeme.kind.literal? = some literal) : literal.Readable settings := by
  obtain ⟨starts, single, noString, _⟩ := Kind.isLiteral_of_literal? isLiteral
  refine ⟨⟨lexeme, [], lexemes, starts, by rw [single]; rfl⟩, ?_⟩
  rw [lexemes]
  intro state rest sees
  apply Delivers.succ
  simp only [Grammar.literal]
  refine (sees.check _).bind fun opens _ same sees => ?_
  simp only [same, decide_eq_false noString]
  exact sees.simpleLiteral isLiteral

/-- The inside of a string is read back, with its end. -/
def StringPart.ReadableAll (settings : Settings) (parts : List (StringPart Unit)) : Prop :=
  ∀ ⦃state rest⦄, Sees settings (StringPart.lexemesAll parts ++ stringEnd :: rest) state →
    Delivers settings Grammar.stringParts state (fun read => StringPart.eraseAll read.1 = parts)
      rest

theorem Literal.readable_string {settings : Settings} {parts : List (StringPart Unit)}
    (readable : StringPart.ReadableAll settings parts) :
    (Literal.string parts ()).Readable settings := by
  refine ⟨⟨stringStart, _, rfl, rfl, rfl⟩, ?_⟩
  intro state rest sees
  rw [Literal.lexemes, List.cons_append, List.append_assoc] at sees
  apply Delivers.succ
  simp only [Grammar.literal]
  refine (sees.check .stringStart).bind fun opens _ same sees => ?_
  simp only [same, decide_eq_true (show stringStart.kind = .stringStart from rfl)]
  refine (sees.consume Kind.noConfusion).bind fun start _ _ sees => ?_
  refine (readable sees).bind fun read _ same sees => ?_
  exact Delivers.pure sees (by rw [Literal.erase, same])

namespace StringPart

variable {settings : Settings} {parts : List (StringPart Unit)}

theorem readableAll_nil : ReadableAll settings [] := by
  intro state rest sees
  apply Delivers.succ
  simp only [Grammar.stringParts]
  refine (sees.consume Kind.noConfusion).bind fun token _ same sees => ?_
  have kind : token.kind = .stringEnd := congrArg Lexeme.kind same
  simp only [kind]
  exact Delivers.pure sees rfl

theorem readableAll_fragment {text : String} (later : ReadableAll settings parts) :
    ReadableAll settings (.fragment text :: parts) := by
  intro state rest sees
  apply Delivers.succ
  simp only [Grammar.stringParts]
  refine (sees.consume Kind.noConfusion).bind fun token _ same sees => ?_
  have kind : token.kind = .stringFragment text := congrArg Lexeme.kind same
  simp only [kind]
  refine (later sees).bind fun read _ same sees => ?_
  exact Delivers.pure sees (by rw [eraseAll, same, erase])

theorem readableAll_interpolation {value : Expr Unit} (readable : value.Readable settings)
    (later : ReadableAll settings parts) :
    ReadableAll settings (.interpolation value :: parts) := by
  intro state rest sees
  rw [lexemesAll, List.cons_append, List.append_assoc] at sees
  apply Delivers.succ
  simp only [Grammar.stringParts]
  refine (sees.consume Kind.noConfusion).bind fun token _ same sees => ?_
  have kind : token.kind = .interpolationStart := congrArg Lexeme.kind same
  simp only [kind]
  refine (Delivers.within sees fun named sees => readable.whole rfl sees).bind
    fun read _ sameValue sees => ?_
  refine (sees.expect Kind.noConfusion).discard.bind fun _ _ _ sees => ?_
  refine (later sees).bind fun more _ same sees => ?_
  exact Delivers.pure sees (by rw [eraseAll, same, erase, sameValue])

end StringPart

/-! ## Names and literals as expressions -/

namespace Expr

variable {settings : Settings}

theorem readable_identifier {name : Identifier Unit} (isIdentifier : IsIdentifier name.name) :
    (Expr.identifier name).Readable settings := by
  have kind : (word name.name).kind = .identifier := isIdentifier.isUnreserved
  refine .of_atomic rfl rfl (by rw [kind]; rfl) rfl ?_
  intro state rest sees
  apply Delivers.succ
  simp only [Grammar.primary]
  refine sees.peek.bind fun token _ same sees => ?_
  have tokenKind : token.kind = .identifier := (congrArg Lexeme.kind same).trans kind
  simp only [tokenKind]
  refine (sees.identifier isIdentifier).bind fun read _ sameName sees => ?_
  exact Delivers.pure sees (by rw [erase, sameName])

theorem readable_literal {literal : Literal Unit} (readable : literal.Readable settings) :
    (Expr.literal literal).Readable settings := by
  obtain ⟨first, more, lexemes, starts, isLiteral⟩ := readable.starts
  refine .of_atomic rfl lexemes starts rfl ?_
  intro state rest sees
  change Sees settings (literal.lexemes ++ rest) state at sees
  rw [lexemes, List.cons_append] at sees
  apply Delivers.succ
  simp only [Grammar.primary]
  refine sees.peek.bind fun token after same sees => ?_
  have tokenKind : first.kind = token.kind := (congrArg Lexeme.kind same).symm
  rw [← List.cons_append, ← lexemes] at sees
  have reads : Delivers settings (fun fuel => do
      return Expr.literal (← Parser.within .literal (Grammar.literal fuel))) after
      (fun value => value.erase = Expr.literal literal) rest := by
    refine (Delivers.within sees fun named sees => readable.reads sees).bind
      fun read _ same sees => ?_
    exact Delivers.pure sees (by rw [erase, same])
  refine reads.congr fun fuel => ?_
  rw [tokenKind] at isLiteral
  split
  next isIdentifier =>
    rw [isIdentifier] at isLiteral
    contradiction
  next isParen =>
    rw [isParen] at isLiteral
    contradiction
  next => rw [if_pos isLiteral]

end Expr

end Offside
