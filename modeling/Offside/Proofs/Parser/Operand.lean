import Offside.Parser.Grammar
import Offside.Proofs.Parser.Reading
import Offside.Proofs.Syntax.Erase
import Offside.Proofs.Syntax.Spelling

/-!
Where expressions end and how operands go on. An expression that is read back as a whole, up to
a token that ends every expression, is read back as an operand in parentheses.
-/

namespace Offside

open Lexeme

namespace Kind

/-- Kinds that nothing in an expression goes on with. -/
def endsExpression : Kind → Bool
  | .symbol .comma | .symbol .colon | .symbol .semicolon | .symbol .arrow | .symbol .rightParen
  | .symbol .rightBracket | .interpolationEnd | .newline | .indent | .dedent | .endOfInput => true
  | _ => false

/-- If tokens of the kind are an infix operator, it binds more loosely than the bound. -/
def BindsBelow (kind : Kind) (bound : Nat) : Prop :=
  ∀ op, InfixOp.ofKind? kind = some op → op.leftBinding < bound

/-- The rule by which a token goes on with an operand. -/
def suffix? : Kind → Option (Nat → Expr Span → Parser (Expr Span))
  | .symbol .plusPlus => some fun _ => Grammar.updated .increment
  | .symbol .minusMinus => some fun _ => Grammar.updated .decrement
  | .symbol .bang => some Grammar.unwrapped
  | .symbol .question => some Grammar.extracted
  | .symbol .questionDot => some fun _ => Grammar.optionalField
  | .symbol .dot => some Grammar.field
  | .symbol .leftBracket => some Grammar.indexed
  | .symbol .leftParen => some Grammar.called
  | _ => none

/-- Kinds that a name, a literal or an expression in parentheses starts with. -/
def startsPrimary : Kind → Bool
  | .identifier | .integer _ | .char _ | .stringStart | .boolean _ | .nothing | .placeholder
  | .symbol .leftParen => true
  | _ => false

variable {kind : Kind}

theorem bindsBelow_of_none {bound : Nat} (noInfix : InfixOp.ofKind? kind = none) :
    kind.BindsBelow bound := by
  intro op isInfix
  rw [noInfix] at isInfix
  contradiction

theorem ofKind?_of_endsExpression (ends : kind.endsExpression = true) :
    InfixOp.ofKind? kind = none := by
  unfold endsExpression at ends
  split at ends
  all_goals first | rfl | contradiction

theorem suffix?_of_endsExpression (ends : kind.endsExpression = true) : kind.suffix? = none := by
  unfold endsExpression at ends
  split at ends
  all_goals first | rfl | contradiction

theorem startsExpression_of_endsExpression (ends : kind.endsExpression = true) :
    kind.startsExpression = false := by
  unfold endsExpression at ends
  split at ends
  all_goals first | rfl | contradiction

theorem endsExpression_of_isStructural (structural : kind.isStructural = true) :
    kind.endsExpression = true := by
  unfold isStructural at structural
  split at structural
  all_goals first | rfl | contradiction

theorem isDeclaration_of_startsExpression (starts : kind.startsExpression = true) :
    kind.isDeclaration = false := by
  unfold isDeclaration
  split
  next word => cases word <;> first | rfl | contradiction
  next => rfl

theorem suffix?_of_ofKind? {op : InfixOp} (isInfix : InfixOp.ofKind? kind = some op) :
    kind.suffix? = none := by
  unfold InfixOp.ofKind? at isInfix
  split at isInfix
  all_goals first | rfl | contradiction

theorem startsExpression_of_startsPrimary (starts : kind.startsPrimary = true) :
    kind.startsExpression = true := by
  cases kind
  case symbol symbol => cases symbol <;> first | rfl | contradiction
  all_goals first | rfl | contradiction

theorem prefix_of_startsPrimary (starts : kind.startsPrimary = true) :
    PrefixOp.ofKind? kind = none := by
  cases kind
  case symbol symbol => cases symbol <;> first | rfl | contradiction
  all_goals first | rfl | contradiction

end Kind

theorem Grammar.suffixes_succ (fuel : Nat) (value : Expr Span) :
    Grammar.suffixes (fuel + 1) value = (do
      match (← Parser.peekKind).suffix? with
      | some rule => Grammar.suffixes fuel (← rule fuel value)
      | none => return value) := by
  rw [Grammar.suffixes]
  refine congrArg (Parser.peekKind >>= ·) (funext fun kind => ?_)
  split
  case h_9 =>
    rw [Kind.suffix?]
    all_goals assumption
  all_goals rfl

namespace Sees

variable {settings : Settings} {state : ParserState} {next : Lexeme} {others rest : List Lexeme}

/-! ## Where expressions end -/

theorem suffixes_stop (sees : Sees settings (next :: others) state)
    (stops : next.kind.suffix? = none) (value : Expr Span) :
    Delivers settings (fun fuel => Grammar.suffixes fuel value) state (fun read => read = value)
      (next :: others) := by
  apply Delivers.succ
  simp only [Grammar.suffixes_succ]
  refine sees.peekKind.bind fun kind after same sees => ?_
  rw [same, stops]
  exact Delivers.pure sees rfl

/-- Nothing that binds tightly enough goes on with the expression. -/
theorem climb_below (sees : Sees settings (next :: others) state) {minimum : Nat}
    (below : next.kind.BindsBelow minimum) (value : Expr Span) :
    Delivers settings (fun fuel => Grammar.climb fuel minimum value) state
      (fun read => read = value) (next :: others) := by
  apply Delivers.succ
  simp only [Grammar.climb]
  split
  next => exact Delivers.pure sees rfl
  next =>
    refine sees.peekKind.bind fun kind _ same sees => ?_
    rw [same]
    split
    next => exact Delivers.pure sees rfl
    next isInfix =>
      simp only [if_pos (below _ isInfix)]
      exact Delivers.pure sees rfl

theorem climb_stop (sees : Sees settings (next :: others) state)
    (stops : InfixOp.ofKind? next.kind = none) (minimum : Nat) (value : Expr Span) :
    Delivers settings (fun fuel => Grammar.climb fuel minimum value) state
      (fun read => read = value) (next :: others) :=
  sees.climb_below (Kind.bindsBelow_of_none stops) value

/-- An infix operator after an expression is applied, and what comes of it is gone on with. -/
theorem climb_on {lexeme : Lexeme} {more last : List Lexeme}
    (sees : Sees settings (lexeme :: rest) state)
    {op : InfixOp} (isInfix : InfixOp.ofKind? lexeme.kind = some op) {minimum : Nat}
    (binds : minimum ≤ op.leftBinding)
    {left : Expr Span} (noLayout : left.endsWithLayout = false) {right final : Expr Span → Prop}
    (reads : ∀ span after, Sees settings rest after →
      Delivers settings (fun fuel => Grammar.applyInfix fuel op span left) after right more)
    (later : ∀ longer after, right longer → Sees settings more after →
      Delivers settings (fun fuel => Grammar.climb fuel minimum longer) after final last) :
    Delivers settings (fun fuel => Grammar.climb fuel minimum left) state final last := by
  have notEnd : lexeme.kind ≠ .endOfInput := by
    rintro isEnd
    rw [isEnd] at isInfix
    exact nomatch isInfix
  apply Delivers.succ
  simp only [Grammar.climb, noLayout]
  refine sees.peekKind.bind fun kind _ same sees => ?_
  simp only [same, isInfix, if_neg (Nat.not_lt_of_le binds)]
  refine (sees.consume notEnd).bind fun token _ _ sees => ?_
  exact (reads _ _ sees).bind later

/-- An infix operator after an expression is applied, and then the expression ends. -/
theorem climb_infix {lexeme : Lexeme} (sees : Sees settings (lexeme :: rest) state)
    {op : InfixOp} (isInfix : InfixOp.ofKind? lexeme.kind = some op) {minimum : Nat}
    (binds : minimum ≤ op.leftBinding)
    {left : Expr Span} (noLayout : left.endsWithLayout = false) {right : Expr Span → Prop}
    (ends : next.kind.endsExpression = true)
    (reads : ∀ span after, Sees settings rest after →
      Delivers settings (fun fuel => Grammar.applyInfix fuel op span left) after right
        (next :: others)) :
    Delivers settings (fun fuel => Grammar.climb fuel minimum left) state right
      (next :: others) := by
  refine sees.climb_on isInfix binds noLayout reads fun longer _ holds sees => ?_
  refine (sees.climb_stop (Kind.ofKind?_of_endsExpression ends) minimum longer).mono ?_
  rintro read rfl
  exact holds

/-- Nothing goes on with the operand. -/
theorem expression_stop (sees : Sees settings rest state) {right : Expr Span → Prop}
    (reads : ∀ after, Sees settings rest after →
      Delivers settings Grammar.operand after right (next :: others))
    (stops : InfixOp.ofKind? next.kind = none) (minimum : Nat) :
    Delivers settings (fun fuel => Grammar.expression fuel minimum) state right
      (next :: others) := by
  apply Delivers.succ
  simp only [Grammar.expression]
  refine (reads state sees).bind fun value _ holds sees => ?_
  refine (sees.climb_stop stops minimum value).mono ?_
  rintro read rfl
  exact holds

/-- One infix operator goes on with the operand. -/
theorem expression_infix {lexeme : Lexeme} {later : List Lexeme} (sees : Sees settings rest state)
    {left : Expr Unit} (noLayout : left.endsWithLayout = false)
    (readsLeft : ∀ after, Sees settings rest after →
      Delivers settings Grammar.operand after (fun value => value.erase = left)
        (lexeme :: later))
    {op : InfixOp} (isInfix : InfixOp.ofKind? lexeme.kind = some op) {right : Expr Span → Prop}
    (ends : next.kind.endsExpression = true)
    (reads : ∀ value span after, value.erase = left → Sees settings later after →
      Delivers settings (fun fuel => Grammar.applyInfix fuel op span value) after right
        (next :: others)) :
    Delivers settings (fun fuel => Grammar.expression fuel 0) state right (next :: others) := by
  apply Delivers.succ
  simp only [Grammar.expression]
  refine (readsLeft state sees).bind fun value _ same sees => ?_
  have noLayoutValue : value.endsWithLayout = false := by
    rw [← value.endsWithLayout_erase, same, noLayout]
  exact sees.climb_infix isInfix (Nat.zero_le _) noLayoutValue ends
    fun span after seesLater => reads value span after same seesLater

/-- What starts like a name, a literal or an expression in parentheses is one, and goes on with
suffixes. -/
theorem operand_primary (sees : Sees settings (next :: rest) state)
    (starts : next.kind.startsPrimary = true) {right : Expr Span → Prop}
    (reads : ∀ after, Sees settings (next :: rest) after →
      Delivers settings (fun fuel => Grammar.primary fuel >>= Grammar.suffixes fuel) after right
        others) :
    Delivers settings Grammar.operand state right others := by
  apply Delivers.succ
  simp only [Grammar.operand]
  refine sees.peekKind.bind fun kind after same sees => ?_
  rw [← same] at starts
  refine (reads after sees).congr fun fuel => ?_
  have noPrefix := Kind.prefix_of_startsPrimary starts
  split
  next isPrefix =>
    rw [noPrefix] at isPrefix
    contradiction
  all_goals first | rfl | exact nomatch starts

end Sees

/-! ## Expressions that are read back -/

/-- The expression is read back as a whole where an expression ends, and as an operand
anywhere. -/
structure Expr.Readable (settings : Settings) (expr : Expr Unit) : Prop where
  whole : ∀ {state next others}, next.kind.endsExpression = true →
    Sees settings (expr.lexemes ++ next :: others) state →
      Delivers settings (fun fuel => Grammar.expression fuel 0) state
        (fun value => value.erase = expr) (next :: others)
  primary : ∀ {state rest}, Sees settings (expr.enclosed expr.lexemes ++ rest) state →
    Delivers settings Grammar.primary state (fun value => value.erase = expr) rest
  starts : ∃ first others, expr.lexemes = first :: others ∧ first.kind.startsExpression = true
  startsEnclosed : ∃ first others,
    expr.enclosed expr.lexemes = first :: others ∧ first.kind.startsPrimary = true
  noLayout : expr.endsWithLayout = false

namespace Expr.Readable

variable {settings : Settings} {expr : Expr Unit} {state : ParserState} {next : Lexeme}
  {others rest last : List Lexeme}

/-- A name or a literal is an operand as it is. -/
theorem of_atomic (atomic : expr.isAtomic = true) {first : Lexeme} {more : List Lexeme}
    (lexemes : expr.lexemes = first :: more) (starts : first.kind.startsPrimary = true)
    (noLayout : expr.endsWithLayout = false)
    (reads : ∀ {state rest}, Sees settings (expr.lexemes ++ rest) state →
      Delivers settings Grammar.primary state (fun value => value.erase = expr) rest) :
    expr.Readable settings := by
  have enclosed : expr.enclosed expr.lexemes = expr.lexemes := if_pos atomic
  refine ⟨?_, ?_, ?_, ?_, noLayout⟩
  · intro state next others ends sees
    refine sees.expression_stop (fun after sees => ?_) (Kind.ofKind?_of_endsExpression ends) 0
    rw [lexemes, List.cons_append] at sees
    refine sees.operand_primary starts fun after sees => ?_
    rw [← List.cons_append, ← lexemes] at sees
    refine (reads sees).bind fun value after same sees => ?_
    refine (sees.suffixes_stop (Kind.suffix?_of_endsExpression ends) value).mono ?_
    rintro read rfl
    exact same
  · rw [enclosed]
    exact reads
  · exact ⟨first, more, lexemes, Kind.startsExpression_of_startsPrimary starts⟩
  · rw [enclosed]
    exact ⟨first, more, lexemes, starts⟩

/-- Any other expression is an operand in parentheses. -/
theorem of_compound (compound : expr.isAtomic = false)
    (starts : ∃ first others, expr.lexemes = first :: others ∧
      first.kind.startsExpression = true)
    (noLayout : expr.endsWithLayout = false)
    (reads : ∀ {state next others}, next.kind.endsExpression = true →
      Sees settings (expr.lexemes ++ next :: others) state →
        Delivers settings (fun fuel => Grammar.expression fuel 0) state
          (fun value => value.erase = expr) (next :: others)) :
    expr.Readable settings := by
  have enclosed : expr.enclosed expr.lexemes = parenthesized expr.lexemes := by
    rw [Expr.enclosed, compound]
    rfl
  refine ⟨reads, ?_, starts, ?_, noLayout⟩
  · rw [enclosed]
    intro state rest sees
    rw [parenthesized, bracketed, List.cons_append, List.append_assoc] at sees
    apply Delivers.succ
    simp only [Grammar.primary]
    refine sees.peek.bind fun token after same sees => ?_
    have isParen : token.kind = .symbol .leftParen := congrArg Lexeme.kind same
    simp only [isParen]
    refine (sees.consume Kind.noConfusion).discard.bind fun _ after _ sees => ?_
    refine (Delivers.within sees fun named sees => reads rfl sees).bind fun value _ same sees => ?_
    refine (sees.expect Kind.noConfusion).discard.bind fun _ _ _ sees => ?_
    exact Delivers.pure sees same
  · rw [enclosed]
    exact ⟨_, _, rfl, rfl⟩

variable (readable : expr.Readable settings)

include readable

/-- An operand goes on with suffixes. -/
theorem suffixed (sees : Sees settings (expr.enclosed expr.lexemes ++ rest) state)
    {right : Expr Span → Prop}
    (reads : ∀ value after, value.erase = expr → Sees settings rest after →
      Delivers settings (fun fuel => Grammar.suffixes fuel value) after right last) :
    Delivers settings Grammar.operand state right last := by
  obtain ⟨first, more, lexemes, starts⟩ := readable.startsEnclosed
  rw [lexemes, List.cons_append] at sees
  refine sees.operand_primary starts fun after sees => ?_
  rw [← List.cons_append, ← lexemes] at sees
  exact (readable.primary sees).bind reads

theorem operand (sees : Sees settings (expr.enclosed expr.lexemes ++ next :: others) state)
    (stops : next.kind.suffix? = none) :
    Delivers settings Grammar.operand state (fun value => value.erase = expr)
      (next :: others) := by
  refine readable.suffixed sees fun value after same sees => ?_
  refine (sees.suffixes_stop stops value).mono ?_
  rintro read rfl
  exact same

/-- An operand at which the expression ends, after an operator that binds however tightly. -/
theorem expression (sees : Sees settings (expr.enclosed expr.lexemes ++ next :: others) state)
    (ends : next.kind.endsExpression = true) (minimum : Nat) :
    Delivers settings (fun fuel => Grammar.expression fuel minimum) state
      (fun value => value.erase = expr) (next :: others) :=
  sees.expression_stop
    (fun _ sees => readable.operand sees (Kind.suffix?_of_endsExpression ends))
    (Kind.ofKind?_of_endsExpression ends) minimum

end Expr.Readable

end Offside
