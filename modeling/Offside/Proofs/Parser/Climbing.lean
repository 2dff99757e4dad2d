import Offside.Proofs.Parser.ReadExpression
import Offside.Proofs.Parser.ReadOutline
import Offside.Proofs.Syntax.Grouping

/-!
Reading operators that stand without parentheses. An expression goes on through every grouping whose
operators bind tightly enough, whatever is behind it, and what comes of it is the grouping.
-/

namespace Offside

open Lexeme

/-! ## How tightly operators bind -/

/-- Operators bind to what is on the left of them by their tiers. -/
theorem BinaryOp.leftBinding_eq (op : BinaryOp) :
    (InfixOp.binary op).leftBinding = 2 * op.level := by
  cases op <;> rfl

/-- To the right of an operator, others of its tier are not gone on with. -/
theorem BinaryOp.rightBinding_eq (op : BinaryOp) :
    (InfixOp.binary op).rightBinding = 2 * op.level + 1 := by
  cases op <;> rfl

theorem InfixOp.leftBinding_lt_prefixBinding (op : InfixOp) : op.leftBinding < prefixBinding := by
  cases op with
  | assign => exact (by decide : 2 < 18)
  | range => decide
  | binary op =>
    rw [BinaryOp.leftBinding_eq]
    cases op <;> decide

namespace Kind

theorem BindsBelow.mono {kind : Kind} {bound higher : Nat} (below : kind.BindsBelow bound)
    (more : bound ≤ higher) : kind.BindsBelow higher :=
  fun op isInfix => Nat.lt_of_lt_of_le (below op isInfix) more

theorem bindsBelow_binaryOp {op : BinaryOp} {bound : Nat} (below : 2 * op.level < bound) :
    (binaryOp op).kind.BindsBelow bound := by
  intro other isInfix
  rw [Expr.ofKind?_binaryOp] at isInfix
  obtain rfl := Option.some.inj isInfix
  rwa [BinaryOp.leftBinding_eq]

end Kind

variable {settings : Settings} {state : ParserState} {next : Lexeme}
  {others rest last : List Lexeme}

theorem Sees.expression_on (sees : Sees settings rest state) {right final : Expr Span → Prop}
    (reads : ∀ after, Sees settings rest after →
      Delivers settings Grammar.operand after right others)
    {minimum : Nat}
    (later : ∀ value after, right value → Sees settings others after →
      Delivers settings (fun fuel => Grammar.climb fuel minimum value) after final last) :
    Delivers settings (fun fuel => Grammar.expression fuel minimum) state final last := by
  apply Delivers.succ
  simp only [Grammar.expression]
  exact (reads state sees).bind later

/-! ## Operands -/

/-- Prefix operators are applied to the name behind them and to nothing else. -/
theorem Prefixed.reads (operand : Prefixed) (stops : next.kind.suffix? = none)
    (sees : Sees settings (operand.lexemes ++ next :: others) state) :
    Delivers settings Grammar.operand state (fun value => value.erase = operand.expr)
      (next :: others) := by
  obtain ⟨operators, name⟩ := operand
  induction operators generalizing state with
  | nil => exact name.readable.operand sees stops
  | cons op operators inductionHypothesis =>
    have isPrefix : PrefixOp.ofKind? (unaryOp op).kind = some (.unary op) := by
      cases op <;> rfl
    have notEnd : (unaryOp op).kind ≠ .endOfInput := by
      cases op <;> exact Kind.noConfusion
    have whole : ∀ {after}, Sees settings ((mk operators name).lexemes ++ next :: others) after →
        Delivers settings (fun fuel => Grammar.expression fuel prefixBinding) after
          (fun value => value.erase = (mk operators name).expr) (next :: others) :=
      fun sees => sees.expression_on (fun _ sees => inductionHypothesis sees)
        fun value _ same sees =>
          (sees.climb_below (fun other _ => other.leftBinding_lt_prefixBinding) value).mono
            fun _ unchanged => unchanged ▸ same
    apply Delivers.succ
    simp only [Grammar.operand]
    refine sees.peekKind.bind fun kind _ sameKind sees => ?_
    simp only [sameKind, isPrefix]
    refine (sees.consume notEnd).bind fun token _ _ sees => ?_
    refine (whole sees).bind fun value _ same sees => Delivers.pure sees ?_
    rw [Grammar.applyPrefix, Expr.erase, same]
    rfl

theorem Prefixed.noLayout (operand : Prefixed) : operand.expr.endsWithLayout = false := by
  obtain ⟨operators, name⟩ := operand
  induction operators with
  | nil => rfl
  | cons op operators inductionHypothesis => exact inductionHypothesis

/-! ## Groupings -/

namespace Grouping

theorem noLayout (grouping : Grouping) : grouping.expr.endsWithLayout = false := by
  induction grouping with
  | operand only => exact only.noLayout
  | binary op left right _ inductionHypothesis => exact inductionHypothesis

/-- A grouping by tiers is read as a whole before an expression goes on, if it binds tightly enough
and the right operand of its last operator does not reach further. -/
theorem reads (grouping : Grouping) (tiered : grouping.Tiered) {minimum : Nat}
    (reached : ∀ top ∈ grouping.top?, minimum ≤ 2 * top.level)
    (stops : next.kind.suffix? = none)
    (below : ∀ top ∈ grouping.top?, next.kind.BindsBelow (2 * top.level + 1))
    (sees : Sees settings (grouping.lexemes ++ next :: others) state) {final : Expr Span → Prop}
    (later : ∀ value after, value.erase = grouping.expr → Sees settings (next :: others) after →
      Delivers settings (fun fuel => Grammar.climb fuel minimum value) after final last) :
    Delivers settings (fun fuel => Grammar.expression fuel minimum) state final last := by
  induction grouping generalizing minimum next others state final last with
  | operand only =>
    rw [lexemes_operand] at sees
    exact sees.expression_on (fun _ sees => only.reads stops sees) later
  | binary op left right inductionLeft inductionRight =>
    obtain ⟨tieredLeft, tieredRight, looser, tighter⟩ := tiered
    have reachedOp := reached op rfl
    have belowOp := below op rfl
    have isInfix := Expr.ofKind?_binaryOp op
    rw [lexemes_binary, List.append_assoc] at sees
    refine inductionLeft tieredLeft (fun top isTop => ?_) (Kind.suffix?_of_ofKind? isInfix)
      (fun top isTop => ?_) sees fun value _ same sees => ?_
    · have atLeast := looser top isTop
      omega
    · have atLeast := looser top isTop
      exact Kind.bindsBelow_binaryOp (by omega)
    · have noLayout : value.endsWithLayout = false := by
        rw [← value.endsWithLayout_erase, same, left.noLayout]
      have upper : ∀ {after}, Sees settings (right.lexemes ++ next :: others) after →
          Delivers settings (fun fuel => Grammar.expression fuel (2 * op.level + 1)) after
            (fun value => value.erase = right.expr) (next :: others) := by
        intro after sees
        refine inductionRight tieredRight (fun top isTop => ?_) stops (fun top isTop => ?_) sees
          fun value _ same sees => (sees.climb_below belowOp value).mono fun _ unchanged =>
            unchanged ▸ same
        · have above := tighter top isTop
          omega
        · have above := tighter top isTop
          exact belowOp.mono (by omega)
      have applied : ∀ span after, Sees settings (right.lexemes ++ next :: others) after →
          Delivers settings (fun fuel => Grammar.applyInfix fuel (.binary op) span value) after
            (fun longer => longer.erase = (binary op left right).expr) (next :: others) := by
        intro span after sees
        apply Delivers.succ
        simp only [Grammar.applyInfix, BinaryOp.rightBinding_eq]
        refine (upper sees).bind fun other _ sameRight sees => Delivers.pure sees ?_
        rw [Expr.erase, same, sameRight]
        rfl
      exact sees.climb_on isInfix (by rwa [BinaryOp.leftBinding_eq]) noLayout applied later

end Grouping

end Offside
