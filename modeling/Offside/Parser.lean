import Offside.Parser.Grammar

/-!
Reading parts of the grammar from the tokens at hand. Each reader names its part in the errors it
meets and brings the fuel that its rule needs.
-/

namespace Offside.Parser

def expr : Parser (Expr Span) :=
  within .expr (fueled fun fuel => Grammar.expression fuel 0)

def identifier : Parser (Identifier Span) :=
  within .identifier Grammar.identifier

def literal : Parser (Literal Span) :=
  within .literal (fueled Grammar.literal)

def statement : Parser (Statement Span) :=
  within .statement (fueled Grammar.statement)

def expressionStatement : Parser (Action Span) :=
  within .expressionStatement (fueled Grammar.expressionStatement)

def throwStatement : Parser (Action Span) :=
  within .throwStatement (fueled Grammar.throwStatement)

def block : Parser (Action Span) :=
  within .block (fueled Grammar.block)

def switch : Parser (Expr Span) :=
  within .switch (fueled Grammar.switch)

def arm : Parser (Arm Span) :=
  within .arm (fueled Grammar.arm)

def pattern : Parser (Pattern Span) :=
  within .pattern (fueled Grammar.pattern)

def armBody : Parser (Action Span) :=
  within .armBody (fueled Grammar.armBody)

def file : Parser (File Span) :=
  within .file (fueled Grammar.file)

/-- Statements up to a token of the given kind or the end of input. -/
def statementsUntil (last : Kind) : Parser (List (Statement Span)) :=
  fueled fun fuel => Grammar.statementsUntil fuel last

/-- Whether an expression can start at the next token. -/
def startsExpr : Parser Bool := do
  return (← peekKind).startsExpression

/-- An expression, if one can start at the next token. -/
def expr? : Parser (Option (Expr Span)) := do
  if ← startsExpr then
    return some (← expr)
  else
    return none

end Offside.Parser
