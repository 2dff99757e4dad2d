import Offside.Lexer.Error
import Offside.Token

/-!
Errors found while tokens are read as a tree.
-/

namespace Offside

inductive NonTerminal
  | file
  | statement
  | expressionStatement
  | throwStatement
  | block
  | expr
  | identifier
  | literal
  | switch
  | arm
  | pattern
  | armBody
deriving DecidableEq, Repr, Inhabited

inductive Expectation
  | kind (kind : Kind)
  | expression
  | literal
deriving DecidableEq, Repr, Inhabited

def Expectation.title : Expectation → String
  | kind wanted => wanted.title
  | expression => "expression"
  | literal => "literal"

inductive SyntaxFault
  /-- One of several things was expected, and a token of another kind was found. -/
  | expected (expectations : List Expectation) (found : Kind) (text : String)
  | invalidTarget
  | unsupportedDeclaration (keyword : String)
  | unexpectedEnd
  | lexical (error : LexError)
deriving DecidableEq, Repr, Inhabited

def SyntaxFault.message : SyntaxFault → String
  | expected expectations found text =>
    "expected " ++ " or ".intercalate (expectations.map Expectation.title) ++ ", found " ++
      found.describe text
  | invalidTarget =>
    "invalid assignment target, expected an identifier, field access or array access"
  | unsupportedDeclaration keyword => s!"`{keyword}` declarations are not supported"
  | unexpectedEnd => "unexpected end of input"
  | lexical error => error.message

/-- An error at a place, with the parts of the grammar that were being read there, the outermost
first. -/
structure SyntaxError where
  fault : SyntaxFault
  span : Span
  nonTerminals : List NonTerminal
deriving DecidableEq, Repr, Inhabited

namespace SyntaxError

def ofLexError (error : LexError) : SyntaxError :=
  ⟨.lexical error, error.span, []⟩

def lexError? (error : SyntaxError) : Option LexError :=
  match error.fault with
  | .lexical inner => some inner
  | _ => none

def message (error : SyntaxError) : String :=
  error.fault.message

/-- An error of the lexer is reported as such. -/
def toDiagnostic (error : SyntaxError) : Diagnostic :=
  match error.lexError? with
  | some inner => inner.toDiagnostic
  | none => ⟨.syntactic, .error, error.message, error.span⟩

/-- The parts of the grammar by number, one on each line. -/
def listing (label : NonTerminal → String) : Nat → List NonTerminal → String
  | _, [] => ""
  | number, nonTerminal :: nonTerminals =>
    s!"  {number}: {label nonTerminal}\n" ++ listing label (number + 1) nonTerminals

/-- The error at length, with the given names for the parts of the grammar. -/
def report (label : NonTerminal → String) (error : SyntaxError) : String :=
  let stack :=
    if error.nonTerminals = [] then ""
    else "non terminal stack:\n" ++ listing label 0 error.nonTerminals
  s!"syntax error at {error.span.first.lineColumn}: {error.message}\n" ++ stack

end SyntaxError

inductive Abort
  /-- The statement being read is wrong, but the next one may not be. -/
  | recoverable (error : SyntaxError)
  | failure (error : SyntaxError)
  /-- The bound on the depth of the reading was too low. -/
  | exhausted
deriving DecidableEq, Repr, Inhabited

/-- The error that the input is to blame for. -/
def Abort.error? : Abort → Option SyntaxError
  | recoverable error | failure error => some error
  | exhausted => none

/-- The same, with nothing to be tried after it. -/
def Abort.cut : Abort → Abort
  | recoverable error => failure error
  | failure error => failure error
  | exhausted => exhausted

/-- The error at length, with its gravity. -/
def Abort.report (label : NonTerminal → String) : Abort → String
  | recoverable error => "recoverable error: " ++ error.report label
  | failure error => "unrecoverable error: " ++ error.report label
  | exhausted => ""

end Offside
