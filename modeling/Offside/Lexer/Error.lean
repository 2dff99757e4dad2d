import Offside.Diagnostic
import Offside.Layout
import Offside.Scan.Numeral
import Offside.Text.Quoted

/-!
Errors found while a text is split into tokens.
-/

namespace Offside

inductive Unterminated
  | blockComment
  | stringLiteral
  | characterLiteral
deriving DecidableEq, Repr, Inhabited

def Unterminated.name : Unterminated → String
  | blockComment => "block comment"
  | stringLiteral => "string literal"
  | characterLiteral => "character literal"

inductive CharacterFault
  | empty
  | several
deriving DecidableEq, Repr, Inhabited

def CharacterFault.message : CharacterFault → String
  | empty => "empty character literal"
  | several => "character literals must contain exactly one character"

/-- What is wrong with a piece of text. -/
inductive LexFault
  | indentation (fault : IndentationFault)
  | mixedIndentation
  | unterminated (construct : Unterminated)
  | invalidEscape (text : String)
  | invalidNumber (text : String) (fault : Scan.NumeralFault)
  | invalidCharacter (text : String) (fault : CharacterFault)
  | unexpectedCharacter (c : Char)
  | cancelled
deriving DecidableEq, Repr, Inhabited

/-- An error with the span of the text it is about. -/
structure LexError where
  fault : LexFault
  span : Span
deriving DecidableEq, Repr, Inhabited

namespace LexFault

def message : LexFault → String
  | indentation fault => fault.message
  | mixedIndentation => "indentation mixes tabs and spaces"
  | unterminated construct => s!"unterminated {construct.name}"
  | invalidEscape text => s!"invalid escape sequence `{text}`"
  | invalidNumber text fault => s!"invalid number `{text}`: {fault.message}"
  | invalidCharacter text fault => s!"invalid character literal `{text}`: {fault.message}"
  | unexpectedCharacter c => s!"unexpected character {Text.Quoted.char c}"
  | cancelled => "parsing was cancelled"

/-- An error that ends the tokens. After every other error they go on. -/
def isFatal : LexFault → Bool
  | unterminated _ | cancelled => true
  | _ => false

def diagnosticKind : LexFault → DiagnosticKind
  | indentation _ | mixedIndentation => .indentation
  | unterminated _ => .unterminatedLiteral
  | invalidEscape _ => .invalidEscape
  | invalidNumber _ _ => .invalidNumber
  | invalidCharacter _ _ => .invalidCharacterLiteral
  | unexpectedCharacter _ => .syntactic
  | cancelled => .cancelled

/-- Mixed indentation only earns a warning. -/
def severity : LexFault → Severity
  | mixedIndentation => .warning
  | _ => .error

end LexFault

namespace LexError

def message (error : LexError) : String :=
  error.fault.message

def isFatal (error : LexError) : Bool :=
  error.fault.isFatal

def toDiagnostic (error : LexError) : Diagnostic :=
  ⟨error.fault.diagnosticKind, error.fault.severity, error.message, error.span⟩

end LexError

end Offside
