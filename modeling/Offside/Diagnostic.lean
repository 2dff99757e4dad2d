import Offside.Span

/-!
Diagnostics: the problems found in a source text, as they are reported.
-/

namespace Offside

inductive DiagnosticKind
  | indentation
  | unterminatedLiteral
  | invalidEscape
  | invalidNumber
  | invalidCharacterLiteral
  | syntactic
  | cancelled
deriving DecidableEq, Repr, Inhabited

def DiagnosticKind.name : DiagnosticKind → String
  | indentation => "indentation"
  | unterminatedLiteral => "unterminated-literal"
  | invalidEscape => "invalid-escape"
  | invalidNumber => "invalid-number"
  | invalidCharacterLiteral => "invalid-character-literal"
  | syntactic => "syntax"
  | cancelled => "cancelled"

inductive Severity
  | warning
  | error
deriving DecidableEq, Repr, Inhabited

def Severity.name : Severity → String
  | warning => "warning"
  | error => "error"

/-- One problem found in a source text. -/
structure Diagnostic where
  kind : DiagnosticKind
  severity : Severity
  message : String
  span : Span
deriving DecidableEq, Repr, Inhabited

namespace Diagnostic

def isError (diagnostic : Diagnostic) : Bool :=
  diagnostic.severity = .error

/-- The line that a report of the diagnostic starts with. -/
def headline (diagnostic : Diagnostic) : String :=
  s!"{diagnostic.severity.name}[{diagnostic.kind.name}]: {diagnostic.message}"

def anyError (diagnostics : List Diagnostic) : Bool :=
  diagnostics.any isError

/-- The diagnostics in source order. Those that start at one position keep their order. -/
def sorted (diagnostics : List Diagnostic) : List Diagnostic :=
  diagnostics.mergeSort fun left right => left.span.first ≤ right.span.first

theorem sorted_perm (diagnostics : List Diagnostic) : (sorted diagnostics).Perm diagnostics :=
  List.mergeSort_perm _ _

end Diagnostic

end Offside
