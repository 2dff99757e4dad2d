import Offside.Lexer
import Offside.Settings

/-!
Whole texts as tokens.
-/

namespace Offside

/-- The tokens of a text, and the problems found between them in source order. -/
structure Tokenized where
  tokens : List Token
  diagnostics : List Diagnostic
deriving DecidableEq, Repr, Inhabited

namespace LexItem

def token? : LexItem → Option Token
  | .token found => some found
  | .error _ => none

def error? : LexItem → Option LexError
  | .token _ => none
  | .error found => some found

end LexItem

/-- Splits a text into tokens, up to its end or the first fatal error. -/
def tokenize (settings : Settings) (cancelled : Bool) (source : List Char) : Tokenized :=
  let items := (Lexer.ofSource settings.tabWidth source).items cancelled
  { tokens := items.filterMap LexItem.token?
    diagnostics := Diagnostic.sorted ((items.filterMap LexItem.error?).map LexError.toDiagnostic) }

end Offside
