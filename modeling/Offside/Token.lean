import Offside.Token.Kind
import Offside.Span

/-!
Tokens of a source text.
-/

namespace Offside

/-- A token with the text it is written as and the span of that text. Layout tokens have no
text. -/
structure Token where
  kind : Kind
  text : String
  span : Span
deriving DecidableEq, Repr, Inhabited

namespace Token

def structural (kind : Kind) (span : Span) : Token :=
  ⟨kind, "", span⟩

def describe (token : Token) : String :=
  token.kind.describe token.text

def listing (token : Token) : String :=
  token.kind.listing token.text

end Token

end Offside
