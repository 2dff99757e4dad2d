import Offside.Position
import Offside.Text.Slice

/-!
Spans: stretches of a source text between two positions.
-/

namespace Offside

/-- The stretch of a source text from `first` up to `last`. -/
structure Span where
  first : Position
  last : Position
deriving DecidableEq, Repr, Inhabited

namespace Span

def emptyAt (position : Position) : Span :=
  ⟨position, position⟩

def origin : Span :=
  .emptyAt .start

def after (span : Span) : Span :=
  .emptyAt span.last

/-- The smallest span that covers both. -/
def join (left right : Span) : Span :=
  ⟨min left.first right.first, max left.last right.last⟩

/-- The number of bytes covered, as a word of 64 bits. -/
def length (span : Span) : Nat :=
  (span.last.offset + Nat.pow 2 64 - span.first.offset) % Nat.pow 2 64

def isEmpty (span : Span) : Bool :=
  span.length = 0

/-- The text that a span covers in `source`. A span out of bounds or not between characters
covers none. -/
def text? (span : Span) (source : List Char) : Option (List Char) :=
  Text.slice? source span.first.offset span.last.offset

/-- Spans are compared by their starts, then by their ends. -/
def order (left right : Span) : Ordering :=
  if left.first ≠ right.first then if left.first ≤ right.first then .lt else .gt
  else if left.last = right.last then .eq
  else if left.last ≤ right.last then .lt else .gt

def lineColumns (span : Span) : String :=
  s!"{span.first.lineColumn}-{span.last.lineColumn}"

def listing (span : Span) : String :=
  s!"{span.first.listing}..{span.last.listing}"

end Span

end Offside
