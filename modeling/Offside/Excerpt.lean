import Offside.Span
import Offside.Text.Class

/-!
Excerpts of a source text: the lines around a span, and a message shown above them with the span
marked.
-/

namespace Offside

/-- A line of a source text, without its line break. -/
structure SourceLine where
  number : Nat
  /-- The column to point at: where the span starts, on the line where it does. -/
  column : Nat
  offset : Nat
  text : List Char
deriving DecidableEq, Repr, Inhabited

namespace Excerpt

/-- The pieces of a text between its line feeds. There is always one. -/
def splitLines : List Char → List (List Char)
  | [] => [[]]
  | c :: text =>
    if c = '\n' then [] :: splitLines text
    else
      match splitLines text with
      | [] => [[c]]
      | first :: others => (c :: first) :: others

def stripReturn (line : List Char) : List Char :=
  if line.getLast? = some '\r' then line.dropLast else line

def numbered : Nat → Nat → List (List Char) → List (Nat × Nat × List Char)
  | _, _, [] => []
  | number, offset, line :: lines =>
    (number, offset, line) :: numbered (number + 1) (offset + Text.byteLength line + 1) lines

/-- The line that a span starts on, with up to `before` lines before it and `after` lines after
it. -/
def lines (before after : Nat) (source : List Char) (span : Span) : List SourceLine :=
  let base := span.first.line
  (numbered 1 0 (splitLines source)).filterMap fun (number, offset, line) =>
    if max 1 (base - before) ≤ number ∧ number ≤ base + after then
      some
        { number, offset
          column := if number = base then span.first.column else 1
          text := stripReturn line }
    else none

def trimEnd (text : List Char) : List Char :=
  (text.reverse.dropWhile Text.isSpace).reverse

/-- The decimal digits of a line number, right-aligned in a column. -/
def gutter (width number : Nat) : List Char :=
  let digits := (toString number).toList
  List.replicate (width - digits.length) ' ' ++ digits

/-- The number of characters of a span that are on the line it starts on. -/
def markWidth (span : Span) (line : SourceLine) : Nat :=
  if span.last.line = line.number then span.last.column - span.first.column
  else line.text.length - (line.column - 1)

/-- Marks under the part of a span that is on a line, or a pointer to where that would be. -/
def marker (width : Nat) (span : Span) (line : SourceLine) : List Char :=
  let margin := List.replicate (width + 3) ' '
  let skipped := line.column - 1
  let marked := markWidth span line
  if 0 < marked then margin ++ List.replicate skipped ' ' ++ List.replicate marked '~'
  else margin ++ List.replicate skipped '-' ++ ['^']

/-- A message, and below it the place of the span and the lines up to where it starts. -/
def render (message : String) (source : List Char) (name : String) (span? : Option Span) :
    String :=
  match span? with
  | none => message ++ "\n"
  | some span =>
    let shown := lines 2 0 source span
    let widest := (shown.map SourceLine.number).foldl max 0
    let width := (toString widest).length
    let texts := shown.flatMap fun line =>
      let text := gutter width line.number ++ [' ', '|', ' '] ++ trimEnd line.text ++ ['\n']
      if line.number = span.first.line then text ++ marker width span line ++ ['\n'] else text
    message ++ "\n  -> " ++ name ++ ":" ++ span.first.lineColumn ++ "\n" ++ String.ofList texts

end Excerpt

end Offside
