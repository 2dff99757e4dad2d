import Offside.Text.Class

/-!
The layout of lines: how far each line of code is indented, and which levels that opens or
closes. Inside brackets lines only continue each other and have no layout.
-/

namespace Offside

/-- The blanks that a line starts with, as measured. -/
structure Indentation where
  width : Nat
  mixed : Bool
deriving DecidableEq, Repr, Inhabited

/-- What a line of code does to the levels. The first line of all continues at its level without
ending a line before it. -/
inductive LineLayout
  | start
  | newline
  | indent
  | dedent (levels : Nat)
deriving DecidableEq, Repr, Inhabited

/-- How listings show what a line does. -/
def LineLayout.listing : LineLayout → String
  | start => "Start"
  | newline => "Newline"
  | indent => "Indent"
  | dedent levels => s!"Dedent({levels})"

/-- A line that returns to a width at which no level stands. The levels above that width are
closed all the same, and the line continues at the level then on top. -/
structure IndentationFault where
  width : Nat
  expected : Nat
  dedents : Nat
deriving DecidableEq, Repr, Inhabited

def IndentationFault.message (fault : IndentationFault) : String :=
  s!"unindent to width {fault.width} does not match any outer indentation level " ++
    s!"(expected {fault.expected})"

/-- The levels open at some point of a text, and the brackets. The level of width zero is always
open and not listed. -/
structure Layout where
  tabWidth : Nat
  /-- The widths of the open levels, the innermost first. -/
  levels : List Nat
  brackets : Nat
  started : Bool
deriving DecidableEq, Repr, Inhabited

namespace Layout

def ofTabWidth (tabWidth : Nat) : Layout :=
  ⟨tabWidth, [], 0, false⟩

def top (layout : Layout) : Nat :=
  layout.levels.headD 0

def depth (layout : Layout) : Nat :=
  layout.levels.length

/-- The number of widths there are: a width is a word of 64 bits and wraps around. -/
def widthCount : Nat :=
  Nat.pow 2 64

/-- The width after one more blank. A form feed or a carriage return starts over. -/
def widen (tabWidth width : Nat) (c : Char) : Nat :=
  if c = ' ' then (width + 1) % widthCount
  else if c = '\t' then (width + tabWidth) % widthCount
  else 0

/-- The indentation of a line that starts with the given text. -/
def measure (layout : Layout) (line : List Char) : Indentation :=
  let blanks := line.takeWhile Text.isBlank
  { width := blanks.foldl (widen layout.tabWidth) 0
    mixed := blanks.contains ' ' && blanks.contains '\t' }

/-- The levels that remain when those above `width` are closed. -/
def closeAbove (width : Nat) (levels : List Nat) : List Nat :=
  levels.dropWhile (width < ·)

/-- What a line of code at `width` does, and the layout after it. -/
def line (layout : Layout) (width : Nat) : Except IndentationFault LineLayout × Layout :=
  let started := { layout with started := true }
  if width = layout.top then
    (.ok (if layout.started then .newline else .start), started)
  else if layout.top < width then
    (.ok .indent, { started with levels := width :: layout.levels })
  else
    let after := { started with levels := closeAbove width layout.levels }
    let dedents := layout.depth - after.depth
    if after.top = width then (.ok (.dedent dedents), after)
    else (.error ⟨width, after.top, dedents⟩, after)

/-- Closes all levels. The number is that of the levels closed. -/
def finish (layout : Layout) : Nat × Layout :=
  (layout.depth, { layout with levels := [] })

def openBracket (layout : Layout) : Layout :=
  { layout with brackets := layout.brackets + 1 }

/-- A bracket that closes nothing leaves the layout as it is. -/
def closeBracket (layout : Layout) : Layout :=
  { layout with brackets := layout.brackets - 1 }

def inBrackets (layout : Layout) : Bool :=
  0 < layout.brackets

end Layout

end Offside
