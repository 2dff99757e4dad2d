import Offside.Text.NameRanges
import Offside.Text.GlyphRanges

/-!
Classes of characters. The ASCII part of each class is spelled out, and the rest is read off the
tables, so a statement about ASCII text never opens a table.
-/

namespace Offside.Text

def isAscii (c : Char) : Bool :=
  c.toNat < 128

/-- A decimal digit, ASCII only. -/
def isDigit (c : Char) : Bool :=
  '0' ≤ c && c ≤ '9'

def isHexDigit (c : Char) : Bool :=
  isDigit c || ('a' ≤ c && c ≤ 'f') || ('A' ≤ c && c ≤ 'F')

def isOctalDigit (c : Char) : Bool :=
  '0' ≤ c && c ≤ '7'

def isLetter (c : Char) : Bool :=
  ('a' ≤ c && c ≤ 'z') || ('A' ≤ c && c ≤ 'Z')

/-- A space or a tab. A line break is never inline blank. -/
def isInlineBlank (c : Char) : Bool :=
  c = ' ' || c = '\t'

/-- A character that moves along a line without being code: an inline blank, a form feed or a
carriage return. -/
def isBlank (c : Char) : Bool :=
  isInlineBlank c || c = '\x0c' || c = '\r'

/-- A character that may start a name: `XID_Start`, `_` or `$`. -/
def isNameStart (c : Char) : Bool :=
  if isAscii c then isLetter c || c = '_' || c = '$' else startRanges.has c

/-- A character that may continue a name: `XID_Continue`, `_` or `$`. -/
def isNameContinue (c : Char) : Bool :=
  isNameStart c || (if isAscii c then isDigit c else continueRanges.has c)

/-- A character that is shown as itself. -/
def isPrintable (c : Char) : Bool :=
  if isAscii c then ' ' ≤ c && c ≤ '~' else !unprintableRanges.has c

/-- A character that combines with the one before it. -/
def isExtending (c : Char) : Bool :=
  !isAscii c && extendingRanges.has c

/-- A character of the Unicode property `White_Space`. -/
def isSpace (c : Char) : Bool :=
  let code := c.toNat
  (9 ≤ code && code ≤ 13) || code = 0x20 || code = 0x85 || code = 0xa0 || code = 0x1680 ||
    (0x2000 ≤ code && code ≤ 0x200a) || code = 0x2028 || code = 0x2029 || code = 0x202f ||
    code = 0x205f || code = 0x3000

/-- The value of a digit in any base up to sixteen; anything else counts as zero. -/
def digitValue (c : Char) : Nat :=
  if isDigit c then c.toNat - '0'.toNat
  else if 'a' ≤ c && c ≤ 'f' then c.toNat - 'a'.toNat + 10
  else if 'A' ≤ c && c ≤ 'F' then c.toNat - 'A'.toNat + 10
  else 0

/-- The number that `digits` spell in the given base, the most significant digit first. -/
def numberOf (base : Nat) (digits : List Char) : Nat :=
  digits.foldl (fun value digit => value * base + digitValue digit) 0

theorem isNameContinue_of_isNameStart {c : Char} (starts : isNameStart c = true) :
    isNameContinue c = true := by
  simp [isNameContinue, starts]

end Offside.Text
