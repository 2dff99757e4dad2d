import Offside.Text.Class

/-!
Quoted text: how characters are written between quotes, so that each is visible and the text
stays on one line. A character without a glyph of its own is written by its code point.
-/

namespace Offside.Text.Quoted

/-- Which characters are written escaped, beyond those that always are. -/
structure Style where
  single : Bool
  double : Bool
  extending : Bool

def singleStyle : Style :=
  ⟨true, false, true⟩

def doubleStyle : Style :=
  ⟨false, true, true⟩

def anyStyle : Style :=
  ⟨true, true, true⟩

/-- A character by its code point in hexadecimal. -/
def byCode (c : Char) : List Char :=
  ['\\', 'u', '\x7b'] ++ Nat.toDigits 16 c.toNat ++ ['\x7d']

/-- One character as it is written in the given style. -/
def encodeChar (style : Style) (c : Char) : List Char :=
  if c = '\x00' then ['\\', '0']
  else if c = '\t' then ['\\', 't']
  else if c = '\r' then ['\\', 'r']
  else if c = '\n' then ['\\', 'n']
  else if c = '\\' then ['\\', '\\']
  else if c = '"' && style.double then ['\\', '"']
  else if c = '\'' && style.single then ['\\', '\'']
  else if style.extending && isExtending c then byCode c
  else if isPrintable c then [c]
  else byCode c

def encode (style : Style) (text : List Char) : List Char :=
  text.flatMap (encodeChar style)

/-- The inside of a text: a combining character is escaped only at its start, where it would
combine with the quote. -/
def inside : List Char → List Char
  | [] => []
  | c :: text => encodeChar anyStyle c ++ encode { anyStyle with extending := false } text

def char (c : Char) : String :=
  String.ofList ('\'' :: encodeChar singleStyle c ++ ['\''])

def string (text : String) : String :=
  String.ofList ('"' :: encode doubleStyle text.toList ++ ['"'])

end Offside.Text.Quoted
