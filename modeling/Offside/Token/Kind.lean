import Offside.Token.Keyword
import Offside.Token.Symbol
import Offside.Number.Shortest
import Offside.Text.Quoted

/-!
Kinds of tokens, with the values of literals decoded.
-/

namespace Offside

/-- The letter that may follow a floating-point literal: `f` or `d`, of either case. -/
inductive FloatSuffix
  | float
  | double
deriving DecidableEq, Repr, Inhabited

namespace FloatSuffix

def ofChar? (c : Char) : Option FloatSuffix :=
  if c = 'f' ∨ c = 'F' then some float
  else if c = 'd' ∨ c = 'D' then some double
  else none

def letter : FloatSuffix → String
  | float => "f"
  | double => "d"

def name : FloatSuffix → String
  | float => "Float"
  | double => "Double"

end FloatSuffix

/-- What a token is. A string is the tokens from its start to its end, with a fragment for each
run of text and the tokens of an expression between the two ends of an interpolation. -/
inductive Kind
  | integer (value : Int)
  | float (value : Binary64) (suffix : Option FloatSuffix)
  | char (value : Char)
  | stringStart
  | stringFragment (text : String)
  | interpolationStart
  | interpolationEnd
  | stringEnd
  | boolean (value : Bool)
  | nothing
  | placeholder
  | identifier
  | keyword (keyword : Keyword)
  | symbol (symbol : Symbol)
  | newline
  | indent
  | dedent
  | endOfInput
deriving DecidableEq, Repr, Inhabited

namespace Kind

/-- The kind of a word: a reserved one, or an identifier. -/
def ofWord (word : String) : Kind :=
  if word = "true" then boolean true
  else if word = "false" then boolean false
  else if word = "none" then nothing
  else if word = "_" then placeholder
  else
    match Keyword.all.find? fun keyword => keyword.spelling = word with
    | some found => .keyword found
    | none => identifier

/-- Kinds that stand for the layout of lines and not for text. -/
def isStructural : Kind → Bool
  | newline | indent | dedent | endOfInput => true
  | _ => false

def isLiteral : Kind → Bool
  | integer _ | float _ _ | char _ | stringFragment _ | boolean _ | nothing | placeholder => true
  | _ => false

def isDeclaration : Kind → Bool
  | keyword word => word.declares
  | _ => false

/-- Kinds that can be the last of an operand. After one of them a sign is an operator; after any
other it may belong to a number. -/
def endsOperand : Kind → Bool
  | integer _ | float _ _ | char _ | stringEnd | boolean _ | nothing | placeholder | identifier =>
    true
  | symbol .rightParen | symbol .rightBracket | symbol .rightCurly | symbol .plusPlus
  | symbol .minusMinus | symbol .bang => true
  | _ => false

/-- A spelling as messages quote it. -/
def quote (spelling : String) : String :=
  "`" ++ spelling ++ "`"

/-- How messages name the kind. -/
def title : Kind → String
  | integer _ => "integer literal"
  | float _ _ => "float literal"
  | char _ => "character literal"
  | stringStart => "string literal"
  | stringFragment _ => "string fragment"
  | interpolationStart => quote "\x7b"
  | interpolationEnd => quote "\x7d"
  | stringEnd => quote "\""
  | boolean true => quote "true"
  | boolean false => quote "false"
  | nothing => quote "none"
  | placeholder => quote "_"
  | identifier => "identifier"
  | keyword word => quote word.spelling
  | symbol mark => quote mark.spelling
  | newline => "newline"
  | indent => "indent"
  | dedent => "dedent"
  | endOfInput => "end of input"

/-- How messages describe a token of the kind that is written as `text`. -/
def describe (kind : Kind) (text : String) : String :=
  if kind = identifier || kind.isLiteral then kind.title ++ " " ++ quote text else kind.title

def listing (kind : Kind) (text : String) : String :=
  match kind with
  | integer value => s!"Integer({value})"
  | float value suffix =>
    let shown := match suffix with
      | some letter => s!"Some({letter.name})"
      | none => "None"
    "Float \x7b value: " ++ value.text ++ ", suffix: " ++ shown ++ " \x7d"
  | char value => s!"Char({Text.Quoted.char value})"
  | stringStart => "StringStart"
  | stringFragment fragment => s!"StringFragment({Text.Quoted.string fragment})"
  | interpolationStart => "InterpolationStart"
  | interpolationEnd => "InterpolationEnd"
  | stringEnd => "StringEnd"
  | boolean true => "True"
  | boolean false => "False"
  | nothing => "None"
  | placeholder => "Default"
  | identifier => s!"Identifier({Text.Quoted.string text})"
  | keyword word => word.name
  | symbol mark => mark.name
  | newline => "Newline"
  | indent => "Indent"
  | dedent => "Dedent"
  | endOfInput => "Eof"

end Kind

end Offside
