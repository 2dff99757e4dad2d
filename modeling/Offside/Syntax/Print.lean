import Offside.Syntax.Tree

/-!
Trees in prefix form: an operation in parentheses, its name before its operands.
-/

namespace Offside

namespace Print

/-- Texts with a space before each. -/
def spaced (texts : List String) : String :=
  String.join (texts.map (" " ++ ·))

/-- Texts with a space between two. -/
def joined (texts : List String) : String :=
  " ".intercalate texts

/-- An operation and its operands, in parentheses. -/
def form (head : String) (operands : List String) : String :=
  "(" ++ head ++ spaced operands ++ ")"

def group (operands : List String) : String :=
  "(" ++ joined operands ++ ")"

end Print

open Print

variable {α : Type}

def Identifier.names (identifiers : List (Identifier α)) : List String :=
  identifiers.map Identifier.name

mutual

def Expr.print : Expr α → String
  | .literal value => value.print
  | .identifier identifier => identifier.name
  | .assignment op target value _ => form op.spelling [target.print, value.print]
  | .binary op left right _ => form op.spelling [left.print, right.print]
  | .unary op operand _ => form op.spelling [operand.print]
  | .update op true operand _ => form op.spelling [operand.print]
  | .update op false operand _ => form ("post" ++ op.spelling) [operand.print]
  | .cast type value _ => form "cast" [type.name, value.print]
  | .field object name _ => form "." [object.print, name.name]
  | .fieldGroup object names _ => form ".()" (object.print :: Identifier.names names)
  | .optionalField object name _ => form "?." [object.print, name.name]
  | .unwrap value _ => form "!" [value.print]
  | .unwrapWith value arguments _ => form "!" [value.print, group (Expr.printAll arguments)]
  | .extraction value arguments _ => form "?" [value.print, group (Expr.printAll arguments)]
  | .element array indices _ => form "[]" (array.print :: Expr.printAll indices)
  | .newArray type dimensions values _ =>
    form "new" (type.name :: ("[" ++ joined (Expr.printAll dimensions) ++ "]") ::
      Expr.printAll values)
  | .initializer type values _ => form "init" (type.name :: Expr.printAll values)
  | .call callee arguments _ => form "call" (callee.print :: Expr.printAll arguments)
  | .range lower upper _ => form ".." [Expr.printEnd lower, Expr.printEnd upper]
  | .switch subjects arms _ => form "switch" (group (Expr.printAll subjects) :: Arm.printAll arms)

def Expr.printAll : List (Expr α) → List String
  | [] => []
  | expr :: exprs => expr.print :: Expr.printAll exprs

def Expr.printEnd : Option (Expr α) → String
  | none => "()"
  | some expr => expr.print

def Literal.print : Literal α → String
  | .integer value _ => toString value
  | .float value suffix _ =>
    value.text ++ match suffix with
      | some letter => letter.letter
      | none => ""
  | .char value _ => Text.Quoted.char value
  | .string parts _ => "\"" ++ StringPart.printAll parts ++ "\""
  | .boolean value _ => if value then "true" else "false"
  | .nothing _ => "none"
  | .placeholder _ => "_"

def StringPart.print : StringPart α → String
  | .fragment text => String.ofList (Text.Quoted.inside text.toList)
  | .interpolation value => "\x7b" ++ value.print ++ "\x7d"

def StringPart.printAll : List (StringPart α) → String
  | [] => ""
  | part :: parts => part.print ++ StringPart.printAll parts

def Pattern.print : Pattern α → String
  | .binding identifier => identifier.name
  | .literal value => value.print

def Arm.print : Arm α → String
  | .mk pattern body _ => "(" ++ pattern.print ++ " -> " ++ body.print ++ ")"

def Arm.printAll : List (Arm α) → List String
  | [] => []
  | arm :: arms => arm.print :: Arm.printAll arms

def Action.print : Action α → String
  | .expression value _ => value.print
  | .throw value _ => form "throw" [value.print]
  | .block statements _ => "\x7b" ++ joined (Statement.printAll statements) ++ "\x7d"

def Statement.print : Statement α → String
  | .action action => action.print
  | .empty _ => ";"

def Statement.printAll : List (Statement α) → List String
  | [] => []
  | statement :: statements => statement.print :: Statement.printAll statements

end

/-- A file is printed with one statement on each line. -/
def File.print (file : File α) : String :=
  String.join ((Statement.printAll file.statements).map (· ++ "\n"))

end Offside
