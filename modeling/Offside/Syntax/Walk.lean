import Offside.Syntax.Tree

/-!
Walks over trees. A walk meets every node before the nodes below it, in source order.
-/

namespace Offside

/-- What a walk meets. -/
inductive Event (α : Type)
  | file (file : File α)
  /-- A statement at the top level of a file, met before it is met as a statement. -/
  | topLevel (statement : Statement α)
  | statement (statement : Statement α)
  | expressionStatement (value : Expr α)
  | throwStatement (value : Expr α)
  | blockStart (statements : List (Statement α))
  | blockEnd
  | expr (expr : Expr α)
  | literal (literal : Literal α)
  | identifier (identifier : Identifier α)
  /-- The name of a type, met before it is met as an identifier. -/
  | type (identifier : Identifier α)
  | switch (subjects : List (Expr α)) (arms : List (Arm α))
  | arm (arm : Arm α)
  | pattern (pattern : Pattern α)
  | armBody (body : Action α)

variable {α : Type}

/-- A type is a name. -/
def Identifier.walkType (identifier : Identifier α) : List (Event α) :=
  [.type identifier, .identifier identifier]

mutual

def Expr.walk : Expr α → List (Event α)
  | .literal value => .expr (.literal value) :: value.walk
  | .identifier identifier => [.expr (.identifier identifier), .identifier identifier]
  | .assignment op target value span =>
    .expr (.assignment op target value span) :: (target.walk ++ value.walk)
  | .binary op left right span => .expr (.binary op left right span) :: (left.walk ++ right.walk)
  | .unary op operand span => .expr (.unary op operand span) :: operand.walk
  | .update op before operand span => .expr (.update op before operand span) :: operand.walk
  | .cast type value span => .expr (.cast type value span) :: (type.walkType ++ value.walk)
  | .field object name span =>
    .expr (.field object name span) :: (object.walk ++ [.identifier name])
  | .fieldGroup object names span =>
    .expr (.fieldGroup object names span) :: (object.walk ++ names.map .identifier)
  | .optionalField object name span =>
    .expr (.optionalField object name span) :: (object.walk ++ [.identifier name])
  | .unwrap value span => .expr (.unwrap value span) :: value.walk
  | .unwrapWith value arguments span =>
    .expr (.unwrapWith value arguments span) :: (value.walk ++ Expr.walkAll arguments)
  | .extraction value arguments span =>
    .expr (.extraction value arguments span) :: (value.walk ++ Expr.walkAll arguments)
  | .element array indices span =>
    .expr (.element array indices span) :: (array.walk ++ Expr.walkAll indices)
  | .newArray type dimensions values span =>
    .expr (.newArray type dimensions values span) ::
      (type.walkType ++ Expr.walkAll dimensions ++ Expr.walkAll values)
  | .initializer type values span =>
    .expr (.initializer type values span) :: (type.walkType ++ Expr.walkAll values)
  | .call callee arguments span =>
    .expr (.call callee arguments span) :: (callee.walk ++ Expr.walkAll arguments)
  | .range lower upper span =>
    .expr (.range lower upper span) :: (Expr.walkEnd lower ++ Expr.walkEnd upper)
  | .switch subjects arms span =>
    .expr (.switch subjects arms span) :: .switch subjects arms ::
      (Expr.walkAll subjects ++ Arm.walkAll arms)

def Expr.walkAll : List (Expr α) → List (Event α)
  | [] => []
  | expr :: exprs => expr.walk ++ Expr.walkAll exprs

def Expr.walkEnd : Option (Expr α) → List (Event α)
  | none => []
  | some expr => expr.walk

def Literal.walk : Literal α → List (Event α)
  | .string parts span => .literal (.string parts span) :: StringPart.walkAll parts
  | .integer value span => [.literal (.integer value span)]
  | .float value suffix span => [.literal (.float value suffix span)]
  | .char value span => [.literal (.char value span)]
  | .boolean value span => [.literal (.boolean value span)]
  | .nothing span => [.literal (.nothing span)]
  | .placeholder span => [.literal (.placeholder span)]

def StringPart.walk : StringPart α → List (Event α)
  | .fragment _ => []
  | .interpolation value => value.walk

def StringPart.walkAll : List (StringPart α) → List (Event α)
  | [] => []
  | part :: parts => part.walk ++ StringPart.walkAll parts

def Pattern.walk : Pattern α → List (Event α)
  | .binding identifier => [.pattern (.binding identifier), .identifier identifier]
  | .literal value => .pattern (.literal value) :: value.walk

def Arm.walk : Arm α → List (Event α)
  | .mk pattern body span =>
    .arm (.mk pattern body span) :: (pattern.walk ++ .armBody body :: body.walk)

def Arm.walkAll : List (Arm α) → List (Event α)
  | [] => []
  | arm :: arms => arm.walk ++ Arm.walkAll arms

def Action.walk : Action α → List (Event α)
  | .expression value _ => .expressionStatement value :: value.walk
  | .throw value _ => .throwStatement value :: value.walk
  | .block statements _ =>
    .blockStart statements :: (Statement.walkAll statements ++ [.blockEnd])

def Statement.walk : Statement α → List (Event α)
  | .action action => .statement (.action action) :: action.walk
  | .empty span => [.statement (.empty span)]

def Statement.walkAll : List (Statement α) → List (Event α)
  | [] => []
  | statement :: statements => statement.walk ++ Statement.walkAll statements

end

/-- All that a walk over a file meets. -/
def File.walk (file : File α) : List (Event α) :=
  .file file :: file.statements.flatMap fun statement => .topLevel statement :: statement.walk

end Offside
