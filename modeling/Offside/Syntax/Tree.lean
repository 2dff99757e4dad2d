import Offside.Syntax.Operator
import Offside.Span

/-!
Syntax trees. Every node is annotated, as a rule with the span it was read from; trees that are
the same up to spans are those that are the same once the annotations are replaced.
-/

namespace Offside

structure Identifier (α : Type) where
  name : String
  span : α
deriving DecidableEq, Repr

mutual

inductive Expr (α : Type)
  | literal (value : Literal α)
  | identifier (identifier : Identifier α)
  | assignment (op : AssignOp) (target value : Expr α) (span : α)
  | binary (op : BinaryOp) (left right : Expr α) (span : α)
  | unary (op : UnaryOp) (operand : Expr α) (span : α)
  /-- An increment or decrement, before or after its operand. -/
  | update (op : UpdateOp) (before : Bool) (operand : Expr α) (span : α)
  /-- A known type applied to one value. -/
  | cast (type : Identifier α) (value : Expr α) (span : α)
  | field (object : Expr α) (name : Identifier α) (span : α)
  /-- Several fields of one object at once. -/
  | fieldGroup (object : Expr α) (names : List (Identifier α)) (span : α)
  | optionalField (object : Expr α) (name : Identifier α) (span : α)
  | unwrap (value : Expr α) (span : α)
  | unwrapWith (value : Expr α) (arguments : List (Expr α)) (span : α)
  | extraction (value : Expr α) (arguments : List (Expr α)) (span : α)
  | element (array : Expr α) (indices : List (Expr α)) (span : α)
  /-- A known type with dimensions, applied to values. -/
  | newArray (type : Identifier α) (dimensions values : List (Expr α)) (span : α)
  /-- A known type applied to any other number of values than one. -/
  | initializer (type : Identifier α) (values : List (Expr α)) (span : α)
  | call (callee : Expr α) (arguments : List (Expr α)) (span : α)
  /-- A range. Either end may be open. -/
  | range (lower upper : Option (Expr α)) (span : α)
  /-- Arms, in source order, for one or more subjects. -/
  | switch (subjects : List (Expr α)) (arms : List (Arm α)) (span : α)

inductive Literal (α : Type)
  | integer (value : Int) (span : α)
  | float (value : Binary64) (suffix : Option FloatSuffix) (span : α)
  | char (value : Char) (span : α)
  | string (parts : List (StringPart α)) (span : α)
  | boolean (value : Bool) (span : α)
  | nothing (span : α)
  | placeholder (span : α)

inductive StringPart (α : Type)
  | fragment (text : String)
  | interpolation (value : Expr α)

/-- What an arm matches against: anything, under a name, or one value. -/
inductive Pattern (α : Type)
  | binding (identifier : Identifier α)
  | literal (value : Literal α)

inductive Arm (α : Type)
  | mk (pattern : Pattern α) (body : Action α) (span : α)

/-- What a statement or an arm does. -/
inductive Action (α : Type)
  | expression (value : Expr α) (span : α)
  | throw (value : Expr α) (span : α)
  | block (statements : List (Statement α)) (span : α)

/-- A statement. An empty one is a semicolon alone. -/
inductive Statement (α : Type)
  | action (action : Action α)
  | empty (span : α)

end

structure File (α : Type) where
  statements : List (Statement α)
  span : α

variable {α : Type}

def Literal.span : Literal α → α
  | integer _ span | float _ _ span | char _ span | string _ span | boolean _ span
  | nothing span | placeholder span => span

namespace Expr

def span : Expr α → α
  | literal value => value.span
  | identifier name => name.span
  | assignment _ _ _ span | binary _ _ _ span | unary _ _ span | update _ _ _ span
  | cast _ _ span | field _ _ span | fieldGroup _ _ span | optionalField _ _ span
  | unwrap _ span | unwrapWith _ _ span | extraction _ _ span | element _ _ span
  | newArray _ _ _ span | initializer _ _ span | call _ _ span | range _ _ span
  | switch _ _ span => span

/-- Whether a value can be assigned to the expression. -/
def isAssignable : Expr α → Bool
  | identifier _ | field _ _ _ | element _ _ _ => true
  | _ => false

/-- Whether the expression ends with a switch, whose layout then ends the expression too. -/
def endsWithLayout : Expr α → Bool
  | switch _ _ _ => true
  | assignment _ _ value _ => value.endsWithLayout
  | binary _ _ right _ => right.endsWithLayout
  | unary _ operand _ => operand.endsWithLayout
  | update _ true operand _ => operand.endsWithLayout
  | range _ (some upper) _ => upper.endsWithLayout
  | _ => false

end Expr

def Pattern.span : Pattern α → α
  | binding name => name.span
  | literal value => value.span

def Action.span : Action α → α
  | expression _ span | throw _ span | block _ span => span

namespace Arm

def pattern : Arm α → Pattern α
  | mk pattern _ _ => pattern

def body : Arm α → Action α
  | mk _ body _ => body

def span : Arm α → α
  | mk _ _ span => span

end Arm

def Statement.span : Statement α → α
  | action body => body.span
  | empty span => span

namespace StringPart

def text? : StringPart α → Option String
  | fragment text => some text
  | interpolation _ => none

def isInterpolation : StringPart α → Bool
  | fragment _ => false
  | interpolation _ => true

/-- The text of a string without interpolations. -/
def plain? (parts : List (StringPart α)) : Option String :=
  (parts.mapM text?).map String.join

end StringPart

end Offside
