import Offside.Syntax.Tree

/-!
Trees without their annotations. Two trees are the same up to spans if they are the same once
erased.
-/

namespace Offside

variable {α : Type}

def Identifier.erase (identifier : Identifier α) : Identifier Unit :=
  ⟨identifier.name, ()⟩

mutual

def Expr.erase : Expr α → Expr Unit
  | .literal value => .literal value.erase
  | .identifier identifier => .identifier identifier.erase
  | .assignment op target value _ => .assignment op target.erase value.erase ()
  | .binary op left right _ => .binary op left.erase right.erase ()
  | .unary op operand _ => .unary op operand.erase ()
  | .update op before operand _ => .update op before operand.erase ()
  | .cast type value _ => .cast type.erase value.erase ()
  | .field object name _ => .field object.erase name.erase ()
  | .fieldGroup object names _ => .fieldGroup object.erase (names.map Identifier.erase) ()
  | .optionalField object name _ => .optionalField object.erase name.erase ()
  | .unwrap value _ => .unwrap value.erase ()
  | .unwrapWith value arguments _ => .unwrapWith value.erase (Expr.eraseAll arguments) ()
  | .extraction value arguments _ => .extraction value.erase (Expr.eraseAll arguments) ()
  | .element array indices _ => .element array.erase (Expr.eraseAll indices) ()
  | .newArray type dimensions values _ =>
    .newArray type.erase (Expr.eraseAll dimensions) (Expr.eraseAll values) ()
  | .initializer type values _ => .initializer type.erase (Expr.eraseAll values) ()
  | .call callee arguments _ => .call callee.erase (Expr.eraseAll arguments) ()
  | .range lower upper _ => .range (Expr.eraseEnd lower) (Expr.eraseEnd upper) ()
  | .switch subjects arms _ => .switch (Expr.eraseAll subjects) (Arm.eraseAll arms) ()

def Expr.eraseAll : List (Expr α) → List (Expr Unit)
  | [] => []
  | expr :: exprs => expr.erase :: Expr.eraseAll exprs

def Expr.eraseEnd : Option (Expr α) → Option (Expr Unit)
  | none => none
  | some expr => some expr.erase

def Literal.erase : Literal α → Literal Unit
  | .integer value _ => .integer value ()
  | .float value suffix _ => .float value suffix ()
  | .char value _ => .char value ()
  | .string parts _ => .string (StringPart.eraseAll parts) ()
  | .boolean value _ => .boolean value ()
  | .nothing _ => .nothing ()
  | .placeholder _ => .placeholder ()

def StringPart.erase : StringPart α → StringPart Unit
  | .fragment text => .fragment text
  | .interpolation value => .interpolation value.erase

def StringPart.eraseAll : List (StringPart α) → List (StringPart Unit)
  | [] => []
  | part :: parts => part.erase :: StringPart.eraseAll parts

def Pattern.erase : Pattern α → Pattern Unit
  | .binding identifier => .binding identifier.erase
  | .literal value => .literal value.erase

def Arm.erase : Arm α → Arm Unit
  | .mk pattern body _ => .mk pattern.erase body.erase ()

def Arm.eraseAll : List (Arm α) → List (Arm Unit)
  | [] => []
  | arm :: arms => arm.erase :: Arm.eraseAll arms

def Action.erase : Action α → Action Unit
  | .expression value _ => .expression value.erase ()
  | .throw value _ => .throw value.erase ()
  | .block statements _ => .block (Statement.eraseAll statements) ()

def Statement.erase : Statement α → Statement Unit
  | .action action => .action action.erase
  | .empty _ => .empty ()

def Statement.eraseAll : List (Statement α) → List (Statement Unit)
  | [] => []
  | statement :: statements => statement.erase :: Statement.eraseAll statements

end

def File.erase (file : File α) : File Unit :=
  ⟨Statement.eraseAll file.statements, ()⟩

namespace Expr

theorem isAssignable_erase (expr : Expr α) : expr.erase.isAssignable = expr.isAssignable := by
  cases expr <;> simp only [erase, isAssignable]

theorem eraseAll_isEmpty (exprs : List (Expr α)) :
    (eraseAll exprs).isEmpty = exprs.isEmpty := by
  cases exprs <;> simp only [eraseAll, List.isEmpty]

theorem endsWithLayout_erase (expr : Expr α) :
    expr.erase.endsWithLayout = expr.endsWithLayout := by
  match expr with
  | .assignment op target value span => exact value.endsWithLayout_erase
  | .binary op left right span => exact right.endsWithLayout_erase
  | .unary op operand span => exact operand.endsWithLayout_erase
  | .update op true operand span => exact operand.endsWithLayout_erase
  | .range lower (some upper) span => exact upper.endsWithLayout_erase
  | .update op false operand span => rfl
  | .range lower none span => rfl
  | .literal value => rfl
  | .identifier name => rfl
  | .cast type value span => rfl
  | .field object name span => rfl
  | .fieldGroup object names span => rfl
  | .optionalField object name span => rfl
  | .unwrap value span => rfl
  | .unwrapWith value arguments span => rfl
  | .extraction value arguments span => rfl
  | .element array indices span => rfl
  | .newArray type dimensions values span => rfl
  | .initializer type values span => rfl
  | .call callee arguments span => rfl
  | .switch subjects arms span => rfl

end Expr

end Offside
