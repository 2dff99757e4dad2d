import Offside.Proofs.Syntax.Erase

/-!
Trees as far as what is printed of them tells them: without annotations and without the fragments of
strings that have no text.
-/

namespace Offside

section Definitions

variable {α : Type}

def Identifier.bare (identifier : Identifier α) : Identifier Unit :=
  ⟨identifier.name, ()⟩

mutual

def Expr.bare : Expr α → Expr Unit
  | .literal value => .literal value.bare
  | .identifier identifier => .identifier identifier.bare
  | .assignment op target value _ => .assignment op target.bare value.bare ()
  | .binary op left right _ => .binary op left.bare right.bare ()
  | .unary op operand _ => .unary op operand.bare ()
  | .update op before operand _ => .update op before operand.bare ()
  | .cast type value _ => .cast type.bare value.bare ()
  | .field object name _ => .field object.bare name.bare ()
  | .fieldGroup object names _ => .fieldGroup object.bare (names.map Identifier.bare) ()
  | .optionalField object name _ => .optionalField object.bare name.bare ()
  | .unwrap value _ => .unwrap value.bare ()
  | .unwrapWith value arguments _ => .unwrapWith value.bare (Expr.bareAll arguments) ()
  | .extraction value arguments _ => .extraction value.bare (Expr.bareAll arguments) ()
  | .element array indices _ => .element array.bare (Expr.bareAll indices) ()
  | .newArray type dimensions values _ =>
    .newArray type.bare (Expr.bareAll dimensions) (Expr.bareAll values) ()
  | .initializer type values _ => .initializer type.bare (Expr.bareAll values) ()
  | .call callee arguments _ => .call callee.bare (Expr.bareAll arguments) ()
  | .range lower upper _ => .range (Expr.bareEnd lower) (Expr.bareEnd upper) ()
  | .switch subjects arms _ => .switch (Expr.bareAll subjects) (Arm.bareAll arms) ()

def Expr.bareAll : List (Expr α) → List (Expr Unit)
  | [] => []
  | expr :: exprs => expr.bare :: Expr.bareAll exprs

def Expr.bareEnd : Option (Expr α) → Option (Expr Unit)
  | none => none
  | some expr => some expr.bare

def Literal.bare : Literal α → Literal Unit
  | .integer value _ => .integer value ()
  | .float value suffix _ => .float value suffix ()
  | .char value _ => .char value ()
  | .string parts _ => .string (StringPart.bareAll parts) ()
  | .boolean value _ => .boolean value ()
  | .nothing _ => .nothing ()
  | .placeholder _ => .placeholder ()

/-- The parts of a string that have text or a value. -/
def StringPart.bareAll : List (StringPart α) → List (StringPart Unit)
  | [] => []
  | .fragment text :: parts =>
    if text = "" then StringPart.bareAll parts else .fragment text :: StringPart.bareAll parts
  | .interpolation value :: parts => .interpolation value.bare :: StringPart.bareAll parts

def Pattern.bare : Pattern α → Pattern Unit
  | .binding identifier => .binding identifier.bare
  | .literal value => .literal value.bare

def Arm.bare : Arm α → Arm Unit
  | .mk pattern body _ => .mk pattern.bare body.bare ()

def Arm.bareAll : List (Arm α) → List (Arm Unit)
  | [] => []
  | arm :: arms => arm.bare :: Arm.bareAll arms

def Action.bare : Action α → Action Unit
  | .expression value _ => .expression value.bare ()
  | .throw value _ => .throw value.bare ()
  | .block statements _ => .block (Statement.bareAll statements) ()

def Statement.bare : Statement α → Statement Unit
  | .action action => .action action.bare
  | .empty _ => .empty ()

def Statement.bareAll : List (Statement α) → List (Statement Unit)
  | [] => []
  | statement :: statements => statement.bare :: Statement.bareAll statements

end

/-- The file up to spans and up to fragments without text. -/
def File.bare (file : File α) : File Unit :=
  ⟨Statement.bareAll file.statements, ()⟩

end Definitions

section Erased

variable {α : Type}

theorem Identifier.bare_erase (identifier : Identifier α) :
    identifier.erase.bare = identifier.bare :=
  rfl

mutual

/-- Annotations do not matter to what is told of a tree. -/
theorem Expr.bare_erase (expr : Expr α) : expr.erase.bare = expr.bare := by
  match expr with
  | .literal value => exact congrArg Expr.literal value.bare_erase
  | .identifier _ => rfl
  | .assignment _ target value _ =>
    simp only [Expr.erase, Expr.bare, target.bare_erase, value.bare_erase]
  | .binary _ left right _ =>
    simp only [Expr.erase, Expr.bare, left.bare_erase, right.bare_erase]
  | .unary _ operand _ => simp only [Expr.erase, Expr.bare, operand.bare_erase]
  | .update _ _ operand _ => simp only [Expr.erase, Expr.bare, operand.bare_erase]
  | .cast _ value _ => simp only [Expr.erase, Expr.bare, Identifier.bare_erase, value.bare_erase]
  | .field object _ _ => simp only [Expr.erase, Expr.bare, Identifier.bare_erase, object.bare_erase]
  | .fieldGroup object _ _ =>
    simp only [Expr.erase, Expr.bare, object.bare_erase, List.map_map]
    rfl
  | .optionalField object _ _ =>
    simp only [Expr.erase, Expr.bare, Identifier.bare_erase, object.bare_erase]
  | .unwrap value _ => simp only [Expr.erase, Expr.bare, value.bare_erase]
  | .unwrapWith value arguments _ =>
    simp only [Expr.erase, Expr.bare, value.bare_erase, Expr.bareAll_eraseAll arguments]
  | .extraction value arguments _ =>
    simp only [Expr.erase, Expr.bare, value.bare_erase, Expr.bareAll_eraseAll arguments]
  | .element array indices _ =>
    simp only [Expr.erase, Expr.bare, array.bare_erase, Expr.bareAll_eraseAll indices]
  | .newArray _ dimensions values _ =>
    simp only [Expr.erase, Expr.bare, Identifier.bare_erase, Expr.bareAll_eraseAll dimensions,
      Expr.bareAll_eraseAll values]
  | .initializer _ values _ =>
    simp only [Expr.erase, Expr.bare, Identifier.bare_erase, Expr.bareAll_eraseAll values]
  | .call callee arguments _ =>
    simp only [Expr.erase, Expr.bare, callee.bare_erase, Expr.bareAll_eraseAll arguments]
  | .range lower upper _ =>
    simp only [Expr.erase, Expr.bare, Expr.bareEnd_eraseEnd lower, Expr.bareEnd_eraseEnd upper]
  | .switch subjects arms _ =>
    simp only [Expr.erase, Expr.bare, Expr.bareAll_eraseAll subjects, Arm.bareAll_eraseAll arms]

theorem Expr.bareAll_eraseAll (exprs : List (Expr α)) :
    Expr.bareAll (Expr.eraseAll exprs) = Expr.bareAll exprs := by
  match exprs with
  | [] => rfl
  | expr :: exprs =>
    simp only [Expr.eraseAll, Expr.bareAll, expr.bare_erase, Expr.bareAll_eraseAll exprs]

theorem Expr.bareEnd_eraseEnd (operand? : Option (Expr α)) :
    Expr.bareEnd (Expr.eraseEnd operand?) = Expr.bareEnd operand? := by
  match operand? with
  | none => rfl
  | some operand => exact congrArg some operand.bare_erase

theorem Literal.bare_erase (literal : Literal α) : literal.erase.bare = literal.bare := by
  match literal with
  | .string parts _ =>
    simp only [Literal.erase, Literal.bare, StringPart.bareAll_eraseAll parts]
  | .integer _ _ | .float _ _ _ | .char _ _ | .boolean _ _ | .nothing _ | .placeholder _ => rfl

theorem StringPart.bareAll_eraseAll (parts : List (StringPart α)) :
    StringPart.bareAll (StringPart.eraseAll parts) = StringPart.bareAll parts := by
  match parts with
  | [] => rfl
  | .fragment _ :: parts =>
    simp only [StringPart.eraseAll, StringPart.erase, StringPart.bareAll,
      StringPart.bareAll_eraseAll parts]
  | .interpolation value :: parts =>
    simp only [StringPart.eraseAll, StringPart.erase, StringPart.bareAll, value.bare_erase,
      StringPart.bareAll_eraseAll parts]

theorem Pattern.bare_erase (pattern : Pattern α) : pattern.erase.bare = pattern.bare := by
  match pattern with
  | .binding _ => rfl
  | .literal value => exact congrArg Pattern.literal value.bare_erase

theorem Arm.bare_erase (arm : Arm α) : arm.erase.bare = arm.bare := by
  match arm with
  | .mk pattern body _ => simp only [Arm.erase, Arm.bare, pattern.bare_erase, body.bare_erase]

theorem Arm.bareAll_eraseAll (arms : List (Arm α)) :
    Arm.bareAll (Arm.eraseAll arms) = Arm.bareAll arms := by
  match arms with
  | [] => rfl
  | arm :: arms => simp only [Arm.eraseAll, Arm.bareAll, arm.bare_erase, Arm.bareAll_eraseAll arms]

theorem Action.bare_erase (action : Action α) : action.erase.bare = action.bare := by
  match action with
  | .expression value _ => simp only [Action.erase, Action.bare, value.bare_erase]
  | .throw value _ => simp only [Action.erase, Action.bare, value.bare_erase]
  | .block statements _ =>
    simp only [Action.erase, Action.bare, Statement.bareAll_eraseAll statements]

theorem Statement.bare_erase (statement : Statement α) : statement.erase.bare = statement.bare := by
  match statement with
  | .action action => exact congrArg Statement.action action.bare_erase
  | .empty _ => rfl

theorem Statement.bareAll_eraseAll (statements : List (Statement α)) :
    Statement.bareAll (Statement.eraseAll statements) = Statement.bareAll statements := by
  match statements with
  | [] => rfl
  | statement :: statements =>
    simp only [Statement.eraseAll, Statement.bareAll, statement.bare_erase,
      Statement.bareAll_eraseAll statements]

end

theorem File.bare_erase (file : File α) : file.erase.bare = file.bare := by
  simp only [File.erase, File.bare, Statement.bareAll_eraseAll]

end Erased

end Offside
