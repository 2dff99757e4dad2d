import Offside.Proofs.Syntax.Erase

/-!
Trees read without the names of types. Where a name is known to be a type, what is called by it is a
cast, an initializer or a new array; where no name is, all of these are calls.
-/

namespace Offside

variable {α : Type}

mutual

/-- The expression with calls for casts, initializers and new arrays, if there were hints that made
it have any. -/
def Expr.unhint (hinted : Bool) : Expr α → Expr α
  | .literal value => .literal (value.unhint hinted)
  | .identifier identifier => .identifier identifier
  | .assignment op target value span =>
    .assignment op (target.unhint hinted) (value.unhint hinted) span
  | .binary op left right span => .binary op (left.unhint hinted) (right.unhint hinted) span
  | .unary op operand span => .unary op (operand.unhint hinted) span
  | .update op before operand span => .update op before (operand.unhint hinted) span
  | .cast type value span =>
    if hinted then .call (.identifier type) [value.unhint hinted] span
    else .cast type (value.unhint hinted) span
  | .field object name span => .field (object.unhint hinted) name span
  | .fieldGroup object names span => .fieldGroup (object.unhint hinted) names span
  | .optionalField object name span => .optionalField (object.unhint hinted) name span
  | .unwrap value span => .unwrap (value.unhint hinted) span
  | .unwrapWith value arguments span =>
    .unwrapWith (value.unhint hinted) (Expr.unhintAll hinted arguments) span
  | .extraction value arguments span =>
    .extraction (value.unhint hinted) (Expr.unhintAll hinted arguments) span
  | .element array indices span =>
    .element (array.unhint hinted) (Expr.unhintAll hinted indices) span
  | .newArray type dimensions values span =>
    if hinted then
      .call (.element (.identifier type) (Expr.unhintAll hinted dimensions) span)
        (Expr.unhintAll hinted values) span
    else
      .newArray type (Expr.unhintAll hinted dimensions) (Expr.unhintAll hinted values) span
  | .initializer type values span =>
    if hinted then .call (.identifier type) (Expr.unhintAll hinted values) span
    else .initializer type (Expr.unhintAll hinted values) span
  | .call callee arguments span =>
    .call (callee.unhint hinted) (Expr.unhintAll hinted arguments) span
  | .range lower upper span =>
    .range (Expr.unhintEnd hinted lower) (Expr.unhintEnd hinted upper) span
  | .switch subjects arms span =>
    .switch (Expr.unhintAll hinted subjects) (Arm.unhintAll hinted arms) span

def Expr.unhintAll (hinted : Bool) : List (Expr α) → List (Expr α)
  | [] => []
  | expr :: exprs => expr.unhint hinted :: Expr.unhintAll hinted exprs

def Expr.unhintEnd (hinted : Bool) : Option (Expr α) → Option (Expr α)
  | none => none
  | some expr => some (expr.unhint hinted)

def Literal.unhint (hinted : Bool) : Literal α → Literal α
  | .integer value span => .integer value span
  | .float value suffix span => .float value suffix span
  | .char value span => .char value span
  | .string parts span => .string (StringPart.unhintAll hinted parts) span
  | .boolean value span => .boolean value span
  | .nothing span => .nothing span
  | .placeholder span => .placeholder span

def StringPart.unhint (hinted : Bool) : StringPart α → StringPart α
  | .fragment text => .fragment text
  | .interpolation value => .interpolation (value.unhint hinted)

def StringPart.unhintAll (hinted : Bool) : List (StringPart α) → List (StringPart α)
  | [] => []
  | part :: parts => part.unhint hinted :: StringPart.unhintAll hinted parts

def Pattern.unhint (hinted : Bool) : Pattern α → Pattern α
  | .binding identifier => .binding identifier
  | .literal value => .literal (value.unhint hinted)

def Arm.unhint (hinted : Bool) : Arm α → Arm α
  | .mk pattern body span => .mk (pattern.unhint hinted) (body.unhint hinted) span

def Arm.unhintAll (hinted : Bool) : List (Arm α) → List (Arm α)
  | [] => []
  | arm :: arms => arm.unhint hinted :: Arm.unhintAll hinted arms

def Action.unhint (hinted : Bool) : Action α → Action α
  | .expression value span => .expression (value.unhint hinted) span
  | .throw value span => .throw (value.unhint hinted) span
  | .block statements span => .block (Statement.unhintAll hinted statements) span

def Statement.unhint (hinted : Bool) : Statement α → Statement α
  | .action action => .action (action.unhint hinted)
  | .empty span => .empty span

def Statement.unhintAll (hinted : Bool) : List (Statement α) → List (Statement α)
  | [] => []
  | statement :: statements => statement.unhint hinted :: Statement.unhintAll hinted statements

end

/-- The tree as it is without hints. -/
def File.unhinted (file : File α) : File α :=
  ⟨Statement.unhintAll true file.statements, file.span⟩

/-! ## Without hints -/

mutual

theorem Expr.unhint_false (expr : Expr α) : expr.unhint false = expr := by
  match expr with
  | .literal value => simp only [Expr.unhint, value.unhint_false]
  | .identifier name => simp only [Expr.unhint]
  | .assignment op target value span =>
    simp only [Expr.unhint, target.unhint_false, value.unhint_false]
  | .binary op left right span => simp only [Expr.unhint, left.unhint_false, right.unhint_false]
  | .unary op operand span => simp only [Expr.unhint, operand.unhint_false]
  | .update op before operand span => simp only [Expr.unhint, operand.unhint_false]
  | .cast type value span =>
    simp only [Expr.unhint, value.unhint_false, Bool.false_eq_true, if_false]
  | .field object name span => simp only [Expr.unhint, object.unhint_false]
  | .fieldGroup object names span => simp only [Expr.unhint, object.unhint_false]
  | .optionalField object name span => simp only [Expr.unhint, object.unhint_false]
  | .unwrap value span => simp only [Expr.unhint, value.unhint_false]
  | .unwrapWith value arguments span =>
    simp only [Expr.unhint, value.unhint_false, Expr.unhintAll_false arguments]
  | .extraction value arguments span =>
    simp only [Expr.unhint, value.unhint_false, Expr.unhintAll_false arguments]
  | .element array indices span =>
    simp only [Expr.unhint, array.unhint_false, Expr.unhintAll_false indices]
  | .newArray type dimensions values span =>
    simp only [Expr.unhint, Expr.unhintAll_false dimensions, Expr.unhintAll_false values,
      Bool.false_eq_true, if_false]
  | .initializer type values span =>
    simp only [Expr.unhint, Expr.unhintAll_false values, Bool.false_eq_true, if_false]
  | .call callee arguments span =>
    simp only [Expr.unhint, callee.unhint_false, Expr.unhintAll_false arguments]
  | .range lower upper span =>
    simp only [Expr.unhint, Expr.unhintEnd_false lower, Expr.unhintEnd_false upper]
  | .switch subjects arms span =>
    simp only [Expr.unhint, Expr.unhintAll_false subjects, Arm.unhintAll_false arms]

theorem Expr.unhintAll_false (exprs : List (Expr α)) : Expr.unhintAll false exprs = exprs := by
  match exprs with
  | [] => simp only [Expr.unhintAll]
  | expr :: exprs => simp only [Expr.unhintAll, expr.unhint_false, Expr.unhintAll_false exprs]

theorem Expr.unhintEnd_false (limit : Option (Expr α)) : Expr.unhintEnd false limit = limit := by
  match limit with
  | none => simp only [Expr.unhintEnd]
  | some expr => simp only [Expr.unhintEnd, expr.unhint_false]

theorem Literal.unhint_false (literal : Literal α) : literal.unhint false = literal := by
  match literal with
  | .string parts span => simp only [Literal.unhint, StringPart.unhintAll_false parts]
  | .integer value span => simp only [Literal.unhint]
  | .float value suffix span => simp only [Literal.unhint]
  | .char value span => simp only [Literal.unhint]
  | .boolean value span => simp only [Literal.unhint]
  | .nothing span => simp only [Literal.unhint]
  | .placeholder span => simp only [Literal.unhint]

theorem StringPart.unhint_false (part : StringPart α) : part.unhint false = part := by
  match part with
  | .fragment text => simp only [StringPart.unhint]
  | .interpolation value => simp only [StringPart.unhint, value.unhint_false]

theorem StringPart.unhintAll_false (parts : List (StringPart α)) :
    StringPart.unhintAll false parts = parts := by
  match parts with
  | [] => simp only [StringPart.unhintAll]
  | part :: parts =>
    simp only [StringPart.unhintAll, part.unhint_false, StringPart.unhintAll_false parts]

theorem Pattern.unhint_false (pattern : Pattern α) : pattern.unhint false = pattern := by
  match pattern with
  | .binding name => simp only [Pattern.unhint]
  | .literal value => simp only [Pattern.unhint, value.unhint_false]

theorem Arm.unhint_false (arm : Arm α) : arm.unhint false = arm := by
  match arm with
  | .mk pattern body span => simp only [Arm.unhint, pattern.unhint_false, body.unhint_false]

theorem Arm.unhintAll_false (arms : List (Arm α)) : Arm.unhintAll false arms = arms := by
  match arms with
  | [] => simp only [Arm.unhintAll]
  | arm :: arms => simp only [Arm.unhintAll, arm.unhint_false, Arm.unhintAll_false arms]

theorem Action.unhint_false (action : Action α) : action.unhint false = action := by
  match action with
  | .expression value span => simp only [Action.unhint, value.unhint_false]
  | .throw value span => simp only [Action.unhint, value.unhint_false]
  | .block statements span => simp only [Action.unhint, Statement.unhintAll_false statements]

theorem Statement.unhint_false (statement : Statement α) : statement.unhint false = statement := by
  match statement with
  | .action action => simp only [Statement.unhint, action.unhint_false]
  | .empty span => simp only [Statement.unhint]

theorem Statement.unhintAll_false (statements : List (Statement α)) :
    Statement.unhintAll false statements = statements := by
  match statements with
  | [] => simp only [Statement.unhintAll]
  | statement :: statements =>
    simp only [Statement.unhintAll, statement.unhint_false, Statement.unhintAll_false statements]

end

namespace Expr

/-- Only a name or a part of something can be assigned to, and these are never called. -/
theorem isAssignable_unhint (hinted : Bool) (expr : Expr α) :
    (expr.unhint hinted).isAssignable = expr.isAssignable := by
  cases hinted <;> cases expr <;>
    simp only [unhint, isAssignable, Bool.false_eq_true, if_false, if_true]

theorem endsWithLayout_unhint (hinted : Bool) (expr : Expr α) :
    (expr.unhint hinted).endsWithLayout = expr.endsWithLayout := by
  match expr with
  | .assignment op target value span => exact value.endsWithLayout_unhint hinted
  | .binary op left right span => exact right.endsWithLayout_unhint hinted
  | .unary op operand span => exact operand.endsWithLayout_unhint hinted
  | .update op true operand span => exact operand.endsWithLayout_unhint hinted
  | .range lower (some upper) span => exact upper.endsWithLayout_unhint hinted
  | .cast type value span | .newArray type dimensions values span | .initializer type values span =>
    simp only [unhint]
    split <;> rfl
  | .update op false operand span | .range lower none span | .literal value | .identifier name
  | .field object name span | .fieldGroup object names span | .optionalField object name span
  | .unwrap value span | .unwrapWith value arguments span | .extraction value arguments span
  | .element array indices span | .call callee arguments span | .switch subjects arms span => rfl

theorem unhintAll_isEmpty (hinted : Bool) (exprs : List (Expr α)) :
    (unhintAll hinted exprs).isEmpty = exprs.isEmpty := by
  cases exprs <;> simp only [unhintAll, List.isEmpty]

end Expr

end Offside
