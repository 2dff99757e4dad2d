import Offside.Proofs.Syntax.Bare
import Offside.Proofs.Syntax.Sexp
import Offside.Syntax.Print
import Mathlib.Data.List.Forall2

/-!
Trees as symbolic expressions, and that these are what trees are printed as.
-/

namespace Offside

/-- What a printed form starts with. An operator with one operand is written like the one with two
operands, and an unwrapping with arguments like one without. -/
inductive Head
  | assign (op : AssignOp)
  | binary (op : BinaryOp)
  | not
  | update (op : UpdateOp) (before : Bool)
  | cast
  | field
  | fieldGroup
  | optionalField
  | unwrap
  | extraction
  | element
  | newArray
  | initializer
  | call
  | range
  | switch
  | throw
deriving DecidableEq, Repr

namespace Head

def spelling : Head → String
  | assign op => op.spelling
  | binary op => op.spelling
  | not => UnaryOp.not.spelling
  | update op true => op.spelling
  | update op false => "post" ++ op.spelling
  | cast => "cast"
  | field => "."
  | fieldGroup => ".()"
  | optionalField => "?."
  | unwrap => "!"
  | extraction => "?"
  | element => "[]"
  | newArray => "new"
  | initializer => "init"
  | call => "call"
  | range => ".."
  | switch => "switch"
  | throw => "throw"

/-- The brackets of an element are an empty list; everything else is a word. -/
def sexp : Head → Sexp
  | element => .list .square []
  | head => .word head.spelling.toList

end Head

def UnaryOp.head : UnaryOp → Head
  | plus => .binary .add
  | negate => .binary .subtract
  | not => .not

namespace Sexp

/-- An operation and its operands. -/
def form (head : Head) (operands : List Sexp) : Sexp :=
  .list .round (head.sexp :: operands)

/-- Expressions that are grouped as one operand. -/
def group (items : List Sexp) : Sexp :=
  .list .round items

end Sexp

section Definitions

variable {α : Type}

def Identifier.sexp (identifier : Identifier α) : Sexp :=
  .word identifier.name.toList

mutual

def Expr.sexp : Expr α → Sexp
  | .literal value => value.sexp
  | .identifier identifier => identifier.sexp
  | .assignment op target value _ => .form (.assign op) [target.sexp, value.sexp]
  | .binary op left right _ => .form (.binary op) [left.sexp, right.sexp]
  | .unary op operand _ => .form op.head [operand.sexp]
  | .update op before operand _ => .form (.update op before) [operand.sexp]
  | .cast type value _ => .form .cast [type.sexp, value.sexp]
  | .field object name _ => .form .field [object.sexp, name.sexp]
  | .fieldGroup object names _ => .form .fieldGroup (object.sexp :: names.map Identifier.sexp)
  | .optionalField object name _ => .form .optionalField [object.sexp, name.sexp]
  | .unwrap value _ => .form .unwrap [value.sexp]
  | .unwrapWith value arguments _ => .form .unwrap [value.sexp, .group (Expr.sexpAll arguments)]
  | .extraction value arguments _ =>
    .form .extraction [value.sexp, .group (Expr.sexpAll arguments)]
  | .element array indices _ => .form .element (array.sexp :: Expr.sexpAll indices)
  | .newArray type dimensions values _ =>
    .form .newArray (type.sexp :: .list .square (Expr.sexpAll dimensions) :: Expr.sexpAll values)
  | .initializer type values _ => .form .initializer (type.sexp :: Expr.sexpAll values)
  | .call callee arguments _ => .form .call (callee.sexp :: Expr.sexpAll arguments)
  | .range lower upper _ => .form .range [Expr.sexpEnd lower, Expr.sexpEnd upper]
  | .switch subjects arms _ => .form .switch (.group (Expr.sexpAll subjects) :: Arm.sexpAll arms)

def Expr.sexpAll : List (Expr α) → List Sexp
  | [] => []
  | expr :: exprs => expr.sexp :: Expr.sexpAll exprs

def Expr.sexpEnd : Option (Expr α) → Sexp
  | none => .group []
  | some expr => expr.sexp

def Literal.sexp : Literal α → Sexp
  | .integer value _ => .word (toString value).toList
  | .float value suffix _ =>
    .word (value.text ++ (suffix.map FloatSuffix.letter).getD "").toList
  | .char value _ => .char value
  | .string parts _ => .string (StringPart.sexpAll parts)
  | .boolean value _ => .word (if value then "true" else "false").toList
  | .nothing _ => .word "none".toList
  | .placeholder _ => .word "_".toList

/-- The parts of a string. Nothing is printed of a fragment without text. -/
def StringPart.sexpAll : List (StringPart α) → List SexpPart
  | [] => []
  | .fragment text :: parts =>
    if text = "" then StringPart.sexpAll parts
    else .text text.toList :: StringPart.sexpAll parts
  | .interpolation value :: parts => .value value.sexp :: StringPart.sexpAll parts

def Pattern.sexp : Pattern α → Sexp
  | .binding identifier => identifier.sexp
  | .literal value => value.sexp

def Arm.sexp : Arm α → Sexp
  | .mk pattern body _ => .group [pattern.sexp, .word "->".toList, body.sexp]

def Arm.sexpAll : List (Arm α) → List Sexp
  | [] => []
  | arm :: arms => arm.sexp :: Arm.sexpAll arms

def Action.sexp : Action α → Sexp
  | .expression value _ => value.sexp
  | .throw value _ => .form .throw [value.sexp]
  | .block statements _ => .list .curly (Statement.sexpAll statements)

def Statement.sexp : Statement α → Sexp
  | .action action => action.sexp
  | .empty _ => .word ";".toList

def Statement.sexpAll : List (Statement α) → List Sexp
  | [] => []
  | statement :: statements => statement.sexp :: Statement.sexpAll statements

end

end Definitions

/-! ## Printing is rendering -/

/-- The text is what is rendered of the expression. -/
def Sexp.PrintedAs (sexp : Sexp) (text : String) : Prop :=
  text.toList = sexp.render

namespace Print

variable {texts : List String} {items : List Sexp} {text : String} {item : Sexp}

theorem toList_spaced (printed : List.Forall₂ Sexp.PrintedAs items texts) :
    (spaced texts).toList = Sexp.renderAll items := by
  induction printed with
  | nil => rfl
  | cons first later inductionHypothesis =>
    rw [spaced, List.map_cons, String.join_cons, ← spaced, String.toList_append,
      String.toList_append, inductionHypothesis, first, Sexp.renderAll]
    rfl

theorem joined_cons (text : String) (texts : List String) :
    joined (text :: texts) = text ++ spaced texts := by
  induction texts generalizing text with
  | nil => rw [joined, String.intercalate_singleton, spaced, List.map_nil, String.join_nil,
      String.append_empty]
  | cons next texts inductionHypothesis =>
    rw [joined, String.intercalate_cons_cons, ← joined, inductionHypothesis, spaced, spaced,
      List.map_cons, String.join_cons, String.append_assoc, String.append_assoc]

theorem toList_joined (printed : List.Forall₂ Sexp.PrintedAs items texts) :
    (joined texts).toList = (Sexp.renderAll items).tail := by
  cases printed with
  | nil => rfl
  | cons first later =>
    rw [joined_cons, String.toList_append, first, toList_spaced later, Sexp.renderAll,
      List.tail_cons]

theorem printed_form (head : Head) (printed : List.Forall₂ Sexp.PrintedAs items texts) :
    (Sexp.form head items).PrintedAs (form head.spelling texts) := by
  have rendered : head.sexp.render = head.spelling.toList := by
    cases head <;> rfl
  rw [Sexp.PrintedAs, form, Sexp.form, Sexp.render, Sexp.renderAll, List.tail_cons, rendered]
  simp only [String.toList_append, toList_spaced printed, List.append_assoc]
  rfl

theorem printed_group (printed : List.Forall₂ Sexp.PrintedAs items texts) :
    (Sexp.group items).PrintedAs (group texts) := by
  rw [Sexp.PrintedAs, group, Sexp.group, Sexp.render]
  simp only [String.toList_append, toList_joined printed, List.append_assoc]
  rfl

end Print

section Trees

open Print

variable {α : Type}

theorem Identifier.printed (identifier : Identifier α) :
    identifier.sexp.PrintedAs identifier.name :=
  rfl

theorem Identifier.printed_names (names : List (Identifier α)) :
    List.Forall₂ Sexp.PrintedAs (names.map Identifier.sexp) (Identifier.names names) := by
  rw [Identifier.names, List.forall₂_map_left_iff, List.forall₂_map_right_iff, List.forall₂_same]
  exact fun name _ => name.printed

mutual

/-- A tree is printed as what is rendered of its symbolic expression. -/
theorem Expr.printed (expr : Expr α) : expr.sexp.PrintedAs expr.print := by
  match expr with
  | .literal value => exact value.printed
  | .identifier identifier => exact identifier.printed
  | .assignment op target value _ =>
    exact printed_form (.assign op) (.cons target.printed (.cons value.printed .nil))
  | .binary op left right _ =>
    exact printed_form (.binary op) (.cons left.printed (.cons right.printed .nil))
  | .unary op operand _ =>
    have printed := printed_form op.head (.cons operand.printed .nil)
    cases op <;> exact printed
  | .update op true operand _ => exact printed_form (.update op true) (.cons operand.printed .nil)
  | .update op false operand _ => exact printed_form (.update op false) (.cons operand.printed .nil)
  | .cast type value _ => exact printed_form .cast (.cons type.printed (.cons value.printed .nil))
  | .field object name _ =>
    exact printed_form .field (.cons object.printed (.cons name.printed .nil))
  | .fieldGroup object names _ =>
    exact printed_form .fieldGroup (.cons object.printed (Identifier.printed_names names))
  | .optionalField object name _ =>
    exact printed_form .optionalField (.cons object.printed (.cons name.printed .nil))
  | .unwrap value _ => exact printed_form .unwrap (.cons value.printed .nil)
  | .unwrapWith value arguments _ =>
    exact printed_form .unwrap
      (.cons value.printed (.cons (printed_group (Expr.printedAll arguments)) .nil))
  | .extraction value arguments _ =>
    exact printed_form .extraction
      (.cons value.printed (.cons (printed_group (Expr.printedAll arguments)) .nil))
  | .element array indices _ =>
    exact printed_form .element (.cons array.printed (Expr.printedAll indices))
  | .newArray type dimensions values _ =>
    have sizes : (Sexp.list .square (Expr.sexpAll dimensions)).PrintedAs
        ("[" ++ joined (Expr.printAll dimensions) ++ "]") := by
      rw [Sexp.PrintedAs, Sexp.render]
      simp only [String.toList_append, toList_joined (Expr.printedAll dimensions),
        List.append_assoc]
      rfl
    exact printed_form .newArray
      (.cons type.printed (.cons sizes (Expr.printedAll values)))
  | .initializer type values _ =>
    exact printed_form .initializer (.cons type.printed (Expr.printedAll values))
  | .call callee arguments _ =>
    exact printed_form .call (.cons callee.printed (Expr.printedAll arguments))
  | .range lower upper _ =>
    exact printed_form .range
      (.cons (Expr.printedEnd lower) (.cons (Expr.printedEnd upper) .nil))
  | .switch subjects arms _ =>
    exact printed_form .switch
      (.cons (printed_group (Expr.printedAll subjects)) (Arm.printedAll arms))

theorem Expr.printedAll (exprs : List (Expr α)) :
    List.Forall₂ Sexp.PrintedAs (Expr.sexpAll exprs) (Expr.printAll exprs) := by
  match exprs with
  | [] => exact .nil
  | expr :: exprs => exact .cons expr.printed (Expr.printedAll exprs)

theorem Expr.printedEnd (operand? : Option (Expr α)) :
    (Expr.sexpEnd operand?).PrintedAs (Expr.printEnd operand?) := by
  match operand? with
  | none => exact printed_group .nil
  | some operand => exact operand.printed

theorem Literal.printed (literal : Literal α) : literal.sexp.PrintedAs literal.print := by
  match literal with
  | .integer value _ => rfl
  | .float value none _ => rfl
  | .float value (some suffix) _ => rfl
  | .char value _ => exact String.toList_ofList
  | .string parts _ =>
    rw [Sexp.PrintedAs, Literal.print, Literal.sexp, Sexp.render]
    simp only [String.toList_append, StringPart.toList_printAll parts, List.append_assoc]
    rfl
  | .boolean true _ => rfl
  | .boolean false _ => rfl
  | .nothing _ => rfl
  | .placeholder _ => rfl

theorem StringPart.toList_printAll (parts : List (StringPart α)) :
    (StringPart.printAll parts).toList = SexpPart.renderAll (StringPart.sexpAll parts) := by
  match parts with
  | [] => rfl
  | .fragment text :: parts =>
    rw [StringPart.printAll, String.toList_append, StringPart.toList_printAll parts,
      StringPart.print, String.toList_ofList, StringPart.sexpAll]
    split
    next empty =>
      rw [empty]
      rfl
    next => rw [SexpPart.renderAll]
  | .interpolation value :: parts =>
    rw [StringPart.printAll, String.toList_append, StringPart.toList_printAll parts,
      StringPart.print, StringPart.sexpAll, SexpPart.renderAll]
    have printed : value.print.toList = value.sexp.render := value.printed
    simp only [String.toList_append, printed, List.append_assoc]
    rfl

theorem Pattern.printed (pattern : Pattern α) : pattern.sexp.PrintedAs pattern.print := by
  match pattern with
  | .binding identifier => exact identifier.printed
  | .literal value => exact value.printed

theorem Arm.printed (arm : Arm α) : arm.sexp.PrintedAs arm.print := by
  match arm with
  | .mk pattern body _ =>
    have matched : pattern.print.toList = pattern.sexp.render := pattern.printed
    have done : body.print.toList = body.sexp.render := body.printed
    rw [Sexp.PrintedAs, Arm.print, Arm.sexp, Sexp.group, Sexp.render]
    simp only [String.toList_append, matched, done, List.append_assoc, Sexp.renderAll,
      List.tail_cons, Sexp.render, List.cons_append, List.nil_append]
    rfl

theorem Arm.printedAll (arms : List (Arm α)) :
    List.Forall₂ Sexp.PrintedAs (Arm.sexpAll arms) (Arm.printAll arms) := by
  match arms with
  | [] => exact .nil
  | arm :: arms => exact .cons arm.printed (Arm.printedAll arms)

theorem Action.printed (action : Action α) : action.sexp.PrintedAs action.print := by
  match action with
  | .expression value _ => exact value.printed
  | .throw value _ => exact printed_form .throw (.cons value.printed .nil)
  | .block statements _ =>
    rw [Sexp.PrintedAs, Action.print, Action.sexp, Sexp.render]
    simp only [String.toList_append, toList_joined (Statement.printedAll statements),
      List.append_assoc]
    rfl

theorem Statement.printed (statement : Statement α) :
    statement.sexp.PrintedAs statement.print := by
  match statement with
  | .action action => exact action.printed
  | .empty _ => rfl

theorem Statement.printedAll (statements : List (Statement α)) :
    List.Forall₂ Sexp.PrintedAs (Statement.sexpAll statements) (Statement.printAll statements) := by
  match statements with
  | [] => exact .nil
  | statement :: statements => exact .cons statement.printed (Statement.printedAll statements)

end

/-- A file is printed as its statements, one on each line. -/
theorem File.toList_print (file : File α) :
    file.print.toList = Sexp.renderLines (Statement.sexpAll file.statements) := by
  have lines {items : List Sexp} {texts : List String}
      (printed : List.Forall₂ Sexp.PrintedAs items texts) :
      (String.join (texts.map (· ++ "\n"))).toList = Sexp.renderLines items := by
    induction printed with
    | nil => rfl
    | cons first later inductionHypothesis =>
      rw [List.map_cons, String.join_cons, String.toList_append, String.toList_append,
        inductionHypothesis, first, Sexp.renderLines, List.append_assoc]
      rfl
  exact lines (Statement.printedAll file.statements)

/-! ## What printing leaves out -/

theorem Identifier.sexp_bare (identifier : Identifier α) : identifier.bare.sexp = identifier.sexp :=
  rfl

mutual

/-- Nothing is printed of annotations and of fragments without text. -/
theorem Expr.sexp_bare (expr : Expr α) : expr.bare.sexp = expr.sexp := by
  match expr with
  | .literal value => exact value.sexp_bare
  | .identifier _ => rfl
  | .assignment _ target value _ =>
    simp only [Expr.bare, Expr.sexp, target.sexp_bare, value.sexp_bare]
  | .binary _ left right _ =>
    simp only [Expr.bare, Expr.sexp, left.sexp_bare, right.sexp_bare]
  | .unary _ operand _ => simp only [Expr.bare, Expr.sexp, operand.sexp_bare]
  | .update _ _ operand _ => simp only [Expr.bare, Expr.sexp, operand.sexp_bare]
  | .cast _ value _ => simp only [Expr.bare, Expr.sexp, Identifier.sexp_bare, value.sexp_bare]
  | .field object _ _ => simp only [Expr.bare, Expr.sexp, Identifier.sexp_bare, object.sexp_bare]
  | .fieldGroup object _ _ =>
    simp only [Expr.bare, Expr.sexp, object.sexp_bare, List.map_map]
    rfl
  | .optionalField object _ _ =>
    simp only [Expr.bare, Expr.sexp, Identifier.sexp_bare, object.sexp_bare]
  | .unwrap value _ => simp only [Expr.bare, Expr.sexp, value.sexp_bare]
  | .unwrapWith value arguments _ =>
    simp only [Expr.bare, Expr.sexp, value.sexp_bare, Expr.sexpAll_bareAll arguments]
  | .extraction value arguments _ =>
    simp only [Expr.bare, Expr.sexp, value.sexp_bare, Expr.sexpAll_bareAll arguments]
  | .element array indices _ =>
    simp only [Expr.bare, Expr.sexp, array.sexp_bare, Expr.sexpAll_bareAll indices]
  | .newArray _ dimensions values _ =>
    simp only [Expr.bare, Expr.sexp, Identifier.sexp_bare, Expr.sexpAll_bareAll dimensions,
      Expr.sexpAll_bareAll values]
  | .initializer _ values _ =>
    simp only [Expr.bare, Expr.sexp, Identifier.sexp_bare, Expr.sexpAll_bareAll values]
  | .call callee arguments _ =>
    simp only [Expr.bare, Expr.sexp, callee.sexp_bare, Expr.sexpAll_bareAll arguments]
  | .range lower upper _ =>
    simp only [Expr.bare, Expr.sexp, Expr.sexpEnd_bareEnd lower, Expr.sexpEnd_bareEnd upper]
  | .switch subjects arms _ =>
    simp only [Expr.bare, Expr.sexp, Expr.sexpAll_bareAll subjects, Arm.sexpAll_bareAll arms]

theorem Expr.sexpAll_bareAll (exprs : List (Expr α)) :
    Expr.sexpAll (Expr.bareAll exprs) = Expr.sexpAll exprs := by
  match exprs with
  | [] => rfl
  | expr :: exprs =>
    simp only [Expr.bareAll, Expr.sexpAll, expr.sexp_bare, Expr.sexpAll_bareAll exprs]

theorem Expr.sexpEnd_bareEnd (operand? : Option (Expr α)) :
    Expr.sexpEnd (Expr.bareEnd operand?) = Expr.sexpEnd operand? := by
  match operand? with
  | none => rfl
  | some operand => exact operand.sexp_bare

theorem Literal.sexp_bare (literal : Literal α) : literal.bare.sexp = literal.sexp := by
  match literal with
  | .string parts _ =>
    simp only [Literal.bare, Literal.sexp, StringPart.sexpAll_bareAll parts]
  | .integer _ _ | .float _ _ _ | .char _ _ | .boolean _ _ | .nothing _ | .placeholder _ => rfl

theorem StringPart.sexpAll_bareAll (parts : List (StringPart α)) :
    StringPart.sexpAll (StringPart.bareAll parts) = StringPart.sexpAll parts := by
  match parts with
  | [] => rfl
  | .fragment text :: parts =>
    by_cases empty : text = ""
    · rw [StringPart.bareAll, StringPart.sexpAll, if_pos empty, if_pos empty,
        StringPart.sexpAll_bareAll parts]
    · rw [StringPart.bareAll, StringPart.sexpAll, if_neg empty, if_neg empty, StringPart.sexpAll,
        if_neg empty, StringPart.sexpAll_bareAll parts]
  | .interpolation value :: parts =>
    simp only [StringPart.bareAll, StringPart.sexpAll, value.sexp_bare,
      StringPart.sexpAll_bareAll parts]

theorem Pattern.sexp_bare (pattern : Pattern α) : pattern.bare.sexp = pattern.sexp := by
  match pattern with
  | .binding _ => rfl
  | .literal value => exact value.sexp_bare

theorem Arm.sexp_bare (arm : Arm α) : arm.bare.sexp = arm.sexp := by
  match arm with
  | .mk pattern body _ => simp only [Arm.bare, Arm.sexp, pattern.sexp_bare, body.sexp_bare]

theorem Arm.sexpAll_bareAll (arms : List (Arm α)) :
    Arm.sexpAll (Arm.bareAll arms) = Arm.sexpAll arms := by
  match arms with
  | [] => rfl
  | arm :: arms => simp only [Arm.bareAll, Arm.sexpAll, arm.sexp_bare, Arm.sexpAll_bareAll arms]

theorem Action.sexp_bare (action : Action α) : action.bare.sexp = action.sexp := by
  match action with
  | .expression value _ => exact value.sexp_bare
  | .throw value _ => simp only [Action.bare, Action.sexp, value.sexp_bare]
  | .block statements _ =>
    simp only [Action.bare, Action.sexp, Statement.sexpAll_bareAll statements]

theorem Statement.sexp_bare (statement : Statement α) : statement.bare.sexp = statement.sexp := by
  match statement with
  | .action action => exact action.sexp_bare
  | .empty _ => rfl

theorem Statement.sexpAll_bareAll (statements : List (Statement α)) :
    Statement.sexpAll (Statement.bareAll statements) = Statement.sexpAll statements := by
  match statements with
  | [] => rfl
  | statement :: statements =>
    simp only [Statement.bareAll, Statement.sexpAll, statement.sexp_bare,
      Statement.sexpAll_bareAll statements]

end

theorem File.print_bare (file : File α) : file.bare.print = file.print := by
  rw [← String.toList_inj, File.toList_print, File.toList_print, File.bare,
    Statement.sexpAll_bareAll]

end Trees

end Offside
