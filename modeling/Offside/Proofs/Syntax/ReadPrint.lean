import Offside.Proofs.Syntax.Bare
import Offside.Proofs.Syntax.Legible
import Std.Data.String.ToInt

/-!
Trees as they are read back from what they are printed as, up to annotations and fragments without
text. Whether a form is an operation, a group or an arm depends on where it stands, so every
expression is read as all that it might be.
-/

namespace Offside

/-! ## Reading -/

namespace Head

def all : List Head :=
  [.assign .assign, .assign .add, .assign .subtract, .assign .multiply, .assign .divide,
    .assign .declare, .binary .or, .binary .and, .binary .eq, .binary .neq, .binary .gte,
    .binary .lte, .binary .gt, .binary .lt, .binary .add, .binary .subtract, .binary .multiply,
    .binary .divide, .binary .remainder, .binary .power, .binary .coalesce, .not,
    .update .increment true, .update .decrement true, .update .increment false,
    .update .decrement false, .cast, .field, .fieldGroup, .optionalField, .unwrap, .extraction,
    .newArray, .initializer, .call, .range, .switch, .throw]

def of? : Sexp → Option Head
  | .list .square [] => some .element
  | .word text => all.find? fun head => decide (head.spelling.toList = text)
  | _ => none

theorem of?_sexp (head : Head) : of? head.sexp = some head := by
  cases head
  case assign op => cases op <;> decide +kernel
  case binary op => cases op <;> decide +kernel
  case update op before => cases op <;> cases before <;> decide +kernel
  all_goals decide +kernel

end Head

/-- What a printed expression is, as an expression, a group, an arm, an action and a statement. -/
structure Reading where
  expr? : Option (Expr Unit)
  group : List (Expr Unit)
  arm? : Option (Arm Unit)
  action? : Option (Action Unit)
  statement? : Option (Statement Unit)

namespace Reading

def name? (reading : Reading) : Option (Identifier Unit) :=
  match reading.expr? with
  | some (.identifier name) => some name
  | _ => none

def pattern? (reading : Reading) : Option (Pattern Unit) :=
  match reading.expr? with
  | some (.identifier name) => some (.binding name)
  | some (.literal value) => some (.literal value)
  | _ => none

def ofExpr (expr? : Option (Expr Unit)) : Reading where
  expr?
  group := []
  arm? := none
  action? := expr?.map (.expression · ())
  statement? := expr?.map (.action <| .expression · ())

end Reading

/-- A word that is no number, by its kind. -/
def Expr.ofKind? (word : String) : Kind → Option (Expr Unit)
  | .boolean value => some (.literal (.boolean value ()))
  | .nothing => some (.literal (.nothing ()))
  | .placeholder => some (.literal (.placeholder ()))
  | .identifier => some (.identifier ⟨word, ()⟩)
  | _ => none

/-- A number starts with a digit or a sign, and no other word does. -/
def Sexp.startsNumber (text : List Char) : Bool :=
  text.head?.any fun c => Text.isDigit c || c = '-'

def Reading.ofWord (text : List Char) : Reading :=
  if text = [';'] then ⟨none, [], none, none, some (.empty ())⟩
  else if Sexp.startsNumber text then
    ofExpr ((String.ofList text).toInt?.map fun value => .literal (.integer value ()))
  else ofExpr (Expr.ofKind? (String.ofList text) (Kind.ofWord (String.ofList text)))

/-- An operation with the given head. How many operands there are tells the two operators apart that
are written alike. -/
def Expr.ofForm? : Head → List Reading → Option (Expr Unit)
  | .assign op, [target, value] => do some (.assignment op (← target.expr?) (← value.expr?) ())
  | .binary op, [left, right] => do some (.binary op (← left.expr?) (← right.expr?) ())
  | .binary .add, [operand] => do some (.unary .plus (← operand.expr?) ())
  | .binary .subtract, [operand] => do some (.unary .negate (← operand.expr?) ())
  | .not, [operand] => do some (.unary .not (← operand.expr?) ())
  | .update op before, [operand] => do some (.update op before (← operand.expr?) ())
  | .cast, [type, value] => do some (.cast (← type.name?) (← value.expr?) ())
  | .field, [object, name] => do some (.field (← object.expr?) (← name.name?) ())
  | .fieldGroup, object :: names => do
    some (.fieldGroup (← object.expr?) (names.filterMap Reading.name?) ())
  | .optionalField, [object, name] => do
    some (.optionalField (← object.expr?) (← name.name?) ())
  | .unwrap, [value] => do some (.unwrap (← value.expr?) ())
  | .unwrap, [value, arguments] => do some (.unwrapWith (← value.expr?) arguments.group ())
  | .extraction, [value, arguments] => do some (.extraction (← value.expr?) arguments.group ())
  | .element, array :: indices => do
    some (.element (← array.expr?) (indices.filterMap Reading.expr?) ())
  | .newArray, type :: dimensions :: values => do
    some (.newArray (← type.name?) dimensions.group (values.filterMap Reading.expr?) ())
  | .initializer, type :: values => do
    some (.initializer (← type.name?) (values.filterMap Reading.expr?) ())
  | .call, callee :: arguments => do
    some (.call (← callee.expr?) (arguments.filterMap Reading.expr?) ())
  | .range, [lower, upper] => some (.range lower.expr? upper.expr? ())
  | .switch, subjects :: arms => some (.switch subjects.group (arms.filterMap Reading.arm?) ())
  | _, _ => none

def Arm.ofItems? : List Reading → Option (Arm Unit)
  | [pattern, _, body] => do some (.mk (← pattern.pattern?) (← body.action?) ())
  | _ => none

def Action.ofForm? : Head → List Reading → Option (Action Unit)
  | .throw, [value] => do some (.throw (← value.expr?) ())
  | head, operands => (Expr.ofForm? head operands).map (.expression · ())

namespace Reading

/-- A list whose first item may be the head of an operation. -/
def ofRound (head? : Option Head) (items : List Reading) : Reading where
  expr? := head?.bind (Expr.ofForm? · items.tail)
  group := items.filterMap expr?
  arm? := Arm.ofItems? items
  action? := head?.bind (Action.ofForm? · items.tail)
  statement? := (head?.bind (Action.ofForm? · items.tail)).map .action

def ofSquare (items : List Reading) : Reading where
  expr? := none
  group := items.filterMap expr?
  arm? := none
  action? := none
  statement? := none

def ofCurly (items : List Reading) : Reading where
  expr? := none
  group := []
  arm? := none
  action? := some (.block (items.filterMap statement?) ())
  statement? := some (.action (.block (items.filterMap statement?) ()))

end Reading

mutual

def Sexp.read : Sexp → Reading
  | .word text => .ofWord text
  | .char value => .ofExpr (some (.literal (.char value ())))
  | .string parts => .ofExpr (some (.literal (.string (SexpPart.readAll parts) ())))
  | .list .round items => .ofRound (items.head?.bind Head.of?) (Sexp.readAll items)
  | .list .square items => .ofSquare (Sexp.readAll items)
  | .list .curly items => .ofCurly (Sexp.readAll items)

def Sexp.readAll : List Sexp → List Reading
  | [] => []
  | item :: items => item.read :: Sexp.readAll items

def SexpPart.readAll : List SexpPart → List (StringPart Unit)
  | [] => []
  | .text text :: parts => .fragment (String.ofList text) :: SexpPart.readAll parts
  | .value value :: parts =>
    match value.read.expr? with
    | some expr => .interpolation expr :: SexpPart.readAll parts
    | none => SexpPart.readAll parts

end

/-! ## What is read back -/

/-- The expression, and the action and the statement that it is. -/
structure Reading.Is (reading : Reading) (value : Expr Unit) : Prop where
  expr : reading.expr? = some value
  action : reading.action? = some (.expression value ())
  statement : reading.statement? = some (.action (.expression value ()))

namespace Sexp

theorem read_form (head : Head) (operands : List Sexp) :
    (form head operands).read = .ofRound (some head) (head.sexp.read :: readAll operands) := by
  rw [form, read, readAll, List.head?_cons, Option.bind_some, Head.of?_sexp]

theorem is_form {head : Head} {operands : List Sexp} {expr : Expr Unit} (notThrow : head ≠ .throw)
    (assembled : Expr.ofForm? head (readAll operands) = some expr) :
    (form head operands).read.Is expr := by
  have action : Action.ofForm? head (readAll operands) = some (.expression expr ()) := by
    have general : Action.ofForm? head (readAll operands) =
        (Expr.ofForm? head (readAll operands)).map (.expression · ()) := by
      unfold Action.ofForm?
      split
      next => exact absurd rfl notThrow
      next => rfl
    rw [general, assembled]
    rfl
  rw [read_form]
  exact ⟨assembled, action, congrArg (Option.map Statement.action) action⟩

theorem group_readAll (items : List Sexp) :
    (group items).read.group = (readAll items).filterMap Reading.expr? := by
  rw [group, read]
  rfl

/-- A name that is no number is read as what it is reserved for, or as a name. -/
theorem read_word {name : String} (isName : Text.isName name.toList = true) {expr : Expr Unit}
    (found : Expr.ofKind? name (.ofWord name) = some expr) : (word name.toList).read.Is expr := by
  obtain ⟨c, rest, characters, starts, _⟩ := Text.exists_cons_of_isName isName
  have noSign : c ≠ '-' := by
    rintro rfl
    exact absurd starts (by decide +kernel)
  have noSemicolon : c ≠ ';' := by
    rintro rfl
    exact absurd starts (by decide +kernel)
  have noNumber : startsNumber name.toList = false := by
    simp [startsNumber, characters, Text.isDigit_eq_false_of_isNameStart starts, noSign]
  have notEmpty : name.toList ≠ [';'] := by
    simp [characters, noSemicolon]
  rw [read, Reading.ofWord, if_neg notEmpty, if_neg (by simp [noNumber]), String.ofList_toList,
    found]
  exact ⟨rfl, rfl, rfl⟩

theorem read_toString (value : Int) :
    (word (toString value).toList).read.Is (.literal (.integer value ())) := by
  have starts : startsNumber (toString value).toList = true := by
    rcases toList_toString value with written | written
    · obtain ⟨c, rest, digits⟩ :=
        List.exists_cons_of_ne_nil (@Nat.toDigits_ne_nil value.natAbs 10)
      have digit : Text.isDigit c = true :=
        Text.isDigit_of_mem_toDigits (digits ▸ List.mem_cons_self)
      rw [startsNumber, written, digits, List.head?_cons, Option.any_some, digit, Bool.true_or]
    · rw [startsNumber, written]
      rfl
  have notEmpty : (toString value).toList ≠ [';'] := by
    intro isEmpty
    rw [isEmpty] at starts
    contradiction
  have number : (String.ofList (toString value).toList).toInt? = some value := by
    rw [String.ofList_toList]
    exact Int.toInt?_repr value
  rw [read, Reading.ofWord, if_neg notEmpty, if_pos starts, number]
  exact ⟨rfl, rfl, rfl⟩

end Sexp

/-! ## Trees -/

section Trees

variable {α : Type}

theorem Identifier.read {identifier : Identifier α}
    (legible : (Event.identifier identifier).Legible) :
    identifier.sexp.read.Is (.identifier identifier.bare) := by
  refine Sexp.read_word legible.spelled.isName ?_
  rw [legible.spelled.isUnreserved]
  rfl

theorem Identifier.read_name {identifier : Identifier α}
    (legible : (Event.identifier identifier).Legible) :
    identifier.sexp.read.name? = some identifier.bare := by
  rw [Reading.name?, (Identifier.read legible).expr]

theorem Identifier.read_type {identifier : Identifier α}
    (legible : Legible identifier.walkType) :
    identifier.sexp.read.name? = some identifier.bare :=
  Identifier.read_name (legible _ (List.mem_cons_of_mem _ List.mem_cons_self))

theorem Identifier.read_names {names : List (Identifier α)}
    (legible : Legible (names.map .identifier)) :
    (Sexp.readAll (names.map Identifier.sexp)).filterMap Reading.name? =
      names.map Identifier.bare := by
  induction names with
  | nil => rfl
  | cons name names inductionHypothesis =>
    obtain ⟨first, others⟩ := legible_cons.mp legible
    rw [List.map_cons, Sexp.readAll, List.filterMap_cons_some (Identifier.read_name first),
      inductionHypothesis others, List.map_cons]

mutual

/-- What a tree is printed as is read back as the tree. -/
theorem Expr.read (expr : Expr α) (legible : Legible expr.walk) :
    expr.sexp.read.Is expr.bare := by
  match expr with
  | .literal value => exact value.read (legible_cons.mp legible).2
  | .identifier identifier =>
    simp only [Expr.walk, legible_cons] at legible
    exact Identifier.read legible.2.1
  | .assignment op target value _ =>
    simp only [Expr.walk, legible_cons, legible_append] at legible
    obtain ⟨_, inTarget, inValue⟩ := legible
    have first := (target.read inTarget).expr
    have second := (value.read inValue).expr
    exact Sexp.is_form Head.noConfusion
      (by simp [Sexp.readAll, Expr.ofForm?, Expr.bare, first, second])
  | .binary op left right _ =>
    simp only [Expr.walk, legible_cons, legible_append] at legible
    obtain ⟨_, inLeft, inRight⟩ := legible
    have first := (left.read inLeft).expr
    have second := (right.read inRight).expr
    exact Sexp.is_form Head.noConfusion
      (by simp [Sexp.readAll, Expr.ofForm?, Expr.bare, first, second])
  | .unary op operand _ =>
    have read := (operand.read (legible_cons.mp legible).2).expr
    cases op
    all_goals
      exact Sexp.is_form Head.noConfusion
        (by simp [Sexp.readAll, Expr.ofForm?, Expr.bare, UnaryOp.head, read])
  | .update op before operand _ =>
    have read := (operand.read (legible_cons.mp legible).2).expr
    exact Sexp.is_form Head.noConfusion (by simp [Sexp.readAll, Expr.ofForm?, Expr.bare, read])
  | .cast type value _ =>
    simp only [Expr.walk, legible_cons, legible_append] at legible
    obtain ⟨_, inType, inValue⟩ := legible
    have name := Identifier.read_type inType
    have read := (value.read inValue).expr
    exact Sexp.is_form Head.noConfusion
      (by simp [Sexp.readAll, Expr.ofForm?, Expr.bare, name, read])
  | .field object name _ =>
    simp only [Expr.walk, legible_cons, legible_append] at legible
    obtain ⟨_, inObject, named, _⟩ := legible
    have read := (object.read inObject).expr
    have same := Identifier.read_name named
    exact Sexp.is_form Head.noConfusion
      (by simp [Sexp.readAll, Expr.ofForm?, Expr.bare, read, same])
  | .fieldGroup object names _ =>
    simp only [Expr.walk, legible_cons, legible_append] at legible
    obtain ⟨_, inObject, named⟩ := legible
    have read := (object.read inObject).expr
    have same := Identifier.read_names named
    exact Sexp.is_form Head.noConfusion
      (by simp [Sexp.readAll, Expr.ofForm?, Expr.bare, read, same])
  | .optionalField object name _ =>
    simp only [Expr.walk, legible_cons, legible_append] at legible
    obtain ⟨_, inObject, named, _⟩ := legible
    have read := (object.read inObject).expr
    have same := Identifier.read_name named
    exact Sexp.is_form Head.noConfusion
      (by simp [Sexp.readAll, Expr.ofForm?, Expr.bare, read, same])
  | .unwrap value _ =>
    have read := (value.read (legible_cons.mp legible).2).expr
    exact Sexp.is_form Head.noConfusion (by simp [Sexp.readAll, Expr.ofForm?, Expr.bare, read])
  | .unwrapWith value arguments _ =>
    simp only [Expr.walk, legible_cons, legible_append] at legible
    obtain ⟨_, inValue, inArguments⟩ := legible
    have read := (value.read inValue).expr
    have group := Expr.readAll arguments inArguments
    exact Sexp.is_form Head.noConfusion
      (by simp [Sexp.readAll, Expr.ofForm?, Expr.bare, Sexp.group_readAll, read, group])
  | .extraction value arguments _ =>
    simp only [Expr.walk, legible_cons, legible_append] at legible
    obtain ⟨_, inValue, inArguments⟩ := legible
    have read := (value.read inValue).expr
    have group := Expr.readAll arguments inArguments
    exact Sexp.is_form Head.noConfusion
      (by simp [Sexp.readAll, Expr.ofForm?, Expr.bare, Sexp.group_readAll, read, group])
  | .element array indices _ =>
    simp only [Expr.walk, legible_cons, legible_append] at legible
    obtain ⟨_, inArray, inIndices⟩ := legible
    have read := (array.read inArray).expr
    have others := Expr.readAll indices inIndices
    exact Sexp.is_form Head.noConfusion
      (by simp [Sexp.readAll, Expr.ofForm?, Expr.bare, read, others])
  | .newArray type dimensions values _ =>
    simp only [Expr.walk, legible_cons, legible_append] at legible
    obtain ⟨_, ⟨inType, inDimensions⟩, inValues⟩ := legible
    have name := Identifier.read_type inType
    have sizes :
        (Sexp.list .square (Expr.sexpAll dimensions)).read.group = Expr.bareAll dimensions :=
      Expr.readAll dimensions inDimensions
    have others := Expr.readAll values inValues
    exact Sexp.is_form Head.noConfusion
      (by simp [Sexp.readAll, Expr.ofForm?, Expr.bare, name, sizes, others])
  | .initializer type values _ =>
    simp only [Expr.walk, legible_cons, legible_append] at legible
    obtain ⟨_, inType, inValues⟩ := legible
    have name := Identifier.read_type inType
    have others := Expr.readAll values inValues
    exact Sexp.is_form Head.noConfusion
      (by simp [Sexp.readAll, Expr.ofForm?, Expr.bare, name, others])
  | .call callee arguments _ =>
    simp only [Expr.walk, legible_cons, legible_append] at legible
    obtain ⟨_, inCallee, inArguments⟩ := legible
    have read := (callee.read inCallee).expr
    have others := Expr.readAll arguments inArguments
    exact Sexp.is_form Head.noConfusion
      (by simp [Sexp.readAll, Expr.ofForm?, Expr.bare, read, others])
  | .range lower upper _ =>
    simp only [Expr.walk, legible_cons, legible_append] at legible
    obtain ⟨_, inLower, inUpper⟩ := legible
    have first := Expr.readEnd lower inLower
    have second := Expr.readEnd upper inUpper
    exact Sexp.is_form Head.noConfusion
      (by simp [Sexp.readAll, Expr.ofForm?, Expr.bare, first, second])
  | .switch subjects arms _ =>
    simp only [Expr.walk, legible_cons, legible_append] at legible
    obtain ⟨_, _, inSubjects, inArms⟩ := legible
    have group := Expr.readAll subjects inSubjects
    have read := Arm.readAll arms inArms
    exact Sexp.is_form Head.noConfusion
      (by simp [Sexp.readAll, Expr.ofForm?, Expr.bare, Sexp.group_readAll, group, read])

theorem Expr.readAll (exprs : List (Expr α)) (legible : Legible (Expr.walkAll exprs)) :
    (Sexp.readAll (Expr.sexpAll exprs)).filterMap Reading.expr? = Expr.bareAll exprs := by
  match exprs with
  | [] => rfl
  | expr :: exprs =>
    obtain ⟨first, others⟩ := legible_append.mp legible
    rw [Expr.sexpAll, Sexp.readAll, List.filterMap_cons_some (expr.read first).expr,
      Expr.readAll exprs others, Expr.bareAll]

theorem Expr.readEnd (operand? : Option (Expr α)) (legible : Legible (Expr.walkEnd operand?)) :
    (Expr.sexpEnd operand?).read.expr? = Expr.bareEnd operand? := by
  match operand? with
  | none => rfl
  | some operand => exact (operand.read legible).expr

theorem Literal.read (literal : Literal α) (legible : Legible literal.walk) :
    literal.sexp.read.Is (.literal literal.bare) := by
  match literal with
  | .integer value _ => exact Sexp.read_toString value
  | .float _ _ _ => exact absurd (legible_cons.mp legible).1.noFloat Bool.noConfusion
  | .char value _ => exact ⟨rfl, rfl, rfl⟩
  | .string parts _ =>
    rw [Literal.sexp, Sexp.read, StringPart.readAll parts (legible_cons.mp legible).2]
    exact ⟨rfl, rfl, rfl⟩
  | .boolean true _ => exact Sexp.read_word (by decide +kernel) rfl
  | .boolean false _ => exact Sexp.read_word (by decide +kernel) rfl
  | .nothing _ => exact Sexp.read_word (by decide +kernel) rfl
  | .placeholder _ => exact Sexp.read_word (by decide +kernel) rfl

theorem StringPart.readAll (parts : List (StringPart α))
    (legible : Legible (StringPart.walkAll parts)) :
    SexpPart.readAll (StringPart.sexpAll parts) = StringPart.bareAll parts := by
  match parts with
  | [] => rfl
  | .fragment text :: parts =>
    have others := StringPart.readAll parts legible
    rw [StringPart.sexpAll, StringPart.bareAll]
    split
    next => exact others
    next => rw [SexpPart.readAll, others, String.ofList_toList]
  | .interpolation value :: parts =>
    obtain ⟨inValue, inParts⟩ := legible_append.mp legible
    rw [StringPart.sexpAll, SexpPart.readAll, (value.read inValue).expr]
    exact congrArg (.interpolation value.bare :: ·) (StringPart.readAll parts inParts)

theorem Pattern.read (pattern : Pattern α) (legible : Legible pattern.walk) :
    pattern.sexp.read.pattern? = some pattern.bare := by
  match pattern with
  | .binding identifier =>
    simp only [Pattern.walk, legible_cons] at legible
    rw [Pattern.sexp, Reading.pattern?, (Identifier.read legible.2.1).expr, Pattern.bare]
  | .literal value =>
    rw [Pattern.sexp, Reading.pattern?, (value.read (legible_cons.mp legible).2).expr,
      Pattern.bare]

theorem Arm.read (arm : Arm α) (legible : Legible arm.walk) :
    arm.sexp.read.arm? = some arm.bare := by
  match arm with
  | .mk pattern body _ =>
    simp only [Arm.walk, legible_cons, legible_append] at legible
    obtain ⟨_, inPattern, _, inBody⟩ := legible
    have matched := pattern.read inPattern
    have done := body.read inBody
    rw [Arm.sexp, Sexp.group, Sexp.read]
    simp [Reading.ofRound, Sexp.readAll, Arm.ofItems?, Arm.bare, matched, done]

theorem Arm.readAll (arms : List (Arm α)) (legible : Legible (Arm.walkAll arms)) :
    (Sexp.readAll (Arm.sexpAll arms)).filterMap Reading.arm? = Arm.bareAll arms := by
  match arms with
  | [] => rfl
  | arm :: arms =>
    obtain ⟨first, others⟩ := legible_append.mp legible
    rw [Arm.sexpAll, Sexp.readAll, List.filterMap_cons_some (arm.read first),
      Arm.readAll arms others, Arm.bareAll]

theorem Action.read (action : Action α) (legible : Legible action.walk) :
    action.sexp.read.action? = some action.bare ∧
      action.sexp.read.statement? = some (.action action.bare) := by
  match action with
  | .expression value _ =>
    have read := value.read (legible_cons.mp legible).2
    exact ⟨read.action, read.statement⟩
  | .throw value _ =>
    have read := (value.read (legible_cons.mp legible).2).expr
    rw [Action.sexp, Sexp.read_form]
    simp [Reading.ofRound, Sexp.readAll, Action.ofForm?, Action.bare, read]
  | .block statements _ =>
    simp only [Action.walk, legible_cons, legible_append] at legible
    have read := Statement.readAll statements legible.2.1
    rw [Action.sexp, Sexp.read]
    simp [Reading.ofCurly, Action.bare, read]

theorem Statement.read (statement : Statement α) (legible : Legible statement.walk) :
    statement.sexp.read.statement? = some statement.bare := by
  match statement with
  | .action action => exact (action.read (legible_cons.mp legible).2).2
  | .empty _ => rfl

theorem Statement.readAll (statements : List (Statement α))
    (legible : Legible (Statement.walkAll statements)) :
    (Sexp.readAll (Statement.sexpAll statements)).filterMap Reading.statement? =
      Statement.bareAll statements := by
  match statements with
  | [] => rfl
  | statement :: statements =>
    obtain ⟨first, others⟩ := legible_append.mp legible
    rw [Statement.sexpAll, Sexp.readAll, List.filterMap_cons_some (statement.read first),
      Statement.readAll statements others, Statement.bareAll]

end

end Trees

end Offside
