import Offside.Syntax.Census

/-!
What a census counts. The nodes of each kind and the depth of blocks are told here from the tree
alone, node by node. A walk meets every node once and leaves every block that it enters, so that a
census taken on it comes to the same numbers.
-/

namespace Offside

/-- The kinds of nodes that a census counts. -/
inductive NodeKind
  | statement
  | expression
  | literal
  | identifier
  | switch
  | arm
deriving DecidableEq, Repr

/-- What a node of some kind adds to the number of those that are wanted. -/
def NodeKind.one (wanted kind : NodeKind) : Nat :=
  if kind = wanted then 1 else 0

section Definitions

variable {α : Type}

mutual

/-- The nodes of a kind in an expression. A switch is an expression and a switch at once. -/
def Expr.count (wanted : NodeKind) : Expr α → Nat
  | .literal value => wanted.one .expression + value.count wanted
  | .identifier _ => wanted.one .expression + wanted.one .identifier
  | .assignment _ target value _ =>
    wanted.one .expression + (target.count wanted + value.count wanted)
  | .binary _ left right _ => wanted.one .expression + (left.count wanted + right.count wanted)
  | .unary _ operand _ | .update _ _ operand _ => wanted.one .expression + operand.count wanted
  | .cast _ value _ =>
    wanted.one .expression + (wanted.one .identifier + value.count wanted)
  | .field object _ _ | .optionalField object _ _ =>
    wanted.one .expression + (object.count wanted + wanted.one .identifier)
  | .fieldGroup object names _ =>
    wanted.one .expression + (object.count wanted + names.length * wanted.one .identifier)
  | .unwrap value _ => wanted.one .expression + value.count wanted
  | .unwrapWith value arguments _ | .extraction value arguments _ =>
    wanted.one .expression + (value.count wanted + Expr.countAll wanted arguments)
  | .element array indices _ =>
    wanted.one .expression + (array.count wanted + Expr.countAll wanted indices)
  | .newArray _ dimensions values _ =>
    wanted.one .expression +
      (wanted.one .identifier + Expr.countAll wanted dimensions + Expr.countAll wanted values)
  | .initializer _ values _ =>
    wanted.one .expression + (wanted.one .identifier + Expr.countAll wanted values)
  | .call callee arguments _ =>
    wanted.one .expression + (callee.count wanted + Expr.countAll wanted arguments)
  | .range lower upper _ =>
    wanted.one .expression + (Expr.countEnd wanted lower + Expr.countEnd wanted upper)
  | .switch subjects arms _ =>
    wanted.one .expression +
      (wanted.one .switch + (Expr.countAll wanted subjects + Arm.countAll wanted arms))

def Expr.countAll (wanted : NodeKind) : List (Expr α) → Nat
  | [] => 0
  | expr :: exprs => expr.count wanted + Expr.countAll wanted exprs

def Expr.countEnd (wanted : NodeKind) : Option (Expr α) → Nat
  | none => 0
  | some expr => expr.count wanted

def Literal.count (wanted : NodeKind) : Literal α → Nat
  | .string parts _ => wanted.one .literal + StringPart.countAll wanted parts
  | .integer _ _ | .float _ _ _ | .char _ _ | .boolean _ _ | .nothing _ | .placeholder _ =>
    wanted.one .literal

def StringPart.count (wanted : NodeKind) : StringPart α → Nat
  | .fragment _ => 0
  | .interpolation value => value.count wanted

def StringPart.countAll (wanted : NodeKind) : List (StringPart α) → Nat
  | [] => 0
  | part :: parts => part.count wanted + StringPart.countAll wanted parts

def Pattern.count (wanted : NodeKind) : Pattern α → Nat
  | .binding _ => wanted.one .identifier
  | .literal value => value.count wanted

def Arm.count (wanted : NodeKind) : Arm α → Nat
  | .mk pattern body _ => wanted.one .arm + (pattern.count wanted + body.count wanted)

def Arm.countAll (wanted : NodeKind) : List (Arm α) → Nat
  | [] => 0
  | arm :: arms => arm.count wanted + Arm.countAll wanted arms

def Action.count (wanted : NodeKind) : Action α → Nat
  | .expression value _ | .throw value _ => value.count wanted
  | .block statements _ => Statement.countAll wanted statements

def Statement.count (wanted : NodeKind) : Statement α → Nat
  | .action action => wanted.one .statement + action.count wanted
  | .empty _ => wanted.one .statement

def Statement.countAll (wanted : NodeKind) : List (Statement α) → Nat
  | [] => 0
  | statement :: statements => statement.count wanted + Statement.countAll wanted statements

end

def File.count (wanted : NodeKind) (file : File α) : Nat :=
  Statement.countAll wanted file.statements

mutual

/-- The most blocks on a path down from an expression. -/
def Expr.blockDepth : Expr α → Nat
  | .literal value => value.blockDepth
  | .identifier _ => 0
  | .assignment _ target value _ => max target.blockDepth value.blockDepth
  | .binary _ left right _ => max left.blockDepth right.blockDepth
  | .unary _ operand _ | .update _ _ operand _ => operand.blockDepth
  | .cast _ value _ | .unwrap value _ => value.blockDepth
  | .field object _ _ | .fieldGroup object _ _ | .optionalField object _ _ => object.blockDepth
  | .unwrapWith value arguments _ | .extraction value arguments _ =>
    max value.blockDepth (Expr.blockDepthAll arguments)
  | .element array indices _ => max array.blockDepth (Expr.blockDepthAll indices)
  | .newArray _ dimensions values _ =>
    max (Expr.blockDepthAll dimensions) (Expr.blockDepthAll values)
  | .initializer _ values _ => Expr.blockDepthAll values
  | .call callee arguments _ => max callee.blockDepth (Expr.blockDepthAll arguments)
  | .range lower upper _ => max (Expr.blockDepthEnd lower) (Expr.blockDepthEnd upper)
  | .switch subjects arms _ => max (Expr.blockDepthAll subjects) (Arm.blockDepthAll arms)

def Expr.blockDepthAll : List (Expr α) → Nat
  | [] => 0
  | expr :: exprs => max expr.blockDepth (Expr.blockDepthAll exprs)

def Expr.blockDepthEnd : Option (Expr α) → Nat
  | none => 0
  | some expr => expr.blockDepth

def Literal.blockDepth : Literal α → Nat
  | .string parts _ => StringPart.blockDepthAll parts
  | .integer _ _ | .float _ _ _ | .char _ _ | .boolean _ _ | .nothing _ | .placeholder _ => 0

def StringPart.blockDepth : StringPart α → Nat
  | .fragment _ => 0
  | .interpolation value => value.blockDepth

def StringPart.blockDepthAll : List (StringPart α) → Nat
  | [] => 0
  | part :: parts => max part.blockDepth (StringPart.blockDepthAll parts)

def Pattern.blockDepth : Pattern α → Nat
  | .binding _ => 0
  | .literal value => value.blockDepth

def Arm.blockDepth : Arm α → Nat
  | .mk pattern body _ => max pattern.blockDepth body.blockDepth

def Arm.blockDepthAll : List (Arm α) → Nat
  | [] => 0
  | arm :: arms => max arm.blockDepth (Arm.blockDepthAll arms)

/-- A block is one more than the deepest of its statements, whether it is a statement or what an
arm does. -/
def Action.blockDepth : Action α → Nat
  | .expression value _ | .throw value _ => value.blockDepth
  | .block statements _ => Statement.blockDepthAll statements + 1

def Statement.blockDepth : Statement α → Nat
  | .action action => action.blockDepth
  | .empty _ => 0

def Statement.blockDepthAll : List (Statement α) → Nat
  | [] => 0
  | statement :: statements => max statement.blockDepth (Statement.blockDepthAll statements)

end

def File.blockDepth (file : File α) : Nat :=
  Statement.blockDepthAll file.statements

/-- The kind of node that is met, if it is one that is counted. -/
@[simp]
def Event.nodeKind? : Event α → Option NodeKind
  | .statement _ => some .statement
  | .expr _ => some .expression
  | .literal _ => some .literal
  | .identifier _ => some .identifier
  | .switch _ _ => some .switch
  | .arm _ => some .arm
  | .file _ | .topLevel _ | .expressionStatement _ | .throwStatement _ | .blockStart _
  | .blockEnd | .type _ | .pattern _ | .armBody _ => none

/-- How many nodes of a kind are met. -/
def Event.count (wanted : NodeKind) (events : List (Event α)) : Nat :=
  events.countP (·.nodeKind? = some wanted)

end Definitions

/-! ## Nodes -/

section Nodes

variable {α : Type} (wanted : NodeKind)

namespace Event

@[simp]
theorem count_nil : count wanted ([] : List (Event α)) = 0 :=
  rfl

/-- What is met first adds what its node adds, if it is a node that is counted. -/
@[simp]
theorem count_cons (event : Event α) (events : List (Event α)) :
    count wanted (event :: events) = event.nodeKind?.elim 0 wanted.one + count wanted events := by
  unfold count
  rw [List.countP_cons, Nat.add_comm]
  cases event.nodeKind? with
  | none => simp only [Option.elim_none, reduceCtorEq, decide_false, Bool.false_eq_true, if_false]
  | some kind =>
    simp only [Option.elim_some, NodeKind.one, Option.some.injEq, decide_eq_true_eq]

@[simp]
theorem count_append (left right : List (Event α)) :
    count wanted (left ++ right) = count wanted left + count wanted right :=
  List.countP_append

@[simp]
theorem count_identifiers (names : List (Identifier α)) :
    count wanted (names.map .identifier) = names.length * wanted.one .identifier := by
  induction names with
  | nil => rw [List.map_nil, count_nil, List.length_nil, Nat.zero_mul]
  | cons name names inductionHypothesis =>
    rw [List.map_cons, count_cons, inductionHypothesis, List.length_cons, Nat.succ_mul,
      Nat.add_comm]
    rfl

end Event

@[simp]
theorem Identifier.count_walkType (name : Identifier α) :
    Event.count wanted name.walkType = wanted.one .identifier := by
  simp [Identifier.walkType]

end Nodes

section Walks

open Event (count_cons count_append)

variable {α : Type} (wanted : NodeKind)

-- Every constructor's walk is the node itself and then the walks below it, which is how the
-- counts are told too; the cases follow the trees.
mutual

theorem Expr.count_walk (expr : Expr α) : Event.count wanted expr.walk = expr.count wanted := by
  match expr with
  | .literal value => simp [Expr.walk, Expr.count, value.count_walk]
  | .identifier name => simp [Expr.walk, Expr.count]
  | .assignment op target value span =>
    simp [Expr.walk, Expr.count, target.count_walk, value.count_walk]
  | .binary op left right span => simp [Expr.walk, Expr.count, left.count_walk, right.count_walk]
  | .unary op operand span => simp [Expr.walk, Expr.count, operand.count_walk]
  | .update op before operand span => simp [Expr.walk, Expr.count, operand.count_walk]
  | .cast type value span => simp [Expr.walk, Expr.count, value.count_walk]
  | .field object name span => simp [Expr.walk, Expr.count, object.count_walk]
  | .fieldGroup object names span => simp [Expr.walk, Expr.count, object.count_walk]
  | .optionalField object name span => simp [Expr.walk, Expr.count, object.count_walk]
  | .unwrap value span => simp [Expr.walk, Expr.count, value.count_walk]
  | .unwrapWith value arguments span =>
    simp [Expr.walk, Expr.count, value.count_walk, Expr.count_walkAll arguments]
  | .extraction value arguments span =>
    simp [Expr.walk, Expr.count, value.count_walk, Expr.count_walkAll arguments]
  | .element array indices span =>
    simp [Expr.walk, Expr.count, array.count_walk, Expr.count_walkAll indices]
  | .newArray type dimensions values span =>
    simp [Expr.walk, Expr.count, Expr.count_walkAll dimensions, Expr.count_walkAll values,
      Nat.add_assoc]
  | .initializer type values span => simp [Expr.walk, Expr.count, Expr.count_walkAll values]
  | .call callee arguments span =>
    simp [Expr.walk, Expr.count, callee.count_walk, Expr.count_walkAll arguments]
  | .range lower upper span =>
    simp [Expr.walk, Expr.count, Expr.count_walkEnd lower, Expr.count_walkEnd upper]
  | .switch subjects arms span =>
    simp [Expr.walk, Expr.count, Expr.count_walkAll subjects, Arm.count_walkAll arms]

theorem Expr.count_walkAll (exprs : List (Expr α)) :
    Event.count wanted (Expr.walkAll exprs) = Expr.countAll wanted exprs := by
  match exprs with
  | [] => rfl
  | expr :: exprs =>
    rw [Expr.walkAll, Expr.countAll, count_append, expr.count_walk, Expr.count_walkAll exprs]

theorem Expr.count_walkEnd (end? : Option (Expr α)) :
    Event.count wanted (Expr.walkEnd end?) = Expr.countEnd wanted end? := by
  match end? with
  | none => rfl
  | some expr => rw [Expr.walkEnd, Expr.countEnd, expr.count_walk]

theorem Literal.count_walk (literal : Literal α) :
    Event.count wanted literal.walk = literal.count wanted := by
  match literal with
  | .string parts span => simp [Literal.walk, Literal.count, StringPart.count_walkAll parts]
  | .integer value span | .float value suffix span | .char value span | .boolean value span
  | .nothing span | .placeholder span => simp [Literal.walk, Literal.count]

theorem StringPart.count_walk (part : StringPart α) :
    Event.count wanted part.walk = part.count wanted := by
  match part with
  | .fragment text => rfl
  | .interpolation value => rw [StringPart.walk, StringPart.count, value.count_walk]

theorem StringPart.count_walkAll (parts : List (StringPart α)) :
    Event.count wanted (StringPart.walkAll parts) = StringPart.countAll wanted parts := by
  match parts with
  | [] => rfl
  | part :: parts =>
    rw [StringPart.walkAll, StringPart.countAll, count_append, part.count_walk,
      StringPart.count_walkAll parts]

theorem Pattern.count_walk (pattern : Pattern α) :
    Event.count wanted pattern.walk = pattern.count wanted := by
  match pattern with
  | .binding name => simp [Pattern.walk, Pattern.count]
  | .literal value => simp [Pattern.walk, Pattern.count, value.count_walk]

theorem Arm.count_walk (arm : Arm α) : Event.count wanted arm.walk = arm.count wanted := by
  match arm with
  | .mk pattern body span => simp [Arm.walk, Arm.count, pattern.count_walk, body.count_walk]

theorem Arm.count_walkAll (arms : List (Arm α)) :
    Event.count wanted (Arm.walkAll arms) = Arm.countAll wanted arms := by
  match arms with
  | [] => rfl
  | arm :: arms =>
    rw [Arm.walkAll, Arm.countAll, count_append, arm.count_walk, Arm.count_walkAll arms]

theorem Action.count_walk (action : Action α) :
    Event.count wanted action.walk = action.count wanted := by
  match action with
  | .expression value span | .throw value span => simp [Action.walk, Action.count, value.count_walk]
  | .block statements span => simp [Action.walk, Action.count, Statement.count_walkAll statements]

theorem Statement.count_walk (statement : Statement α) :
    Event.count wanted statement.walk = statement.count wanted := by
  match statement with
  | .action action => simp [Statement.walk, Statement.count, action.count_walk]
  | .empty span => simp [Statement.walk, Statement.count]

theorem Statement.count_walkAll (statements : List (Statement α)) :
    Event.count wanted (Statement.walkAll statements) = Statement.countAll wanted statements := by
  match statements with
  | [] => rfl
  | statement :: statements =>
    rw [Statement.walkAll, Statement.countAll, count_append, statement.count_walk,
      Statement.count_walkAll statements]

end

/-- Meeting a statement at the top level, before it is met as a statement, counts nothing. -/
theorem File.count_walk (file : File α) : Event.count wanted file.walk = file.count wanted := by
  rw [File.walk, File.count, count_cons]
  induction file.statements with
  | nil => rfl
  | cons statement statements inductionHypothesis =>
    simp only [Event.nodeKind?, Option.elim_none, Nat.zero_add] at inductionHypothesis ⊢
    rw [List.flatMap_cons, count_append, count_cons, Statement.countAll, inductionHypothesis,
      statement.count_walk]
    simp

end Walks

/-! ## Blocks -/

section Blocks

variable {α : Type}

/-- How deep a walk is and how deep it has been, after one more event. -/
def Event.deepen : Nat × Nat → Event α → Nat × Nat
  | (depth, most), .blockStart _ => (depth + 1, max most (depth + 1))
  | (depth, most), .blockEnd => (depth - 1, most)
  | levels, _ => levels

/-- Events that come back to the depth they started from, and go a number of blocks deeper on the
way. -/
def Event.Deepens (events : List (Event α)) (blocks : Nat) : Prop :=
  ∀ depth most, depth ≤ most →
    events.foldl Event.deepen (depth, most) = (depth, max most (depth + blocks))

namespace Event.Deepens

theorem nil : Deepens ([] : List (Event α)) 0 := by
  intro depth most within
  rw [List.foldl_nil, Nat.add_zero, Nat.max_eq_left within]

theorem append {left right : List (Event α)} {first second : Nat} (before : Deepens left first)
    (behind : Deepens right second) : Deepens (left ++ right) (max first second) := by
  intro depth most within
  rw [List.foldl_append, before depth most within,
    behind depth _ (Nat.le_trans within (Nat.le_max_left _ _)), Nat.max_assoc,
    Nat.add_max_add_left]

/-- An event that is neither end of a block leaves the depth as it is. -/
theorem cons {event : Event α} {events : List (Event α)} {blocks : Nat}
    (level : ∀ levels, deepen levels event = levels) (behind : Deepens events blocks) :
    Deepens (event :: events) blocks := by
  intro depth most within
  rw [List.foldl_cons, level, behind depth most within]

/-- What stands between the ends of a block is one block deeper. -/
theorem block {statements : List (Statement α)} {inner : List (Event α)} {blocks : Nat}
    (between : Deepens inner blocks) :
    Deepens (.blockStart statements :: (inner ++ [.blockEnd])) (blocks + 1) := by
  intro depth most within
  have entered :
      max (max most (depth + 1)) (depth + 1 + blocks) = max most (depth + (blocks + 1)) := by
    omega
  rw [List.foldl_cons, List.foldl_append, deepen,
    between (depth + 1) _ (Nat.le_max_right _ _), entered]
  rfl

/-- Names stand inside of no block. -/
theorem names (identifiers : List (Identifier α)) : Deepens (identifiers.map .identifier) 0 := by
  induction identifiers with
  | nil => exact nil
  | cons name names inductionHypothesis => exact cons (fun _ => rfl) inductionHypothesis

theorem walkType (name : Identifier α) : Deepens name.walkType 0 :=
  cons (fun _ => rfl) (names [name])

/-- What is as deep as nothing may be left out of account. -/
theorem append_level {left right : List (Event α)} {blocks : Nat} (before : Deepens left blocks)
    (behind : Deepens right 0) : Deepens (left ++ right) blocks :=
  Nat.max_zero blocks ▸ before.append behind

theorem level_append {left right : List (Event α)} {blocks : Nat} (before : Deepens left 0)
    (behind : Deepens right blocks) : Deepens (left ++ right) blocks :=
  Nat.zero_max blocks ▸ before.append behind

end Event.Deepens

open Event.Deepens

mutual

theorem Expr.deepens_walk (expr : Expr α) : Event.Deepens expr.walk expr.blockDepth := by
  match expr with
  | .literal value => exact value.deepens_walk.cons fun _ => rfl
  | .identifier name => exact (names [name]).cons fun _ => rfl
  | .assignment op target value span =>
    exact (target.deepens_walk.append value.deepens_walk).cons fun _ => rfl
  | .binary op left right span =>
    exact (left.deepens_walk.append right.deepens_walk).cons fun _ => rfl
  | .unary op operand span => exact operand.deepens_walk.cons fun _ => rfl
  | .update op before operand span => exact operand.deepens_walk.cons fun _ => rfl
  | .cast type value span =>
    exact ((walkType type).level_append value.deepens_walk).cons fun _ => rfl
  | .field object name span =>
    exact (object.deepens_walk.append_level (names [name])).cons fun _ => rfl
  | .fieldGroup object fields span =>
    exact (object.deepens_walk.append_level (names fields)).cons fun _ => rfl
  | .optionalField object name span =>
    exact (object.deepens_walk.append_level (names [name])).cons fun _ => rfl
  | .unwrap value span => exact value.deepens_walk.cons fun _ => rfl
  | .unwrapWith value arguments span =>
    exact (value.deepens_walk.append (Expr.deepens_walkAll arguments)).cons fun _ => rfl
  | .extraction value arguments span =>
    exact (value.deepens_walk.append (Expr.deepens_walkAll arguments)).cons fun _ => rfl
  | .element array indices span =>
    exact (array.deepens_walk.append (Expr.deepens_walkAll indices)).cons fun _ => rfl
  | .newArray type dimensions values span =>
    exact (((walkType type).level_append (Expr.deepens_walkAll dimensions)).append
      (Expr.deepens_walkAll values)).cons fun _ => rfl
  | .initializer type values span =>
    exact ((walkType type).level_append (Expr.deepens_walkAll values)).cons fun _ => rfl
  | .call callee arguments span =>
    exact (callee.deepens_walk.append (Expr.deepens_walkAll arguments)).cons fun _ => rfl
  | .range lower upper span =>
    exact ((Expr.deepens_walkEnd lower).append (Expr.deepens_walkEnd upper)).cons fun _ => rfl
  | .switch subjects arms span =>
    have below := (Expr.deepens_walkAll subjects).append (Arm.deepens_walkAll arms)
    exact (below.cons fun _ => rfl).cons fun _ => rfl

theorem Expr.deepens_walkAll (exprs : List (Expr α)) :
    Event.Deepens (Expr.walkAll exprs) (Expr.blockDepthAll exprs) := by
  match exprs with
  | [] => exact nil
  | expr :: exprs => exact expr.deepens_walk.append (Expr.deepens_walkAll exprs)

theorem Expr.deepens_walkEnd (end? : Option (Expr α)) :
    Event.Deepens (Expr.walkEnd end?) (Expr.blockDepthEnd end?) := by
  match end? with
  | none => exact nil
  | some expr => exact expr.deepens_walk

theorem Literal.deepens_walk (literal : Literal α) :
    Event.Deepens literal.walk literal.blockDepth := by
  match literal with
  | .string parts span => exact (StringPart.deepens_walkAll parts).cons fun _ => rfl
  | .integer value span | .float value suffix span | .char value span | .boolean value span
  | .nothing span | .placeholder span => exact nil.cons fun _ => rfl

theorem StringPart.deepens_walk (part : StringPart α) :
    Event.Deepens part.walk part.blockDepth := by
  match part with
  | .fragment text => exact nil
  | .interpolation value => exact value.deepens_walk

theorem StringPart.deepens_walkAll (parts : List (StringPart α)) :
    Event.Deepens (StringPart.walkAll parts) (StringPart.blockDepthAll parts) := by
  match parts with
  | [] => exact nil
  | part :: parts => exact part.deepens_walk.append (StringPart.deepens_walkAll parts)

theorem Pattern.deepens_walk (pattern : Pattern α) :
    Event.Deepens pattern.walk pattern.blockDepth := by
  match pattern with
  | .binding name => exact (names [name]).cons fun _ => rfl
  | .literal value => exact value.deepens_walk.cons fun _ => rfl

theorem Arm.deepens_walk (arm : Arm α) : Event.Deepens arm.walk arm.blockDepth := by
  match arm with
  | .mk pattern body span =>
    have below : Event.Deepens (.armBody body :: body.walk) body.blockDepth :=
      body.deepens_walk.cons fun _ => rfl
    exact (pattern.deepens_walk.append below).cons fun _ => rfl

theorem Arm.deepens_walkAll (arms : List (Arm α)) :
    Event.Deepens (Arm.walkAll arms) (Arm.blockDepthAll arms) := by
  match arms with
  | [] => exact nil
  | arm :: arms => exact arm.deepens_walk.append (Arm.deepens_walkAll arms)

theorem Action.deepens_walk (action : Action α) :
    Event.Deepens action.walk action.blockDepth := by
  match action with
  | .expression value span | .throw value span => exact value.deepens_walk.cons fun _ => rfl
  | .block statements span => exact (Statement.deepens_walkAll statements).block

theorem Statement.deepens_walk (statement : Statement α) :
    Event.Deepens statement.walk statement.blockDepth := by
  match statement with
  | .action action => exact action.deepens_walk.cons fun _ => rfl
  | .empty span => exact nil.cons fun _ => rfl

theorem Statement.deepens_walkAll (statements : List (Statement α)) :
    Event.Deepens (Statement.walkAll statements) (Statement.blockDepthAll statements) := by
  match statements with
  | [] => exact nil
  | statement :: statements =>
    exact statement.deepens_walk.append (Statement.deepens_walkAll statements)

end

theorem File.deepens_walk (file : File α) : Event.Deepens file.walk file.blockDepth := by
  unfold File.walk File.blockDepth
  refine Event.Deepens.cons (fun _ => rfl) ?_
  induction file.statements with
  | nil => exact nil
  | cons statement statements inductionHypothesis =>
    have first : Event.Deepens (.topLevel statement :: statement.walk) statement.blockDepth :=
      statement.deepens_walk.cons fun _ => rfl
    exact first.append inductionHypothesis

end Blocks

/-! ## The census -/

section Counts

variable {α : Type}

/-- One event adds its node to the count of its kind, and moves the depth. -/
theorem Census.meet_eq (census : Census) (event : Event α) :
    census.meet event =
      { statements := census.statements + Event.count .statement [event]
        expressions := census.expressions + Event.count .expression [event]
        literals := census.literals + Event.count .literal [event]
        identifiers := census.identifiers + Event.count .identifier [event]
        switches := census.switches + Event.count .switch [event]
        arms := census.arms + Event.count .arm [event]
        maxDepth := (Event.deepen (census.depth, census.maxDepth) event).2
        depth := (Event.deepen (census.depth, census.maxDepth) event).1 } := by
  cases event <;> rfl

/-- A census of events is the number of nodes of each kind among them, beside how deep they are. -/
theorem Census.foldl_meet (events : List (Event α)) (census : Census) :
    events.foldl Census.meet census =
      { statements := census.statements + Event.count .statement events
        expressions := census.expressions + Event.count .expression events
        literals := census.literals + Event.count .literal events
        identifiers := census.identifiers + Event.count .identifier events
        switches := census.switches + Event.count .switch events
        arms := census.arms + Event.count .arm events
        maxDepth := (events.foldl Event.deepen (census.depth, census.maxDepth)).2
        depth := (events.foldl Event.deepen (census.depth, census.maxDepth)).1 } := by
  induction events generalizing census with
  | nil => rfl
  | cons event events inductionHypothesis =>
    have split (kind : NodeKind) :
        Event.count kind (event :: events) = Event.count kind [event] + Event.count kind events :=
      Event.count_append kind [event] events
    rw [List.foldl_cons, inductionHypothesis, Census.meet_eq]
    simp only [split, Nat.add_assoc, List.foldl_cons]

/-- The census of a file counts the nodes of its tree, each kind of them, and how deeply its blocks
are nested. At the end it stands outside of all blocks. -/
theorem Census.ofFile_counts (file : File α) :
    Census.ofFile file =
      { statements := file.count .statement
        expressions := file.count .expression
        literals := file.count .literal
        identifiers := file.count .identifier
        switches := file.count .switch
        arms := file.count .arm
        maxDepth := file.blockDepth
        depth := 0 } := by
  have levels : file.walk.foldl Event.deepen (0, 0) = (0, file.blockDepth) := by
    rw [file.deepens_walk 0 0 (Nat.le_refl 0), Nat.zero_max, Nat.zero_add]
  simp only [Census.ofFile, Census.foldl_meet, levels, File.count_walk, Nat.zero_add]

end Counts

end Offside
