import Offside.Proofs.Syntax.Printed
import Offside.Proofs.Syntax.Spelling
import Offside.Syntax.Walk
import Mathlib.Data.List.Chain

/-!
Trees that can be read back from what is printed of them. Their names are names, their strings have
no brace in their text and no two fragments in a row, and there is no floating point number.
-/

namespace Offside

section Definitions

variable {α : Type}

/-- No fragment comes just behind another. -/
def StringPart.Apart (parts : List (StringPart α)) : Prop :=
  parts.IsChain fun first second => first.isInterpolation = true ∨ second.isInterpolation = true

def StringPart.hasBrace : StringPart α → Bool
  | .fragment text => text.toList.contains '\x7b'
  | .interpolation _ => false

def Event.isFloat : Event α → Bool
  | .literal (.float _ _ _) => true
  | _ => false

/-- A string with an opening brace in its text, which is printed as the brace of an interpolation
is. -/
def Event.hasBrace : Event α → Bool
  | .literal (.string parts _) => parts.any StringPart.hasBrace
  | _ => false

/-- Names are names, and the parts of a string are as a lexer divides it. -/
def Event.WellSpelled : Event α → Prop
  | .identifier name => IsIdentifier name.name
  | .literal (.string parts _) => StringPart.Apart parts
  | _ => True

structure Event.Legible (event : Event α) : Prop where
  spelled : event.WellSpelled
  noFloat : event.isFloat = false
  noBrace : event.hasBrace = false

def Legible (events : List (Event α)) : Prop :=
  ∀ event ∈ events, event.Legible

variable {event : Event α} {left right : List (Event α)}

@[simp] theorem legible_cons : Legible (event :: right) ↔ event.Legible ∧ Legible right :=
  List.forall_mem_cons

@[simp] theorem legible_append : Legible (left ++ right) ↔ Legible left ∧ Legible right :=
  List.forall_mem_append

end Definitions

/-! ## Words -/

namespace Sexp

instance : DecidablePred IsWord := fun text =>
  haveI : Decidable (∀ c ∈ text, Shape.of? c = some .word) := List.decidableBAll _ text
  inferInstanceAs (Decidable (text = groupWord ∨ text ≠ [] ∧ _))

theorem shape_of_isNameContinue {c : Char} (continues : Text.isNameContinue c = true) :
    Shape.of? c = some .word := by
  unfold Shape.of?
  split
  case h_11 => rfl
  all_goals exact absurd continues (by decide +kernel)

theorem isWord_of_isName {text : List Char} (isName : Text.isName text = true) : IsWord text := by
  obtain ⟨c, rest, rfl, starts, continues⟩ := Text.exists_cons_of_isName isName
  refine Or.inr ⟨List.cons_ne_nil c rest, List.forall_mem_cons.mpr ⟨?_, fun other member => ?_⟩⟩
  · exact shape_of_isNameContinue (Text.isNameContinue_of_isNameStart starts)
  · exact shape_of_isNameContinue (continues other member)

theorem shape_of_mem_toDigits {number : Nat} {c : Char} (member : c ∈ Nat.toDigits 10 number) :
    Shape.of? c = some .word := by
  apply shape_of_isNameContinue
  have digit := Text.isDigit_of_mem_toDigits member
  have ascii : Text.isAscii c = true := by
    have range : '0' ≤ c ∧ c ≤ '9' := by simpa [Text.isDigit] using digit
    have upper : c.toNat ≤ 57 := range.2
    simp only [Text.isAscii, decide_eq_true_eq]
    omega
  rw [Text.isNameContinue, if_pos ascii, digit, Bool.or_true]

/-- An integer is written in digits, behind a sign if it is negative. -/
theorem toList_toString (value : Int) :
    (toString value).toList = Nat.toDigits 10 value.natAbs ∨
      (toString value).toList = '-' :: Nat.toDigits 10 value.natAbs := by
  cases value with
  | ofNat number => exact Or.inl String.toList_ofList
  | negSucc number =>
    right
    change ("-" ++ String.ofList (Nat.toDigits 10 number.succ)).toList = _
    simp only [String.toList_append, String.toList_ofList]
    rfl

theorem isWord_toString (value : Int) : IsWord (toString value).toList := by
  rcases toList_toString value with written | written
  · rw [written]
    exact Or.inr ⟨Nat.toDigits_ne_nil, fun _ => shape_of_mem_toDigits⟩
  · rw [written]
    exact Or.inr ⟨List.cons_ne_nil _ _,
      List.forall_mem_cons.mpr ⟨rfl, fun _ => shape_of_mem_toDigits⟩⟩

theorem isWord_spelling {head : Head} (notElement : head ≠ .element) :
    IsWord head.spelling.toList := by
  cases head
  case element => contradiction
  case assign op => cases op <;> decide +kernel
  case binary op => cases op <;> decide +kernel
  case update op before => cases op <;> cases before <;> decide +kernel
  all_goals decide +kernel

theorem legible_head (head : Head) : head.sexp.Legible := by
  by_cases isElement : head = .element
  · subst isElement
    exact True.intro
  · have isWord : head.sexp = .word head.spelling.toList := by
      cases head <;> first | contradiction | rfl
    rw [isWord]
    exact isWord_spelling isElement

theorem legible_form (head : Head) {operands : List Sexp} (legible : LegibleAll operands) :
    (form head operands).Legible :=
  ⟨legible_head head, legible⟩

end Sexp

/-! ## Trees -/

section Trees

variable {α : Type}

theorem Identifier.legible {identifier : Identifier α}
    (legible : (Event.identifier identifier).Legible) : identifier.sexp.Legible :=
  Sexp.isWord_of_isName legible.spelled.isName

theorem Identifier.legible_type {identifier : Identifier α}
    (legible : Legible identifier.walkType) : identifier.sexp.Legible :=
  Identifier.legible (legible _ (List.mem_cons_of_mem _ List.mem_cons_self))

theorem Identifier.legible_names {names : List (Identifier α)}
    (legible : Legible (names.map .identifier)) :
    Sexp.LegibleAll (names.map Identifier.sexp) := by
  induction names with
  | nil => exact True.intro
  | cons name names inductionHypothesis =>
    obtain ⟨first, others⟩ := legible_cons.mp legible
    exact ⟨Identifier.legible first, inductionHypothesis others⟩

mutual

/-- What a tree that can be read back is printed as can be read back. -/
theorem Expr.legible (expr : Expr α) (legible : Legible expr.walk) : expr.sexp.Legible := by
  match expr with
  | .literal value => exact value.legible (legible_cons.mp legible).2
  | .identifier identifier =>
    simp only [Expr.walk, legible_cons] at legible
    exact Identifier.legible legible.2.1
  | .assignment op target value _ =>
    simp only [Expr.walk, legible_cons, legible_append] at legible
    obtain ⟨_, inTarget, inValue⟩ := legible
    exact Sexp.legible_form _ ⟨target.legible inTarget, value.legible inValue, True.intro⟩
  | .binary op left right _ =>
    simp only [Expr.walk, legible_cons, legible_append] at legible
    obtain ⟨_, inLeft, inRight⟩ := legible
    exact Sexp.legible_form _ ⟨left.legible inLeft, right.legible inRight, True.intro⟩
  | .unary op operand _ =>
    exact Sexp.legible_form _ ⟨operand.legible (legible_cons.mp legible).2, True.intro⟩
  | .update op before operand _ =>
    exact Sexp.legible_form _ ⟨operand.legible (legible_cons.mp legible).2, True.intro⟩
  | .cast type value _ =>
    simp only [Expr.walk, legible_cons, legible_append] at legible
    obtain ⟨_, inType, inValue⟩ := legible
    exact Sexp.legible_form _
      ⟨Identifier.legible_type inType, value.legible inValue, True.intro⟩
  | .field object name _ =>
    simp only [Expr.walk, legible_cons, legible_append] at legible
    obtain ⟨_, inObject, named, _⟩ := legible
    exact Sexp.legible_form _ ⟨object.legible inObject, Identifier.legible named, True.intro⟩
  | .fieldGroup object names _ =>
    simp only [Expr.walk, legible_cons, legible_append] at legible
    obtain ⟨_, inObject, named⟩ := legible
    exact Sexp.legible_form _ ⟨object.legible inObject, Identifier.legible_names named⟩
  | .optionalField object name _ =>
    simp only [Expr.walk, legible_cons, legible_append] at legible
    obtain ⟨_, inObject, named, _⟩ := legible
    exact Sexp.legible_form _ ⟨object.legible inObject, Identifier.legible named, True.intro⟩
  | .unwrap value _ =>
    exact Sexp.legible_form _ ⟨value.legible (legible_cons.mp legible).2, True.intro⟩
  | .unwrapWith value arguments _ =>
    simp only [Expr.walk, legible_cons, legible_append] at legible
    obtain ⟨_, inValue, inArguments⟩ := legible
    exact Sexp.legible_form _
      ⟨value.legible inValue, Expr.legibleAll arguments inArguments, True.intro⟩
  | .extraction value arguments _ =>
    simp only [Expr.walk, legible_cons, legible_append] at legible
    obtain ⟨_, inValue, inArguments⟩ := legible
    exact Sexp.legible_form _
      ⟨value.legible inValue, Expr.legibleAll arguments inArguments, True.intro⟩
  | .element array indices _ =>
    simp only [Expr.walk, legible_cons, legible_append] at legible
    obtain ⟨_, inArray, inIndices⟩ := legible
    exact Sexp.legible_form _ ⟨array.legible inArray, Expr.legibleAll indices inIndices⟩
  | .newArray type dimensions values _ =>
    simp only [Expr.walk, legible_cons, legible_append] at legible
    obtain ⟨_, ⟨inType, inDimensions⟩, inValues⟩ := legible
    exact Sexp.legible_form _ ⟨Identifier.legible_type inType,
      Expr.legibleAll dimensions inDimensions, Expr.legibleAll values inValues⟩
  | .initializer type values _ =>
    simp only [Expr.walk, legible_cons, legible_append] at legible
    obtain ⟨_, inType, inValues⟩ := legible
    exact Sexp.legible_form _ ⟨Identifier.legible_type inType, Expr.legibleAll values inValues⟩
  | .call callee arguments _ =>
    simp only [Expr.walk, legible_cons, legible_append] at legible
    obtain ⟨_, inCallee, inArguments⟩ := legible
    exact Sexp.legible_form _ ⟨callee.legible inCallee, Expr.legibleAll arguments inArguments⟩
  | .range lower upper _ =>
    simp only [Expr.walk, legible_cons, legible_append] at legible
    obtain ⟨_, inLower, inUpper⟩ := legible
    exact Sexp.legible_form _
      ⟨Expr.legibleEnd lower inLower, Expr.legibleEnd upper inUpper, True.intro⟩
  | .switch subjects arms _ =>
    simp only [Expr.walk, legible_cons, legible_append] at legible
    obtain ⟨_, _, inSubjects, inArms⟩ := legible
    exact Sexp.legible_form _ ⟨Expr.legibleAll subjects inSubjects, Arm.legibleAll arms inArms⟩

theorem Expr.legibleAll (exprs : List (Expr α)) (legible : Legible (Expr.walkAll exprs)) :
    Sexp.LegibleAll (Expr.sexpAll exprs) := by
  match exprs with
  | [] => exact True.intro
  | expr :: exprs =>
    obtain ⟨first, others⟩ := legible_append.mp legible
    exact ⟨expr.legible first, Expr.legibleAll exprs others⟩

theorem Expr.legibleEnd (operand? : Option (Expr α)) (legible : Legible (Expr.walkEnd operand?)) :
    (Expr.sexpEnd operand?).Legible := by
  match operand? with
  | none => exact True.intro
  | some operand => exact operand.legible legible

theorem Literal.legible (literal : Literal α) (legible : Legible literal.walk) :
    literal.sexp.Legible := by
  match literal with
  | .integer value _ => exact Sexp.isWord_toString value
  | .float _ _ _ =>
    obtain ⟨isFloat, _⟩ := legible_cons.mp legible
    exact absurd isFloat.noFloat Bool.noConfusion
  | .char _ _ => exact True.intro
  | .string parts _ =>
    obtain ⟨string, inside⟩ := legible_cons.mp legible
    have noBrace : ∀ part ∈ parts, part.hasBrace = false := by
      simpa [Event.hasBrace] using string.noBrace
    exact StringPart.legibleAll parts false string.spelled noBrace inside Bool.noConfusion
  | .boolean true _ => exact (by decide +kernel : Sexp.IsWord "true".toList)
  | .boolean false _ => exact (by decide +kernel : Sexp.IsWord "false".toList)
  | .nothing _ => exact (by decide +kernel : Sexp.IsWord "none".toList)
  | .placeholder _ => exact (by decide +kernel : Sexp.IsWord "_".toList)

theorem StringPart.legibleAll (parts : List (StringPart α)) (afterText : Bool)
    (apart : StringPart.Apart parts) (noBrace : ∀ part ∈ parts, part.hasBrace = false)
    (legible : Legible (StringPart.walkAll parts))
    (behind : afterText = true → ∀ part ∈ parts.head?, part.isInterpolation = true) :
    SexpPart.LegibleAll afterText (StringPart.sexpAll parts) := by
  match parts with
  | [] => exact True.intro
  | .fragment text :: parts =>
    have notAfter : afterText = false := by
      by_contra isAfter
      exact absurd (behind (eq_true_of_ne_false isAfter) _ rfl) Bool.noConfusion
    obtain ⟨hasNone, noneBehind⟩ := List.forall_mem_cons.mp noBrace
    obtain ⟨next, apart⟩ := List.isChain_cons.mp apart
    have others (flag : Bool) : SexpPart.LegibleAll flag (StringPart.sexpAll parts) :=
      StringPart.legibleAll parts flag apart noneBehind legible fun _ part isNext =>
        (next part isNext).resolve_left Bool.noConfusion
    rw [StringPart.sexpAll]
    split
    next => exact others afterText
    next nonempty =>
      have noBrace : '\x7b' ∉ text.toList := by
        simpa [StringPart.hasBrace] using hasNone
      exact ⟨notAfter, fun empty => nonempty (String.toList_eq_nil_iff.mp empty), noBrace,
        others true⟩
  | .interpolation value :: parts =>
    obtain ⟨_, noneBehind⟩ := List.forall_mem_cons.mp noBrace
    obtain ⟨_, apart⟩ := List.isChain_cons.mp apart
    obtain ⟨inValue, inParts⟩ := legible_append.mp legible
    exact ⟨value.legible inValue,
      StringPart.legibleAll parts false apart noneBehind inParts Bool.noConfusion⟩

theorem Pattern.legible (pattern : Pattern α) (legible : Legible pattern.walk) :
    pattern.sexp.Legible := by
  match pattern with
  | .binding identifier =>
    simp only [Pattern.walk, legible_cons] at legible
    exact Identifier.legible legible.2.1
  | .literal value => exact value.legible (legible_cons.mp legible).2

theorem Arm.legible (arm : Arm α) (legible : Legible arm.walk) : arm.sexp.Legible := by
  match arm with
  | .mk pattern body _ =>
    simp only [Arm.walk, legible_cons, legible_append] at legible
    obtain ⟨_, inPattern, _, inBody⟩ := legible
    have isWord : Sexp.IsWord "->".toList := by decide +kernel
    exact ⟨pattern.legible inPattern, isWord, body.legible inBody, True.intro⟩

theorem Arm.legibleAll (arms : List (Arm α)) (legible : Legible (Arm.walkAll arms)) :
    Sexp.LegibleAll (Arm.sexpAll arms) := by
  match arms with
  | [] => exact True.intro
  | arm :: arms =>
    obtain ⟨first, others⟩ := legible_append.mp legible
    exact ⟨arm.legible first, Arm.legibleAll arms others⟩

theorem Action.legible (action : Action α) (legible : Legible action.walk) :
    action.sexp.Legible := by
  match action with
  | .expression value _ => exact value.legible (legible_cons.mp legible).2
  | .throw value _ =>
    exact Sexp.legible_form _ ⟨value.legible (legible_cons.mp legible).2, True.intro⟩
  | .block statements _ =>
    simp only [Action.walk, legible_cons, legible_append] at legible
    exact Statement.legibleAll statements legible.2.1

theorem Statement.legible (statement : Statement α) (legible : Legible statement.walk) :
    statement.sexp.Legible := by
  match statement with
  | .action action => exact action.legible (legible_cons.mp legible).2
  | .empty _ => exact (by decide +kernel : Sexp.IsWord ";".toList)

theorem Statement.legibleAll (statements : List (Statement α))
    (legible : Legible (Statement.walkAll statements)) :
    Sexp.LegibleAll (Statement.sexpAll statements) := by
  match statements with
  | [] => exact True.intro
  | statement :: statements =>
    obtain ⟨first, others⟩ := legible_append.mp legible
    exact ⟨statement.legible first, Statement.legibleAll statements others⟩

end

/-- No floating point number, and no opening brace in the text of a string. -/
structure File.Plain (file : File α) : Prop where
  noFloat : ∀ event ∈ file.walk, event.isFloat = false
  noBrace : ∀ event ∈ file.walk, event.hasBrace = false

theorem File.mem_walk {file : File α} {event : Event α}
    (met : event ∈ Statement.walkAll file.statements) : event ∈ file.walk := by
  obtain ⟨statements, annotation⟩ := file
  refine List.mem_cons_of_mem _ ?_
  induction statements with
  | nil => exact absurd met List.not_mem_nil
  | cons statement statements inductionHypothesis =>
    rw [List.flatMap_cons]
    rcases List.mem_append.mp met with first | others
    · exact List.mem_append_left _ (List.mem_cons_of_mem _ first)
    · exact List.mem_append_right _ (inductionHypothesis others)

theorem File.Plain.legible {file : File α} (plain : file.Plain)
    (spelled : ∀ event ∈ Statement.walkAll file.statements, event.WellSpelled) :
    Legible (Statement.walkAll file.statements) :=
  fun event met => ⟨spelled event met, plain.noFloat event (File.mem_walk met),
    plain.noBrace event (File.mem_walk met)⟩

end Trees

end Offside
