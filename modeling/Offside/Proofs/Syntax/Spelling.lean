import Offside.Proofs.Lexer.Sequence
import Offside.Syntax.Tree

/-!
How expressions are written. Every operand that is neither a name nor a literal stands in
parentheses, so that nothing hangs on how tightly operators bind.
-/

namespace Offside

open Lexeme

/-- A name that is no reserved word. -/
structure IsIdentifier (text : String) : Prop where
  isName : Text.isName text.toList = true
  isUnreserved : Kind.ofWord text = .identifier

namespace Lexeme

def assignOp : AssignOp → Lexeme
  | .assign => symbol .assign
  | .add => symbol .plusAssign
  | .subtract => symbol .minusAssign
  | .multiply => symbol .starAssign
  | .divide => symbol .slashAssign
  | .declare => symbol .colonAssign

def binaryOp : BinaryOp → Lexeme
  | .or => word "or"
  | .and => word "and"
  | .eq => symbol .eq
  | .neq => symbol .neq
  | .gte => symbol .gte
  | .lte => symbol .lte
  | .gt => symbol .gt
  | .lt => symbol .lt
  | .add => symbol .plus
  | .subtract => symbol .minus
  | .multiply => symbol .star
  | .divide => symbol .slash
  | .remainder => symbol .percent
  | .power => symbol .starStar
  | .coalesce => symbol .questionQuestion

def unaryOp : UnaryOp → Lexeme
  | .plus => symbol .plus
  | .negate => symbol .minus
  | .not => word "not"

def updateOp : UpdateOp → Lexeme
  | .increment => symbol .plusPlus
  | .decrement => symbol .minusMinus

def bracketed (opening closing : Symbol) (inner : List Lexeme) : List Lexeme :=
  symbol opening :: (inner ++ [symbol closing])

def parenthesized (inner : List Lexeme) : List Lexeme :=
  bracketed .leftParen .rightParen inner

/-- Names with a comma before each. -/
def otherNames (names : List (Identifier Unit)) : List Lexeme :=
  names.flatMap fun name => [symbol .comma, word name.name]

end Lexeme

namespace Expr

/-- Names and literals stand without parentheses. -/
def isAtomic : Expr Unit → Bool
  | literal _ | identifier _ => true
  | _ => false

/-- An operand with the given lexemes. -/
def enclosed (operand : Expr Unit) (lexemes : List Lexeme) : List Lexeme :=
  if operand.isAtomic then lexemes else parenthesized lexemes

end Expr

mutual

/-- The lexemes of an expression without types or switches. -/
def Expr.lexemes : Expr Unit → List Lexeme
  | .literal value => value.lexemes
  | .identifier name => [word name.name]
  | .assignment op target value _ =>
    target.enclosed target.lexemes ++ assignOp op :: value.enclosed value.lexemes
  | .binary op left right _ =>
    left.enclosed left.lexemes ++ binaryOp op :: right.enclosed right.lexemes
  | .unary op operand _ => unaryOp op :: operand.enclosed operand.lexemes
  | .update op true operand _ => updateOp op :: operand.enclosed operand.lexemes
  | .update op false operand _ => operand.enclosed operand.lexemes ++ [updateOp op]
  | .field object name _ => object.enclosed object.lexemes ++ [symbol .dot, word name.name]
  | .fieldGroup object names _ =>
    object.enclosed object.lexemes ++
      symbol .dot :: parenthesized (otherNames names).tail
  | .optionalField object name _ =>
    object.enclosed object.lexemes ++ [symbol .questionDot, word name.name]
  | .unwrap value _ => value.enclosed value.lexemes ++ [symbol .bang]
  | .unwrapWith value arguments _ =>
    value.enclosed value.lexemes ++ symbol .bang :: parenthesized (Expr.lexemesAll arguments)
  | .extraction value arguments _ =>
    value.enclosed value.lexemes ++ symbol .question :: parenthesized (Expr.lexemesAll arguments)
  | .element array indices _ =>
    array.enclosed array.lexemes ++
      bracketed .leftBracket .rightBracket (Expr.lexemesAll indices)
  | .call callee arguments _ =>
    callee.enclosed callee.lexemes ++ parenthesized (Expr.lexemesAll arguments)
  | .range lower upper _ => Expr.lexemesEnd lower ++ symbol .dotDot :: Expr.lexemesEnd upper
  | .cast _ _ _ | .newArray _ _ _ _ | .initializer _ _ _ | .switch _ _ _ => []

def Expr.lexemesAll : List (Expr Unit) → List Lexeme
  | [] => []
  | expr :: exprs =>
    expr.lexemes ++ if exprs.isEmpty then [] else symbol .comma :: Expr.lexemesAll exprs

def Expr.lexemesEnd : Option (Expr Unit) → List Lexeme
  | none => []
  | some expr => expr.enclosed expr.lexemes

def Literal.lexemes : Literal Unit → List Lexeme
  | .integer value _ => [integer value.toNat]
  | .float _ _ _ => []
  | .char value _ => [char value]
  | .string parts _ => stringStart :: (StringPart.lexemesAll parts ++ [stringEnd])
  | .boolean value _ => [word (if value then "true" else "false")]
  | .nothing _ => [word "none"]
  | .placeholder _ => [word "_"]

def StringPart.lexemesAll : List (StringPart Unit) → List Lexeme
  | [] => []
  | .fragment text :: parts => stringFragment text :: StringPart.lexemesAll parts
  | .interpolation value :: parts =>
    interpolationStart :: (value.lexemes ++ interpolationEnd :: StringPart.lexemesAll parts)

end

/-- The text of an expression without types or switches. -/
def Expr.text (expr : Expr Unit) : List Char :=
  written expr.lexemes

mutual

/-- The expression has neither types nor switches nor floating point numbers, and whatever it is
made of can be written. -/
def Expr.Plain : Expr Unit → Prop
  | .literal value => value.Plain
  | .identifier name => IsIdentifier name.name
  | .assignment _ target value _ => target.isAssignable ∧ target.Plain ∧ value.Plain
  | .binary _ left right _ => left.Plain ∧ right.Plain
  | .unary _ operand _ => operand.Plain
  | .update _ _ operand _ => operand.Plain
  | .field object name _ => object.Plain ∧ IsIdentifier name.name
  | .fieldGroup object names _ =>
    object.Plain ∧ names ≠ [] ∧ ∀ name ∈ names, IsIdentifier name.name
  | .optionalField object name _ => object.Plain ∧ IsIdentifier name.name
  | .unwrap value _ => value.Plain
  | .unwrapWith value arguments _ => value.Plain ∧ Expr.PlainAll arguments
  | .extraction value arguments _ => value.Plain ∧ Expr.PlainAll arguments
  | .element array indices _ => array.Plain ∧ indices ≠ [] ∧ Expr.PlainAll indices
  | .call callee arguments _ => callee.Plain ∧ Expr.PlainAll arguments
  | .range lower upper _ => Expr.PlainEnd lower ∧ Expr.PlainEnd upper
  | .cast _ _ _ | .newArray _ _ _ _ | .initializer _ _ _ | .switch _ _ _ => False

def Expr.PlainAll : List (Expr Unit) → Prop
  | [] => True
  | expr :: exprs => expr.Plain ∧ Expr.PlainAll exprs

def Expr.PlainEnd : Option (Expr Unit) → Prop
  | none => True
  | some expr => expr.Plain

def Literal.Plain : Literal Unit → Prop
  | .integer value _ => 0 ≤ value ∧ value ≤ 9223372036854775807
  | .float _ _ _ => False
  | .string parts _ => StringPart.PlainAll false parts
  | .char _ _ | .boolean _ _ | .nothing _ | .placeholder _ => True

/-- Fragments are not empty, and none follows a fragment, which is what the flag is for. -/
def StringPart.PlainAll : Bool → List (StringPart Unit) → Prop
  | _, [] => True
  | afterFragment, .fragment text :: parts =>
    afterFragment = false ∧ text ≠ "" ∧ StringPart.PlainAll true parts
  | _, .interpolation value :: parts => value.Plain ∧ StringPart.PlainAll false parts

end

/-! ## What is written is code -/

namespace Lexeme

theorem coded_assignOp (op : AssignOp) : (assignOp op).Coded id := by
  cases op <;> exact coded_symbol (by decide)

theorem coded_binaryOp (op : BinaryOp) : (binaryOp op).Coded id := by
  cases op
  case or => exact coded_word (by decide +kernel)
  case and => exact coded_word (by decide +kernel)
  all_goals exact coded_symbol (by decide)

theorem coded_unaryOp (op : UnaryOp) : (unaryOp op).Coded id := by
  cases op
  case not => exact coded_word (by decide +kernel)
  all_goals exact coded_symbol (by decide)

theorem coded_updateOp (op : UpdateOp) : (updateOp op).Coded id := by
  cases op <;> exact coded_symbol (by decide)

end Lexeme

namespace Code

variable {inner left right : List Lexeme}

theorem single {lexeme : Lexeme} (coded : lexeme.Coded id) : Code [lexeme] :=
  .plain coded .nil

theorem parenthesized (inside : Code inner) : Code (Lexeme.parenthesized inner) :=
  .bracketed (coded_symbol (by decide)) (coded_symbol (by decide)) inside .nil

theorem indexed (inside : Code inner) :
    Code (Lexeme.bracketed .leftBracket .rightBracket inner) :=
  .bracketed (coded_symbol (by decide)) (coded_symbol (by decide)) inside .nil

theorem enclosed (operand : Expr Unit) (code : Code operand.lexemes) :
    Code (operand.enclosed operand.lexemes) := by
  unfold Expr.enclosed
  split
  · exact code
  · exact code.parenthesized

/-- Code on both sides of a token. -/
theorem around {lexeme : Lexeme} (first : Code left) (coded : lexeme.Coded id)
    (second : Code right) : Code (left ++ lexeme :: right) :=
  first.append (.plain coded second)

theorem otherNames {names : List (Identifier Unit)}
    (identifiers : ∀ name ∈ names, IsIdentifier name.name) : Code (Lexeme.otherNames names) := by
  induction names with
  | nil => exact .nil
  | cons name names inductionHypothesis =>
    have first := identifiers name List.mem_cons_self
    have later := inductionHypothesis fun other member =>
      identifiers other (List.mem_cons_of_mem name member)
    exact .plain (coded_symbol (by decide)) (.plain (coded_word first.isName) later)

theorem names {names : List (Identifier Unit)}
    (identifiers : ∀ name ∈ names, IsIdentifier name.name) :
    Code (Lexeme.otherNames names).tail := by
  cases names with
  | nil => exact .nil
  | cons name names =>
    have first := identifiers name List.mem_cons_self
    exact .plain (coded_word first.isName) (otherNames fun other member =>
      identifiers other (List.mem_cons_of_mem name member))

end Code

mutual

theorem Expr.code (expr : Expr Unit) (plain : expr.Plain) : Code expr.lexemes := by
  match expr with
  | .literal value => exact value.code plain
  | .identifier name => exact .single (coded_word plain.isName)
  | .assignment op target value _ =>
    obtain ⟨_, plainTarget, plainValue⟩ := plain
    exact (Code.enclosed target (target.code plainTarget)).around (coded_assignOp op)
      (Code.enclosed value (value.code plainValue))
  | .binary op left right _ =>
    obtain ⟨plainLeft, plainRight⟩ := plain
    exact (Code.enclosed left (left.code plainLeft)).around (coded_binaryOp op)
      (Code.enclosed right (right.code plainRight))
  | .unary op operand _ =>
    exact .plain (coded_unaryOp op) (Code.enclosed operand (operand.code plain))
  | .update op true operand _ =>
    exact .plain (coded_updateOp op) (Code.enclosed operand (operand.code plain))
  | .update op false operand _ =>
    exact (Code.enclosed operand (operand.code plain)).around (coded_updateOp op) .nil
  | .field object name _ =>
    obtain ⟨plainObject, identifier⟩ := plain
    exact (Code.enclosed object (object.code plainObject)).around (coded_symbol (by decide))
      (.single (coded_word identifier.isName))
  | .fieldGroup object names _ =>
    obtain ⟨plainObject, _, identifiers⟩ := plain
    exact (Code.enclosed object (object.code plainObject)).around (coded_symbol (by decide))
      (Code.names identifiers).parenthesized
  | .optionalField object name _ =>
    obtain ⟨plainObject, identifier⟩ := plain
    exact (Code.enclosed object (object.code plainObject)).around (coded_symbol (by decide))
      (.single (coded_word identifier.isName))
  | .unwrap value _ =>
    exact (Code.enclosed value (value.code plain)).around (coded_symbol (by decide)) .nil
  | .unwrapWith value arguments _ =>
    obtain ⟨plainValue, plainArguments⟩ := plain
    exact (Code.enclosed value (value.code plainValue)).around (coded_symbol (by decide))
      (Expr.codeAll arguments plainArguments).parenthesized
  | .extraction value arguments _ =>
    obtain ⟨plainValue, plainArguments⟩ := plain
    exact (Code.enclosed value (value.code plainValue)).around (coded_symbol (by decide))
      (Expr.codeAll arguments plainArguments).parenthesized
  | .element array indices _ =>
    obtain ⟨plainArray, _, plainIndices⟩ := plain
    exact (Code.enclosed array (array.code plainArray)).append
      (Expr.codeAll indices plainIndices).indexed
  | .call callee arguments _ =>
    obtain ⟨plainCallee, plainArguments⟩ := plain
    exact (Code.enclosed callee (callee.code plainCallee)).append
      (Expr.codeAll arguments plainArguments).parenthesized
  | .range lower upper _ =>
    obtain ⟨plainLower, plainUpper⟩ := plain
    exact (Expr.codeEnd lower plainLower).around (coded_symbol (by decide))
      (Expr.codeEnd upper plainUpper)

theorem Expr.codeAll (exprs : List (Expr Unit)) (plain : Expr.PlainAll exprs) :
    Code (Expr.lexemesAll exprs) := by
  match exprs with
  | [] => exact .nil
  | expr :: exprs =>
    obtain ⟨plainFirst, plainOthers⟩ := plain
    rw [Expr.lexemesAll]
    split
    · rw [List.append_nil]
      exact expr.code plainFirst
    · exact (expr.code plainFirst).around (coded_symbol (by decide))
        (Expr.codeAll exprs plainOthers)

theorem Expr.codeEnd (operand? : Option (Expr Unit)) (plain : Expr.PlainEnd operand?) :
    Code (Expr.lexemesEnd operand?) := by
  match operand? with
  | none => exact .nil
  | some operand => exact Code.enclosed operand (operand.code plain)

theorem Literal.code (literal : Literal Unit) (plain : literal.Plain) :
    Code literal.lexemes := by
  match literal with
  | .integer value _ => exact .single (coded_integer (by have := plain.2; omega))
  | .char value _ => exact .single (coded_char value)
  | .string parts _ => exact .string (StringPart.codeAll false parts plain) .nil
  | .boolean true _ => exact .single (coded_word (by decide +kernel))
  | .boolean false _ => exact .single (coded_word (by decide +kernel))
  | .nothing _ => exact .single (coded_word (by decide +kernel))
  | .placeholder _ => exact .single (coded_word (by decide +kernel))

theorem StringPart.codeAll (afterFragment : Bool) (parts : List (StringPart Unit))
    (plain : StringPart.PlainAll afterFragment parts) :
    Parts afterFragment (StringPart.lexemesAll parts) := by
  match parts with
  | [] => exact .nil
  | .fragment text :: parts =>
    obtain ⟨notAfter, nonempty, later⟩ := plain
    subst notAfter
    exact .fragment nonempty (StringPart.codeAll true parts later)
  | .interpolation value :: parts =>
    obtain ⟨plainValue, later⟩ := plain
    exact .interpolation (value.code plainValue) (StringPart.codeAll false parts later)

end

end Offside
