import Offside.Proofs.Lexer.Lines
import Offside.Proofs.Syntax.Spelling

/-!
Outlines: statements made of names, blocks and switches, with the widths to which the lines inside
of them are indented. An outline is written line by line, and says what tokens its lines and their
layout come to.
-/

namespace Offside

open Lexeme

/-- A name that is no reserved word. -/
structure Name where
  text : String
  isIdentifier : IsIdentifier text

namespace Name

def lexeme (name : Name) : Lexeme :=
  word name.text

def identifier (name : Name) : Identifier Unit :=
  ⟨name.text, ()⟩

def expr (name : Name) : Expr Unit :=
  .identifier name.identifier

end Name

mutual

/-- A statement. A block, like the arms of a switch, is indented to a width. -/
inductive Outline
  | name (name : Name)
  | throw (name : Name)
  | empty
  | block (width : Nat) (inner : List Outline)
  | switch (subject : Name) (others : List Name) (width : Nat) (arms : List OutlineArm)

inductive OutlineArm
  | name (pattern value : Name)
  | throw (pattern value : Name)
  | block (pattern : Name) (width : Nat) (inner : List Outline)

end

namespace Outline

def isBlock : Outline → Bool
  | block _ _ => true
  | _ => false

/-- Whether one statement can stand directly after another. What is after a switch or a block must
not be taken for a part of it. -/
def allows : Outline → Outline → Bool
  | block _ _, block _ _ => false
  | switch _ _ _ _, block _ _ => false
  | switch _ _ _ _, empty => false
  | _, _ => true

/-- Whether statements can stand in a block: there is a first one, and it is not a block. -/
def startsBlock : List Outline → Bool
  | [] => false
  | outline :: _ => !outline.isBlock

def switchHead (subject : Name) (others : List Name) : List Lexeme :=
  word "switch" :: subject.lexeme ::
    (others.flatMap (fun other => [symbol .comma, other.lexeme]) ++ [symbol .colon])

end Outline

/-! ## Trees -/

mutual

def Outline.statement : Outline → Statement Unit
  | .name name => .action (.expression name.expr ())
  | .throw name => .action (.throw name.expr ())
  | .empty => .empty ()
  | .block _ inner => .action (.block (Outline.statements inner) ())
  | .switch subject others _ arms =>
    .action (.expression
      (.switch (subject.expr :: others.map Name.expr) (OutlineArm.toArms arms) ()) ())

def Outline.statements : List Outline → List (Statement Unit)
  | [] => []
  | outline :: outlines => outline.statement :: Outline.statements outlines

def OutlineArm.toArm : OutlineArm → Arm Unit
  | .name pattern value => .mk (.binding pattern.identifier) (.expression value.expr ()) ()
  | .throw pattern value => .mk (.binding pattern.identifier) (.throw value.expr ()) ()
  | .block pattern _ inner =>
    .mk (.binding pattern.identifier) (.block (Outline.statements inner) ()) ()

def OutlineArm.toArms : List OutlineArm → List (Arm Unit)
  | [] => []
  | arm :: arms => arm.toArm :: OutlineArm.toArms arms

end

/-! ## Lines -/

mutual

/-- The lines of a statement that stands at a width. -/
def Outline.lines (width : Nat) : Outline → List Line
  | .name name => [⟨width, [name.lexeme]⟩]
  | .throw name => [⟨width, [word "throw", name.lexeme]⟩]
  | .empty => [⟨width, [symbol .semicolon]⟩]
  | .block inside inner => Outline.linesAll inside inner
  | .switch subject others inside arms =>
    ⟨width, Outline.switchHead subject others⟩ :: OutlineArm.linesAll inside arms

def Outline.linesAll (width : Nat) : List Outline → List Line
  | [] => []
  | outline :: outlines => outline.lines width ++ Outline.linesAll width outlines

def OutlineArm.lines (width : Nat) : OutlineArm → List Line
  | .name pattern value => [⟨width, [pattern.lexeme, symbol .arrow, value.lexeme]⟩]
  | .throw pattern value =>
    [⟨width, [pattern.lexeme, symbol .arrow, word "throw", value.lexeme]⟩]
  | .block pattern inside inner =>
    ⟨width, [pattern.lexeme, symbol .arrow]⟩ :: Outline.linesAll inside inner

def OutlineArm.linesAll (width : Nat) : List OutlineArm → List Line
  | [] => []
  | arm :: arms => arm.lines width ++ OutlineArm.linesAll width arms

end

/-- The text of statements that stand without indentation. -/
def Outline.text (outlines : List Outline) : List Char :=
  Line.textAll (Outline.linesAll 0 outlines)

/-! ## Widths -/

mutual

/-- The lines inside of a statement that stands at a width are indented further. -/
def Outline.Fits (width : Nat) : Outline → Prop
  | .name _ | .throw _ | .empty => True
  | .block inside inner =>
    width < inside ∧ Outline.startsBlock inner = true ∧ Outline.FitAll inside inner
  | .switch _ _ inside arms => width < inside ∧ OutlineArm.FitAll inside arms

def Outline.FitAll (width : Nat) : List Outline → Prop
  | [] => True
  | outline :: outlines =>
    outline.Fits width ∧ (∀ next ∈ outlines.head?, outline.allows next = true) ∧
      Outline.FitAll width outlines

def OutlineArm.Fits (width : Nat) : OutlineArm → Prop
  | .name _ _ | .throw _ _ => True
  | .block _ inside inner =>
    width < inside ∧ Outline.startsBlock inner = true ∧ Outline.FitAll inside inner

def OutlineArm.FitAll (width : Nat) : List OutlineArm → Prop
  | [] => True
  | arm :: arms => arm.Fits width ∧ OutlineArm.FitAll width arms

end

/-! ## Tokens -/

/-- Whether the token before a line at the same level is a line break, and not the end of a
level. -/
def Outline.endsInLine : Outline → Bool
  | .block _ _ => false
  | .switch _ _ _ arms => arms.isEmpty
  | _ => true

def OutlineArm.endsInLine : OutlineArm → Bool
  | .block _ _ _ => false
  | _ => true

/-- Tokens at a level of their own. -/
def inLevel (tokens : List Lexeme) : List Lexeme :=
  layout .indent :: (tokens ++ [layout .dedent])

theorem inLevel_append (tokens outer : List Lexeme) :
    inLevel tokens ++ outer = layout .indent :: (tokens ++ layout .dedent :: outer) := by
  rw [inLevel, List.cons_append, List.append_assoc]
  rfl

mutual

/-- The tokens of a statement, without a line break before it. -/
def Outline.tokens : Outline → List Lexeme
  | .name name => [name.lexeme]
  | .throw name => [word "throw", name.lexeme]
  | .empty => [symbol .semicolon]
  | .block _ inner => inLevel (Outline.tokensAll false inner)
  | .switch subject others _ arms =>
    Outline.switchHead subject others ++
      if arms.isEmpty then [] else inLevel (OutlineArm.tokensAll false arms)

/-- The tokens of statements, with a line break before the first if it stands apart. No line break
comes before a block. -/
def Outline.tokensAll (apart : Bool) : List Outline → List Lexeme
  | [] => []
  | outline :: outlines =>
    lineBreak (apart && !outline.isBlock) ++
      (outline.tokens ++ Outline.tokensAll outline.endsInLine outlines)

def OutlineArm.tokens : OutlineArm → List Lexeme
  | .name pattern value => [pattern.lexeme, symbol .arrow, value.lexeme]
  | .throw pattern value => [pattern.lexeme, symbol .arrow, word "throw", value.lexeme]
  | .block pattern _ inner =>
    pattern.lexeme :: symbol .arrow :: inLevel (Outline.tokensAll false inner)

def OutlineArm.tokensAll (apart : Bool) : List OutlineArm → List Lexeme
  | [] => []
  | arm :: arms => lineBreak apart ++ (arm.tokens ++ OutlineArm.tokensAll arm.endsInLine arms)

end

end Offside
