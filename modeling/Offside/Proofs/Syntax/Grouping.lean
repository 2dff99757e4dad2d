import Offside.Proofs.Syntax.Outline

/-!
How operators are grouped. Operands that stand with binary operators between them can be grouped in
many ways, but in only one of them what binds more tightly is further inside and operators of one
tier are applied from left to right. It is the one that grows as the operands come.
-/

namespace Offside

open Lexeme

/-- The tiers of binary operators, from the loosest to the tightest. Those below them are for
assignments and for ranges. -/
def BinaryOp.level : BinaryOp → Nat
  | or => 3
  | and => 4
  | eq | neq | gte | lte | gt | lt => 5
  | add | subtract => 6
  | multiply | divide | remainder => 7
  | power | coalesce => 8

/-- A name behind any number of prefix operators. -/
structure Prefixed where
  operators : List UnaryOp
  name : Name

namespace Prefixed

def lexemes (operand : Prefixed) : List Lexeme :=
  operand.operators.map unaryOp ++ [operand.name.lexeme]

/-- The operator next to the name is applied first. -/
def expr (operand : Prefixed) : Expr Unit :=
  operand.operators.foldr (fun op value => .unary op value ()) operand.name.expr

end Prefixed

/-- A binary operator and the operand behind it. -/
abbrev Link :=
  BinaryOp × Prefixed

def Link.lexemesAll (links : List Link) : List Lexeme :=
  links.flatMap fun link => binaryOp link.1 :: link.2.lexemes

/-- Operands with binary operators between them, in the order in which the operators are applied. -/
inductive Grouping
  | operand (operand : Prefixed)
  | binary (op : BinaryOp) (left right : Grouping)

namespace Grouping

def expr : Grouping → Expr Unit
  | operand only => only.expr
  | binary op left right => .binary op left.expr right.expr ()

/-- The first operand. -/
def first : Grouping → Prefixed
  | operand only => only
  | binary _ left _ => left.first

/-- What follows the first operand, from left to right. -/
def links : Grouping → List Link
  | operand _ => []
  | binary op left right => left.links ++ (op, right.first) :: right.links

def lexemes (grouping : Grouping) : List Lexeme :=
  grouping.first.lexemes ++ Link.lexemesAll grouping.links

/-- The operator that is applied last. -/
def top? : Grouping → Option BinaryOp
  | operand _ => none
  | binary op _ _ => some op

/-- Operators further inside bind more tightly, or as tightly if they are on the left. -/
def Tiered : Grouping → Prop
  | operand _ => True
  | binary op left right =>
    left.Tiered ∧ right.Tiered ∧ (∀ top ∈ left.top?, op.level ≤ top.level) ∧
      ∀ top ∈ right.top?, op.level < top.level

/-- One more operand: it belongs to all that does not bind more loosely than the operator before
it. -/
def grow (op : BinaryOp) (next : Prefixed) : Grouping → Grouping
  | operand first => binary op (operand first) (operand next)
  | binary top left right =>
    if op.level ≤ top.level then binary op (binary top left right) (operand next)
    else binary top left (right.grow op next)

def growAll (grouping : Grouping) (links : List Link) : Grouping :=
  links.foldl (fun grown link => grown.grow link.1 link.2) grouping

variable {grouping left right : Grouping} {op top : BinaryOp} {next : Prefixed} {links : List Link}

theorem lexemes_operand (only : Prefixed) : (operand only).lexemes = only.lexemes :=
  List.append_nil _

theorem lexemes_binary (op : BinaryOp) (left right : Grouping) :
    (binary op left right).lexemes = left.lexemes ++ binaryOp op :: right.lexemes := by
  simp only [lexemes, Grouping.links, first, Link.lexemesAll, List.flatMap_append,
    List.flatMap_cons, List.cons_append, List.append_assoc]

/-! ## Growing -/

theorem first_grow (op : BinaryOp) (next : Prefixed) (grouping : Grouping) :
    (grouping.grow op next).first = grouping.first := by
  induction grouping with
  | operand first => rfl
  | binary top left right =>
    rw [grow]
    split
    · rfl
    · rfl

theorem links_grow (op : BinaryOp) (next : Prefixed) (grouping : Grouping) :
    (grouping.grow op next).links = grouping.links ++ [(op, next)] := by
  induction grouping with
  | operand first => rfl
  | binary top left right _ inductionHypothesis =>
    rw [grow]
    split
    · rfl
    · rw [Grouping.links, inductionHypothesis, first_grow, Grouping.links, List.append_assoc,
        List.cons_append]

/-- The operator that is applied last was there before, or is the new one. -/
theorem top?_grow (member : top ∈ (grouping.grow op next).top?) :
    top = op ∨ top ∈ grouping.top? := by
  cases grouping with
  | operand first => exact Or.inl (Option.some.inj member).symm
  | binary before left right =>
    rw [grow] at member
    split at member
    · exact Or.inl (Option.some.inj member).symm
    · exact Or.inr member

theorem Tiered.grow (tiered : grouping.Tiered) : (grouping.grow op next).Tiered := by
  induction grouping with
  | operand first => exact ⟨trivial, trivial, nofun, nofun⟩
  | binary before left right _ inductionHypothesis =>
    obtain ⟨tieredLeft, tieredRight, looser, tighter⟩ := tiered
    rw [Grouping.grow]
    split
    next above =>
      refine ⟨⟨tieredLeft, tieredRight, looser, tighter⟩, trivial, ?_, nofun⟩
      rintro top member
      exact Option.some.inj member ▸ above
    next below =>
      refine ⟨tieredLeft, inductionHypothesis tieredRight, looser, fun top member => ?_⟩
      rcases top?_grow member with rfl | before
      · omega
      · exact tighter top before

theorem first_growAll (links : List Link) (grouping : Grouping) :
    (grouping.growAll links).first = grouping.first := by
  induction links generalizing grouping with
  | nil => rfl
  | cons link links inductionHypothesis => exact (inductionHypothesis _).trans (first_grow _ _ _)

theorem links_growAll (links : List Link) (grouping : Grouping) :
    (grouping.growAll links).links = grouping.links ++ links := by
  induction links generalizing grouping with
  | nil => exact (List.append_nil _).symm
  | cons link links inductionHypothesis =>
    have later := inductionHypothesis (grouping.grow link.1 link.2)
    rwa [links_grow, List.append_assoc] at later

theorem Tiered.growAll (tiered : grouping.Tiered) : (grouping.growAll links).Tiered := by
  induction links generalizing grouping with
  | nil => exact tiered
  | cons link links inductionHypothesis => exact inductionHypothesis tiered.grow

/-! ## Only one grouping -/

/-- No operator binds more loosely than the one that is applied last. -/
theorem Tiered.above (tiered : grouping.Tiered) {level : Nat}
    (looser : ∀ top ∈ grouping.top?, level ≤ top.level) :
    ∀ link ∈ grouping.links, level ≤ link.1.level := by
  induction grouping with
  | operand only => exact nofun
  | binary op left right inductionLeft inductionRight =>
    obtain ⟨tieredLeft, tieredRight, atLeast, tighter⟩ := tiered
    have reached := looser op rfl
    intro link member
    rcases List.mem_append.mp member with inLeft | inRight
    · exact inductionLeft tieredLeft
        (fun top isTop => Nat.le_trans reached (atLeast top isTop)) link inLeft
    · rcases List.mem_cons.mp inRight with rfl | inRight
      · exact reached
      · exact inductionRight tieredRight
          (fun top isTop => Nat.le_of_lt (Nat.lt_of_le_of_lt reached (tighter top isTop))) link
          inRight

/-- What binds more tightly than an operator belongs to what is on the right of it. -/
theorem growAll_binary (tighter : ∀ link ∈ links, op.level < link.1.level) :
    (binary op left right).growAll links = binary op left (right.growAll links) := by
  induction links generalizing right with
  | nil => rfl
  | cons link links inductionHypothesis =>
    obtain ⟨first, later⟩ := List.forall_mem_cons.mp tighter
    have grown : (binary op left right).grow link.1 link.2 =
        binary op left (right.grow link.1 link.2) := if_neg (Nat.not_le_of_gt first)
    rw [growAll, List.foldl_cons, grown]
    exact inductionHypothesis later

/-- An operator that binds no more tightly than the others is applied after them. -/
theorem grow_of_le (looser : ∀ top ∈ grouping.top?, op.level ≤ top.level) :
    grouping.grow op next = binary op grouping (operand next) := by
  cases grouping with
  | operand first => rfl
  | binary top left right => exact if_pos (looser top rfl)

/-- A grouping by tiers is the one that grows from its operands. -/
theorem Tiered.growAll_eq (tiered : grouping.Tiered) :
    (operand grouping.first).growAll grouping.links = grouping := by
  induction grouping with
  | operand first => rfl
  | binary op left right inductionLeft inductionRight =>
    obtain ⟨tieredLeft, tieredRight, looser, tighter⟩ := tiered
    have inside : ∀ link ∈ right.links, op.level < link.1.level := tieredRight.above tighter
    calc (operand left.first).growAll (left.links ++ (op, right.first) :: right.links)
        = (((operand left.first).growAll left.links).grow op right.first).growAll right.links :=
          List.foldl_append
      _ = (left.grow op right.first).growAll right.links := by rw [inductionLeft tieredLeft]
      _ = (binary op left (operand right.first)).growAll right.links := by rw [grow_of_le looser]
      _ = binary op left ((operand right.first).growAll right.links) := growAll_binary inside
      _ = binary op left right := by rw [inductionRight tieredRight]

/-- Powers and what is put in place of nothing are of one tier. -/
example (a b c : Prefixed) : (operand a).growAll [(.coalesce, b), (.power, c)] =
    binary .power (binary .coalesce (operand a) (operand b)) (operand c) := rfl

end Grouping

end Offside
