import Offside.Token.Kind

/-!
Operators and how tightly they bind.
-/

namespace Offside

inductive AssignOp
  | assign
  | add
  | subtract
  | multiply
  | divide
  | declare
deriving DecidableEq, Repr, Inhabited

inductive BinaryOp
  | or
  | and
  | eq
  | neq
  | gte
  | lte
  | gt
  | lt
  | add
  | subtract
  | multiply
  | divide
  | remainder
  | power
  | coalesce
deriving DecidableEq, Repr, Inhabited

inductive UnaryOp
  | plus
  | negate
  | not
deriving DecidableEq, Repr, Inhabited

inductive UpdateOp
  | increment
  | decrement
deriving DecidableEq, Repr, Inhabited

def AssignOp.spelling : AssignOp → String
  | assign => "="
  | add => "+="
  | subtract => "-="
  | multiply => "*="
  | divide => "/="
  | declare => ":="

def BinaryOp.spelling : BinaryOp → String
  | or => "or"
  | and => "and"
  | eq => "=="
  | neq => "!="
  | gte => ">="
  | lte => "<="
  | gt => ">"
  | lt => "<"
  | add => "+"
  | subtract => "-"
  | multiply => "*"
  | divide => "/"
  | remainder => "%"
  | power => "**"
  | coalesce => "??"

def UnaryOp.spelling : UnaryOp → String
  | plus => "+"
  | negate => "-"
  | not => "not"

def UpdateOp.spelling : UpdateOp → String
  | increment => "++"
  | decrement => "--"

/-- Tiers of infix operators, from the loosest to the tightest. -/
inductive Tier
  | assignment
  | range
  | or
  | and
  | comparison
  | additive
  | multiplicative
  | power
deriving DecidableEq, Repr, Inhabited

/-- Tiers by how tightly they bind. Two numbers apart leave room for associativity. -/
def Tier.binding : Tier → Nat
  | assignment => 2
  | range => 4
  | or => 6
  | and => 8
  | comparison => 10
  | additive => 12
  | multiplicative => 14
  | power => 16

/-- How tightly the operand of a prefix operator binds: tighter than every tier. -/
def prefixBinding : Nat :=
  18

/-- Which of two operators of one tier is applied first. -/
inductive Associativity
  | left
  | right
deriving DecidableEq, Repr, Inhabited

inductive InfixOp
  | assign (op : AssignOp)
  | binary (op : BinaryOp)
  | range
deriving DecidableEq, Repr, Inhabited

def BinaryOp.tier : BinaryOp → Tier
  | or => .or
  | and => .and
  | eq | neq | gte | lte | gt | lt => .comparison
  | add | subtract => .additive
  | multiply | divide | remainder => .multiplicative
  | power | coalesce => .power

namespace InfixOp

def tier : InfixOp → Tier
  | assign _ => .assignment
  | binary op => op.tier
  | range => .range

/-- Only assignments nest to the right. -/
def associativity : InfixOp → Associativity
  | assign _ => .right
  | _ => .left

/-- What an operator demands of the expression to its left. -/
def leftBinding (op : InfixOp) : Nat :=
  op.tier.binding

/-- What an operator demands of the operators to its right. -/
def rightBinding (op : InfixOp) : Nat :=
  match op.associativity with
  | .left => op.tier.binding + 1
  | .right => op.tier.binding

def ofKind? : Kind → Option InfixOp
  | .symbol .assign => some (assign .assign)
  | .symbol .plusAssign => some (assign .add)
  | .symbol .minusAssign => some (assign .subtract)
  | .symbol .starAssign => some (assign .multiply)
  | .symbol .slashAssign => some (assign .divide)
  | .symbol .colonAssign => some (assign .declare)
  | .symbol .dotDot => some range
  | .keyword .or => some (binary .or)
  | .keyword .and => some (binary .and)
  | .symbol .eq => some (binary .eq)
  | .symbol .neq => some (binary .neq)
  | .symbol .gte => some (binary .gte)
  | .symbol .lte => some (binary .lte)
  | .symbol .gt => some (binary .gt)
  | .symbol .lt => some (binary .lt)
  | .symbol .plus => some (binary .add)
  | .symbol .minus => some (binary .subtract)
  | .symbol .star => some (binary .multiply)
  | .symbol .slash => some (binary .divide)
  | .symbol .percent => some (binary .remainder)
  | .symbol .starStar => some (binary .power)
  | .symbol .questionQuestion => some (binary .coalesce)
  | _ => none

end InfixOp

inductive PrefixOp
  | unary (op : UnaryOp)
  | update (op : UpdateOp)
deriving DecidableEq, Repr, Inhabited

def PrefixOp.ofKind? : Kind → Option PrefixOp
  | .symbol .plus => some (unary .plus)
  | .symbol .minus => some (unary .negate)
  | .keyword .not => some (unary .not)
  | .symbol .plusPlus => some (update .increment)
  | .symbol .minusMinus => some (update .decrement)
  | _ => none

end Offside
