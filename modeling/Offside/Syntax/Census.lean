import Offside.Syntax.Walk

/-!
Counts of the nodes of a tree, taken on a walk.
-/

namespace Offside

/-- How many nodes of each kind there are, and how deeply blocks are nested. -/
structure Census where
  statements : Nat := 0
  expressions : Nat := 0
  literals : Nat := 0
  identifiers : Nat := 0
  switches : Nat := 0
  arms : Nat := 0
  maxDepth : Nat := 0
  /-- The blocks the walk is inside of. -/
  depth : Nat := 0
deriving DecidableEq, Repr, Inhabited

namespace Census

variable {α : Type}

/-- The counts after one more event. -/
def meet (census : Census) : Event α → Census
  | .statement _ => { census with statements := census.statements + 1 }
  | .expr _ => { census with expressions := census.expressions + 1 }
  | .literal _ => { census with literals := census.literals + 1 }
  | .identifier _ => { census with identifiers := census.identifiers + 1 }
  | .switch _ _ => { census with switches := census.switches + 1 }
  | .arm _ => { census with arms := census.arms + 1 }
  | .blockStart _ =>
    { census with
      depth := census.depth + 1
      maxDepth := max census.maxDepth (census.depth + 1) }
  | .blockEnd => { census with depth := census.depth - 1 }
  | _ => census

def ofFile (file : File α) : Census :=
  file.walk.foldl meet {}

/-- The counts, one on each line. -/
def print (census : Census) : String :=
  s!"statements:  {census.statements}\n" ++
  s!"expressions: {census.expressions}\n" ++
  s!"literals:    {census.literals}\n" ++
  s!"identifiers: {census.identifiers}\n" ++
  s!"switches:    {census.switches} ({census.arms} arms)\n" ++
  s!"max depth:   {census.maxDepth}"

end Census

end Offside
