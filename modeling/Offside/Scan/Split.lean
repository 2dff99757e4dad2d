/-!
Scanning splits a text into the part taken and the rest. Every scanner takes a piece of the
start of its input and nothing else, which is what `Split.Of` says.
-/

namespace Offside.Scan

/-- A text split into the part taken and the rest. -/
structure Split where
  text : List Char
  rest : List Char
deriving DecidableEq, Repr, Inhabited

/-- A split whose taken part stands for a value. -/
structure Scanned (α : Type) extends Split where
  value : α
deriving DecidableEq, Repr, Inhabited

namespace Split

/-- The split is one of `input`. -/
def Of (split : Split) (input : List Char) : Prop :=
  split.text ++ split.rest = input

/-- The split takes at least one character of `input`. -/
def Takes (split : Split) (input : List Char) : Prop :=
  split.text ≠ [] ∧ split.Of input

def nothing (input : List Char) : Split :=
  ⟨[], input⟩

def after (text : List Char) (split : Split) : Split :=
  ⟨text ++ split.text, split.rest⟩

theorem Takes.length_lt {split : Split} {input : List Char} (takes : split.Takes input) :
    split.rest.length < input.length := by
  obtain ⟨nonempty, equality⟩ := takes
  have positive : 0 < split.text.length := List.length_pos_iff.mpr nonempty
  have total : split.text.length + split.rest.length = input.length := by
    rw [← List.length_append, equality]
  omega

theorem Of.length_le {split : Split} {input : List Char} (splitOf : split.Of input) :
    split.rest.length ≤ input.length := by
  have total : split.text.length + split.rest.length = input.length := by
    rw [← List.length_append, splitOf]
  omega

theorem of_nothing (input : List Char) : (nothing input).Of input :=
  rfl

theorem of_after (text : List Char) {input : List Char} {split : Split} (splitOf : split.Of input) :
    (split.after text).Of (text ++ input) := by
  unfold Of after at *
  rw [List.append_assoc, splitOf]

end Split

/-- The characters at the start of `input` that satisfy a test. -/
def run (test : Char → Bool) (input : List Char) : Split :=
  ⟨input.takeWhile test, input.dropWhile test⟩

/-- At most `count` characters at the start of `input` that satisfy a test. -/
def upTo (test : Char → Bool) : Nat → List Char → Split
  | 0, input => .nothing input
  | _ + 1, [] => .nothing []
  | count + 1, c :: input =>
    if test c then (upTo test count input).after [c] else .nothing (c :: input)

theorem of_run (test : Char → Bool) (input : List Char) : (run test input).Of input :=
  List.takeWhile_append_dropWhile

theorem of_upTo (test : Char → Bool) (count : Nat) (input : List Char) :
    (upTo test count input).Of input := by
  induction count generalizing input with
  | zero => exact Split.of_nothing input
  | succ count inductionHypothesis =>
    cases input with
    | nil => exact Split.of_nothing []
    | cons c input =>
      rw [upTo]
      split
      · exact Split.of_after _ (inductionHypothesis input)
      · exact Split.of_nothing _

end Offside.Scan
