/-!
Places in a source text. A position counts bytes of UTF-8, lines and characters of a line, and
moves over text one character at a time.
-/

namespace Offside

/-- A place in a source text: `offset` in bytes from zero, `line` and `column` from one, the
column in characters. -/
structure Position where
  offset : Nat
  line : Nat
  column : Nat
deriving DecidableEq, Repr, Inhabited

namespace Position

def start : Position :=
  ⟨0, 1, 1⟩

/-- The place after `c`, if `c` stands at `position`. Only a line feed starts a new line. -/
def past (position : Position) (c : Char) : Position :=
  if c = '\n' then ⟨position.offset + c.utf8Size, position.line + 1, 1⟩
  else ⟨position.offset + c.utf8Size, position.line, position.column + 1⟩

/-- The place after `text`, if `text` starts at `position`. -/
def advance (position : Position) (text : List Char) : Position :=
  text.foldl past position

/-- Positions are ordered by offset, then by line, then by column. -/
def AtMost (left right : Position) : Prop :=
  left.offset < right.offset ∨
    left.offset = right.offset ∧
      (left.line < right.line ∨ left.line = right.line ∧ left.column ≤ right.column)

instance (left right : Position) : Decidable (AtMost left right) :=
  inferInstanceAs (Decidable (_ ∨ _))

instance : LE Position :=
  ⟨AtMost⟩

instance (left right : Position) : Decidable (left ≤ right) :=
  inferInstanceAs (Decidable (AtMost left right))

instance : LT Position :=
  ⟨fun left right => ¬ right ≤ left⟩

instance (left right : Position) : Decidable (left < right) :=
  inferInstanceAs (Decidable (¬ right ≤ left))

instance : Min Position :=
  ⟨fun left right => if left ≤ right then left else right⟩

instance : Max Position :=
  ⟨fun left right => if left ≤ right then right else left⟩

def lineColumn (position : Position) : String :=
  s!"{position.line}:{position.column}"

def listing (position : Position) : String :=
  s!"{position.line}:{position.column}@{position.offset}"

@[simp] theorem advance_nil (position : Position) : position.advance [] = position :=
  rfl

@[simp] theorem advance_cons (position : Position) (c : Char) (text : List Char) :
    position.advance (c :: text) = (position.past c).advance text :=
  rfl

theorem advance_append (position : Position) (left right : List Char) :
    position.advance (left ++ right) = (position.advance left).advance right :=
  List.foldl_append

theorem le_refl (position : Position) : position ≤ position :=
  Or.inr ⟨rfl, Or.inr ⟨rfl, Nat.le_refl _⟩⟩

theorem le_total (left right : Position) : left ≤ right ∨ right ≤ left := by
  change AtMost left right ∨ AtMost right left
  unfold AtMost
  omega

theorem le_trans {first second third : Position} (lower : first ≤ second)
    (upper : second ≤ third) : first ≤ third := by
  change AtMost first third
  change AtMost first second at lower
  change AtMost second third at upper
  unfold AtMost at *
  omega

theorem le_of_lt {left right : Position} (less : left < right) : left ≤ right :=
  (le_total left right).resolve_right less

theorem lt_of_lt_of_le {first second third : Position} (lower : first < second)
    (upper : second ≤ third) : first < third :=
  fun above => lower (le_trans upper above)

theorem lt_of_le_of_lt {first second third : Position} (lower : first ≤ second)
    (upper : second < third) : first < third :=
  fun above => upper (le_trans above lower)

theorem lt_past (position : Position) (c : Char) : position < position.past c := by
  have positive := c.utf8Size_pos
  have further : (position.past c).offset = position.offset + c.utf8Size := by
    unfold past
    split <;> rfl
  change ¬ AtMost (position.past c) position
  unfold AtMost
  omega

theorem le_advance (position : Position) (text : List Char) : position ≤ position.advance text := by
  induction text generalizing position with
  | nil => exact le_refl position
  | cons c text inductionHypothesis =>
    exact le_trans (le_of_lt (lt_past position c)) (inductionHypothesis _)

theorem lt_advance (position : Position) {text : List Char} (nonempty : text ≠ []) :
    position < position.advance text := by
  cases text with
  | nil => contradiction
  | cons c text => exact lt_of_lt_of_le (lt_past position c) (le_advance _ text)

end Position

end Offside
