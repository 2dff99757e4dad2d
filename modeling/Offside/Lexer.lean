import Offside.Lexer.State

/-!
The lexer: the items of a text, one at a time. Items of one step wait in a queue, and a request
to cancel is heard only between steps. The items always come to an end.
-/

namespace Offside

/-- A lexer with the items of its last step that were not asked for yet. -/
structure Lexer where
  state : LexState
  pending : List LexItem
deriving Repr, Inhabited

namespace Lexer

def ofSource (tabWidth : Nat) (source : List Char) : Lexer :=
  ⟨.ofSource tabWidth source, []⟩

/-- How many levels of indentation are open where the lexer is. -/
def indentDepth (lexer : Lexer) : Nat :=
  lexer.state.layout.depth

/-- The last line of code was ended by a line break outside of brackets. Known once the end of
input was yielded. -/
def endedAtLineBreak (lexer : Lexer) : Bool :=
  lexer.state.endedAtLineBreak

/-- The next item, or nothing once all were yielded. -/
def next? (cancelled : Bool) (lexer : Lexer) : Option (LexItem × Lexer) :=
  match lexer.pending with
  | item :: pending => some (item, ⟨lexer.state, pending⟩)
  | [] =>
    if lexer.state.finished then none
    else
      match if cancelled then lexer.state.cancel else lexer.state.step with
      | ([], _) => none
      | (item :: pending, state) => some (item, ⟨state, pending⟩)

/-- What is left of a lexer shrinks with every item: the steps to come, then the queue. -/
def Shrinks (before after : Lexer) : Prop :=
  Prod.Lex (· < ·) (· < ·) (after.state.remaining, after.pending.length)
    (before.state.remaining, before.pending.length)

theorem shrinks_of_next? {cancelled : Bool} {before after : Lexer} {item : LexItem}
    (found : before.next? cancelled = some (item, after)) : Shrinks before after := by
  unfold next? at found
  split at found
  next pendingEquality =>
    simp only [Option.some.injEq, Prod.mk.injEq] at found
    obtain ⟨-, rfl⟩ := found
    exact Prod.Lex.right _ (by simp [pendingEquality])
  next =>
    split at found
    · simp at found
    next running =>
      have advances : before.state.Advances
          (if cancelled then before.state.cancel else before.state.step).2 := by
        cases cancelled with
        | true => exact Or.inl rfl
        | false => exact before.state.advances_step
      split at found
      · simp at found
      next stepEquality =>
        simp only [Option.some.injEq, Prod.mk.injEq] at found
        obtain ⟨-, rfl⟩ := found
        rw [stepEquality] at advances
        exact Prod.Lex.left _ _
          (LexState.remaining_lt_of_advances (by simpa using running) advances)

def items (cancelled : Bool) (lexer : Lexer) : List LexItem :=
  match _found : lexer.next? cancelled with
  | none => []
  | some (item, after) => item :: after.items cancelled
termination_by (lexer.state.remaining, lexer.pending.length)
decreasing_by exact shrinks_of_next? _found

end Lexer

end Offside
