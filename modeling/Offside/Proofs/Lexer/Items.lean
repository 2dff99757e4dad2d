import Offside.Proofs.Lexer.StepShape

/-!
All items of a text. They end with their only terminal item, their layout tokens are nested, and
at every moment the levels that were opened and not closed by the items yielded or queued are
those that the lexer counts.
-/

namespace Offside

open LexStream

namespace LexState

/-- The step that a lexer takes when nothing is queued. -/
def proceed (cancelled : Bool) (state : LexState) : LexStep :=
  if cancelled then state.cancel else state.step

theorem stepShape_proceed (cancelled : Bool) {state : LexState}
    (running : state.finished = false) : StepShape 0 state (state.proceed cancelled) := by
  cases cancelled with
  | true => exact stepShape_cancel running
  | false => exact stepShape_step running

theorem StepShape.ne_nil {slack : Nat} {before : LexState} {step : LexStep}
    (shape : StepShape slack before step) : step.1 ≠ [] := by
  have ending := shape.ending
  split at ending
  · exact ending.ne_nil
  · exact ending.1

/-- All items from a state on, with nothing queued. -/
def stream (cancelled : Bool) (state : LexState) : List LexItem :=
  Lexer.items cancelled ⟨state, []⟩

end LexState

namespace Lexer

theorem next?_cons (cancelled : Bool) (state : LexState) (item : LexItem)
    (pending : List LexItem) :
    next? cancelled ⟨state, item :: pending⟩ = some (item, ⟨state, pending⟩) :=
  rfl

theorem next?_of_finished (cancelled : Bool) {state : LexState}
    (ended : state.finished = true) : next? cancelled ⟨state, []⟩ = none := by
  simp [next?, ended]

/-- With nothing queued, the first item of a step is yielded and the others are queued. -/
theorem next?_of_running (cancelled : Bool) {state : LexState}
    (running : state.finished = false) :
    ∃ item pending, (state.proceed cancelled).1 = item :: pending ∧
      next? cancelled ⟨state, []⟩ = some (item, ⟨(state.proceed cancelled).2, pending⟩) := by
  have nonempty := (LexState.stepShape_proceed cancelled running).ne_nil
  obtain ⟨item, pending, equality⟩ := List.exists_cons_of_ne_nil nonempty
  refine ⟨item, pending, equality, ?_⟩
  unfold LexState.proceed at equality ⊢
  simp only [next?, running, Bool.false_eq_true, if_false]
  generalize (if cancelled then state.cancel else state.step) = step at equality ⊢
  obtain ⟨items, after⟩ := step
  dsimp only at equality
  rw [equality]

theorem items_of_next? {cancelled : Bool} {lexer after : Lexer} {item : LexItem}
    (found : lexer.next? cancelled = some (item, after)) :
    lexer.items cancelled = item :: after.items cancelled := by
  rw [items]
  split
  next missing =>
    rw [missing] at found
    contradiction
  next first next firstFound =>
    rw [firstFound] at found
    injection found with pairEquality
    injection pairEquality with itemEquality afterEquality
    rw [itemEquality, afterEquality]

theorem items_of_next?_eq_none {cancelled : Bool} {lexer : Lexer}
    (missing : lexer.next? cancelled = none) : lexer.items cancelled = [] := by
  rw [items]
  split
  next => rfl
  next found =>
    rw [missing] at found
    contradiction

theorem next?_eq_none_of_items {cancelled : Bool} {lexer : Lexer}
    (equality : lexer.items cancelled = []) : lexer.next? cancelled = none := by
  cases found : lexer.next? cancelled with
  | none => rfl
  | some answer =>
    rw [items_of_next? found] at equality
    contradiction

theorem next?_eq_none_of_next?_eq_none {cancelled : Bool} {lexer : Lexer}
    (missing : lexer.next? cancelled = none) (flag : Bool) : lexer.next? flag = none := by
  obtain ⟨state, pending⟩ := lexer
  cases pending with
  | cons item pending => exact nomatch missing
  | nil =>
    cases finished : state.finished with
    | true => exact next?_of_finished flag finished
    | false =>
      obtain ⟨item, pending, _, found⟩ := next?_of_running cancelled finished
      rw [found] at missing
      contradiction

theorem items_eq (cancelled : Bool) (lexer : Lexer) :
    lexer.items cancelled = lexer.pending ++ lexer.state.stream cancelled := by
  obtain ⟨state, pending⟩ := lexer
  induction pending with
  | nil => rfl
  | cons item pending inductionHypothesis =>
    rw [items_of_next? (next?_cons cancelled state item pending), inductionHypothesis]
    rfl

end Lexer

namespace LexState

theorem stream_of_finished (cancelled : Bool) {state : LexState}
    (ended : state.finished = true) : state.stream cancelled = [] :=
  Lexer.items_of_next?_eq_none (Lexer.next?_of_finished cancelled ended)

theorem stream_of_running (cancelled : Bool) {state : LexState}
    (running : state.finished = false) :
    state.stream cancelled =
      (state.proceed cancelled).1 ++ (state.proceed cancelled).2.stream cancelled := by
  obtain ⟨item, pending, equality, found⟩ := Lexer.next?_of_running cancelled running
  rw [stream, Lexer.items_of_next? found, Lexer.items_eq, equality]
  rfl

/-- All that is left of a lexer that is cancelled. -/
theorem stream_cancelled {state : LexState} (running : state.finished = false) :
    state.stream true = [.error ⟨.cancelled, .emptyAt state.position⟩] := by
  have finished : (state.proceed true).2.finished = true := rfl
  rw [stream_of_running true running, stream_of_finished true finished]
  rfl

theorem advances_proceed (cancelled : Bool) (state : LexState) :
    state.Advances (state.proceed cancelled).2 := by
  cases cancelled with
  | true => exact Or.inl rfl
  | false => exact state.advances_step

/-- What holds of no items and, for each step, of its items before later ones, holds of all
items. -/
theorem stream_induction (cancelled : Bool) {motive : LexState → List LexItem → Prop}
    (ended : ∀ state, state.finished = true → motive state [])
    (running : ∀ state items, state.finished = false →
      StepShape 0 state (state.proceed cancelled) → motive (state.proceed cancelled).2 items →
      motive state ((state.proceed cancelled).1 ++ items))
    (state : LexState) : motive state (state.stream cancelled) := by
  cases finished : state.finished with
  | true =>
    rw [stream_of_finished cancelled finished]
    exact ended state finished
  | false =>
    have fewer := remaining_lt_of_advances finished (state.advances_proceed cancelled)
    rw [stream_of_running cancelled finished]
    exact running state _ finished (stepShape_proceed cancelled finished)
      (stream_induction cancelled ended running _)
termination_by state.remaining

/-- The items of a lexer that has not ended end with their only terminal item. -/
theorem terminated_stream (cancelled : Bool) {state : LexState}
    (running : state.finished = false) : Terminated (state.stream cancelled) := by
  have general := stream_induction cancelled
    (motive := fun state items => if state.finished then items = [] else Terminated items)
    (fun state ended => by rw [if_pos ended]) ?_ state
  · rwa [if_neg (by simp [running])] at general
  · intro state items notEnded shape later
    rw [if_neg (by simp [notEnded])]
    have ending := shape.ending
    split at ending
    next ended =>
      rw [if_pos ended] at later
      rwa [later, List.append_nil]
    next goesOn =>
      rw [if_neg goesOn] at later
      exact later.prepend ending.2

/-- A step that yields the end of input ends the stream and leaves no level open. -/
theorem StepShape.finished_of_end {slack : Nat} {before : LexState} {step : LexStep}
    (shape : StepShape slack before step) {found : Token} (member : .token found ∈ step.1)
    (isEnd : found.kind = .endOfInput) :
    step.2.finished = true ∧ step.2.layout.depth = 0 := by
  refine ⟨?_, shape.closed found member isEnd⟩
  have ending := shape.ending
  split at ending
  next ended => exact ended
  next =>
    have goesOn := ending.2 _ member
    simp [LexItem.isTerminal, isEnd] at goesOn

/-- The layout tokens to come close no level that is not open, and at the end of input none is
left open. -/
theorem levelsAfter?_stream (cancelled : Bool) (state : LexState) :
    ∃ depth, levelsAfter? state.layout.depth (state.stream cancelled) = some depth ∧
      ∀ found, .token found ∈ state.stream cancelled → found.kind = .endOfInput → depth = 0 := by
  have general := stream_induction cancelled
    (motive := fun state items => (state.finished = true → items = []) ∧
      ∃ depth, levelsAfter? state.layout.depth items = some depth ∧
        ∀ found, .token found ∈ items → found.kind = .endOfInput → depth = 0) ?_ ?_ state
  · exact general.2
  · intro state _
    exact ⟨fun _ => rfl, state.layout.depth, rfl, by simp⟩
  · intro state items notEnded shape later
    obtain ⟨nothing, depth, replayed, atEnd⟩ := later
    refine ⟨fun ended => absurd (notEnded.symm.trans ended) Bool.false_ne_true, depth, ?_, ?_⟩
    · rw [levelsAfter?_append, shape.levels]
      exact replayed
    · intro found member isEnd
      rcases List.mem_append.mp member with inStep | inItems
      · obtain ⟨ended, noLevels⟩ := shape.finished_of_end inStep isEnd
        rw [nothing ended, noLevels] at replayed
        exact (Option.some.inj replayed).symm
      · exact atEnd found inItems isEnd

/-- There are at most as many tokens to come as the text and the open levels allow for. -/
theorem tokenCount_stream_le (cancelled : Bool) (state : LexState) :
    tokenCount (state.stream cancelled) ≤ state.supply := by
  refine stream_induction cancelled
    (motive := fun state items => tokenCount items ≤ state.supply) ?_ ?_ state
  · intro state _
    exact Nat.zero_le _
  · intro state items _ shape later
    have supplied := shape.supplied
    rw [tokenCount_append]
    omega

end LexState

/-! ## Calls -/

namespace Lexer

def answer (cancelled : Bool) (lexer : Lexer) : Option LexItem :=
  (lexer.next? cancelled).map Prod.fst

/-- A lexer after it was asked for the next item. When there is none it stays as it is. -/
def advance (cancelled : Bool) (lexer : Lexer) : Lexer :=
  match lexer.next? cancelled with
  | some (_, after) => after
  | none => lexer

def afterCalls (cancelled : Bool) (lexer : Lexer) : Nat → Lexer
  | 0 => lexer
  | count + 1 => (lexer.afterCalls cancelled count).advance cancelled

theorem items_advance (cancelled : Bool) (lexer : Lexer) :
    (lexer.advance cancelled).items cancelled = (lexer.items cancelled).tail := by
  unfold advance
  split
  next item after found => rw [items_of_next? found, List.tail_cons]
  next missing => rw [items_of_next?_eq_none missing, List.tail_nil]

theorem items_afterCalls (cancelled : Bool) (lexer : Lexer) (count : Nat) :
    (lexer.afterCalls cancelled count).items cancelled = (lexer.items cancelled).drop count := by
  induction count with
  | zero => rfl
  | succ count inductionHypothesis =>
    rw [afterCalls, items_advance, inductionHypothesis, List.tail_drop]

theorem answer_eq_head? (cancelled : Bool) (lexer : Lexer) :
    lexer.answer cancelled = (lexer.items cancelled).head? := by
  cases found : lexer.next? cancelled with
  | none => simp [answer, found, items_of_next?_eq_none found]
  | some next => simp [answer, found, items_of_next? found]

/-- The answers are the items, one after the other, and then nothing. -/
theorem answer_afterCalls (cancelled : Bool) (lexer : Lexer) (count : Nat) :
    (lexer.afterCalls cancelled count).answer cancelled = (lexer.items cancelled)[count]? := by
  rw [answer_eq_head?, items_afterCalls, List.head?_drop]

/-- The lexer counts the levels that were opened and not closed by some items and those queued. -/
def Tracks (yielded : List LexItem) (lexer : Lexer) : Prop :=
  levelsAfter? 0 (yielded ++ lexer.pending) = some lexer.indentDepth

theorem tracks_advance (cancelled : Bool) {yielded : List LexItem} {lexer : Lexer}
    (tracks : Tracks yielded lexer) :
    Tracks (yielded ++ (lexer.answer cancelled).toList) (lexer.advance cancelled) := by
  obtain ⟨state, pending⟩ := lexer
  cases pending with
  | cons item pending => simpa [Tracks, answer, advance, next?_cons, indentDepth] using tracks
  | nil =>
    cases finished : state.finished with
    | true => simpa [Tracks, answer, advance, next?_of_finished cancelled finished] using tracks
    | false =>
      obtain ⟨item, pending, equality, found⟩ := next?_of_running cancelled finished
      have shape := LexState.stepShape_proceed cancelled finished
      have levels := shape.levels
      rw [equality] at levels
      simp only [Tracks, List.append_nil] at tracks
      simp only [Tracks, answer, advance, found, Option.map_some, Option.toList_some,
        List.append_assoc, List.singleton_append]
      rw [levelsAfter?_append, tracks]
      exact levels

theorem tracks_afterCalls (cancelled : Bool) {lexer : Lexer} (tracks : Tracks [] lexer)
    (count : Nat) :
    Tracks ((lexer.items cancelled).take count) (lexer.afterCalls cancelled count) := by
  induction count with
  | zero => exact tracks
  | succ count inductionHypothesis =>
    have stepped := tracks_advance cancelled inductionHypothesis
    rw [answer_afterCalls] at stepped
    rw [List.take_add_one]
    exact stepped

end Lexer

/-- The shape of the items that a lexer yields. -/
structure StreamShape (cancelled : Bool) (lexer : Lexer) : Prop where
  /-- Asking again and again gives the items in turn and then nothing, ever. -/
  answers : ∀ count, (lexer.afterCalls cancelled count).answer cancelled =
    (lexer.items cancelled)[count]?
  /-- One item is terminal, and it is the last. -/
  terminated : Terminated (lexer.items cancelled)
  /-- Up to every item, no more levels were closed than opened. -/
  nested : ∀ initial, initial <+: lexer.items cancelled →
    initial.countP LexItem.isDedent ≤ initial.countP LexItem.isIndent
  /-- At the end of input as many levels were closed as opened. -/
  closed : (∃ found, .token found ∈ lexer.items cancelled ∧ found.kind = .endOfInput) →
    (lexer.items cancelled).countP LexItem.isDedent =
      (lexer.items cancelled).countP LexItem.isIndent
  /-- At all times the levels opened and not closed, by items yielded or queued, are those that
  the lexer counts. -/
  counted : ∀ count,
    (lexer.afterCalls cancelled count).indentDepth +
        ((lexer.items cancelled).take count ++
          (lexer.afterCalls cancelled count).pending).countP LexItem.isDedent =
      ((lexer.items cancelled).take count ++
        (lexer.afterCalls cancelled count).pending).countP LexItem.isIndent

/-- The items of every text have the shape of a stream. -/
theorem streamShape_ofSource (settings : Settings) (cancelled : Bool) (source : List Char) :
    StreamShape cancelled (Lexer.ofSource settings.tabWidth source) := by
  have fresh : (LexState.ofSource settings.tabWidth source).layout.depth = 0 := by
    unfold LexState.ofSource
    rfl
  have running : (LexState.ofSource settings.tabWidth source).finished = false := by
    unfold LexState.ofSource
    rfl
  obtain ⟨depth, replayed, atEnd⟩ :=
    LexState.levelsAfter?_stream cancelled (LexState.ofSource settings.tabWidth source)
  rw [fresh] at replayed
  refine ⟨Lexer.answer_afterCalls cancelled _, LexState.terminated_stream cancelled running,
    ?_, ?_, ?_⟩
  · intro initial isInitial
    have bound := dedents_le_of_levelsAfter? replayed isInitial
    omega
  · rintro ⟨found, member, isEnd⟩
    have noneOpen := atEnd found member isEnd
    have counts := count_of_levelsAfter? replayed
    rw [noneOpen, Nat.zero_add, Nat.zero_add] at counts
    exact counts
  · intro count
    have tracks : Lexer.Tracks [] (Lexer.ofSource settings.tabWidth source) :=
      congrArg some fresh.symm
    have counts := count_of_levelsAfter? (Lexer.tracks_afterCalls cancelled tracks count)
    rwa [Nat.zero_add] at counts

end Offside
