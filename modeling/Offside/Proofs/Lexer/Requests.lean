import Offside.Proofs.Lexer.Placement

/-!
Requests for items. A lexer answers requests one by one, and any of them may be cancelled. What
holds of the items of whole steps holds after any requests of the items yielded so far together
with those that wait.
-/

namespace Offside

open LexStream

namespace LexStream

def kinds (items : List LexItem) : List Kind :=
  (tokens items).map Token.kind

theorem kinds_append (left right : List LexItem) : kinds (left ++ right) = kinds left ++ kinds right := by
  rw [kinds, tokens_append, List.map_append]
  rfl

theorem kinds_cons (item : LexItem) (items : List LexItem) :
    kinds (item :: items) = kinds [item] ++ kinds items :=
  kinds_append [item] items

theorem kinds_map_error (errors : List LexError) : kinds (errors.map .error) = [] := by
  rw [kinds, tokens_map_error]
  rfl

theorem not_mem_kinds_of_endless {items : List LexItem} (endless : Endless items) :
    .endOfInput ∉ kinds items := by
  intro member
  obtain ⟨token, inTokens, isEnd⟩ := List.mem_map.mp member
  have notTerminal := endless _ (mem_tokens.mp inTokens)
  rw [LexItem.isTerminal, isEnd] at notTerminal
  contradiction

end LexStream

namespace Lexer

/-- A lexer after some requests for an item, each of which may be cancelled. -/
def afterRequests (lexer : Lexer) (requests : List Bool) : Lexer :=
  requests.foldl (fun lexer cancelled => lexer.advance cancelled) lexer

/-- The items that some requests are answered by. -/
def answers (lexer : Lexer) : List Bool → List LexItem
  | [] => []
  | cancelled :: requests =>
    (lexer.answer cancelled).toList ++ (lexer.advance cancelled).answers requests

/-- The items yielded by some requests, and those queued after them. -/
def drawn (lexer : Lexer) (requests : List Bool) : List LexItem :=
  lexer.answers requests ++ (lexer.afterRequests requests).pending

variable {lexer : Lexer} {requests : List Bool} {before more : List LexItem} {item : LexItem}

theorem drawn_cons (cancelled : Bool) (requests : List Bool) :
    lexer.drawn (cancelled :: requests) =
      (lexer.answer cancelled).toList ++ (lexer.advance cancelled).drawn requests := by
  rw [drawn, answers, List.append_assoc]
  rfl

theorem answers_of_next?_eq_none {cancelled : Bool} (missing : lexer.next? cancelled = none)
    (requests : List Bool) : lexer.answers requests = [] := by
  induction requests with
  | nil => rfl
  | cons other requests inductionHypothesis =>
    rw [answers, answer, advance, next?_eq_none_of_next?_eq_none missing other]
    exact inductionHypothesis

/-- The items are the answers to enough requests. -/
theorem items_eq_answers {cancelled : Bool} {count : Nat}
    (done : (lexer.afterRequests (List.replicate count cancelled)).next? cancelled = none) :
    lexer.items cancelled = lexer.answers (List.replicate count cancelled) := by
  induction count generalizing lexer with
  | zero => exact items_of_next?_eq_none done
  | succ count inductionHypothesis =>
    rw [List.replicate_succ] at done ⊢
    cases found : lexer.next? cancelled with
    | none => rw [items_of_next?_eq_none found, answers_of_next?_eq_none found]
    | some next =>
      rw [afterRequests, List.foldl_cons, advance, found] at done
      rw [items_of_next? found, answers, answer, advance, found, inductionHypothesis done]
      rfl

/-- As many requests as there are items before some item are answered by those, and then that item
is next. -/
theorem answers_take (whole : lexer.answers requests = before ++ item :: more) :
    lexer.answers (requests.take before.length) = before ∧
      ∃ cancelled after, (lexer.afterRequests (requests.take before.length)).next? cancelled =
        some (item, after) := by
  induction requests generalizing lexer before with
  | nil => exact absurd whole.symm (by simp [answers])
  | cons cancelled requests inductionHypothesis =>
    cases found : lexer.next? cancelled with
    | none =>
      rw [answers_of_next?_eq_none found] at whole
      exact absurd whole.symm (by simp)
    | some next =>
      obtain ⟨first, after⟩ := next
      rw [answers, answer, advance, found] at whole
      cases before with
      | nil =>
        obtain ⟨rfl, _⟩ := List.cons.inj whole
        exact ⟨rfl, cancelled, after, found⟩
      | cons head before =>
        obtain ⟨rfl, later⟩ := List.cons.inj whole
        obtain ⟨same, next⟩ := inductionHypothesis later
        rw [List.length_cons, List.take_succ_cons, answers, answer, advance, found]
        refine ⟨congrArg (first :: ·) same, ?_⟩
        rw [afterRequests, List.foldl_cons, advance, found]
        exact next

theorem drawn_induction_from {motive : List LexItem → LexState → Prop}
    (next : ∀ cancelled items state, state.finished = false → motive items state →
      motive (items ++ (state.proceed cancelled).1) (state.proceed cancelled).2)
    (requests : List Bool) (yielded : List LexItem) (lexer : Lexer)
    (start : motive (yielded ++ lexer.pending) lexer.state) :
    motive (yielded ++ lexer.drawn requests) (lexer.afterRequests requests).state := by
  induction requests generalizing yielded lexer with
  | nil => exact start
  | cons cancelled requests inductionHypothesis =>
    rw [drawn_cons, ← List.append_assoc]
    refine inductionHypothesis _ _ ?_
    obtain ⟨state, pending⟩ := lexer
    cases pending with
    | cons item pending =>
      rw [List.append_assoc]
      exact start
    | nil =>
      cases finished : state.finished with
      | true => simpa [answer, advance, next?_of_finished cancelled finished] using start
      | false =>
        obtain ⟨item, pending, equality, found⟩ := next?_of_running cancelled finished
        have stepped := next cancelled _ state finished start
        rw [List.append_nil, equality] at stepped
        rw [answer, advance, found, List.append_assoc]
        exact stepped

/-- What holds at the start, and with each step of its items and the state after it, holds after
all requests. -/
theorem drawn_induction {motive : List LexItem → LexState → Prop}
    (next : ∀ cancelled items state, state.finished = false → motive items state →
      motive (items ++ (state.proceed cancelled).1) (state.proceed cancelled).2)
    (requests : List Bool) {state : LexState} (start : motive [] state) :
    motive (drawn ⟨state, []⟩ requests) (afterRequests ⟨state, []⟩ requests).state :=
  drawn_induction_from next requests [] ⟨state, []⟩ start

/-- The items drawn from a lexer end with their only terminal item once it has ended, and have none
before. -/
theorem ending_drawn (requests : List Bool) {state : LexState} (running : state.finished = false) :
    if (afterRequests ⟨state, []⟩ requests).state.finished then
      Terminated (drawn ⟨state, []⟩ requests)
    else Endless (drawn ⟨state, []⟩ requests) := by
  have start : if state.finished then Terminated [] else Endless [] := by
    rw [running]
    exact fun _ member => absurd member List.not_mem_nil
  refine drawn_induction
    (motive := fun items state => if state.finished then Terminated items else Endless items)
    (fun cancelled items state running endless => ?_) requests start
  have shape := LexState.stepShape_proceed cancelled running
  have ended := shape.ending
  rw [running] at endless
  split at ended
  next isFinished =>
    rw [if_pos isFinished]
    exact ended.prepend endless
  next goesOn =>
    rw [if_neg goesOn]
    exact endless.append ended.2

/-- Once the end of input was yielded, nothing is queued. -/
theorem pending_eq_nil_of_end {state : LexState} (running : state.finished = false)
    (isEnd : .endOfInput ∈ kinds (answers ⟨state, []⟩ requests)) :
    (afterRequests ⟨state, []⟩ requests).pending = [] := by
  have ending := ending_drawn requests running
  unfold drawn at ending
  split at ending
  next =>
    obtain ⟨initial, last, whole, _, earlier⟩ := ending
    rcases List.eq_nil_or_concat' (afterRequests ⟨state, []⟩ requests).pending with
      nothing | ⟨others, final, more⟩
    · exact nothing
    · rw [more, ← List.append_assoc] at whole
      obtain ⟨rfl, _⟩ := List.append_inj' whole rfl
      exact absurd isEnd (not_mem_kinds_of_endless fun item member =>
        earlier item (List.mem_append_left _ member))
  next =>
    exact absurd isEnd (not_mem_kinds_of_endless fun item member =>
      ending item (List.mem_append_left _ member))

end Lexer

end Offside
