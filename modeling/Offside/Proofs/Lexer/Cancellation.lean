import Offside.Proofs.Lexer.Tiling

/-!
Cancelled lexers. A request to cancel is heard only when nothing is queued, and then it ends the
items. So the items that a cancelled lexer yields are the first of those that it yields otherwise,
and behind all of them stands the error that says that it was cancelled.
-/

namespace Offside

open LexStream LexMode

namespace LexState

variable {state after middle : LexState} {step : LexStep} {kind : Kind} {split : Scan.Split}
  {errors : List LexError} {items more : List LexItem} {position later : Position}

/-! ## What a step yields is not behind its end -/

/-- All items end at a position or before it. -/
def UpTo (items : List LexItem) (position : Position) : Prop :=
  ∀ item ∈ items, item.span.last ≤ position

theorem upTo_nil (position : Position) : UpTo [] position :=
  fun _ member => absurd member List.not_mem_nil

theorem UpTo.append (upTo : UpTo items position) (others : UpTo more position) :
    UpTo (items ++ more) position :=
  fun item member => (List.mem_append.mp member).elim (upTo item) (others item)

theorem UpTo.of_le (upTo : UpTo items position) (le : position ≤ later) : UpTo items later :=
  fun item member => Position.le_trans (upTo item member) le

theorem upTo_errors (within : ∀ error ∈ errors, error.span.last ≤ position) :
    UpTo (errors.map .error) position := by
  intro item member
  obtain ⟨error, isError, rfl⟩ := List.mem_map.mp member
  exact within error isError

/-- The escapes that can not be decoded are in the text that is decoded. -/
theorem le_of_mem_decode {pieces : List Scan.Spelled} {error : LexError}
    (member : error ∈ (decode position pieces).2) :
    error.span.last ≤ position.advance (pieces.flatMap Scan.Spelled.text) := by
  have within := errorsWithin_decode position pieces []
  rw [List.append_nil] at within
  exact (within error member).1.2.le_of_leads ⟨_, (List.append_nil _).symm, rfl⟩

/-- The errors in a token end before it does. -/
theorem TakesCode.errors_le (takes : TakesCode state kind split errors after) :
    ∀ error ∈ errors, error.span.last ≤ state.position.advance split.text := by
  have inLiteral {rest others : List Char} : ∀ error ∈ (state.literalValue rest).2,
      error.span.last ≤ state.position.advance (literalSplit rest others).text := by
    intro error member
    have le := le_of_mem_decode member
    rw [Scan.text_charBody, ← Position.advance_append] at le
    have whole : (literalSplit rest others).text =
        ['\''] ++ (Scan.charBody rest).text ++ ['\''] := rfl
    rw [whole, Position.advance_append]
    exact Position.le_trans le (Position.le_advance _ _)
  cases takes with
  | stringStart => exact fun _ member => absurd member List.not_mem_nil
  | character => exact inLiteral
  | wrongCharacter =>
    intro error member
    rcases List.mem_append.mp member with inside | isLast
    · exact inLiteral error inside
    · rw [List.mem_singleton.mp isLast]
      exact Position.le_refl _
  | number =>
    intro error member
    obtain ⟨_, _, rfl⟩ := List.mem_map.mp member
    exact Position.le_refl _
  | word => exact fun _ member => absurd member List.not_mem_nil
  | symbol => exact fun _ member => absurd member List.not_mem_nil

theorem TakesPart.errors_le (takes : TakesPart state kind split errors after) :
    ∀ error ∈ errors, error.span.last ≤ state.position.advance split.text := by
  cases takes with
  | stringEnd => exact fun _ member => absurd member List.not_mem_nil
  | interpolationStart => exact fun _ member => absurd member List.not_mem_nil
  | fragment =>
    intro error member
    have le := le_of_mem_decode member
    rwa [Scan.text_stringBody] at le

theorem upTo_yield (piece : IsPiece state kind split after)
    (within : ∀ error ∈ errors, error.span.last ≤ state.position.advance split.text) :
    UpTo (after.yield kind split errors).1 (after.yield kind split errors).2.position := by
  have position : after.position = state.position := by rw [piece.frame]
  rw [← position] at within
  intro item member
  rcases List.mem_cons.mp member with rfl | inErrors
  · exact Position.le_refl _
  · exact upTo_errors within item inErrors

theorem upTo_reads (reads : Reads state step) (running : step.2.finished = false) :
    UpTo step.1 step.2.position := by
  cases reads with
  | code _ takes => exact upTo_yield takes.isPiece takes.errors_le
  | part _ takes => exact upTo_yield takes.isPiece takes.errors_le
  | unexpected =>
    intro item member
    rw [List.mem_singleton.mp member]
    exact Position.le_refl _
  | ends _ closed =>
    rw [finish, closed] at running
    contradiction
  | fails => contradiction

theorem upTo_indentation (state : LexState) :
    UpTo state.indentation.1 state.indentation.2.position := by
  unfold indentation
  dsimp only
  refine UpTo.append (.append (upTo_errors fun error member => ?_) fun item member => ?_)
    (upTo_errors fun error member => ?_)
  · split at member
    · rw [List.mem_singleton.mp member]
      exact Position.le_refl _
    · exact absurd member List.not_mem_nil
  · obtain ⟨_, _, rfl⟩ := List.mem_map.mp member
    exact Position.le_refl _
  · rw [(span_of_mem_lineErrors member).1]
    exact Position.le_refl _

theorem le_of_reads (reads : Reads state step) (running : step.2.finished = false) :
    state.position ≤ step.2.position :=
  ((tileShape_reads reads).tiles fun ended =>
    absurd (running.symm.trans ended) Bool.false_ne_true).leads.le

theorem upTo_stepped (stepped : Stepped state step) (running : step.2.finished = false) :
    UpTo step.1 step.2.position := by
  cases stepped with
  | inString _ reads => exact upTo_reads reads running
  | inBrackets _ _ reads => exact upTo_reads reads running
  | inLine _ _ _ _ reads => exact upTo_reads reads running
  | blank _ _ _ reads => exact upTo_reads reads running
  | @line line _ _ _ _ _ reads =>
    have layout := (upTo_indentation line.pastBlank).of_le (Position.le_advance _
      (Scan.trivia line.pastBlank.indentation.2.rest).text)
    exact (layout.of_le (le_of_reads reads running)).append (upTo_reads reads running)

theorem upTo_proceed {cancelled : Bool} (running : (state.proceed cancelled).2.finished = false) :
    UpTo (state.proceed cancelled).1 (state.proceed cancelled).2.position := by
  cases cancelled with
  | true => contradiction
  | false => exact upTo_stepped (stepped state) running

end LexState

namespace Lexer

/-- What a lexer that goes on has yielded and queued ends where the lexer is, or before. -/
theorem upTo_drawn (requests : List Bool) (state : LexState)
    (running : (afterRequests ⟨state, []⟩ requests).state.finished = false) :
    LexState.UpTo (drawn ⟨state, []⟩ requests)
      (afterRequests ⟨state, []⟩ requests).state.position := by
  refine drawn_induction
    (motive := fun items state => state.finished = false → LexState.UpTo items state.position)
    (fun cancelled items state notEnded upTo running => ?_) requests
    (fun _ => LexState.upTo_nil _) running
  have moved := (LexState.placed_proceed cancelled state).1.moved
  exact ((upTo notEnded).of_le moved).append (LexState.upTo_proceed running)

/-! ## Calls -/

theorem afterCalls_eq_afterRequests (cancelled : Bool) (lexer : Lexer) (count : Nat) :
    lexer.afterCalls cancelled count = lexer.afterRequests (List.replicate count cancelled) := by
  induction count with
  | zero => rfl
  | succ count inductionHypothesis =>
    rw [afterCalls, inductionHypothesis, List.replicate_succ', afterRequests, afterRequests,
      List.foldl_append]
    rfl

theorem answers_replicate (cancelled : Bool) (lexer : Lexer) (count : Nat) :
    lexer.answers (List.replicate count cancelled) = (lexer.items cancelled).take count := by
  induction count generalizing lexer with
  | zero => rfl
  | succ count inductionHypothesis =>
    rw [List.replicate_succ, answers, inductionHypothesis, answer, advance]
    cases found : lexer.next? cancelled with
    | none => simp [items_of_next?_eq_none found]
    | some next => simp [items_of_next? found]

/-- A lexer after some calls for an item, at each of which a flag to cancel may be set. -/
def afterFlags (flag : Nat → Bool) (lexer : Lexer) : Nat → Lexer
  | 0 => lexer
  | count + 1 => (lexer.afterFlags flag count).advance (flag count)

/-- What a call is answered by, the calls counted from zero. -/
def reply (flag : Nat → Bool) (lexer : Lexer) (call : Nat) : Option LexItem :=
  (lexer.afterFlags flag call).answer (flag call)

/-- The flag is set just before some call and stays set. -/
def setBefore (first : Nat) : Nat → Bool :=
  fun call => first ≤ call

variable {lexer : Lexer} {first : Nat}

theorem afterFlags_setBefore_of_le {count : Nat} (le : count ≤ first) :
    lexer.afterFlags (setBefore first) count = lexer.afterCalls false count := by
  induction count with
  | zero => rfl
  | succ count inductionHypothesis =>
    have notSet : setBefore first count = false := decide_eq_false (by omega)
    rw [afterFlags, inductionHypothesis (by omega), notSet, afterCalls]

theorem afterFlags_setBefore_add (lexer : Lexer) (first count : Nat) :
    lexer.afterFlags (setBefore first) (first + count) =
      (lexer.afterCalls false first).afterCalls true count := by
  induction count with
  | zero => exact afterFlags_setBefore_of_le (Nat.le_refl first)
  | succ count inductionHypothesis =>
    have isSet : setBefore first (first + count) = true := decide_eq_true (by omega)
    rw [← Nat.add_assoc, afterFlags, inductionHypothesis, isSet, afterCalls]

/-- Where all items were yielded there are none left, cancelled or not. -/
theorem items_afterCalls_of_le (past : (lexer.items false).length ≤ first) (cancelled : Bool) :
    (lexer.afterCalls false first).items cancelled = [] := by
  have nothing : (lexer.afterCalls false first).items false = [] := by
    rw [items_afterCalls, List.drop_eq_nil_of_le past]
  have missing := next?_eq_none_of_items nothing
  exact items_of_next?_eq_none (next?_eq_none_of_next?_eq_none missing cancelled)

/-- Before the flag is set the items come in turn, and from then on those of a cancelled lexer. -/
theorem reply_setBefore (lexer : Lexer) (first call : Nat) :
    lexer.reply (setBefore first) call =
      ((lexer.items false).take first ++ (lexer.afterCalls false first).items true)[call]? := by
  rcases Nat.lt_or_ge call first with before | onwards
  · have notSet : setBefore first call = false := decide_eq_false (by omega)
    rw [reply, afterFlags_setBefore_of_le (by omega), notSet, answer_afterCalls]
    rcases Nat.lt_or_ge call (lexer.items false).length with inItems | past
    · rw [List.getElem?_append_left (by rw [List.length_take]; omega),
        List.getElem?_take_of_lt before]
    · rw [items_afterCalls_of_le (by omega), List.append_nil, List.getElem?_take_of_lt before]
  · obtain ⟨count, rfl⟩ := Nat.exists_eq_add_of_le onwards
    have isSet : setBefore first (first + count) = true := decide_eq_true onwards
    rw [reply, afterFlags_setBefore_add, isSet, answer_afterCalls]
    rcases Nat.lt_or_ge (lexer.items false).length first with short | long
    · rw [items_afterCalls_of_le (by omega), List.append_nil, List.getElem?_nil,
        List.getElem?_eq_none (by rw [List.length_take]; omega)]
    · rw [List.getElem?_append_right (by rw [List.length_take]; omega), List.length_take,
        Nat.min_eq_left long, Nat.add_sub_cancel_left]

end Lexer

/-- A lexer that is cancelled just before some call yields its items as if it was not, up to that
call at least, then the error that says so, and then nothing. Or it has nothing left to yield but
what is queued, and then it yields all of its items. -/
theorem cancellation_cuts (settings : Settings) (source : List Char) (first : Nat) :
    let lexer := Lexer.ofSource settings.tabWidth source
    (∀ call, lexer.reply (Lexer.setBefore first) call = (lexer.items false)[call]?) ∨
      ∃ count position, first ≤ count ∧ count < (lexer.items false).length ∧
        (∀ item ∈ (lexer.items false).take count, item.span.last ≤ position) ∧
        ∀ call, lexer.reply (Lexer.setBefore first) call =
          ((lexer.items false).take count ++ [.error ⟨.cancelled, .emptyAt position⟩])[call]? := by
  intro lexer
  let halted := lexer.afterCalls false first
  obtain ⟨yielded, isYielded⟩ :
      ∃ yielded, yielded = (lexer.items false).take first ++ halted.pending := ⟨_, rfl⟩
  have whole : lexer.items false = yielded ++ halted.state.stream false := by
    rw [isYielded, List.append_assoc, ← Lexer.items_eq, Lexer.items_afterCalls,
      List.take_append_drop]
  have replies (call : Nat) : lexer.reply (Lexer.setBefore first) call =
      (yielded ++ halted.state.stream true)[call]? := by
    rw [isYielded, List.append_assoc, ← Lexer.items_eq, Lexer.reply_setBefore]
  cases finished : halted.state.finished with
  | true =>
    left
    rw [LexState.stream_of_finished false finished] at whole
    intro call
    rw [replies, LexState.stream_of_finished true finished, whole]
  | false =>
    right
    have more := List.length_pos_of_ne_nil (LexState.terminated_stream false finished).ne_nil
    have taken : (lexer.items false).take yielded.length = yielded := by rw [whole, List.take_left]
    refine ⟨yielded.length, halted.state.position, ?_, ?_, ?_, fun call => ?_⟩
    · have notAll : first < (lexer.items false).length := by
        by_contra past
        have nothing := Lexer.items_afterCalls false lexer first
        rw [List.drop_eq_nil_of_le (by omega), Lexer.items_eq, List.append_eq_nil_iff] at nothing
        exact absurd nothing.2 (List.ne_nil_of_length_pos more)
      rw [isYielded, List.length_append, List.length_take]
      omega
    · rw [whole, List.length_append]
      omega
    · have upTo := Lexer.upTo_drawn (List.replicate first false)
        (.ofSource settings.tabWidth source)
      rw [Lexer.drawn, Lexer.answers_replicate, ← Lexer.afterCalls_eq_afterRequests] at upTo
      rw [taken, isYielded]
      exact upTo finished
    · rw [taken, replies, LexState.stream_cancelled finished]

end Offside
