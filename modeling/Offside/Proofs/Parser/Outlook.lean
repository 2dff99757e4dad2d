import Mathlib.Logic.Relation
import Offside.Parser.State
import Offside.Proofs.Lexer.Items

/-!
What a parser has before it: the tokens ahead are those buffered and those that the lexer will
still yield. Looking ahead draws items from the lexer one at a time and changes none of the tokens
ahead; taking a token drops the first of them, unless it is the end of input.
-/

namespace Offside

open LexStream

namespace LexStream

/-- A terminated stream goes on without terminal items up to any item after which there is
more. -/
theorem Terminated.split {left right : List LexItem} (terminated : Terminated (left ++ right))
    (more : right ≠ []) : Endless left ∧ Terminated right := by
  induction left with
  | nil => exact ⟨by simp [Endless], terminated⟩
  | cons item left inductionHypothesis =>
    obtain ⟨goesOn, later⟩ := terminated.tail (by simp [more])
    obtain ⟨endless, terminatedRight⟩ := inductionHypothesis later
    refine ⟨?_, terminatedRight⟩
    intro other member
    rcases List.mem_cons.mp member with rfl | inLeft
    · exact goesOn
    · exact endless other inLeft

/-- Behind an item that is not terminal there is more. -/
theorem Terminated.more {left right : List LexItem} {item : LexItem}
    (terminated : Terminated (left ++ item :: right)) (goesOn : item.isTerminal = false) :
    right ≠ [] := by
  rintro rfl
  obtain ⟨_, before, last, equality, terminal, _⟩ := terminated.split (List.cons_ne_nil item [])
  have isLast := congrArg List.getLast? equality
  rw [List.getLast?_concat, List.getLast?_singleton] at isLast
  rw [← Option.some.inj isLast, goesOn] at terminal
  contradiction

/-- An item that is not terminal can be left out of a terminated stream. -/
theorem Terminated.drop {left right : List LexItem} {item : LexItem}
    (terminated : Terminated (left ++ item :: right)) (goesOn : item.isTerminal = false) :
    Terminated (left ++ right) := by
  obtain ⟨endless, later⟩ := terminated.split (List.cons_ne_nil item right)
  exact (later.tail (terminated.more goesOn)).2.prepend endless

end LexStream

namespace ParserState

/-- The tokens not consumed yet. -/
def ahead (state : ParserState) : List Token :=
  state.buffer ++ (state.lexer.items state.cancelled).filterMap LexItem.token?

/-- The items not consumed or reported yet. -/
def coming (state : ParserState) : List LexItem :=
  state.buffer.map .token ++
    (state.fatal.toList.map .error ++ state.lexer.items state.cancelled)

/-- The items to come are a terminated stream, and an error that is kept is fatal. -/
structure Ready (state : ParserState) : Prop where
  terminated : Terminated state.coming
  isFatal : ∀ error, state.fatal = some error → error.isFatal = true

theorem ready_ofSource (settings : Settings) (cancelled : Bool) (source : List Char) :
    (ofSource settings cancelled source).Ready :=
  ⟨LexState.terminated_stream cancelled rfl, fun _ isFatal => nomatch isFatal⟩

/-- One item is drawn from the lexer: a token is buffered, a fatal error is kept and any other
error is reported. -/
inductive Draws : ParserState → ParserState → Prop
  | token {state : ParserState} {token : Token} {lexer : Lexer} (noFatal : state.fatal = none)
      (found : state.lexer.next? state.cancelled = some (.token token, lexer)) :
      Draws state { state with lexer, buffer := state.buffer ++ [token] }
  | fatal {state : ParserState} {error : LexError} {lexer : Lexer} (noFatal : state.fatal = none)
      (found : state.lexer.next? state.cancelled = some (.error error, lexer))
      (isFatal : error.isFatal = true) :
      Draws state { state with lexer, fatal := some error }
  | report {state : ParserState} {error : LexError} {lexer : Lexer}
      (noFatal : state.fatal = none)
      (found : state.lexer.next? state.cancelled = some (.error error, lexer))
      (harmless : error.isFatal = false) :
      Draws state { state with lexer, reported := state.reported ++ [error.toDiagnostic] }

/-- Any number of items are drawn from the lexer. -/
def Fills : ParserState → ParserState → Prop :=
  Relation.ReflTransGen Draws

theorem Draws.ahead_eq {state after : ParserState} (draws : Draws state after) :
    after.ahead = state.ahead := by
  cases draws with
  | token noFatal found =>
    simp [ahead, Lexer.items_of_next? found, LexItem.token?]
  | fatal noFatal found isFatal =>
    simp [ahead, Lexer.items_of_next? found, List.filterMap_cons, LexItem.token?]
  | report noFatal found harmless =>
    simp [ahead, Lexer.items_of_next? found, List.filterMap_cons, LexItem.token?]

theorem Draws.ready {state after : ParserState} (draws : Draws state after)
    (ready : state.Ready) : after.Ready := by
  obtain ⟨terminated, keptIsFatal⟩ := ready
  cases draws with
  | token noFatal found =>
    refine ⟨?_, keptIsFatal⟩
    simpa [coming, Lexer.items_of_next? found, noFatal] using terminated
  | fatal noFatal found isFatal =>
    refine ⟨?_, fun error kept => (Option.some.inj kept) ▸ isFatal⟩
    simpa [coming, Lexer.items_of_next? found, noFatal] using terminated
  | report noFatal found harmless =>
    refine ⟨?_, keptIsFatal⟩
    simp only [coming, Lexer.items_of_next? found, noFatal, Option.toList_none,
      List.map_nil, List.nil_append] at terminated ⊢
    exact terminated.drop harmless

theorem Fills.ahead_eq {state after : ParserState} (fills : Fills state after) :
    after.ahead = state.ahead := by
  induction fills with
  | refl => rfl
  | tail _ draws inductionHypothesis => exact draws.ahead_eq.trans inductionHypothesis

theorem Fills.ready {state after : ParserState} (fills : Fills state after)
    (ready : state.Ready) : after.Ready := by
  induction fills with
  | refl => exact ready
  | tail _ draws inductionHypothesis => exact draws.ready inductionHypothesis

/-- The next token was looked at and is the end of input. -/
def AtEnd (state : ParserState) : Prop :=
  ∃ token others, state.buffer = token :: others ∧ token.kind = .endOfInput

/-- At the end of input nothing else is to come. -/
theorem Ready.nothing_of_atEnd {state : ParserState} (ready : state.Ready)
    (atEnd : state.AtEnd) :
    state.fatal = none ∧ state.lexer.next? state.cancelled = none := by
  obtain ⟨token, others, buffer, isEnd⟩ := atEnd
  have whole := ready.terminated
  rw [coming, buffer, List.map_cons, List.cons_append] at whole
  have nothing := whole.eq_nil_of_isTerminal (by simp [LexItem.isTerminal, isEnd])
  simp only [List.append_eq_nil_iff, List.map_eq_nil_iff] at nothing
  exact ⟨by simpa using nothing.2.1, Lexer.next?_eq_none_of_items nothing.2.2⟩

/-- After a fatal error nothing else is to come. -/
theorem Ready.items_eq_nil_of_fatal {state : ParserState} (ready : state.Ready)
    {error : LexError} (fatal : state.fatal = some error) :
    state.lexer.items state.cancelled = [] := by
  have whole := ready.terminated
  simp only [coming, fatal, Option.toList_some, List.map_cons, List.map_nil,
    List.singleton_append] at whole
  exact (whole.split (List.cons_ne_nil _ _)).2.eq_nil_of_isTerminal (ready.isFatal error fatal)

/-- The lexer has another item unless the tokens ended: the stream ends with a terminal item, which
is the last token of the buffer or the error that is kept. -/
theorem Ready.next?_ne_none {state : ParserState} (ready : state.Ready)
    (noFatal : state.fatal = none)
    (notAtEnd : ¬state.buffer.getLast?.any (·.kind = .endOfInput) = true) :
    state.lexer.next? state.cancelled ≠ none := by
  intro missing
  obtain ⟨before, last, equality, terminal, _⟩ := ready.terminated
  rw [coming, noFatal, Lexer.items_of_next?_eq_none missing] at equality
  simp only [Option.toList_none, List.map_nil, List.append_nil] at equality
  have lastItem := congrArg List.getLast? equality
  rw [List.getLast?_map, List.getLast?_concat] at lastItem
  obtain ⟨token, isLast, rfl⟩ := Option.map_eq_some_iff.mp lastItem
  rw [isLast] at notAtEnd
  exact absurd terminal notAtEnd

/-- What there is of the tokens once the buffer is filled: enough of them, or all up to the end of
input. -/
def Filled (count : Nat) (state : ParserState) : Prop :=
  count ≤ state.buffer.length ∨ state.buffer.getLast?.any (·.kind = .endOfInput) = true

/-- The tokens end in a fatal error before there are enough of them. -/
structure EndsFatally (count : Nat) (error : LexError) (state : ParserState) : Prop where
  fatal : state.fatal = some error
  short : state.buffer.length < count

theorem draw_cases (count : Nat) {state : ParserState} (ready : state.Ready)
    (short : state.buffer.length < count) :
    ∃ after, Fills state after ∧
      ((Parser.draw count state = .ok () after ∧ Filled count after) ∨
        ∃ error, Parser.draw count state = .error (.failure (.ofLexError error)) after ∧
          EndsFatally count error after) := by
  fun_induction Parser.draw count state with
  | case1 state error fatal => exact ⟨state, .refl, Or.inr ⟨error, rfl, fatal, short⟩⟩
  | case2 state noFatal atEnd => exact ⟨state, .refl, Or.inl ⟨rfl, Or.inr atEnd⟩⟩
  | case3 state noFatal notAtEnd token lexer found enough =>
    exact ⟨_, .single (.token noFatal found), Or.inl ⟨rfl, Or.inl (by simpa using enough)⟩⟩
  | case4 state noFatal notAtEnd token lexer found notEnough inductionHypothesis =>
    have draws := Draws.token noFatal found
    obtain ⟨after, fills, result⟩ :=
      inductionHypothesis (draws.ready ready) (by simpa using notEnough)
    exact ⟨after, .head draws fills, result⟩
  | case5 state noFatal notAtEnd error lexer found isFatal inductionHypothesis =>
    have draws := Draws.fatal noFatal found isFatal
    obtain ⟨after, fills, result⟩ := inductionHypothesis (draws.ready ready) short
    exact ⟨after, .head draws fills, result⟩
  | case6 state noFatal notAtEnd error lexer found notFatal inductionHypothesis =>
    have draws := Draws.report noFatal found (by simpa using notFatal)
    obtain ⟨after, fills, result⟩ := inductionHypothesis (draws.ready ready) short
    exact ⟨after, .head draws fills, result⟩
  | case7 state noFatal notAtEnd missing closing =>
    exact absurd missing (ready.next?_ne_none noFatal notAtEnd)

theorem fill_cases (count : Nat) {state : ParserState} (ready : state.Ready) :
    ∃ after, Fills state after ∧
      ((Parser.fill count state = .ok () after ∧ Filled count after) ∨
        ∃ error, Parser.fill count state = .error (.failure (.ofLexError error)) after ∧
          EndsFatally count error after) := by
  unfold Parser.fill
  by_cases enough : count ≤ state.buffer.length
  · rw [if_pos enough]
    exact ⟨state, .refl, Or.inl ⟨rfl, Or.inl enough⟩⟩
  · rw [if_neg enough]
    exact draw_cases count ready (by omega)

theorem EndsFatally.ahead_eq {count : Nat} {error : LexError} {state : ParserState}
    (ends : EndsFatally count error state) (ready : state.Ready) :
    state.ahead = state.buffer := by
  rw [ahead, ready.items_eq_nil_of_fatal ends.fatal]
  exact List.append_nil _

theorem Filled.ne_nil {count : Nat} {state : ParserState} (filled : Filled (count + 1) state) :
    state.buffer ≠ [] := by
  rcases filled with enough | atEnd
  · exact List.ne_nil_of_length_pos (by omega)
  · intro empty
    simp [empty] at atEnd

/-- A filled buffer of one token starts with the first of the tokens ahead. -/
theorem Filled.exists_cons {state : ParserState} (filled : Filled 1 state) :
    ∃ token others rest, state.buffer = token :: others ∧ state.ahead = token :: rest := by
  obtain ⟨token, others, equality⟩ := List.exists_cons_of_ne_nil filled.ne_nil
  exact ⟨token, others, _, equality, by rw [ahead, equality, List.cons_append]⟩

theorem ahead_afterToken {state : ParserState} {token : Token} {others rest : List Token}
    (buffer : state.buffer = token :: others) (ahead : state.ahead = token :: rest) :
    (state.afterToken token others).ahead =
      if token.kind = .endOfInput then token :: rest else rest := by
  rw [ParserState.ahead, buffer, List.cons_append] at ahead
  injection ahead with _ restEquality
  unfold afterToken
  split
  · simp only [ParserState.ahead, buffer, List.cons_append, restEquality]
  · exact restEquality

theorem Ready.afterToken {state : ParserState} (ready : state.Ready) {token : Token}
    {others : List Token} (buffer : state.buffer = token :: others) :
    (state.afterToken token others).Ready := by
  refine ⟨?_, ready.isFatal⟩
  have terminated := ready.terminated
  unfold ParserState.afterToken
  split
  next => exact terminated
  next notEnd =>
    rw [coming, buffer, List.map_cons, List.cons_append] at terminated
    have goesOn : (LexItem.token token).isTerminal = false := by
      simpa [LexItem.isTerminal] using notEnd
    exact (terminated.tail (@Terminated.more [] _ _ terminated goesOn)).2

/-- The fuel of a state allows for sixteen calls for each of the tokens ahead, and more. -/
theorem length_ahead_le_fuel (state : ParserState) :
    16 * (state.ahead.length + 4) ≤ state.fuel := by
  have items := Lexer.items_eq state.cancelled state.lexer
  have supplied := LexState.tokenCount_stream_le state.cancelled state.lexer.state
  have queued : tokenCount state.lexer.pending ≤ state.lexer.pending.length :=
    List.length_filterMap_le _ _
  have count : tokenCount (state.lexer.items state.cancelled) =
      tokenCount state.lexer.pending +
        tokenCount (state.lexer.state.stream state.cancelled) := by
    rw [items, tokenCount_append]
  have length : state.ahead.length =
      state.buffer.length + tokenCount (state.lexer.items state.cancelled) := by
    rw [ahead, List.length_append, tokenCount]
  unfold LexState.supply at supplied
  unfold fuel Lexer.indentDepth
  dsimp only
  omega

end ParserState

/-! ## Looking ahead and taking tokens -/

namespace Parser

open ParserState

theorem bind_ok {α β : Type} {parser : Parser α} {next : α → Parser β}
    {state after : ParserState} {value : α} (result : parser state = .ok value after) :
    (parser >>= next) state = next value after := by
  change EStateM.bind parser next state = next value after
  rw [EStateM.bind, result]

theorem bind_error {α β : Type} {parser : Parser α} {next : α → Parser β}
    {state after : ParserState} {abort : Abort} (result : parser state = .error abort after) :
    (parser >>= next) state = .error abort after := by
  change EStateM.bind parser next state = .error abort after
  rw [EStateM.bind, result]

theorem bind_get {β : Type} (next : ParserState → Parser β) (state : ParserState) :
    ((get : Parser ParserState) >>= next) state = next state state :=
  rfl

/-- Looking ahead gives a token of the buffer, the last one if it is too short for the distance, or
the fatal error that the tokens end in. -/
theorem peekAhead_cases (ahead : Nat) {state : ParserState} (ready : state.Ready) :
    ∃ after, Fills state after ∧
      ((Filled (ahead + 1) after ∧
          ∃ token, after.buffer[min ahead (after.buffer.length - 1)]? = some token ∧
            peekAhead ahead state = .ok token after) ∨
        ∃ error, EndsFatally (ahead + 1) error after ∧
          peekAhead ahead state = .error (.failure (.ofLexError error)) after) := by
  obtain ⟨after, fills, ⟨result, filled⟩ | ⟨error, result, ends⟩⟩ := fill_cases (ahead + 1) ready
  · have nonempty := List.length_pos_iff.mpr filled.ne_nil
    have inside : min ahead (after.buffer.length - 1) < after.buffer.length := by omega
    have found := List.getElem?_eq_getElem inside
    refine ⟨after, fills, Or.inl ⟨filled, _, found, ?_⟩⟩
    rw [peekAhead, bind_ok result, bind_get, found]
    rfl
  · exact ⟨after, fills, Or.inr ⟨error, ends, bind_error result⟩⟩

/-- Looking at the next token gives the first of the tokens ahead, or the fatal error that the
tokens end in. -/
theorem peek_cases {state : ParserState} (ready : state.Ready) :
    ∃ after, Fills state after ∧
      ((∃ token others rest, after.buffer = token :: others ∧ state.ahead = token :: rest ∧
          peek state = .ok token after) ∨
        ∃ error, EndsFatally 1 error after ∧ state.ahead = [] ∧
          peek state = .error (.failure (.ofLexError error)) after) := by
  obtain ⟨after, fills, ⟨filled, token, found, result⟩ | ⟨error, ends, result⟩⟩ :=
    peekAhead_cases 0 ready
  · obtain ⟨first, others, rest, buffer, ahead⟩ := filled.exists_cons
    rw [Nat.zero_min, buffer, List.getElem?_cons_zero] at found
    obtain rfl := Option.some.inj found
    exact ⟨after, fills, Or.inl ⟨first, others, rest, buffer, fills.ahead_eq ▸ ahead, result⟩⟩
  · refine ⟨after, fills, Or.inr ⟨error, ends, ?_, result⟩⟩
    rw [← fills.ahead_eq, ends.ahead_eq (fills.ready ready)]
    exact List.eq_nil_of_length_eq_zero (by have := ends.short; omega)

/-- Taking the next token drops the first of the tokens ahead, unless it is the end of input. -/
theorem consume_cases {state : ParserState} (ready : state.Ready) :
    ∃ after, Fills state after ∧
      ((∃ token others rest, after.buffer = token :: others ∧ state.ahead = token :: rest ∧
          consume state = .ok token (after.afterToken token others)) ∨
        ∃ error, EndsFatally 1 error after ∧ state.ahead = [] ∧
          consume state = .error (.failure (.ofLexError error)) after) := by
  obtain ⟨after, fills, ⟨result, filled⟩ | ⟨error, result, ends⟩⟩ := fill_cases 1 ready
  · obtain ⟨token, others, rest, buffer, ahead⟩ := filled.exists_cons
    refine ⟨after, fills, Or.inl ⟨token, others, rest, buffer, ?_, ?_⟩⟩
    · rw [← fills.ahead_eq, ahead]
    · rw [consume, bind_ok result, bind_get]
      simp only [buffer]
      rfl
  · refine ⟨after, fills, Or.inr ⟨error, ends, ?_, ?_⟩⟩
    · rw [← fills.ahead_eq, ends.ahead_eq (fills.ready ready)]
      exact List.eq_nil_of_length_eq_zero (by have := ends.short; omega)
    · exact bind_error result

end Parser

end Offside
