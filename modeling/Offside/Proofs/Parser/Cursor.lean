import Offside.Proofs.Parser.Visited

/-!
Lookahead as a cursor. A parser draws the tokens of its lexer only as far as it has to, keeps those
that it looked at in a buffer, diverts the errors that end nothing and remembers the one that ends
everything. To its callers it is nevertheless no more than an index into the list of all tokens:
whatever they ask, and in whatever order, the answers are those of a cursor that is moved over that
list.
-/

namespace Offside

open LexStream ParserState Offside.Parser

/-- A request to a parser about the tokens before it. -/
inductive Query
  | peekAhead (ahead : Nat)
  | check (kind : Kind)
  | consume
  | consumeKind (kind : Kind)
  | expect (kind : Kind)
deriving DecidableEq, Repr

/-- What a request gives if it does not fail. -/
inductive Reply
  | token (token : Token)
  | check (same : Bool)
  | taken (token : Option Token)
deriving DecidableEq, Repr

/-- The answer to a request, or why there is none. -/
abbrev Answer :=
  Except Abort Reply

/-- The answers to requests that are made one after another, failed ones included, and the state
behind them. -/
def answers {σ : Type} (answer : Query → σ → Answer × σ) : List Query → σ → List Answer × σ
  | [], state => ([], state)
  | query :: queries, state =>
    let (first, after) := answer query state
    let (others, final) := answers answer queries after
    (first :: others, final)

namespace Query

def parser : Query → Parser Reply
  | .peekAhead ahead => return .token (← Parser.peekAhead ahead)
  | .check kind => return .check (← Parser.check kind)
  | .consume => return .token (← Parser.consume)
  | .consumeKind kind => return .taken (← Parser.consumeKind kind)
  | .expect kind => return .token (← Parser.expect kind)

end Query

/-- An index into the tokens of a text, of which the last item is known. -/
structure Cursor where
  tokens : List Token
  last : LexItem
  index : Nat

namespace Cursor

/-- What is found past the last token: the end of input, or the error in which the tokens end. -/
def pastLast : LexItem → Except Abort Token
  | .token token => .ok token
  | .error error => .error (.failure (.ofLexError error))

/-- The token `ahead` of the next one. -/
def look (cursor : Cursor) (ahead : Nat) : Except Abort Token :=
  match cursor.tokens[cursor.index + ahead]? with
  | some token => .ok token
  | none => pastLast cursor.last

/-- The cursor behind a token. The end of input is never left behind. -/
def past (cursor : Cursor) (token : Token) : Cursor :=
  if token.kind = .endOfInput then cursor else { cursor with index := cursor.index + 1 }

/-- The tokens that were taken. -/
def taken (cursor : Cursor) : List Token :=
  cursor.tokens.take cursor.index

/-- The answer of a cursor: only a token that is taken moves it. -/
def answer (query : Query) (cursor : Cursor) : Answer × Cursor :=
  match query with
  | .peekAhead ahead => ((cursor.look ahead).map .token, cursor)
  | .check kind => ((cursor.look 0).map fun token => .check (token.kind = kind), cursor)
  | .consume =>
    match cursor.look 0 with
    | .ok token => (.ok (.token token), cursor.past token)
    | .error abort => (.error abort, cursor)
  | .consumeKind kind =>
    match cursor.look 0 with
    | .ok token =>
      if token.kind = kind then (.ok (.taken (some token)), cursor.past token)
      else (.ok (.taken none), cursor)
    | .error abort => (.error abort, cursor)
  | .expect kind =>
    match cursor.look 0 with
    | .ok token =>
      if token.kind = kind then (.ok (.token token), cursor.past token)
      else
        (.error (.recoverable ⟨.expected [.kind kind] token.kind token.text, token.span, []⟩),
          cursor)
    | .error abort => (.error abort, cursor)

end Cursor

/-! ## The last item -/

namespace LexStream

theorem Terminated.exists_last {items : List LexItem} (terminated : Terminated items) :
    ∃ last, items.getLast? = some last ∧ last.isTerminal = true := by
  obtain ⟨before, last, rfl, terminal, _⟩ := terminated
  exact ⟨last, List.getLast?_concat, terminal⟩

end LexStream

namespace ParserState

variable {state after : ParserState} {last : LexItem}

/-- Drawing items leaves the last one to come. -/
theorem Draws.getLast?_coming (draws : Draws state after) (ready : state.Ready) :
    after.coming.getLast? = state.coming.getLast? := by
  have terminated := ready.terminated
  cases draws with
  | token noFatal found => simp [coming, Lexer.items_of_next? found, noFatal]
  | fatal noFatal found isFatal => simp [coming, Lexer.items_of_next? found, noFatal]
  | report noFatal found harmless =>
    simp only [coming, Lexer.items_of_next? found, noFatal, Option.toList_none, List.map_nil,
      List.nil_append] at terminated ⊢
    have more := terminated.more harmless
    rw [List.getLast?_append_of_ne_nil _ more,
      List.getLast?_append_of_ne_nil _ (List.cons_ne_nil _ _), List.getLast?_cons_of_ne_nil more]

theorem Fills.getLast?_coming (fills : Fills state after) (ready : state.Ready) :
    after.coming.getLast? = state.coming.getLast? := by
  induction fills with
  | refl => rfl
  | tail before draws inductionHypothesis =>
    exact (draws.getLast?_coming (Fills.ready before ready)).trans inductionHypothesis

/-- So does taking a token. -/
theorem getLast?_coming_afterToken (ready : state.Ready) {token : Token} {others : List Token}
    (buffer : state.buffer = token :: others) :
    (state.afterToken token others).coming.getLast? = state.coming.getLast? := by
  unfold afterToken
  split
  next => rfl
  next notEnd =>
    have terminated := ready.terminated
    simp only [coming, buffer, List.map_cons, List.cons_append] at terminated ⊢
    have goesOn : (LexItem.token token).isTerminal = false := by
      simpa [LexItem.isTerminal] using notEnd
    rw [List.getLast?_cons_of_ne_nil (@Terminated.more [] _ _ terminated goesOn)]

/-- Where the tokens end in a fatal error, that error is the last item. -/
theorem EndsFatally.getLast?_coming {count : Nat} {error : LexError}
    (ends : EndsFatally count error state) (ready : state.Ready) :
    state.coming.getLast? = some (.error error) := by
  rw [coming, ready.items_eq_nil_of_fatal ends.fatal, ends.fatal]
  exact List.getLast?_concat

/-- The next token closes no level that is not open. -/
theorem Visited.levelsAfter?_next {input : Input} (visited : Visited input state) {token : Token}
    {rest : List Token} (ahead : state.ahead = token :: rest) :
    levelsAfter? state.depth [.token token] = some (depthAfter token.kind state.depth) := by
  obtain ⟨depth, replayed, _⟩ := visited.sound.levelled
  rw [ahead, List.map_cons, ← List.singleton_append, levelsAfter?_append] at replayed
  obtain ⟨middle, stepped, _⟩ := Option.bind_eq_some_iff.mp replayed
  rw [stepped]
  exact (levelsAfter?_singleton stepped).1.symm

end ParserState

namespace Cursor

variable {cursor : Cursor} {input : Input} {state after : ParserState}

/-- A state shows what a cursor points at: the tokens from the index on, behind them the last
item, and the levels that the tokens before it leave open. -/
structure Shows (input : Input) (cursor : Cursor) (state : ParserState) : Prop where
  visited : state.Visited input
  ahead : state.ahead = cursor.tokens.drop cursor.index
  last : state.coming.getLast? = some cursor.last
  levels : levelsAfter? 0 (cursor.taken.map .token) = some state.depth
  unnamed : state.nonTerminals = []

theorem look_eq (shows : Shows input cursor state) (ahead : Nat) :
    cursor.look ahead =
      match state.ahead[ahead]? with
      | some token => .ok token
      | none => pastLast cursor.last := by
  rw [shows.ahead, List.getElem?_drop]
  rfl

theorem look_eq_ok (shows : Shows input cursor state) {ahead : Nat} {token : Token}
    (found : state.ahead[ahead]? = some token) : cursor.look ahead = .ok token := by
  rw [look_eq shows, found]

/-- Past the tokens ahead a cursor finds what the items to come end in. -/
theorem look_of_length_le (shows : Shows input cursor state) {ahead : Nat}
    (past : state.ahead.length ≤ ahead) {last : LexItem}
    (isLast : state.coming.getLast? = some last) : cursor.look ahead = pastLast last := by
  rw [look_eq shows, List.getElem?_eq_none past]
  rw [shows.last] at isLast
  rw [Option.some.inj isLast]

/-- Nor does it find another error than the one that the tokens end in. -/
theorem look_of_endsFatally (shows : Shows input cursor state) {ahead : Nat} {error : LexError}
    (ends : EndsFatally (ahead + 1) error state) :
    cursor.look ahead = .error (.failure (.ofLexError error)) := by
  have short := ends.short
  have ready := shows.visited.ready
  rw [look_of_length_le shows _ (ends.getLast?_coming ready)]
  · rfl
  · rw [ends.ahead_eq ready]
    omega

theorem Shows.fills (shows : Shows input cursor state) (fills : Fills state after) :
    Shows input cursor after := by
  have kept : after.depth = state.depth ∧ after.nonTerminals = state.nonTerminals := by
    clear shows
    induction fills with
    | refl => exact ⟨rfl, rfl⟩
    | tail _ draws inductionHypothesis => cases draws <;> exact inductionHypothesis
  refine ⟨shows.visited.fills fills, fills.ahead_eq.trans shows.ahead,
    (fills.getLast?_coming shows.visited.ready).trans shows.last, ?_, kept.2.trans shows.unnamed⟩
  rw [kept.1]
  exact shows.levels

/-- Taking a token moves the cursor past it. -/
theorem Shows.takes (shows : Shows input cursor state) {token : Token} {others rest : List Token}
    (buffer : state.buffer = token :: others) (ahead : state.ahead = token :: rest) :
    Shows input (cursor.past token) (state.afterToken token others) := by
  have aheadAfter := ahead_afterToken buffer ahead
  have last := (getLast?_coming_afterToken shows.visited.ready buffer).trans shows.last
  unfold past
  by_cases isEnd : token.kind = .endOfInput
  · rw [if_pos isEnd] at aheadAfter ⊢
    refine ⟨shows.visited.takes buffer, ?_, last, ?_, shows.unnamed⟩
    · rw [aheadAfter, ← ahead, shows.ahead]
    · rw [afterToken, isEnd]
      exact shows.levels
  · rw [if_neg isEnd] at aheadAfter ⊢
    have found := shows.ahead.symm.trans ahead
    have next : cursor.tokens[cursor.index]? = some token := by
      rw [← Nat.add_zero cursor.index, ← List.getElem?_drop, found]
      rfl
    refine ⟨shows.visited.takes buffer, ?_, last, ?_, shows.unnamed⟩
    · rw [aheadAfter, ← List.drop_drop, found]
      rfl
    · have taken : cursor.tokens.take (cursor.index + 1) = cursor.taken ++ [token] := by
        rw [List.take_add_one, next]
        rfl
      rw [Cursor.taken, taken, List.map_append, levelsAfter?_append, shows.levels]
      exact shows.visited.levelsAfter?_next ahead

/-! ## Requests -/

/-- Looking at the next token gives what the cursor points at. -/
theorem peek_eq (shows : Shows input cursor state) :
    ∃ after, Shows input cursor after ∧
      ((∃ token, cursor.look 0 = .ok token ∧ peek state = .ok token after ∧
          after.here = token.span) ∨
        ∃ abort, cursor.look 0 = .error abort ∧ peek state = .error abort after) := by
  obtain ⟨after, fills, ⟨token, others, rest, buffer, ahead, result⟩ | ⟨error, ends, _, result⟩⟩ :=
    peek_cases shows.visited.ready
  · refine ⟨after, shows.fills fills, Or.inl ⟨token, look_eq_ok shows (ahead ▸ rfl), result, ?_⟩⟩
    rw [here, buffer]
  · have later := shows.fills fills
    exact ⟨after, later, Or.inr ⟨_, look_of_endsFatally later ends, result⟩⟩

/-- The levels of a parser are those opened by the tokens taken, less those closed by them, and
none is ever closed that is not open. -/
structure Counts (cursor : Cursor) (state : ParserState) : Prop where
  depth : state.depth + cursor.taken.countP (·.kind = .dedent) =
    cursor.taken.countP (·.kind = .indent)
  isOpen : ∀ token, cursor.tokens[cursor.index]? = some token → token.kind = .dedent →
    0 < state.depth

theorem Shows.counts (shows : Shows input cursor state) : Counts cursor state := by
  refine ⟨?_, fun token next closes => ?_⟩
  · have counted := count_of_levelsAfter? shows.levels
    rw [List.countP_map, List.countP_map, Nat.zero_add] at counted
    exact counted
  · have ahead := shows.ahead
    rw [List.drop_eq_getElem?_toList_append, next] at ahead
    exact shows.visited.depth_pos ahead closes

end Cursor

end Offside
