import Offside.Proofs.Parser.Isolation

/-!
Two texts read in tandem. Their tokens correspond one by one, up to where they stand and how they
are written, though errors of the lexer may stand between them. Then whatever is read from one of
them is read from the other, and what is wrong in one is wrong in the other.
-/

namespace Offside

open LexStream ParserState Offside.Parser

/-! ## Filling the buffer by what is to come -/

namespace ParserState

variable {state : ParserState} {item : LexItem} {items : List LexItem}

theorem exists_next?_of_items {lexer : Lexer} {cancelled : Bool}
    (found : lexer.items cancelled = item :: items) :
    ∃ after, lexer.next? cancelled = some (item, after) ∧ after.items cancelled = items := by
  cases next : lexer.next? cancelled with
  | none =>
    rw [Lexer.items_of_next?_eq_none next] at found
    contradiction
  | some answer =>
    obtain ⟨first, after⟩ := answer
    rw [Lexer.items_of_next? next] at found
    obtain ⟨rfl, rfl⟩ := List.cons.inj found
    exact ⟨after, rfl, rfl⟩

/-- Where a token comes next it is buffered, and nothing is reported. -/
theorem fill_of_token {token : Token} (coming : state.coming = .token token :: items) :
    ∃ after others, fill 1 state = .ok () after ∧ Fills state after ∧
      after.buffer = token :: others ∧ after.coming = state.coming ∧
      after.reported = state.reported := by
  cases buffer : state.buffer with
  | cons first others =>
    have isToken : first = token := by
      rw [ParserState.coming, buffer] at coming
      exact LexItem.token.inj (List.cons.inj coming).1
    refine ⟨state, others, ?_, .refl, isToken ▸ buffer, rfl, rfl⟩
    rw [fill, if_pos (by simp [buffer])]
  | nil =>
    cases fatal : state.fatal with
    | some error =>
      rw [ParserState.coming, buffer, fatal] at coming
      exact absurd (List.cons.inj coming).1 LexItem.noConfusion
    | none =>
      have found : state.lexer.items state.cancelled = .token token :: items := by
        rw [ParserState.coming, buffer, fatal] at coming
        exact coming
      obtain ⟨lexer, next, rest⟩ := exists_next?_of_items found
      refine ⟨{ state with lexer, buffer := state.buffer ++ [token] }, [], ?_,
        .single (.token fatal next), by simp [buffer], ?_, rfl⟩
      · rw [fill, if_neg (by simp [buffer]), draw]
        simp only [fatal, buffer]
        rw [if_neg (by simp), next]
        dsimp only
        rw [if_pos (by simp)]
      · rw [coming, ParserState.coming]
        simp [buffer, fatal, rest]

/-- Where an error comes next nothing is buffered. -/
theorem buffer_eq_nil_of_error {error : LexError} (coming : state.coming = .error error :: items) :
    state.buffer = [] := by
  cases buffer : state.buffer with
  | nil => rfl
  | cons first others =>
    rw [ParserState.coming, buffer] at coming
    exact absurd (List.cons.inj coming).1 LexItem.noConfusion

/-- Where an error comes next that ends nothing, it is reported on the way to a token. -/
theorem fill_of_error {error : LexError} (ready : state.Ready) (harmless : error.isFatal = false)
    (coming : state.coming = .error error :: items) :
    ∃ drawn, fill 1 state = fill 1 drawn ∧ Draws state drawn ∧ drawn.coming = items ∧
      drawn.reported = state.reported ++ [error.toDiagnostic] := by
  have buffer := buffer_eq_nil_of_error coming
  cases fatal : state.fatal with
  | some kept =>
    rw [ParserState.coming, buffer, fatal] at coming
    obtain rfl : kept = error := LexItem.error.inj (List.cons.inj coming).1
    exact absurd ((ready.isFatal kept fatal).symm.trans harmless) Bool.noConfusion
  | none =>
    have found : state.lexer.items state.cancelled = .error error :: items := by
      rw [ParserState.coming, buffer, fatal] at coming
      exact coming
    obtain ⟨lexer, next, rest⟩ := exists_next?_of_items found
    refine ⟨{ state with lexer, reported := state.reported ++ [error.toDiagnostic] }, ?_,
      .report fatal next harmless, ?_, rfl⟩
    · rw [fill, fill, if_neg (by simp [buffer]), if_neg (by simp [buffer]), draw]
      simp only [fatal, buffer]
      rw [if_neg (by simp), next]
      dsimp only
      rw [if_neg (by simp [harmless])]
    · rw [ParserState.coming]
      simp [buffer, fatal, rest]

/-- Where a fatal error comes next nothing can follow. -/
theorem fill_of_fatal {error : LexError} (isFatal : error.isFatal = true)
    (coming : state.coming = .error error :: items) :
    ∃ after, fill 1 state = .error (.failure (.ofLexError error)) after ∧ Fills state after ∧
      after.reported = state.reported := by
  have buffer := buffer_eq_nil_of_error coming
  cases fatal : state.fatal with
  | some kept =>
    rw [ParserState.coming, buffer, fatal] at coming
    obtain rfl : kept = error := LexItem.error.inj (List.cons.inj coming).1
    refine ⟨state, ?_, .refl, rfl⟩
    rw [fill, if_neg (by simp [buffer]), draw]
    simp only [fatal]
  | none =>
    have found : state.lexer.items state.cancelled = .error error :: items := by
      rw [ParserState.coming, buffer, fatal] at coming
      exact coming
    obtain ⟨lexer, next, rest⟩ := exists_next?_of_items found
    refine ⟨{ state with lexer, fatal := some error }, ?_, .single (.fatal fatal next isFatal), rfl⟩
    rw [fill, if_neg (by simp [buffer]), draw]
    simp only [fatal, buffer]
    rw [if_neg (by simp), next]
    dsimp only
    rw [if_pos isFatal, draw]

end ParserState

theorem ParserState.coming_of_buffer {state : ParserState} {token : Token} {others : List Token}
    (buffer : state.buffer = token :: others) : ∃ items, state.coming = .token token :: items := by
  rw [ParserState.coming, buffer]
  exact ⟨_, rfl⟩

/-- What is to come behind a token. -/
theorem ParserState.coming_afterToken {state : ParserState} {token : Token} {others : List Token}
    {items : List LexItem} (buffer : state.buffer = token :: others)
    (coming : state.coming = .token token :: items) :
    (state.afterToken token others).coming =
      if token.kind = .endOfInput then state.coming else items := by
  unfold afterToken
  split
  next => rfl
  next =>
    rw [ParserState.coming, buffer] at coming
    exact (List.cons.inj coming).2

/-! ## What corresponds -/

namespace Kind

/-- Kinds of tokens behind which the text of a string comes. -/
def opensText : Kind → Bool
  | .stringStart | .interpolationEnd => true
  | _ => false

end Kind

/-- Two texts to be read side by side, and what of them corresponds. -/
structure Tandem where
  left : Input
  right : Input
  spans : Span → Span → Prop
  tells : Diagnostic → Diagnostic → Prop
  /-- Tokens that correspond are written alike. -/
  spelled : Prop
  /-- The errors of the lexers stand at the same places among the tokens. -/
  inStep : Prop
  /-- The names of types are known for the left text only. -/
  hinted : Bool
  join : ∀ {first second first' second' : Span}, spans first first' → spans second second' →
    spans (first.join second) (first'.join second')
  syntactic : ∀ {message message' : String} {span span' : Span},
    (spelled → message' = message) → spans span span' →
      tells ⟨.syntactic, .error, message, span⟩ ⟨.syntactic, .error, message', span'⟩
  types : ∀ name, right.settings.isTypeName name = (!hinted && left.settings.isTypeName name)
  lineBreaks : right.endsInLineBreak = left.endsInLineBreak

namespace Tandem

variable (pair : Tandem)

/-- Tokens that correspond. -/
structure Counterparts (first second : Token) : Prop where
  kind : second.kind = first.kind
  name : first.kind = .identifier → second.text = first.text
  text : pair.spelled → second.text = first.text
  span : pair.spans first.span second.span

/-- Nothing but text of a string comes, and errors. -/
def OnlyText (items : List LexItem) : Prop :=
  ∀ token, .token token ∈ items → ∃ text, token.kind = .stringFragment text

/-- Both texts end within a string, with the same errors in it. -/
structure Doomed (lefts rights : List LexItem) : Prop where
  left : OnlyText lefts
  right : OnlyText rights
  errors : List.Forall₂ pair.tells (LexItem.diagnostics lefts) (LexItem.diagnostics rights)

/-- Items to come that correspond. -/
inductive Items : List LexItem → List LexItem → Prop
  | nil : Items [] []
  | token {first second : Token} {lefts rights : List LexItem}
    (counterparts : pair.Counterparts first second) (items : Items lefts rights) :
    Items (.token first :: lefts) (.token second :: rights)
  | error {error error' : LexError} {lefts rights : List LexItem}
    (tells : pair.tells error.toDiagnostic error'.toDiagnostic)
    (isFatal : error'.isFatal = error.isFatal) (items : Items lefts rights) :
    Items (.error error :: lefts) (.error error' :: rights)
  | leftError {error : LexError} {lefts rights : List LexItem} (apart : ¬ pair.inStep)
    (harmless : error.isFatal = false) (items : Items lefts rights) :
    Items (.error error :: lefts) rights
  | rightError {error : LexError} {lefts rights : List LexItem} (apart : ¬ pair.inStep)
    (harmless : error.isFatal = false) (items : Items lefts rights) :
    Items lefts (.error error :: rights)
  | doomed {first second : Token} {lefts rights : List LexItem}
    (counterparts : pair.Counterparts first second) (opens : first.kind.opensText = true)
    (doomed : pair.Doomed lefts rights) : Items (.token first :: lefts) (.token second :: rights)

/-- Errors of two readings that say the same. -/
def Told (error error' : SyntaxError) : Prop :=
  pair.tells error.toDiagnostic error'.toDiagnostic

/-- What two readings have said so far. -/
structure Spoken (left right : ParserState) : Prop where
  failures : List.Forall₂ pair.Told left.failures right.failures
  reported : pair.inStep → List.Forall₂ pair.tells left.reported right.reported

/-- Two readings that have come as far as each other. -/
structure Beside (left right : ParserState) : Prop where
  visitedLeft : Visited pair.left left
  visitedRight : Visited pair.right right
  items : pair.Items left.coming right.coming
  depth : right.depth = left.depth
  taken : pair.left.tokens.length + right.ahead.length =
    pair.right.tokens.length + left.ahead.length
  spoken : pair.Spoken left right

/-- Two readings in a string that neither text ends. -/
structure Sunk (left right : ParserState) : Prop where
  visitedLeft : Visited pair.left left
  visitedRight : Visited pair.right right
  doomed : pair.Doomed left.coming right.coming
  spoken : pair.Spoken left right

/-- Two readings that are as far as each other, or within a string that neither text ends. -/
def Trails (left right : ParserState) : Prop :=
  pair.Beside left right ∨ pair.Sunk left right

/-- What two readings have said once they end in an error. -/
structure Over (error : SyntaxError) (left : ParserState) (error' : SyntaxError)
    (right : ParserState) : Prop where
  failures : List.Forall₂ pair.Told left.failures right.failures
  reported : pair.inStep → List.Forall₂ pair.tells (left.reported ++ [error.toDiagnostic])
    (right.reported ++ [error'.toDiagnostic])

variable {α β : Type}

/-- Two readings come to the same, if both have enough fuel. -/
inductive Meets (post : α → ParserState → α → ParserState → Prop) :
    EStateM.Result Abort ParserState α → EStateM.Result Abort ParserState α → Prop
  | ok {value other : α} {left right : ParserState} (holds : post value left other right) :
    Meets post (.ok value left) (.ok other right)
  | recoverable {error error' : SyntaxError} {left right : ParserState}
    (trails : pair.Trails left right) (told : pair.Told error error') :
    Meets post (.error (.recoverable error) left) (.error (.recoverable error') right)
  | failure {error error' : SyntaxError} {left right : ParserState}
    (lost : pair.Over error left error' right) :
    Meets post (.error (.failure error) left) (.error (.failure error') right)
  | exhaustedLeft {left : ParserState} {result : EStateM.Result Abort ParserState α} :
    Meets post (.error .exhausted left) result
  | exhaustedRight {right : ParserState} {result : EStateM.Result Abort ParserState α} :
    Meets post result (.error .exhausted right)

/-- Two parsers come to the same from two states. -/
def Meet (post : α → ParserState → α → ParserState → Prop) (parser : Parser α)
    (left : ParserState) (parser' : Parser α) (right : ParserState) : Prop :=
  pair.Meets post (parser left) (parser' right)

variable {pair} {left right : ParserState} {parser parser' : Parser α} {next next' : α → Parser β}
  {middle : α → ParserState → α → ParserState → Prop}
  {post : β → ParserState → β → ParserState → Prop}

theorem join_congr {first second first' second' : Span} (same : first = first')
    (same' : second = second') : first.join second = first'.join second' := by
  rw [same, same']

theorem syntactic_congr {message message' : String} {span span' : Span}
    (same : True → message' = message) (same' : span = span') :
    (⟨.syntactic, .error, message, span⟩ : Diagnostic) = ⟨.syntactic, .error, message', span'⟩ := by
  rw [same trivial, same']

/-- Items correspond to themselves if all spans and diagnostics do. -/
theorem Items.refl (spans : ∀ span, pair.spans span span)
    (tells : ∀ diagnostic, pair.tells diagnostic diagnostic) (items : List LexItem) :
    pair.Items items items := by
  induction items with
  | nil => exact .nil
  | cons item items inductionHypothesis =>
    cases item with
    | token token => exact .token ⟨rfl, fun _ => rfl, fun _ => rfl, spans _⟩ inductionHypothesis
    | error error => exact .error (tells _) rfl inductionHypothesis

/-! ## Composition -/

theorem meet_pure {value other : α} (holds : middle value left other right) :
    pair.Meet middle (pure value) left (pure other) right :=
  .ok holds

namespace Meet

/-- One reading after another, with what the first one came to. -/
theorem bindWith (first : pair.Meet middle parser left parser' right)
    (later : ∀ value after other after', parser left = .ok value after →
      parser' right = .ok other after' → middle value after other after' →
      pair.Meet post (next value) after (next' other) after') :
    pair.Meet post (parser >>= next) left (parser' >>= next') right := by
  unfold Meet at first ⊢
  generalize result : parser left = leftResult at first
  generalize result' : parser' right = rightResult at first
  cases first with
  | ok holds =>
    rw [bind_ok result, bind_ok result']
    exact later _ _ _ _ result result' holds
  | recoverable trails told =>
    rw [bind_error result, bind_error result']
    exact .recoverable trails told
  | failure lost =>
    rw [bind_error result, bind_error result']
    exact .failure lost
  | exhaustedLeft =>
    rw [bind_error result]
    exact .exhaustedLeft
  | exhaustedRight =>
    rw [bind_error result']
    exact .exhaustedRight

theorem bind (first : pair.Meet middle parser left parser' right)
    (later : ∀ value after other after', middle value after other after' →
      pair.Meet post (next value) after (next' other) after') :
    pair.Meet post (parser >>= next) left (parser' >>= next') right :=
  first.bindWith fun value after other after' _ _ => later value after other after'

theorem mono {weaker : α → ParserState → α → ParserState → Prop}
    (first : pair.Meet middle parser left parser' right)
    (weaken : ∀ value after other after', middle value after other after' →
      weaker value after other after') : pair.Meet weaker parser left parser' right := by
  unfold Meet at first ⊢
  generalize parser left = leftResult at first
  generalize parser' right = rightResult at first
  cases first with
  | ok holds => exact .ok (weaken _ _ _ _ holds)
  | recoverable trails told => exact .recoverable trails told
  | failure lost => exact .failure lost
  | exhaustedLeft => exact .exhaustedLeft
  | exhaustedRight => exact .exhaustedRight

theorem discard {weaker : ParserState → ParserState → Prop}
    (first : pair.Meet middle parser left parser' right)
    (weaken : ∀ value after other after', middle value after other after' →
      weaker after after') :
    pair.Meet (fun _ after _ after' => weaker after after') (Functor.discard parser) left
      (Functor.discard parser') right :=
  first.bind fun value after other after' holds =>
    meet_pure (weaken value after other after' holds)

theorem get {next next' : ParserState → Parser β}
    (later : pair.Meet post (next left) left (next' right) right) :
    pair.Meet post (MonadState.get >>= next) left (MonadState.get >>= next') right :=
  later

theorem fueled {parser parser' : Nat → Parser α}
    (inner : pair.Meet middle (parser left.fuel) left (parser' right.fuel) right) :
    pair.Meet middle (Parser.fueled parser) left (Parser.fueled parser') right :=
  inner

end Meet

/-! ## States -/

/-- The next tokens of two readings, which are buffered and correspond. -/
structure Sight (pair : Tandem) (left right : ParserState) (first second : Token) : Prop where
  counterparts : pair.Counterparts first second
  buffer : ∃ others, left.buffer = first :: others
  buffer' : ∃ others, right.buffer = second :: others

theorem Spoken.of_same {after after' : ParserState} (spoken : pair.Spoken left right)
    (failures : after.failures = left.failures) (failures' : after'.failures = right.failures)
    (reported : after.reported = left.reported) (reported' : after'.reported = right.reported) :
    pair.Spoken after after' :=
  ⟨failures ▸ failures' ▸ spoken.failures, reported ▸ reported' ▸ spoken.reported⟩

namespace Beside

/-- Two readings are as far as each other wherever items are drawn up to. -/
theorem fills {after after' : ParserState} (beside : pair.Beside left right)
    (fills : Fills left after) (fills' : Fills right after')
    (items : pair.Items after.coming after'.coming)
    (reported : pair.inStep → List.Forall₂ pair.tells after.reported after'.reported) :
    pair.Beside after after' where
  visitedLeft := beside.visitedLeft.fills fills
  visitedRight := beside.visitedRight.fills fills'
  items := items
  depth := by rw [fills.unchanged.1, fills'.unchanged.1, beside.depth]
  taken := by rw [fills.ahead_eq, fills'.ahead_eq, beside.taken]
  spoken := ⟨fills.unchanged.2 ▸ fills'.unchanged.2 ▸ beside.spoken.failures, reported⟩

theorem named (beside : pair.Beside left right) (names names' : List NonTerminal) :
    pair.Beside { left with nonTerminals := names } { right with nonTerminals := names' } :=
  ⟨beside.visitedLeft.names names, beside.visitedRight.names names', beside.items, beside.depth,
    beside.taken, beside.spoken.of_same rfl rfl rfl rfl⟩

end Beside

theorem Sunk.named (sunk : pair.Sunk left right) (names names' : List NonTerminal) :
    pair.Sunk { left with nonTerminals := names } { right with nonTerminals := names' } :=
  ⟨sunk.visitedLeft.names names, sunk.visitedRight.names names', sunk.doomed,
    sunk.spoken.of_same rfl rfl rfl rfl⟩

theorem Trails.named (trails : pair.Trails left right) (names names' : List NonTerminal) :
    pair.Trails { left with nonTerminals := names } { right with nonTerminals := names' } :=
  trails.imp (·.named names names') (·.named names names')

theorem Sight.named {first second : Token} (sight : pair.Sight left right first second)
    (names names' : List NonTerminal) :
    pair.Sight { left with nonTerminals := names } { right with nonTerminals := names' } first
      second :=
  ⟨sight.counterparts, sight.buffer, sight.buffer'⟩

/-- What is read by name is read as without one. -/
theorem meet_within {nonTerminal : NonTerminal}
    (unnamed : ∀ value after other after' names names', middle value after other after' →
      middle value { after with nonTerminals := names } other
        { after' with nonTerminals := names' })
    (inner : pair.Meet middle
      parser { left with nonTerminals := nonTerminal :: left.nonTerminals }
      parser' { right with nonTerminals := nonTerminal :: right.nonTerminals }) :
    pair.Meet middle (within nonTerminal parser) left (within nonTerminal parser') right := by
  unfold Meet at inner ⊢
  unfold within
  generalize parser { left with nonTerminals := nonTerminal :: left.nonTerminals } = result
    at inner
  generalize parser' { right with nonTerminals := nonTerminal :: right.nonTerminals } = result'
    at inner
  cases inner with
  | ok holds => exact .ok (unnamed _ _ _ _ _ _ holds)
  | recoverable trails told => exact .recoverable (trails.named _ _) told
  | failure lost => exact .failure ⟨lost.failures, lost.reported⟩
  | exhaustedLeft => exact .exhaustedLeft
  | exhaustedRight => exact .exhaustedRight

/-! ## Tokens -/

/-- Where two readings are once the next tokens were looked at. -/
structure Looked (pair : Tandem) (left right : ParserState) (first second : Token)
    (after after' : ParserState) : Prop where
  beside : pair.Beside after after'
  sight : pair.Sight after after' first second
  ahead : after.ahead = left.ahead
  ahead' : after'.ahead = right.ahead

theorem Looked.of_items {first second : Token} {lefts rights : List LexItem}
    (beside : pair.Beside left right) (counterparts : pair.Counterparts first second)
    (coming : left.coming = .token first :: lefts)
    (coming' : right.coming = .token second :: rights) :
    ∃ after after', fill 1 left = .ok () after ∧ fill 1 right = .ok () after' ∧
      pair.Looked left right first second after after' := by
  obtain ⟨after, others, result, fills, buffer, same, reported⟩ := fill_of_token coming
  obtain ⟨after', others', result', fills', buffer', same', reported'⟩ := fill_of_token coming'
  have items : pair.Items after.coming after'.coming := same ▸ same' ▸ beside.items
  refine ⟨after, after', result, result', beside.fills fills fills' items ?_,
    ⟨counterparts, ⟨others, buffer⟩, others', buffer'⟩, fills.ahead_eq, fills'.ahead_eq⟩
  rw [reported, reported']
  exact beside.spoken.reported

/-- What is looked at after items were drawn is what is looked at before. -/
theorem Looked.of_fills {first second : Token} {drawn drawn' after after' : ParserState}
    (looked : pair.Looked drawn drawn' first second after after') (fills : Fills left drawn)
    (fills' : Fills right drawn') : pair.Looked left right first second after after' :=
  ⟨looked.beside, looked.sight, looked.ahead.trans fills.ahead_eq,
    looked.ahead'.trans fills'.ahead_eq⟩

/-- Filling the buffers leads to tokens that correspond, or to fatal errors that say the same. -/
theorem meet_fill (beside : pair.Beside left right) :
    pair.Meet (fun _ after _ after' =>
      ∃ first second, pair.Looked left right first second after after')
      (fill 1) left (fill 1) right := by
  have items := beside.items
  generalize coming : left.coming = lefts at items
  generalize coming' : right.coming = rights at items
  unfold Meet
  induction items generalizing left right with
  | nil =>
    obtain ⟨before, last, whole, _⟩ := beside.visitedLeft.ready.terminated
    rw [coming] at whole
    exact absurd whole.symm (List.append_ne_nil_of_right_ne_nil _ (List.cons_ne_nil _ _))
  | token counterparts =>
    obtain ⟨after, after', result, result', looked⟩ :=
      Looked.of_items beside counterparts coming coming'
    rw [result, result']
    exact .ok ⟨_, _, looked⟩
  | doomed counterparts =>
    obtain ⟨after, after', result, result', looked⟩ :=
      Looked.of_items beside counterparts coming coming'
    rw [result, result']
    exact .ok ⟨_, _, looked⟩
  | @error error error' _ _ tells isFatal items inductionHypothesis =>
    cases ends : error.isFatal with
    | true =>
      obtain ⟨after, result, fills, reported⟩ := fill_of_fatal ends coming
      obtain ⟨after', result', fills', reported'⟩ := fill_of_fatal (isFatal.trans ends) coming'
      rw [result, result']
      refine .failure ⟨fills.unchanged.2 ▸ fills'.unchanged.2 ▸ beside.spoken.failures, ?_⟩
      intro inStep
      rw [reported, reported']
      exact List.rel_append (beside.spoken.reported inStep) (.cons tells .nil)
    | false =>
      obtain ⟨drawn, result, draws, rest, reported⟩ :=
        fill_of_error beside.visitedLeft.ready ends coming
      obtain ⟨drawn', result', draws', rest', reported'⟩ :=
        fill_of_error beside.visitedRight.ready (isFatal.trans ends) coming'
      have later : pair.Beside drawn drawn' := by
        refine beside.fills (.single draws) (.single draws') (rest ▸ rest' ▸ items) ?_
        intro inStep
        rw [reported, reported']
        exact List.rel_append (beside.spoken.reported inStep) (.cons tells .nil)
      rw [result, result']
      exact Meet.mono (inductionHypothesis later rest rest') fun _ _ _ _ ⟨first, second, looked⟩ =>
        ⟨first, second, looked.of_fills (.single draws) (.single draws')⟩
  | leftError apart harmless items inductionHypothesis =>
    obtain ⟨drawn, result, draws, rest, reported⟩ :=
      fill_of_error beside.visitedLeft.ready harmless coming
    have later : pair.Beside drawn right :=
      beside.fills (.single draws) .refl (rest ▸ coming' ▸ items) fun inStep => absurd inStep apart
    rw [result]
    exact Meet.mono (inductionHypothesis later rest coming') fun _ _ _ _ ⟨first, second, looked⟩ =>
      ⟨first, second, looked.of_fills (.single draws) .refl⟩
  | rightError apart harmless items inductionHypothesis =>
    obtain ⟨drawn, result, draws, rest, reported⟩ :=
      fill_of_error beside.visitedRight.ready harmless coming'
    have later : pair.Beside left drawn :=
      beside.fills .refl (.single draws) (rest ▸ coming ▸ items) fun inStep => absurd inStep apart
    rw [result]
    exact Meet.mono (inductionHypothesis later coming rest) fun _ _ _ _ ⟨first, second, looked⟩ =>
      ⟨first, second, looked.of_fills .refl (.single draws)⟩

theorem meet_peek (beside : pair.Beside left right) :
    pair.Meet (fun first after second after' => pair.Looked left right first second after after')
      peek left peek right := by
  rw [peek, peekAhead]
  refine (meet_fill beside).bind ?_
  rintro _ after _ after' ⟨first, second, looked⟩
  obtain ⟨others, buffer⟩ := looked.sight.buffer
  obtain ⟨others', buffer'⟩ := looked.sight.buffer'
  refine Meet.get ?_
  simp only [Nat.zero_min, buffer, buffer', List.getElem?_cons_zero]
  exact meet_pure looked

/-- Where two readings are once tokens were taken that correspond. They may be within a string that
neither text ends, if they are behind where its text starts. -/
structure Took (pair : Tandem) (left right : ParserState) (first second : Token)
    (after after' : ParserState) : Prop where
  counterparts : pair.Counterparts first second
  trails : pair.Trails after after'
  beside : first.kind.opensText = false → pair.Beside after after'
  ahead : first.kind ≠ .endOfInput → left.ahead = first :: after.ahead
  ahead' : first.kind ≠ .endOfInput → right.ahead = second :: after'.ahead

theorem Sight.took {first second : Token} (sight : pair.Sight left right first second)
    (beside : pair.Beside left right) {others others' : List Token}
    (buffer : left.buffer = first :: others) (buffer' : right.buffer = second :: others') :
    pair.Took left right first second (left.afterToken first others)
      (right.afterToken second others') := by
  have visitedLeft := beside.visitedLeft.takes buffer
  have visitedRight := beside.visitedRight.takes buffer'
  have same := sight.counterparts.kind
  have spoken : pair.Spoken (left.afterToken first others) (right.afterToken second others') :=
    beside.spoken.of_same rfl rfl rfl rfl
  have depth : (right.afterToken second others').depth = (left.afterToken first others).depth := by
    rw [afterToken, afterToken, same, beside.depth]
  obtain ⟨rest, ahead⟩ := ahead_of_buffer buffer
  obtain ⟨rest', ahead'⟩ := ahead_of_buffer buffer'
  have aheadAfter := ahead_afterToken buffer ahead
  have aheadAfter' := ahead_afterToken buffer' ahead'
  obtain ⟨lefts, coming⟩ := coming_of_buffer buffer
  obtain ⟨rights, coming'⟩ := coming_of_buffer buffer'
  have comingAfter := coming_afterToken buffer coming
  have comingAfter' := coming_afterToken buffer' coming'
  have taken := beside.taken
  rw [ahead, ahead', List.length_cons, List.length_cons] at taken
  rw [same] at aheadAfter' comingAfter'
  by_cases isEnd : first.kind = .endOfInput
  · rw [if_pos isEnd] at aheadAfter aheadAfter' comingAfter comingAfter'
    have after : pair.Beside (left.afterToken first others) (right.afterToken second others') :=
      ⟨visitedLeft, visitedRight, comingAfter ▸ comingAfter' ▸ beside.items, depth, by
        rw [aheadAfter, aheadAfter', List.length_cons, List.length_cons]
        exact taken, spoken⟩
    exact ⟨sight.counterparts, Or.inl after, fun _ => after, absurd isEnd, absurd isEnd⟩
  · rw [if_neg isEnd] at aheadAfter aheadAfter' comingAfter comingAfter'
    have items := beside.items
    rw [coming, coming'] at items
    refine ⟨sight.counterparts, ?_, ?_, fun _ => aheadAfter ▸ ahead, fun _ => aheadAfter' ▸ ahead'⟩
    · cases items with
      | token _ items =>
        refine Or.inl ⟨visitedLeft, visitedRight, comingAfter ▸ comingAfter' ▸ items, depth, ?_,
          spoken⟩
        rw [aheadAfter, aheadAfter']
        omega
      | doomed _ _ doomed =>
        exact Or.inr ⟨visitedLeft, visitedRight, comingAfter ▸ comingAfter' ▸ doomed, spoken⟩
    · intro plain
      cases items with
      | token _ items =>
        refine ⟨visitedLeft, visitedRight, comingAfter ▸ comingAfter' ▸ items, depth, ?_, spoken⟩
        rw [aheadAfter, aheadAfter']
        omega
      | doomed _ opens =>
        rw [plain] at opens
        contradiction

theorem meet_consume (beside : pair.Beside left right) :
    pair.Meet (fun first after second after' => pair.Took left right first second after after')
      consume left consume right := by
  rw [consume]
  refine (meet_fill beside).bind ?_
  rintro _ middle _ middle' ⟨first, second, looked⟩
  obtain ⟨others, buffer⟩ := looked.sight.buffer
  obtain ⟨others', buffer'⟩ := looked.sight.buffer'
  have took := looked.sight.took looked.beside buffer buffer'
  refine Meet.get ?_
  simp only [buffer, buffer']
  exact .ok ⟨took.counterparts, took.trails, took.beside,
    fun notEnd => looked.ahead.symm.trans (took.ahead notEnd),
    fun notEnd => looked.ahead'.symm.trans (took.ahead' notEnd)⟩

/-- Taking tokens that were looked at. -/
theorem Sight.consume {first second : Token} (sight : pair.Sight left right first second)
    (beside : pair.Beside left right) :
    pair.Meet (fun token after token' after' => token = first ∧ token' = second ∧
        pair.Took left right first second after after')
      consume left consume right := by
  obtain ⟨others, buffer⟩ := sight.buffer
  obtain ⟨others', buffer'⟩ := sight.buffer'
  rw [Meet, consume_of_buffer buffer, consume_of_buffer buffer']
  exact .ok ⟨rfl, rfl, sight.took beside buffer buffer'⟩

theorem Looked.kind {first second : Token} {after after' : ParserState}
    (looked : pair.Looked left right first second after after') : second.kind = first.kind :=
  looked.sight.counterparts.kind

theorem meet_peekKind (beside : pair.Beside left right) :
    pair.Meet (fun kind after kind' after' => kind' = kind ∧
        ∃ first second, first.kind = kind ∧ pair.Looked left right first second after after')
      peekKind left peekKind right :=
  (meet_peek beside).bind fun first _ second _ looked =>
    meet_pure ⟨looked.kind, first, second, rfl, looked⟩

theorem meet_check (wanted : Kind) (beside : pair.Beside left right) :
    pair.Meet (fun found after found' after' => found' = found ∧
        ∃ first second, found = decide (first.kind = wanted) ∧
          pair.Looked left right first second after after')
      (check wanted) left (check wanted) right :=
  (meet_peek beside).bind fun first _ second _ looked =>
    meet_pure ⟨by rw [looked.kind], first, second, rfl, looked⟩

/-- What taking tokens of a kind, if they are next, comes to. -/
inductive TookIf (pair : Tandem) (wanted : Kind) (left right : ParserState) :
    Option Token → ParserState → Option Token → ParserState → Prop
  | none {first second : Token} {after after' : ParserState} (other : first.kind ≠ wanted)
    (looked : pair.Looked left right first second after after') :
    TookIf pair wanted left right none after none after'
  | some {first second : Token} {after after' : ParserState} (found : first.kind = wanted)
    (took : pair.Took left right first second after after') :
    TookIf pair wanted left right (some first) after (some second) after'

theorem Took.of_looked {first second : Token} {middle middle' after after' : ParserState}
    (took : pair.Took middle middle' first second after after')
    (looked : pair.Looked left right first second middle middle') :
    pair.Took left right first second after after' :=
  ⟨took.counterparts, took.trails, took.beside,
    fun notEnd => looked.ahead.symm.trans (took.ahead notEnd),
    fun notEnd => looked.ahead'.symm.trans (took.ahead' notEnd)⟩

theorem meet_consumeKind (wanted : Kind) (beside : pair.Beside left right) :
    pair.Meet (pair.TookIf wanted left right) (consumeKind wanted) left (consumeKind wanted)
      right := by
  rw [consumeKind, consumeIf]
  refine (meet_peek beside).bind ?_
  rintro first _ second _ looked
  rw [looked.kind]
  split
  next isWanted =>
    refine (looked.sight.consume looked.beside).bind ?_
    rintro _ _ _ _ ⟨rfl, rfl, took⟩
    exact meet_pure (.some (of_decide_eq_true isWanted) (took.of_looked looked))
  next isOther =>
    exact meet_pure (.none (by simpa using isOther) looked)

/-! ## Errors -/

theorem meet_failAt {span span' : Span} {fault fault' : SyntaxFault}
    (lexical : ∀ error, fault ≠ .lexical error) (lexical' : ∀ error, fault' ≠ .lexical error)
    (message : pair.spelled → fault'.message = fault.message) (spans : pair.spans span span')
    (trails : pair.Trails left right) :
    pair.Meet middle (failAt span fault) left (failAt span' fault') right := by
  refine .recoverable trails ?_
  have told := pair.syntactic message spans
  unfold Told SyntaxError.toDiagnostic SyntaxError.lexError? SyntaxError.message
  cases fault with
  | lexical error => exact absurd rfl (lexical error)
  | _ =>
    cases fault' with
    | lexical error => exact absurd rfl (lexical' error)
    | _ => exact told

theorem meet_unexpected {first second : Token} {span span' : Span}
    {expectations : List Expectation} (counterparts : pair.Counterparts first second)
    (spans : pair.spans span span') (trails : pair.Trails left right) :
    pair.Meet middle (unexpected span first expectations) left
      (unexpected span' second expectations) right :=
  meet_failAt (fun _ => SyntaxFault.noConfusion) (fun _ => SyntaxFault.noConfusion)
    (fun spelled => by rw [counterparts.kind, counterparts.text spelled]) spans trails

theorem Looked.meet_unexpected {first second : Token} {after after' : ParserState}
    {expectations : List Expectation} (looked : pair.Looked left right first second after after') :
    pair.Meet middle (unexpected first.span first expectations) after
      (unexpected second.span second expectations) after' :=
  Tandem.meet_unexpected looked.sight.counterparts looked.sight.counterparts.span (.inl looked.beside)

theorem Sight.here {first second : Token} (sight : pair.Sight left right first second) :
    left.here = first.span ∧ right.here = second.span := by
  obtain ⟨_, buffer⟩ := sight.buffer
  obtain ⟨_, buffer'⟩ := sight.buffer'
  rw [ParserState.here, ParserState.here, buffer, buffer']
  exact ⟨rfl, rfl⟩

theorem meet_expect (wanted : Kind) (beside : pair.Beside left right) :
    pair.Meet (fun first after second after' => first.kind = wanted ∧
        pair.Took left right first second after after')
      (expect wanted) left (expect wanted) right := by
  rw [expect]
  refine (meet_peek beside).bind ?_
  rintro first _ second _ looked
  rw [looked.kind]
  split
  next isWanted =>
    refine (looked.sight.consume looked.beside).mono ?_
    rintro _ _ _ _ ⟨rfl, rfl, took⟩
    exact ⟨isWanted, took.of_looked looked⟩
  next =>
    refine Meet.get ?_
    rw [looked.sight.here.1, looked.sight.here.2]
    exact looked.meet_unexpected

/-- Tokens of a kind behind which no string starts. -/
theorem meet_expect_code {wanted : Kind} (plain : wanted.opensText = false)
    (beside : pair.Beside left right) :
    pair.Meet (fun first after second after' => first.kind = wanted ∧
        pair.Counterparts first second ∧ pair.Beside after after')
      (expect wanted) left (expect wanted) right :=
  (meet_expect wanted beside).mono fun _ _ _ _ ⟨isWanted, took⟩ =>
    ⟨isWanted, took.counterparts, took.beside (isWanted ▸ plain)⟩

theorem Looked.takes {first second : Token} {middle middle' : ParserState}
    (looked : pair.Looked left right first second middle middle')
    (plain : first.kind.opensText = false) :
    pair.Meet (fun token after token' after' => token = first ∧ token' = second ∧
        pair.Beside after after')
      consume middle consume middle' :=
  (looked.sight.consume looked.beside).mono fun _ _ _ _ ⟨isFirst, isSecond, took⟩ =>
    ⟨isFirst, isSecond, took.beside plain⟩

theorem Looked.drops {first second : Token} {middle middle' : ParserState}
    (looked : pair.Looked left right first second middle middle')
    (plain : first.kind.opensText = false) :
    pair.Meet (fun _ after _ after' => pair.Beside after after')
      (Functor.discard consume) middle (Functor.discard consume) middle' :=
  (looked.takes plain).discard fun _ _ _ _ holds => holds.2.2

end Tandem

end Offside
