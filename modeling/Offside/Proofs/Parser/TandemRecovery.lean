import Offside.Proofs.Lexer.SourceOrder
import Offside.Proofs.Parser.Tandem
import Offside.Proofs.Parser.TopLevel

/-!
Going on after errors, in tandem. Two readings pass over the same line breaks and stop at the same
end of a statement that is wrong. Within a string that neither text ends, both end in the error that
ended it.
-/

namespace Offside

open LexStream ParserState Offside.Parser

/-! ## Where statements that are wrong start -/

section

variable {input : Input} {last : Kind} {state looked failed : ParserState} {next : Token} {n : Nat}
  {error : SyntaxError}

/-- No statement of a list starts with a line break. -/
theorem Round.not_newline (round : Round last state next looked) (ready : state.Ready) :
    next.kind ≠ .newline := by
  obtain ⟨middle, passed, peeked⟩ := round.found
  obtain ⟨after, _, ⟨result, token, others, buffer, notLine⟩ | ⟨_, result, _⟩⟩ :=
    removeNewlines_cases ready
  · obtain ⟨-, rfl⟩ := EStateM.Result.ok.inj (passed.symm.trans result)
    obtain ⟨rfl, -⟩ := EStateM.Result.ok.inj (peeked.symm.trans (peek_of_buffer buffer))
    exact notLine
  · rw [passed] at result
    contradiction

/-- A statement that starts with a block is never wrong itself. -/
theorem not_indent_of_fails (visited : Visited input state) {rest : List Token}
    (ahead : state.ahead = next :: rest)
    (fails : attempt (within .statement (Grammar.statement n)) state = .ok (.error error) failed) :
    next.kind ≠ .indent := by
  intro isIndent
  have faces : state.Faces .indent := ⟨next, rest, ahead, isIndent⟩
  have inside : Alike (.single input) true .none state (fun _ _ _ _ => True)
      (within .statement (Grammar.statement n)) state (within .statement (Grammar.statement n))
      state := by
    apply alike_within fun _ _ _ _ _ _ _ => trivial
    apply alike_statement_of_indent
    · exact faces.of_ahead rfl
    · exact visited.alone.named _ _
  unfold attempt at fails
  split at fails
  next => exact nomatch (EStateM.Result.ok.inj fails).1
  next error after result => exact inside.firm_alone result
  next => contradiction

/-- A statement that is wrong starts with a token of text, behind which all tokens start later. -/
theorem Lists.Sound.fails (sound : Lists.Sound input last state)
    (round : Round last state next looked)
    (fails : attempt (within .statement (Grammar.statement n)) looked = .ok (.error error) failed) :
    ∃ rest taken, looked.ahead = next :: rest ∧ looked.ahead = taken ++ failed.ahead ∧
      ∀ token ∈ rest, next.span.first < token.span.first := by
  obtain ⟨lookedSound, rest, ahead⟩ := sound.looks round
  obtain ⟨above, abreast⟩ := lookedSound.attempts fails
  obtain ⟨taken, whole, _⟩ := abreast.rises.taken
  refine ⟨rest, taken, ahead, whole, ?_⟩
  have isText : next.kind.isStructural = false := by
    have notLine := round.not_newline sound.visited.ready
    have notIndent := not_indent_of_fails lookedSound.visited ahead fails
    have notDedent := lookedSound.not_dedent ahead round.notLast
    have notEnd := round.notEnd
    generalize next.kind = kind at notLine notIndent notDedent notEnd
    cases kind <;> first | rfl | contradiction
  have inOrder : InOrder (next :: rest) := by
    rw [← ahead]
    exact (inOrder_ofSource input.settings input.cancelled input.source).of_suffix
      lookedSound.visited.sound.suffix
  exact inOrder.first_lt isText

end

namespace Tandem

variable {pair : Tandem} {left right : ParserState}

/-! ## Line breaks -/

theorem meet_skipNewlines (n m : Nat) (beside : pair.Beside left right) :
    pair.Meet (fun _ after _ after' => pair.Beside after after') (skipNewlines n) left
      (skipNewlines m) right := by
  induction n generalizing m left right with
  | zero => exact .exhaustedLeft
  | succ n inductionHypothesis =>
    cases m with
    | zero => exact .exhaustedRight
    | succ m =>
      rw [skipNewlines, skipNewlines]
      refine (meet_consumeKind .newline beside).bind ?_
      rintro _ _ _ _ (⟨_, looked⟩ | ⟨isLine, took⟩)
      · exact meet_pure looked.beside
      · exact inductionHypothesis m (took.beside (by rw [isLine]; rfl))

theorem meet_removeNewlines (beside : pair.Beside left right) :
    pair.Meet (fun _ after _ after' => pair.Beside after after') removeNewlines left
      removeNewlines right :=
  Meet.fueled (meet_skipNewlines _ _ beside)

/-! ## Within a string that is not ended -/

/-- From one state to a later one nothing but text of a string was taken. -/
structure Drowns (state after : ParserState) : Prop where
  ready : after.Ready
  text : OnlyText after.coming
  failures : after.failures = state.failures
  reported : after.reported ++ LexItem.diagnostics after.coming =
    state.reported ++ LexItem.diagnostics state.coming

namespace Drowns

variable {state middle after : ParserState}

theorem refl (ready : state.Ready) (text : OnlyText state.coming) : Drowns state state :=
  ⟨ready, text, rfl, rfl⟩

theorem trans (later : Drowns middle after) (drowns : Drowns state middle) : Drowns state after :=
  ⟨later.ready, later.text, later.failures.trans drowns.failures,
    later.reported.trans drowns.reported⟩

end Drowns

/-- A reading that ends in the error that ended the text, after all that is wrong in it. -/
structure EndsIn (state : ParserState) (error : SyntaxError) (after : ParserState) : Prop where
  failures : after.failures = state.failures
  reported : after.reported ++ [error.toDiagnostic] =
    state.reported ++ LexItem.diagnostics state.coming

/-- A reading of nothing but text of a string cannot come to anything. -/
def Sinks {α : Type} (state : ParserState) (result : EStateM.Result Abort ParserState α) : Prop :=
  (∃ after, result = .error .exhausted after) ∨
    ∃ error after, result = .error (.failure error) after ∧ EndsIn state error after

section

variable {α β : Type} {state middle : ParserState}

theorem Drowns.sinks (drowns : Drowns state middle) {result : EStateM.Result Abort ParserState α}
    (sinks : Sinks middle result) : Sinks state result := by
  rcases sinks with exhausted | ⟨error, after, isResult, endsIn⟩
  · exact Or.inl exhausted
  · exact Or.inr ⟨error, after, isResult, endsIn.failures.trans drowns.failures,
      endsIn.reported.trans drowns.reported⟩

theorem Sinks.bind {parser : Parser α} {next : α → Parser β} (sinks : Sinks state (parser state)) :
    Sinks state ((parser >>= next) state) := by
  rcases sinks with ⟨after, result⟩ | ⟨error, after, result, endsIn⟩
  · exact Or.inl ⟨after, bind_error result⟩
  · exact Or.inr ⟨error, after, bind_error result, endsIn⟩

theorem Sinks.discard {parser : Parser α} (sinks : Sinks state (parser state)) :
    Sinks state ((Functor.discard parser : Parser Unit) state) :=
  sinks.bind

theorem OnlyText.tail {item : LexItem} {items : List LexItem} (text : OnlyText (item :: items)) :
    OnlyText items :=
  fun token member => text token (List.mem_cons_of_mem _ member)

/-- Filling the buffer within text leads to a piece of it, or to the end. -/
theorem fill_in_text (ready : state.Ready) (text : OnlyText state.coming) :
    Sinks state (fill 1 state) ∨ ∃ after token others fragment, fill 1 state = .ok () after ∧
      after.buffer = token :: others ∧ token.kind = .stringFragment fragment ∧
        Drowns state after := by
  generalize coming : state.coming = items at text
  induction items generalizing state with
  | nil =>
    obtain ⟨before, last, whole, _⟩ := ready.terminated
    rw [coming] at whole
    exact absurd whole.symm (List.append_ne_nil_of_right_ne_nil _ (List.cons_ne_nil _ _))
  | cons item items inductionHypothesis =>
    cases item with
    | token token =>
      obtain ⟨fragment, isText⟩ := text token List.mem_cons_self
      obtain ⟨after, others, result, fills, buffer, same, reported⟩ := fill_of_token coming
      refine Or.inr ⟨after, token, others, fragment, result, buffer, isText, fills.ready ready, ?_,
        fills.unchanged.2, ?_⟩
      · rw [same, coming]
        exact text
      · rw [same, reported]
    | error error =>
      cases ends : error.isFatal with
      | true =>
        obtain ⟨after, result, fills, reported⟩ := fill_of_fatal ends coming
        refine Or.inl (Or.inr ⟨_, after, result, fills.unchanged.2, ?_⟩)
        have nothing : items = [] := by
          have terminated := ready.terminated
          rw [coming] at terminated
          exact terminated.eq_nil_of_isTerminal ends
        rw [reported, coming, nothing]
        rfl
      | false =>
        obtain ⟨drawn, result, draws, rest, reported⟩ := fill_of_error ready ends coming
        have fills : Fills state drawn := .single draws
        have drowns : Drowns state drawn := by
          refine ⟨draws.ready ready, rest ▸ text.tail, fills.unchanged.2, ?_⟩
          rw [reported, rest, coming, LexItem.diagnostics_error, List.append_assoc]
          rfl
        rw [result]
        rcases inductionHypothesis (draws.ready ready) rest text.tail with
          sinks | ⟨after, token, others, fragment, filled, buffer, isText, later⟩
        · exact Or.inl (drowns.sinks sinks)
        · exact Or.inr ⟨after, token, others, fragment, filled, buffer, isText,
            later.trans drowns⟩

theorem Drowns.takes {token : Token} {others : List Token} {fragment : String}
    (drowns : Drowns state middle) (buffer : middle.buffer = token :: others)
    (isText : token.kind = .stringFragment fragment) :
    Drowns state (middle.afterToken token others) := by
  obtain ⟨items, coming⟩ := coming_of_buffer buffer
  have after := coming_afterToken buffer coming
  rw [if_neg (by rw [isText]; exact Kind.noConfusion)] at after
  have text := drowns.text
  have reported := drowns.reported
  rw [coming] at text reported
  exact ⟨drowns.ready.afterToken buffer, after ▸ text.tail, drowns.failures, after ▸ reported⟩

theorem peek_in_text (ready : state.Ready) (text : OnlyText state.coming) :
    Sinks state (peek state) ∨ ∃ after token others fragment, peek state = .ok token after ∧
      after.buffer = token :: others ∧ token.kind = .stringFragment fragment ∧
        Drowns state after := by
  rcases fill_in_text ready text with
    sinks | ⟨after, token, others, fragment, filled, buffer, isText, drowns⟩
  · exact Or.inl sinks.bind
  · refine Or.inr ⟨after, token, others, fragment, ?_, buffer, isText, drowns⟩
    rw [peek, peekAhead, bind_ok filled, bind_get]
    simp only [Nat.zero_min, buffer, List.getElem?_cons_zero]
    rfl

theorem consume_in_text (ready : state.Ready) (text : OnlyText state.coming) :
    Sinks state (consume state) ∨ ∃ after token fragment, consume state = .ok token after ∧
      token.kind = .stringFragment fragment ∧ Drowns state after := by
  rcases fill_in_text ready text with
    sinks | ⟨after, token, others, fragment, filled, buffer, isText, drowns⟩
  · exact Or.inl sinks.bind
  · refine Or.inr ⟨_, token, fragment, ?_, isText, drowns.takes buffer isText⟩
    rw [consume, bind_ok filled, bind_get]
    simp only [buffer]
    rfl

theorem stringParts_in_text (n : Nat) (ready : state.Ready) (text : OnlyText state.coming) :
    Sinks state (Grammar.stringParts n state) := by
  induction n generalizing state with
  | zero => exact Or.inl ⟨state, by rw [Grammar.stringParts]; rfl⟩
  | succ n inductionHypothesis =>
    rw [Grammar.stringParts]
    rcases consume_in_text ready text with sinks | ⟨after, token, fragment, taken, isText, drowns⟩
    · exact sinks.bind
    · rw [bind_ok taken, isText]
      exact drowns.sinks (inductionHypothesis drowns.ready drowns.text).bind

theorem skipTokens_in_text (depth : Nat) (start : Position) (n : Nat) (ready : state.Ready)
    (text : OnlyText state.coming) : Sinks state (skipTokens depth start n state) := by
  induction n generalizing state with
  | zero => exact Or.inl ⟨state, rfl⟩
  | succ n inductionHypothesis =>
    rw [skipTokens, bind_get]
    rcases peek_in_text ready text with
      sinks | ⟨after, token, others, fragment, seen, buffer, isText, drowns⟩
    · exact sinks.bind
    · have goesOn := inductionHypothesis (drowns.takes buffer isText).ready
        (drowns.takes buffer isText).text
      rw [bind_ok seen]
      simp only [isText, Kind.isDeclaration, reduceCtorEq, decide_false, Bool.or_self,
        Bool.and_false, Bool.false_eq_true, if_false]
      rw [bind_ok (consume_of_buffer buffer), bind_get]
      simp only [isText, reduceCtorEq, decide_false, Bool.false_and, Bool.false_eq_true, if_false]
      exact (drowns.takes buffer isText).sinks goesOn

end

/-- Two readings within a string that neither text ends come to the same end. -/
theorem Sunk.meet {α : Type} {post : α → ParserState → α → ParserState → Prop}
    {parser parser' : Parser α} (sunk : pair.Sunk left right) (sinks : Sinks left (parser left))
    (sinks' : Sinks right (parser' right)) : pair.Meet post parser left parser' right := by
  unfold Meet
  rcases sinks with ⟨after, result⟩ | ⟨error, after, result, endsIn⟩
  · rw [result]
    exact .exhaustedLeft
  · rcases sinks' with ⟨after', result'⟩ | ⟨error', after', result', endsIn'⟩
    · rw [result']
      exact .exhaustedRight
    · rw [result, result']
      refine .failure ⟨?_, ?_⟩
      · rw [endsIn.failures, endsIn'.failures]
        exact sunk.spoken.failures
      · intro inStep
        rw [endsIn.reported, endsIn'.reported]
        exact List.rel_append (sunk.spoken.reported inStep) sunk.doomed.errors

theorem Sunk.meet_stringParts {post : List (StringPart Span) × Span → ParserState →
      List (StringPart Span) × Span → ParserState → Prop} (sunk : pair.Sunk left right) (n m : Nat) :
    pair.Meet post (Grammar.stringParts n) left (Grammar.stringParts m) right :=
  sunk.meet (stringParts_in_text n sunk.visitedLeft.ready sunk.doomed.left)
    (stringParts_in_text m sunk.visitedRight.ready sunk.doomed.right)

theorem Sunk.meet_skipTokens {post : Bool → ParserState → Bool → ParserState → Prop}
    (sunk : pair.Sunk left right) (depth : Nat) (start start' : Position) (n m : Nat) :
    pair.Meet post (skipTokens depth start n) left (skipTokens depth start' m) right :=
  sunk.meet (skipTokens_in_text depth start n sunk.visitedLeft.ready sunk.doomed.left)
    (skipTokens_in_text depth start' m sunk.visitedRight.ready sunk.doomed.right)

/-! ## Recovery -/

/-- The tokens ahead of two readings that go on after statements that start where they do: all
start later, but for the first tokens of the statements. -/
inductive Since (start start' : Position) : List Token → List Token → Prop
  | first {first second : Token} {lefts rights : List Token} (starts : first.span.first = start)
    (starts' : second.span.first = start') (later : ∀ token ∈ lefts, start < token.span.first)
    (later' : ∀ token ∈ rights, start' < token.span.first) :
    Since start start' (first :: lefts) (second :: rights)
  | later {lefts rights : List Token} (later : ∀ token ∈ lefts, start < token.span.first)
    (later' : ∀ token ∈ rights, start' < token.span.first) : Since start start' lefts rights

namespace Since

variable {start start' : Position} {first second : Token} {lefts rights : List Token}

theorem tail (since : Since start start' (first :: lefts) (second :: rights)) :
    Since start start' lefts rights := by
  cases since with
  | first _ _ later later' => exact .later later later'
  | later later later' =>
    exact .later (fun token member => later token (List.mem_cons_of_mem _ member))
      fun token member => later' token (List.mem_cons_of_mem _ member)

/-- Both next tokens are behind the starts, or neither is. -/
theorem advanced (since : Since start start' (first :: lefts) (second :: rights)) :
    decide (start' < second.span.first) = decide (start < first.span.first) := by
  cases since with
  | first starts starts' =>
    rw [starts, starts', decide_eq_false (fun less => less (Position.le_refl _)),
      decide_eq_false (fun less => less (Position.le_refl _))]
  | later later later' =>
    rw [decide_eq_true (later first List.mem_cons_self),
      decide_eq_true (later' second List.mem_cons_self)]

end Since

/-- Two readings that took equally many tokens of statements that are wrong. -/
theorem Since.of_taken {first second : Token} {looked looked' failed failed' : ParserState}
    {rest taken rest' taken' : List Token} (beside : pair.Beside looked looked')
    (still : pair.Beside failed failed') (ahead : looked.ahead = first :: rest)
    (whole : looked.ahead = taken ++ failed.ahead)
    (later : ∀ token ∈ rest, first.span.first < token.span.first)
    (ahead' : looked'.ahead = second :: rest') (whole' : looked'.ahead = taken' ++ failed'.ahead)
    (later' : ∀ token ∈ rest', second.span.first < token.span.first) :
    Since first.span.first second.span.first failed.ahead failed'.ahead := by
  have equally : taken.length = taken'.length := by
    have before := beside.taken
    have after := still.taken
    rw [whole, whole', List.length_append, List.length_append] at before
    omega
  rw [ahead] at whole
  rw [ahead'] at whole'
  cases taken with
  | nil =>
    obtain rfl : taken' = [] := List.eq_nil_of_length_eq_zero equally.symm
    rw [← List.nil_append failed.ahead, ← List.nil_append failed'.ahead, ← whole, ← whole']
    exact .first rfl rfl later later'
  | cons token taken =>
    cases taken' with
    | nil => contradiction
    | cons token' taken' =>
      rw [List.cons_append] at whole whole'
      obtain ⟨-, rfl⟩ := List.cons.inj whole
      obtain ⟨-, rfl⟩ := List.cons.inj whole'
      exact .later (fun _ member => later _ (List.mem_append_right _ member))
        fun _ member => later' _ (List.mem_append_right _ member)

theorem Looked.ahead_eq {first second : Token} {after after' : ParserState}
    (looked : pair.Looked left right first second after after') :
    (∃ rest, left.ahead = first :: rest) ∧ ∃ rest, right.ahead = second :: rest := by
  obtain ⟨_, buffer⟩ := looked.sight.buffer
  obtain ⟨_, buffer'⟩ := looked.sight.buffer'
  obtain ⟨rest, ahead⟩ := ahead_of_buffer buffer
  obtain ⟨rest', ahead'⟩ := ahead_of_buffer buffer'
  exact ⟨⟨rest, looked.ahead.symm.trans ahead⟩, rest', looked.ahead'.symm.trans ahead'⟩

/-- At the end of both texts their last lines are ended, or neither is. -/
theorem Looked.endedAtLineBreak {first second : Token} {after after' : ParserState}
    (looked : pair.Looked left right first second after after')
    (isEnd : first.kind = .endOfInput) :
    after'.lexer.endedAtLineBreak = after.lexer.endedAtLineBreak := by
  obtain ⟨others, buffer⟩ := looked.sight.buffer
  obtain ⟨others', buffer'⟩ := looked.sight.buffer'
  rw [looked.beside.visitedLeft.endedAtLineBreak ⟨first, others, buffer, isEnd⟩,
    looked.beside.visitedRight.endedAtLineBreak ⟨second, others', buffer', looked.kind.trans isEnd⟩,
    pair.lineBreaks]

/-- Both readings stop at the same end of the statement. -/
theorem meet_skipTokens {start start' : Position} (depth n m : Nat)
    (trails : pair.Trails left right)
    (since : pair.Beside left right → Since start start' left.ahead right.ahead) :
    pair.Meet (fun found after found' after' => found' = found ∧ pair.Beside after after')
      (skipTokens depth start n) left (skipTokens depth start' m) right := by
  induction n generalizing m left right with
  | zero => exact .exhaustedLeft
  | succ n inductionHypothesis =>
    rcases trails with beside | sunk
    · cases m with
      | zero => exact .exhaustedRight
      | succ m =>
        rw [skipTokens, skipTokens]
        refine Meet.get ?_
        have sameDepth := beside.depth
        have since := since beside
        dsimp only
        refine (meet_peek beside).bind ?_
        rintro first middle second middle' looked
        obtain ⟨⟨rest, ahead⟩, rest', ahead'⟩ := looked.ahead_eq
        rw [ahead, ahead'] at since
        rw [looked.kind, sameDepth, since.advanced]
        split
        next isEnd =>
          exact Meet.get (meet_pure ⟨looked.endedAtLineBreak isEnd, looked.beside⟩)
        next kind notEnd =>
          split
          next stops =>
            have plain : first.kind.opensText = false := by
              simp only [Bool.and_eq_true, Bool.or_eq_true, decide_eq_true_eq] at stops
              rcases stops.2 with isStop | isStop <;> rw [isStop] <;> rfl
            exact (looked.drops plain).bind fun _ _ _ _ taken => meet_pure ⟨rfl, taken⟩
          next =>
            split
            next => exact meet_pure ⟨rfl, looked.beside⟩
            next =>
              refine (looked.sight.consume looked.beside).bind ?_
              rintro token after token' after' ⟨rfl, rfl, took⟩
              have took := took.of_looked looked
              obtain ⟨-, aheadAfter⟩ := List.cons.inj (ahead.symm.trans (took.ahead notEnd))
              obtain ⟨-, aheadAfter'⟩ := List.cons.inj (ahead'.symm.trans (took.ahead' notEnd))
              refine Meet.get ?_
              rw [looked.kind]
              by_cases closes : token.kind = .dedent
              · have taken := took.beside (by rw [closes]; rfl)
                rw [taken.depth]
                split
                next => exact meet_pure ⟨rfl, taken⟩
                next =>
                  exact inductionHypothesis m (.inl taken)
                    fun _ => aheadAfter ▸ aheadAfter' ▸ since.tail
              · rw [if_neg (by simp [closes]), if_neg (by simp [closes])]
                exact inductionHypothesis m took.trails
                  fun _ => aheadAfter ▸ aheadAfter' ▸ since.tail
    · exact sunk.meet_skipTokens _ _ _ _ _

section

variable {error error' : SyntaxError}

theorem Spoken.reports (spoken : pair.Spoken left right) (told : pair.Told error error') :
    pair.Spoken { left with reported := left.reported ++ [error.toDiagnostic] }
      { right with reported := right.reported ++ [error'.toDiagnostic] } :=
  ⟨spoken.failures, fun inStep => List.rel_append (spoken.reported inStep) (.cons told .nil)⟩

theorem Spoken.abandons (spoken : pair.Spoken left right) (told : pair.Told error error') :
    pair.Spoken { left with failures := left.failures ++ [error] }
      { right with failures := right.failures ++ [error'] } :=
  ⟨List.rel_append spoken.failures (.cons told .nil), spoken.reported⟩

theorem Beside.reports (beside : pair.Beside left right) (told : pair.Told error error') :
    pair.Beside { left with reported := left.reported ++ [error.toDiagnostic] }
      { right with reported := right.reported ++ [error'.toDiagnostic] } :=
  ⟨beside.visitedLeft.reports error, beside.visitedRight.reports error', beside.items, beside.depth,
    beside.taken, beside.spoken.reports told⟩

theorem Beside.abandons (beside : pair.Beside left right) (told : pair.Told error error') :
    pair.Beside { left with failures := left.failures ++ [error] }
      { right with failures := right.failures ++ [error'] } :=
  ⟨beside.visitedLeft.abandons error, beside.visitedRight.abandons error', beside.items,
    beside.depth, beside.taken, beside.spoken.abandons told⟩

theorem Sunk.reports (sunk : pair.Sunk left right) (told : pair.Told error error') :
    pair.Sunk { left with reported := left.reported ++ [error.toDiagnostic] }
      { right with reported := right.reported ++ [error'.toDiagnostic] } :=
  ⟨sunk.visitedLeft.reports error, sunk.visitedRight.reports error', sunk.doomed,
    sunk.spoken.reports told⟩

theorem Sunk.abandons (sunk : pair.Sunk left right) (told : pair.Told error error') :
    pair.Sunk { left with failures := left.failures ++ [error] }
      { right with failures := right.failures ++ [error'] } :=
  ⟨sunk.visitedLeft.abandons error, sunk.visitedRight.abandons error', sunk.doomed,
    sunk.spoken.abandons told⟩

/-- An error that is reported before the last one comes between it and those before. -/
theorem Over.reports {last last' : SyntaxError} (lost : pair.Over last left last' right)
    (told : pair.Told error error') :
    pair.Over last { left with reported := left.reported ++ [error.toDiagnostic] }
      last' { right with reported := right.reported ++ [error'.toDiagnostic] } := by
  refine ⟨lost.failures, fun inStep => ?_⟩
  have reversed := List.rel_reverse (lost.reported inStep)
  rw [List.reverse_concat, List.reverse_concat] at reversed
  obtain ⟨final, others⟩ := List.forall₂_cons.mp reversed
  exact List.rel_append (List.rel_append (List.forall₂_reverse_iff.mp others) (.cons told .nil))
    (.cons final .nil)

/-- Both readings go on behind the same end of the statement. -/
theorem meet_recover {start start' : Position} (depth : Nat) (told : pair.Told error error')
    (trails : pair.Trails left right)
    (since : pair.Beside left right → Since start start' left.ahead right.ahead) :
    pair.Meet (fun _ after _ after' => pair.Beside after after') (recover error depth start) left
      (recover error' depth start') right := by
  have skipped := meet_skipTokens depth left.fuel right.fuel trails since
  unfold Meet at skipped ⊢
  simp only [recover, skipStatement, fueled]
  generalize skipTokens depth start left.fuel left = result at skipped
  generalize skipTokens depth start' right.fuel right = result' at skipped
  cases skipped with
  | @ok found found' _ _ holds =>
    obtain ⟨rfl, beside⟩ := holds
    cases found' with
    | true => exact .ok (beside.reports told)
    | false =>
      exact .failure ⟨beside.spoken.failures, fun inStep =>
        List.rel_append (beside.spoken.reported inStep) (.cons told .nil)⟩
  | recoverable trails toldLater =>
    exact .recoverable (trails.imp (·.reports told) (·.reports told)) toldLater
  | failure lost => exact .failure (lost.reports told)
  | exhaustedLeft => exact .exhaustedLeft
  | exhaustedRight => exact .exhaustedRight

end

/-! ## Attempts -/

/-- What an attempt comes to: values for both readings, or errors that say the same. -/
inductive Attempted {α : Type} (pair : Tandem) (post : α → ParserState → α → ParserState → Prop) :
    Except SyntaxError α → ParserState → Except SyntaxError α → ParserState → Prop
  | ok {value other : α} {left right : ParserState} (holds : post value left other right) :
    Attempted pair post (.ok value) left (.ok other) right
  | error {error error' : SyntaxError} {left right : ParserState} (told : pair.Told error error')
    (trails : pair.Trails left right) : Attempted pair post (.error error) left (.error error') right

theorem meet_attempt {α : Type} {post : α → ParserState → α → ParserState → Prop}
    {parser parser' : Parser α} (inner : pair.Meet post parser left parser' right) :
    pair.Meet (pair.Attempted post) (attempt parser) left (attempt parser') right := by
  unfold Meet at inner ⊢
  unfold attempt
  generalize parser left = result at inner
  generalize parser' right = result' at inner
  cases inner with
  | ok holds => exact .ok (.ok holds)
  | recoverable trails told =>
    exact .ok (.error told (trails.imp (·.abandons told) (·.abandons told)))
  | failure lost => exact .failure lost
  | exhaustedLeft => exact .exhaustedLeft
  | exhaustedRight => exact .exhaustedRight

end Tandem

end Offside
