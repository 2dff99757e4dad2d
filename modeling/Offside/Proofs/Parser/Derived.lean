import Offside.Parser
import Offside.Proofs.Parser.Derivation
import Offside.Proofs.Parser.Walk

/-!
Whatever is read is derived. Every rule of the grammar that returns a part of a tree has taken
tokens from which that part is derived, and a tree of a whole text is derived from all its tokens.
-/

namespace Offside

open ParserState Offside.Parser

/-- The state is one that a reading reaches from `origin`, with a number of attempts that failed
in between. -/
structure Past (settings : Settings) (failed : Nat) (origin state : ParserState) : Prop where
  ready : state.Ready
  settings : state.settings = settings
  suffix : state.ahead <:+ origin.ahead
  failures : state.failures.length = origin.failures.length + failed

/-- What a parser reads from a state, and where it gets, also if it gives up. -/
def Finds {α : Type} (settings : Settings) (origin : ParserState) (parser : Parser α)
    (state : ParserState) (post : α → ParserState → Prop) : Prop :=
  match parser state with
  | .ok value after => post value after
  | .error _ after => ∃ failed, Past settings failed origin after

variable {α β : Type} {settings : Settings} {origin state : ParserState} {k : Nat}

namespace Past

theorem start (ready : state.Ready) : Past state.settings 0 state state :=
  ⟨ready, rfl, List.suffix_rfl, rfl⟩

theorem restart (past : Past settings k origin state) : Past settings 0 state state :=
  ⟨past.ready, past.settings, List.suffix_rfl, rfl⟩

theorem trans {middle : ParserState} {more : Nat} (later : Past settings more middle state)
    (past : Past settings k origin middle) : Past settings (k + more) origin state :=
  ⟨later.ready, later.settings, later.suffix.trans past.suffix, by
    rw [later.failures, past.failures, Nat.add_assoc]⟩

theorem congr {same : Nat} (past : Past settings k origin state) (equality : k = same) :
    Past settings same origin state :=
  equality ▸ past

theorem named (past : Past settings k origin state) (nonTerminals : List NonTerminal) :
    Past settings k origin { state with nonTerminals } :=
  ⟨⟨past.ready.terminated, past.ready.isFatal⟩, past.settings, past.suffix, past.failures⟩

theorem moves {after : ParserState} (past : Past settings k origin state)
    (moves : Moves state after) : Past settings k origin after := by
  refine ⟨moves.ready past.ready, ?_, moves.suffix.trans past.suffix, ?_⟩
  · cases moves with
    | draws draws => cases draws <;> exact past.settings
    | takes buffer => exact past.settings
  · cases moves with
    | draws draws => cases draws <;> exact past.failures
    | takes buffer => exact past.failures

theorem passes {after : ParserState} (past : Past settings k origin state)
    (passes : Passes state after) : Past settings k origin after := by
  induction passes with
  | refl => exact past
  | tail _ moves inductionHypothesis => exact inductionHypothesis.moves moves

theorem fills {after : ParserState} (past : Past settings k origin state)
    (fills : Fills state after) : Past settings k origin after :=
  past.passes fills.passes

end Past

/-! ## Composition -/

theorem Finds.mono {parser : Parser α} {post weaker : α → ParserState → Prop}
    (finds : Finds settings origin parser state post)
    (weaken : ∀ value after, post value after → weaker value after) :
    Finds settings origin parser state weaker := by
  unfold Finds at *
  split at finds
  next => exact weaken _ _ finds
  next => exact finds

theorem finds_pure {value : α} {post : α → ParserState → Prop} (holds : post value state) :
    Finds settings origin (pure value) state post :=
  holds

theorem Finds.bind {parser : Parser α} {next : α → Parser β}
    {middle : α → ParserState → Prop} {post : β → ParserState → Prop}
    (finds : Finds settings origin parser state middle)
    (later : ∀ value after, middle value after → Finds settings origin (next value) after post) :
    Finds settings origin (parser >>= next) state post := by
  unfold Finds at finds ⊢
  cases result : parser state with
  | ok value after =>
    rw [result] at finds
    rw [bind_ok result]
    exact later value after finds
  | error abort after =>
    rw [result] at finds
    rw [bind_error result]
    exact finds

theorem finds_get {next : ParserState → Parser β} {post : β → ParserState → Prop}
    (later : Finds settings origin (next state) state post) :
    Finds settings origin (get >>= next) state post :=
  later

theorem Finds.discard {parser : Parser α} {post : α → ParserState → Prop}
    {weaker : ParserState → Prop} (finds : Finds settings origin parser state post)
    (weaken : ∀ value after, post value after → weaker after) :
    Finds settings origin (Functor.discard parser) state fun _ after => weaker after :=
  finds.bind fun value after holds => finds_pure (weaken value after holds)

theorem finds_fueled {parser : Nat → Parser α} {post : α → ParserState → Prop}
    (finds : Finds settings origin (parser state.fuel) state post) :
    Finds settings origin (fueled parser) state post :=
  finds

theorem finds_exhausted {post : α → ParserState → Prop} (past : Past settings k origin state) :
    Finds settings origin (exhausted : Parser α) state post :=
  ⟨k, past⟩

theorem finds_within {nonTerminal : NonTerminal} {parser : Parser α}
    {post : α → ParserState → Prop}
    (unnamed : ∀ value after nonTerminals, post value after →
      post value { after with nonTerminals })
    (finds : Finds settings origin parser
      { state with nonTerminals := nonTerminal :: state.nonTerminals } post) :
    Finds settings origin (within nonTerminal parser) state post := by
  unfold Finds at finds
  unfold Finds within
  cases result : parser { state with nonTerminals := nonTerminal :: state.nonTerminals } with
  | ok value after =>
    simp only [result] at finds ⊢
    exact unnamed value after _ finds
  | error abort after =>
    simp only [result] at finds ⊢
    obtain ⟨failed, past⟩ := finds
    exact ⟨failed, past.named _⟩

/-- What is read from where a reading got is read from where it started. -/
theorem Finds.after {parser : Parser α} {post : α → ParserState → Prop}
    (finds : Finds settings state parser state post) (past : Past settings k origin state) :
    Finds settings origin parser state post := by
  unfold Finds at finds ⊢
  split at finds
  next => exact finds
  next =>
    obtain ⟨failed, later⟩ := finds
    exact ⟨k + failed, later.trans past⟩

/-! ## Tokens -/

section

variable (past : Past settings k origin state)

include past

theorem finds_peek : Finds settings origin peek state fun token after =>
    Past settings k origin after ∧ after.ahead = state.ahead ∧
      ∃ rest, state.ahead = token :: rest := by
  unfold Finds
  obtain ⟨after, fills, ⟨token, others, rest, buffer, ahead, result⟩ | ⟨error, ends, _, result⟩⟩ :=
    peek_cases past.ready
  · rw [result]
    exact ⟨past.fills fills, fills.ahead_eq, rest, ahead⟩
  · rw [result]
    exact ⟨k, past.fills fills⟩

theorem finds_peekKind : Finds settings origin peekKind state fun kind after =>
    Past settings k origin after ∧ after.ahead = state.ahead ∧
      ∃ token rest, state.ahead = token :: rest ∧ token.kind = kind :=
  (finds_peek past).bind fun token _ ⟨looked, same, rest, ahead⟩ =>
    finds_pure ⟨looked, same, token, rest, ahead, rfl⟩

theorem finds_check (kind : Kind) : Finds settings origin (check kind) state fun same after =>
    Past settings k origin after ∧ after.ahead = state.ahead ∧
      ∃ token rest, state.ahead = token :: rest ∧ same = decide (token.kind = kind) :=
  (finds_peek past).bind fun token _ ⟨looked, same, rest, ahead⟩ =>
    finds_pure ⟨looked, same, token, rest, ahead, rfl⟩

theorem finds_failAt {span : Span} {fault : SyntaxFault} {post : α → ParserState → Prop} :
    Finds settings origin (failAt span fault) state post :=
  ⟨k, past⟩

theorem finds_unexpected {span : Span} {token : Token} {expectations : List Expectation}
    {post : α → ParserState → Prop} :
    Finds settings origin (unexpected span token expectations) state post :=
  ⟨k, past⟩

/-- The token taken is the first one ahead. -/
theorem finds_consume : Finds settings origin consume state fun token after =>
    Past settings k origin after ∧ ∃ rest, state.ahead = token :: rest ∧
      (token.kind ≠ .endOfInput → after.ahead = rest) := by
  unfold Finds
  obtain ⟨after, fills, ⟨token, others, rest, buffer, ahead, result⟩ | ⟨error, ends, _, result⟩⟩ :=
    consume_cases past.ready
  · rw [result]
    refine ⟨(past.fills fills).moves (.takes buffer), rest, ahead, fun notEnd => ?_⟩
    rw [ahead_afterToken buffer (fills.ahead_eq.trans ahead), if_neg notEnd]
  · rw [result]
    exact ⟨k, past.fills fills⟩

/-- Taking a token that was looked at. -/
theorem finds_consume_of_ahead {token : Token} {rest : List Token}
    (ahead : state.ahead = token :: rest) (notEnd : token.kind ≠ .endOfInput) :
    Finds settings origin consume state fun taken after =>
      taken = token ∧ Past settings k origin after ∧ after.ahead = rest := by
  refine (finds_consume past).mono fun taken after ⟨taking, others, takenAhead, shorter⟩ => ?_
  obtain ⟨rfl, rfl⟩ := List.cons.inj (takenAhead.symm.trans ahead)
  exact ⟨rfl, taking, shorter notEnd⟩

theorem finds_expect {kind : Kind} (notEnd : kind ≠ .endOfInput) :
    Finds settings origin (expect kind) state fun token after =>
      Past settings k origin after ∧ token.kind = kind ∧ state.ahead = token :: after.ahead := by
  refine (finds_peek past).bind fun token middle ⟨looked, same, rest, ahead⟩ => ?_
  split
  next isKind =>
    have aheadMiddle := same.trans ahead
    refine (finds_consume_of_ahead looked aheadMiddle (isKind ▸ notEnd)).mono ?_
    rintro taken after ⟨rfl, taking, shorter⟩
    exact ⟨taking, isKind, shorter ▸ ahead⟩
  next => exact finds_get (finds_unexpected looked)

theorem finds_discard_expect {kind : Kind} (notEnd : kind ≠ .endOfInput) :
    Finds settings origin (Functor.discard (expect kind)) state fun _ after =>
      Past settings k origin after ∧
        ∃ token, token.kind = kind ∧ state.ahead = token :: after.ahead :=
  (finds_expect past notEnd).discard fun token _ ⟨taking, isKind, ahead⟩ =>
    ⟨taking, token, isKind, ahead⟩

/-- A token of some kind is taken if it is the first one ahead. -/
theorem finds_consumeKind {kind : Kind} (notEnd : kind ≠ .endOfInput) :
    Finds settings origin (consumeKind kind) state fun taken after =>
      Past settings k origin after ∧
        (taken = none ∧ after.ahead = state.ahead ∨
          ∃ token, taken = some token ∧ token.kind = kind ∧
            state.ahead = token :: after.ahead) := by
  refine (finds_peek past).bind fun token middle ⟨looked, same, rest, ahead⟩ => ?_
  dsimp only
  split
  next isKind =>
    have isKind : token.kind = kind := of_decide_eq_true isKind
    refine (finds_consume_of_ahead looked (same.trans ahead) (isKind ▸ notEnd)).bind ?_
    rintro taken after ⟨rfl, taking, shorter⟩
    exact finds_pure ⟨taking, Or.inr ⟨taken, rfl, isKind, shorter ▸ ahead⟩⟩
  next => exact finds_pure ⟨looked, Or.inl ⟨rfl, same⟩⟩

end

/-! ## Phrases -/

/-- Whatever a parser reads is derived, as a phrase, from the tokens that it takes. -/
def Traces (settings : Settings) (parser : Parser α) (phrase : α → Phrase) : Prop :=
  ∀ ⦃origin state k⦄, Past settings k origin state →
    Finds settings origin parser state fun value after =>
      ∃ n, Past settings (k + n) origin after ∧
        Derives settings n state.ahead (phrase value) after.ahead

/-- An expression that was read before is a part of what a parser reads. -/
def Extends (settings : Settings) (parser : Expr Span → Parser (Expr Span))
    (phrase : Expr Span → Phrase) : Prop :=
  ∀ ⦃origin state k m before value⦄, Past settings (k + m) origin state →
    Derives settings m before (phrase value) state.ahead →
      Finds settings origin (parser value) state fun longer after =>
        ∃ n, Past settings (k + n) origin after ∧
          Derives settings n before (phrase longer) after.ahead

/-- The same for what follows an operand and starts with a token of some kind. -/
def ExtendsAt (settings : Settings) (kind : Kind) (parser : Expr Span → Parser (Expr Span)) :
    Prop :=
  ∀ ⦃origin state k m before value token rest⦄, Past settings (k + m) origin state →
    state.ahead = token :: rest → token.kind = kind →
      Derives settings m before (.primary value) (token :: rest) →
        Finds settings origin (parser value) state fun longer after =>
          ∃ n, Past settings (k + n) origin after ∧
            Derives settings n before (.primary longer) after.ahead

theorem Traces.within {nonTerminal : NonTerminal} {parser : Parser α} {phrase : α → Phrase}
    (traces : Traces settings parser phrase) :
    Traces settings (within nonTerminal parser) phrase := by
  intro origin state k past
  apply finds_within
  · intro value after nonTerminals
    rintro ⟨n, later, derives⟩
    exact ⟨n, later.named nonTerminals, derives⟩
  · exact traces (past.named _)

theorem traces_identifier : Traces settings (within .identifier Grammar.identifier)
    .identifier := by
  apply Traces.within
  intro origin state k past
  refine (finds_expect past Kind.noConfusion).bind ?_
  rintro token after ⟨taken, isName, ahead⟩
  refine finds_pure ⟨0, taken, ?_⟩
  rw [ahead]
  exact .identifier isName

theorem traces_simpleLiteral : Traces settings Grammar.simpleLiteral .literal := by
  intro origin state k past
  refine (finds_consume past).bind ?_
  rintro token after ⟨taken, rest, ahead, shorter⟩
  have derives {literal : Literal Span} (isLiteral : token.literal? = some literal) :
      ∃ n, Past settings (k + n) origin after ∧
        Derives settings n state.ahead (.literal literal) after.ahead := by
    have notEnd : token.kind ≠ .endOfInput := by
      intro isEnd
      rw [Token.literal?, isEnd] at isLiteral
      contradiction
    refine ⟨0, taken, ?_⟩
    rw [ahead, shorter notEnd]
    exact .simpleLiteral isLiteral
  obtain ⟨kind, text, span⟩ := token
  cases kind
  all_goals first | exact finds_pure (derives rfl) | exact finds_unexpected taken

theorem finds_terminator {value : Expr Span} (past : Past settings k origin state) :
    Finds settings origin (Grammar.terminator value) state fun last after =>
      Past settings k origin after ∧ Ends value state.ahead last after.ahead := by
  refine (finds_peek past).bind ?_
  rintro next middle ⟨looked, same, rest, ahead⟩
  have aheadMiddle := same.trans ahead
  split
  next isSemicolon =>
    refine (finds_consume_of_ahead looked aheadMiddle (by simp [isSemicolon])).bind ?_
    rintro taken after ⟨rfl, taking, shorter⟩
    refine finds_pure ⟨taking, ?_⟩
    rw [ahead, shorter]
    exact .semicolon isSemicolon
  next isLine =>
    refine ((finds_consume_of_ahead looked aheadMiddle (by simp [isLine])).discard
      fun _ _ taken => taken.2).bind ?_
    rintro _ after ⟨taking, shorter⟩
    refine finds_pure ⟨taking, ?_⟩
    rw [ahead, shorter]
    exact .line isLine
  next isIndent =>
    refine finds_pure ⟨looked, ?_⟩
    rw [same, ahead]
    exact .block (Or.inl isIndent)
  next isDedent =>
    refine finds_pure ⟨looked, ?_⟩
    rw [same, ahead]
    exact .block (Or.inr (Or.inl isDedent))
  next isEnd =>
    refine finds_pure ⟨looked, ?_⟩
    rw [same, ahead]
    exact .block (Or.inr (Or.inr isEnd))
  next =>
    split
    next endsWithLayout =>
      refine finds_pure ⟨looked, ?_⟩
      rw [same]
      exact .layout endsWithLayout
    next => exact finds_unexpected looked

/-! ## Line breaks and errors -/

/-- The tokens of `before` that are not in `after` are line breaks. -/
def DropsLines (before after : List Token) : Prop :=
  ∃ lines, before = lines ++ after ∧ ∀ token ∈ lines, token.kind = .newline

theorem finds_skipNewlines (past : Past settings k origin state) (fuel : Nat) :
    Finds settings origin (skipNewlines fuel) state fun _ after =>
      Past settings k origin after ∧ DropsLines state.ahead after.ahead := by
  induction fuel generalizing state with
  | zero => exact finds_exhausted past
  | succ fuel inductionHypothesis =>
    rw [skipNewlines]
    refine (finds_consumeKind past Kind.noConfusion).bind ?_
    rintro taken middle ⟨looked, ⟨rfl, same⟩ | ⟨token, rfl, isLine, ahead⟩⟩
    · exact finds_pure ⟨looked, [], same.symm, by simp⟩
    · refine (inductionHypothesis looked).mono ?_
      rintro _ after ⟨later, lines, dropped, areLines⟩
      refine ⟨later, token :: lines, ?_, ?_⟩
      · rw [ahead, dropped, List.cons_append]
      · simpa [isLine] using areLines

theorem finds_removeNewlines (past : Past settings k origin state) :
    Finds settings origin removeNewlines state fun _ after =>
      Past settings k origin after ∧ DropsLines state.ahead after.ahead :=
  finds_fueled (finds_skipNewlines past state.fuel)

theorem DropsLines.statements {before after rest : List Token} {n : Nat}
    {statements : List (Statement Span)} (drops : DropsLines before after)
    (derives : Derives settings n after (.statements statements) rest) :
    Derives settings n before (.statements statements) rest := by
  obtain ⟨lines, rfl, areLines⟩ := drops
  induction lines with
  | nil => exact derives
  | cons token lines inductionHypothesis =>
    rw [List.forall_mem_cons] at areLines
    exact .line areLines.1 (inductionHypothesis areLines.2)

theorem DropsLines.arms {before after rest : List Token} {n : Nat} {arms : List (Arm Span)}
    (drops : DropsLines before after) (derives : Derives settings n after (.arms arms) rest) :
    Derives settings n before (.arms arms) rest := by
  obtain ⟨lines, rfl, areLines⟩ := drops
  induction lines with
  | nil => exact derives
  | cons token lines inductionHypothesis =>
    rw [List.forall_mem_cons] at areLines
    exact .armLine areLines.1 (inductionHypothesis areLines.2)

theorem Kind.stopsSkipping_of_isDeclaration {kind : Kind} (declares : kind.isDeclaration = true) :
    kind.stopsSkipping = true := by
  unfold Kind.stopsSkipping
  split
  all_goals first | rfl | exact declares

theorem ResumesAt.prepend {skipped after : List Token} (resumes : ResumesAt skipped after)
    (taken : List Token) : ResumesAt (taken ++ skipped) after := by
  rcases resumes with ⟨before, last, rfl, ends⟩ | goesOn
  · exact Or.inl ⟨taken ++ before, last, (List.append_assoc _ _ _).symm, ends⟩
  · exact Or.inr goesOn

/-- The tokens that are skipped run up to a place where statements go on. -/
theorem finds_skipTokens (depth : Nat) (start : Position) (past : Past settings k origin state)
    (fuel : Nat) :
    Finds settings origin (skipTokens depth start fuel) state fun found after =>
      Past settings k origin after ∧ (found = true → ∃ skipped,
        state.ahead = skipped ++ after.ahead ∧ ResumesAt skipped after.ahead) := by
  induction fuel generalizing state with
  | zero => exact finds_exhausted past
  | succ fuel inductionHypothesis =>
    rw [skipTokens]
    refine finds_get ((finds_peek past).bind ?_)
    rintro next middle ⟨looked, same, rest, ahead⟩
    have aheadMiddle := same.trans ahead
    dsimp only
    split
    next isEnd =>
      refine finds_get (finds_pure ⟨looked, fun _ => ⟨[], same.symm, Or.inr ?_⟩⟩)
      exact ⟨next, rest, aheadMiddle, Or.inr isEnd⟩
    next notEnd =>
      have takes := finds_consume_of_ahead looked aheadMiddle notEnd
      split
      next ends =>
        refine (takes.discard fun _ _ taken => taken.2).bind ?_
        rintro _ after ⟨taking, shorter⟩
        refine finds_pure ⟨taking, fun _ => ⟨[next], shorter ▸ ahead, Or.inl ?_⟩⟩
        simp only [Bool.and_eq_true, Bool.or_eq_true, decide_eq_true_eq] at ends
        refine ⟨[], next, rfl, ?_⟩
        rcases ends.2 with isSemicolon | isLine
        · rw [isSemicolon, Kind.endsSkipped]
        · rw [isLine, Kind.endsSkipped]
      next =>
        split
        next stops =>
          refine finds_pure ⟨looked, fun _ => ⟨[], same.symm, Or.inr ?_⟩⟩
          refine ⟨next, rest, aheadMiddle, Or.inl ?_⟩
          simp only [Bool.and_eq_true, Bool.or_eq_true, decide_eq_true_eq] at stops
          rcases stops.2 with ((closes | isThrow) | isSwitch) | declares
          · rw [closes, Kind.stopsSkipping]
          · rw [isThrow, Kind.stopsSkipping]
          · rw [isSwitch, Kind.stopsSkipping]
          · exact Kind.stopsSkipping_of_isDeclaration declares
        next =>
          refine takes.bind ?_
          rintro taken after ⟨rfl, taking, shorter⟩
          refine finds_get ?_
          split
          next closes =>
            refine finds_pure ⟨taking, fun _ => ⟨[taken], shorter ▸ ahead, Or.inl ?_⟩⟩
            simp only [Bool.and_eq_true, decide_eq_true_eq] at closes
            exact ⟨[], taken, rfl, by rw [closes.1, Kind.endsSkipped]⟩
          next =>
            refine (inductionHypothesis taking).mono ?_
            rintro found later ⟨gone, reaches⟩
            refine ⟨gone, fun isFound => ?_⟩
            obtain ⟨skipped, whole, resumes⟩ := reaches isFound
            refine ⟨taken :: skipped, ?_, resumes.prepend [taken]⟩
            rw [ahead, ← shorter, whole, List.cons_append]

theorem finds_recover (error : SyntaxError) (depth : Nat) (start : Position)
    (past : Past settings k origin state) :
    Finds settings origin (recover error depth start) state fun _ after =>
      Past settings k origin after ∧ ∃ skipped,
        state.ahead = skipped ++ after.ahead ∧ ResumesAt skipped after.ahead := by
  have skips := finds_skipTokens depth start past state.fuel
  unfold Finds at skips
  unfold Finds recover skipStatement fueled
  split at skips
  next found after result =>
    obtain ⟨⟨⟨terminated, isFatal⟩, sameSettings, suffix, failures⟩, reaches⟩ := skips
    rw [result]
    cases found with
    | true => exact ⟨⟨⟨terminated, isFatal⟩, sameSettings, suffix, failures⟩, reaches rfl⟩
    | false => exact ⟨k, ⟨terminated, isFatal⟩, sameSettings, suffix, failures⟩
  next abort after result =>
    obtain ⟨failed, ⟨⟨terminated, isFatal⟩, sameSettings, suffix, failures⟩⟩ := skips
    rw [result]
    exact ⟨failed, ⟨terminated, isFatal⟩, sameSettings, suffix, failures⟩

/-- An attempt that fails is counted. -/
theorem finds_attempt {parser : Parser α} {post : α → ParserState → Prop}
    (past : Past settings k origin state) (finds : Finds settings state parser state post) :
    Finds settings origin (attempt parser) state fun result after =>
      match result with
      | .ok value => post value after
      | .error _ => ∃ m, Past settings (m + 1) state after := by
  unfold Finds at finds
  unfold Finds attempt
  split at finds
  next value after result =>
    rw [result]
    exact finds
  next abort after result =>
    rw [result]
    obtain ⟨failed, later⟩ := finds
    cases abort with
    | recoverable error =>
      refine ⟨failed, ⟨later.ready.terminated, later.ready.isFatal⟩, later.settings, later.suffix, ?_⟩
      have failures := later.failures
      simp only [List.length_append, List.length_singleton]
      omega
    | failure error => exact ⟨k + failed, later.trans past⟩
    | exhausted => exact ⟨k + failed, later.trans past⟩

end Offside
