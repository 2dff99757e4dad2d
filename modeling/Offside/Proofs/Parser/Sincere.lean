import Offside.Parser
import Offside.Proofs.Parser.Visited

/-!
Sincere readings: they give up only for faults of the text. Two faults are none of any text. A
parser always has a token to look at, because the tokens end in the end of input, which stays, or
in an error. And a string is always gone on with by a part of it, because the lexer yields nothing
else between its quotes. The first holds in every state, and the second is carried from the start of
a string through the expressions in it, which end where they started.
-/

namespace Offside

open LexStream ParserState Offside.Parser

/-- What is expected where a string goes on. -/
def partExpectations : List Expectation :=
  [.kind (.stringFragment ""), .kind .interpolationStart, .kind .stringEnd]

/-- A fault that a text can have. -/
structure SyntaxFault.Genuine (fault : SyntaxFault) : Prop where
  notEnd : fault ≠ .unexpectedEnd
  notBetweenParts : ∀ found text, fault ≠ .expected partExpectations found text

/-- The error that the input is to blame for is one that it can have. -/
def Abort.Genuine (abort : Abort) : Prop :=
  ∀ error, abort.error? = some error → error.fault.Genuine

namespace SyntaxFault

theorem genuine_lexical (error : LexError) : (lexical error).Genuine :=
  ⟨SyntaxFault.noConfusion, fun _ _ => SyntaxFault.noConfusion⟩

theorem genuine_invalidTarget : invalidTarget.Genuine :=
  ⟨SyntaxFault.noConfusion, fun _ _ => SyntaxFault.noConfusion⟩

theorem genuine_unsupportedDeclaration (keyword : String) :
    (unsupportedDeclaration keyword).Genuine :=
  ⟨SyntaxFault.noConfusion, fun _ _ => SyntaxFault.noConfusion⟩

theorem genuine_expected {expectations : List Expectation} (others : expectations ≠ partExpectations)
    (found : Kind) (text : String) : (expected expectations found text).Genuine :=
  ⟨SyntaxFault.noConfusion, fun _ _ same => others (SyntaxFault.expected.inj same).1⟩

end SyntaxFault

theorem Abort.genuine_recoverable {error : SyntaxError} (genuine : error.fault.Genuine) :
    (Abort.recoverable error).Genuine :=
  fun _ same => Option.some.inj same ▸ genuine

theorem Abort.genuine_failure {error : SyntaxError} (genuine : error.fault.Genuine) :
    (Abort.failure error).Genuine :=
  fun _ same => Option.some.inj same ▸ genuine

/-- A state that readings can pass through, after attempts that failed for genuine faults. -/
structure ParserState.Clean (input : Input) (state : ParserState) : Prop where
  visited : Visited input state
  failures : ∀ error ∈ state.failures, error.fault.Genuine

/-- A token is the last one before those that are ahead. -/
def ParserState.ComesAfter (input : Input) (token : Token) (state : ParserState) : Prop :=
  ∃ before, input.tokens = before ++ token :: state.ahead

/-- Where a string goes on, a part of it is ahead. -/
theorem Input.isStringPart {input : Input} {before rest : List Token} {token next : Token}
    (found : input.tokens = before ++ token :: next :: rest)
    (continues : token.kind.continuesString = true) : next.kind.isStringPart = true := by
  have chain := input.continues
  rw [found, List.isChain_split, List.isChain_cons_cons] at chain
  exact chain.2.1 continues

/-- A reading from a state leads to one that is clean, and fails for genuine faults at most. -/
def Parser.Proceeds {α : Type} (input : Input) (parser : Parser α) (state : ParserState)
    (post : α → ParserState → Prop) : Prop :=
  match parser state with
  | .ok value after => after.Clean input ∧ post value after
  | .error abort after => after.Clean input ∧ abort.Genuine

/-- From any clean state. -/
def Parser.Sincere {α : Type} (input : Input) (parser : Parser α) : Prop :=
  ∀ ⦃state : ParserState⦄, state.Clean input → Proceeds input parser state fun _ _ => True

/-- A reading fails for genuine faults at most, or for the error that was handed to it. -/
def Parser.Blames {α : Type} (input : Input) (handed : Option SyntaxError) (parser : Parser α)
    (state : ParserState) : Prop :=
  match parser state with
  | .ok _ after => after.Clean input
  | .error abort after =>
    after.Clean input ∧ (abort.Genuine ∨ ∃ error, handed = some error ∧ abort = .failure error)

variable {α β : Type} {input : Input} {state after : ParserState}

namespace ParserState.Clean

theorem start (input : Input) : input.start.Clean input :=
  ⟨.start, fun _ member => absurd member List.not_mem_nil⟩

variable (clean : state.Clean input)

include clean

theorem fills (fills : Fills state after) : after.Clean input := by
  have kept : after.failures = state.failures := by
    induction fills with
    | refl => rfl
    | tail _ draws inductionHypothesis => cases draws <;> exact inductionHypothesis
  refine ⟨clean.visited.fills fills, ?_⟩
  rw [kept]
  exact clean.failures

theorem takes {token : Token} {others : List Token} (buffer : state.buffer = token :: others) :
    (state.afterToken token others).Clean input :=
  ⟨clean.visited.takes buffer, clean.failures⟩

theorem named (nonTerminals : List NonTerminal) : { state with nonTerminals }.Clean input :=
  ⟨clean.visited.names nonTerminals, clean.failures⟩

theorem reports (error : SyntaxError) :
    { state with reported := state.reported ++ [error.toDiagnostic] }.Clean input :=
  ⟨clean.visited.reports error, clean.failures⟩

theorem abandons {error : SyntaxError} (genuine : error.fault.Genuine) :
    { state with failures := state.failures ++ [error] }.Clean input := by
  refine ⟨clean.visited.abandons error, fun failed member => ?_⟩
  rcases List.mem_append.mp member with earlier | isLast
  · exact clean.failures failed earlier
  · exact List.mem_singleton.mp isLast ▸ genuine

end ParserState.Clean

namespace Parser

/-! ## Composition -/

theorem Proceeds.mono {parser : Parser α} {post weaker : α → ParserState → Prop}
    (proceeds : Proceeds input parser state post)
    (weaken : ∀ value after, post value after → weaker value after) :
    Proceeds input parser state weaker := by
  unfold Proceeds at proceeds ⊢
  split at proceeds
  · exact ⟨proceeds.1, weaken _ _ proceeds.2⟩
  · exact proceeds

theorem Proceeds.bind {parser : Parser α} {next : α → Parser β} {middle : α → ParserState → Prop}
    {post : β → ParserState → Prop} (proceeds : Proceeds input parser state middle)
    (later : ∀ value {after}, after.Clean input → middle value after →
      Proceeds input (next value) after post) :
    Proceeds input (parser >>= next) state post := by
  unfold Proceeds at proceeds
  unfold Proceeds
  cases result : parser state with
  | ok value after =>
    rw [result] at proceeds
    rw [bind_ok result]
    exact later value proceeds.1 proceeds.2
  | error abort after =>
    rw [result] at proceeds
    rw [bind_error result]
    exact proceeds

theorem proceeds_pure {post : α → ParserState → Prop} {value : α} (clean : state.Clean input)
    (holds : post value state) : Proceeds input (pure value) state post :=
  ⟨clean, holds⟩

theorem proceeds_get {post : β → ParserState → Prop} {next : ParserState → Parser β}
    (later : Proceeds input (next state) state post) : Proceeds input (get >>= next) state post :=
  later

theorem Proceeds.discard {parser : Parser α} {middle : α → ParserState → Prop}
    {post : ParserState → Prop} (proceeds : Proceeds input parser state middle)
    (later : ∀ value after, middle value after → post after) :
    Proceeds input (Functor.discard parser) state fun _ after => post after :=
  proceeds.bind fun value after reached holds => proceeds_pure reached (later value after holds)

theorem proceeds_failAt {post : α → ParserState → Prop} {span : Span} {fault : SyntaxFault}
    (clean : state.Clean input) (genuine : fault.Genuine) :
    Proceeds input (failAt span fault) state post :=
  ⟨clean, Abort.genuine_recoverable genuine⟩

theorem sincere_pure (value : α) : Sincere input (pure value) :=
  fun _ clean => proceeds_pure clean trivial

theorem Sincere.bind {parser : Parser α} {next : α → Parser β} (sincere : Sincere input parser)
    (later : ∀ value, Sincere input (next value)) : Sincere input (parser >>= next) :=
  fun _ clean => (sincere clean).bind fun value _ reached _ => later value reached

theorem Sincere.blames {parser : Parser α} (sincere : Sincere input parser)
    (clean : state.Clean input) (handed : Option SyntaxError) :
    Blames input handed parser state := by
  have proceeds := sincere clean
  unfold Proceeds at proceeds
  unfold Blames
  split at proceeds
  next => exact proceeds.1
  next => exact ⟨proceeds.1, Or.inl proceeds.2⟩

theorem Sincere.discard {parser : Parser α} (sincere : Sincere input parser) :
    Sincere input (Functor.discard parser) :=
  sincere.bind fun _ => sincere_pure ()

theorem sincere_get {next : ParserState → Parser β} (later : ∀ state, Sincere input (next state)) :
    Sincere input (get >>= next) :=
  fun state clean => proceeds_get (later state clean)

theorem sincere_ite {condition : Prop} [Decidable condition] {left right : Parser α}
    (yes : Sincere input left) (no : Sincere input right) :
    Sincere input (if condition then left else right) := by
  split
  · exact yes
  · exact no

theorem sincere_failAt {span : Span} {fault : SyntaxFault} (genuine : fault.Genuine) :
    Sincere input (failAt span fault : Parser α) :=
  fun _ clean => proceeds_failAt clean genuine

theorem sincere_unexpected {span : Span} {token : Token} {expectations : List Expectation}
    (others : expectations ≠ partExpectations) :
    Sincere input (unexpected span token expectations : Parser α) :=
  sincere_failAt (SyntaxFault.genuine_expected others _ _)

theorem sincere_exhausted : Sincere input (exhausted : Parser α) :=
  fun _ clean => ⟨clean, fun _ same => absurd same (Option.some_ne_none _).symm⟩

theorem Sincere.fueled {parser : Nat → Parser α} (sincere : ∀ fuel, Sincere input (parser fuel)) :
    Sincere input (fueled parser) :=
  fun _ clean => sincere _ clean

theorem Sincere.within {nonTerminal : NonTerminal} {parser : Parser α}
    (sincere : Sincere input parser) : Sincere input (within nonTerminal parser) := by
  intro state clean
  have inside := sincere (clean.named (nonTerminal :: state.nonTerminals))
  unfold Proceeds at inside
  unfold Proceeds Parser.within
  generalize parser { state with nonTerminals := nonTerminal :: state.nonTerminals } = result
    at inside ⊢
  cases result with
  | ok value after => exact ⟨inside.1.named _, trivial⟩
  | error abort after => exact ⟨inside.1.named _, inside.2⟩

/-- An attempt that fails does so for a genuine fault. -/
theorem Sincere.attempt {parser : Parser α} (sincere : Sincere input parser)
    (clean : state.Clean input) :
    Proceeds input (attempt parser) state fun result _ =>
      ∀ error, result = .error error → error.fault.Genuine := by
  have tried := sincere clean
  unfold Proceeds at tried
  unfold Proceeds Parser.attempt
  split at tried
  next result =>
    rw [result]
    exact ⟨tried.1, fun _ failed => nomatch failed⟩
  next abort after result =>
    rw [result]
    cases abort with
    | recoverable error =>
      have genuine := tried.2 error rfl
      exact ⟨tried.1.abandons genuine, fun _ same => Except.error.inj same ▸ genuine⟩
    | failure error => exact tried
    | exhausted => exact tried

/-! ## Tokens -/

theorem proceeds_fatal {error : LexError} {post : α → ParserState → Prop} {parser : Parser α}
    (clean : after.Clean input)
    (result : parser state = .error (.failure (.ofLexError error)) after) :
    Proceeds input parser state post := by
  unfold Proceeds
  rw [result]
  exact ⟨clean, Abort.genuine_failure (SyntaxFault.genuine_lexical error)⟩

/-- Looking ahead always finds a token, or the error that the tokens end in. -/
theorem sincere_peekAhead (ahead : Nat) : Sincere input (peekAhead ahead) := by
  intro state clean
  obtain ⟨after, fills, ⟨_, token, _, result⟩ | ⟨error, _, result⟩⟩ :=
    peekAhead_cases ahead clean.visited.ready
  · unfold Proceeds
    rw [result]
    exact ⟨clean.fills fills, trivial⟩
  · exact proceeds_fatal (clean.fills fills) result

theorem proceeds_peek (clean : state.Clean input) :
    Proceeds input peek state fun token after => ∃ rest, after.ahead = token :: rest := by
  obtain ⟨after, fills, ⟨token, others, rest, buffer, ahead, result⟩ | ⟨error, _, _, result⟩⟩ :=
    peek_cases clean.visited.ready
  · unfold Proceeds
    rw [result]
    exact ⟨clean.fills fills, rest, fills.ahead_eq.trans ahead⟩
  · exact proceeds_fatal (clean.fills fills) result

theorem sincere_peek : Sincere input peek :=
  fun _ clean => (proceeds_peek clean).mono fun _ _ _ => trivial

theorem proceeds_check (kind : Kind) (clean : state.Clean input) :
    Proceeds input (check kind) state fun same after =>
      ∃ token rest, after.ahead = token :: rest ∧ same = decide (token.kind = kind) :=
  (proceeds_peek clean).bind fun token _ looked ⟨rest, ahead⟩ =>
    proceeds_pure looked ⟨token, rest, ahead, rfl⟩

theorem sincere_peekKind : Sincere input peekKind :=
  sincere_peek.bind fun _ => sincere_pure _

theorem sincere_check (kind : Kind) : Sincere input (check kind) :=
  fun _ clean => (proceeds_check kind clean).mono fun _ _ _ => trivial

/-- The token taken is the first of those ahead. Unless it is the end of input, those behind it are
ahead then. -/
theorem proceeds_consume (clean : state.Clean input) :
    Proceeds input consume state fun token after =>
      (∃ rest, state.ahead = token :: rest) ∧
        (token.kind ≠ .endOfInput → after.ComesAfter input token) := by
  obtain ⟨filled, fills, ⟨token, others, rest, buffer, ahead, result⟩ | ⟨error, _, _, result⟩⟩ :=
    consume_cases clean.visited.ready
  · unfold Proceeds
    rw [result]
    refine ⟨(clean.fills fills).takes buffer, ⟨rest, ahead⟩, fun notEnd => ?_⟩
    obtain ⟨before, whole⟩ := clean.visited.sound.suffix
    have aheadAfter := ahead_afterToken buffer (fills.ahead_eq.trans ahead)
    rw [if_neg notEnd] at aheadAfter
    refine ⟨before, ?_⟩
    rw [aheadAfter, ← ahead, whole]
  · exact proceeds_fatal (clean.fills fills) result

theorem sincere_consume : Sincere input consume :=
  fun _ clean => (proceeds_consume clean).mono fun _ _ _ => trivial

theorem sincere_consumeIf (test : Token → Bool) : Sincere input (consumeIf test) :=
  sincere_peek.bind fun _ =>
    sincere_ite (sincere_consume.bind fun _ => sincere_pure _) (sincere_pure _)

theorem sincere_consumeKind (kind : Kind) : Sincere input (consumeKind kind) :=
  sincere_consumeIf _

theorem proceeds_expect {kind : Kind} (notEnd : kind ≠ .endOfInput) (clean : state.Clean input) :
    Proceeds input (expect kind) state fun token after =>
      token.kind = kind ∧ after.ComesAfter input token := by
  refine (proceeds_peek clean).bind fun next middle looked ⟨rest, ahead⟩ => ?_
  split
  next same =>
    refine (proceeds_consume looked).mono fun token last ⟨⟨others, found⟩, comesAfter⟩ => ?_
    obtain ⟨rfl, _⟩ := List.cons.inj (ahead.symm.trans found)
    exact ⟨same, comesAfter (same ▸ notEnd)⟩
  next =>
    have others : [Expectation.kind kind] ≠ partExpectations := by simp [partExpectations]
    exact proceeds_get (proceeds_failAt looked (SyntaxFault.genuine_expected others _ _))

theorem sincere_expect (kind : Kind) : Sincere input (expect kind) :=
  sincere_peek.bind fun _ => sincere_ite sincere_consume
    (sincere_get fun _ => sincere_unexpected (by simp [partExpectations]))

/-! ## Line breaks and recovery -/

theorem sincere_removeNewlines : Sincere input removeNewlines := by
  refine Sincere.fueled fun fuel => ?_
  induction fuel with
  | zero => exact sincere_exhausted
  | succ fuel inductionHypothesis =>
    exact (sincere_consumeKind .newline).bind fun _ =>
      sincere_ite inductionHypothesis (sincere_pure ())

theorem sincere_skipStatement (depth : Nat) (start : Position) :
    Sincere input (skipStatement depth start) := by
  refine Sincere.fueled fun fuel => ?_
  induction fuel with
  | zero => exact sincere_exhausted
  | succ fuel inductionHypothesis =>
    refine sincere_get fun current => sincere_peek.bind fun next => ?_
    dsimp only
    split
    next => exact sincere_get fun _ => sincere_pure _
    next =>
      refine sincere_ite (sincere_consume.discard.bind fun _ => sincere_pure _)
        (sincere_ite (sincere_pure _) (sincere_consume.bind fun skipped => sincere_get fun _ => ?_))
      exact sincere_ite (sincere_pure _) inductionHypothesis

/-- Going on after an error gives up for that error, or for one of the text. -/
theorem blames_recover (clean : state.Clean input) (error : SyntaxError) (depth : Nat)
    (start : Position) : Blames input (some error) (recover error depth start) state := by
  have skipped := sincere_skipStatement depth start clean
  unfold Proceeds at skipped
  unfold Blames recover
  split at skipped
  next found after result =>
    rw [result]
    cases found with
    | true => exact skipped.1.reports error
    | false => exact ⟨skipped.1, Or.inr ⟨error, rfl, rfl⟩⟩
  next abort after result =>
    rw [result]
    exact ⟨skipped.1.reports error, Or.inl skipped.2⟩

theorem sincere_recover {error : SyntaxError} (genuine : error.fault.Genuine) (depth : Nat)
    (start : Position) : Sincere input (recover error depth start) := by
  intro state clean
  have blames := blames_recover clean error depth start
  unfold Blames at blames
  unfold Proceeds
  split at blames
  next => exact ⟨blames, trivial⟩
  next =>
    refine ⟨blames.1, blames.2.elim id ?_⟩
    rintro ⟨_, same, rfl⟩
    exact Abort.genuine_failure (Option.some.inj same ▸ genuine)

end Parser

end Offside
