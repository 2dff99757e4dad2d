import Offside.Proofs.Lexer.Lexeme
import Offside.Proofs.Parser.Outlook

/-!
Readings of a text without errors. A parser sees the lexemes to come and takes the first of them;
with enough fuel it delivers a value and sees the others.
-/

namespace Offside

/-- Nothing was reported and nothing will be, and the tokens ahead are the given lexemes. -/
structure Sees (settings : Settings) (lexemes : List Lexeme) (state : ParserState) : Prop where
  ready : state.Ready
  configured : state.settings = settings
  unreported : state.reported = []
  faultless : ∀ error, .error error ∉ state.coming
  ahead : state.ahead.map Token.lexeme = lexemes

/-- With enough fuel the parser gives a value that is right, and sees the rest. -/
def Delivers {α : Type} (settings : Settings) (parser : Nat → Parser α) (state : ParserState)
    (right : α → Prop) (rest : List Lexeme) : Prop :=
  ∃ enough value after, (∀ fuel, enough ≤ fuel → parser fuel state = .ok value after) ∧
    right value ∧ Sees settings rest after

namespace Sees

variable {settings : Settings} {lexemes : List Lexeme} {state : ParserState}

theorem draws {after : ParserState} (sees : Sees settings lexemes state)
    (draws : ParserState.Draws state after) : Sees settings lexemes after := by
  have ready := draws.ready sees.ready
  have ahead := draws.ahead_eq.symm ▸ sees.ahead
  have faultless := sees.faultless
  cases draws with
  | token noFatal found =>
    refine ⟨ready, sees.configured, sees.unreported, ?_, ahead⟩
    intro error member
    apply faultless error
    simpa [ParserState.coming, noFatal, Lexer.items_of_next? found] using member
  | @fatal error _ noFatal found =>
    apply absurd _ (faultless error)
    simp [ParserState.coming, noFatal, Lexer.items_of_next? found]
  | @report error _ noFatal found =>
    apply absurd _ (faultless error)
    simp [ParserState.coming, noFatal, Lexer.items_of_next? found]

theorem fills {after : ParserState} (sees : Sees settings lexemes state)
    (fills : ParserState.Fills state after) : Sees settings lexemes after := by
  induction fills with
  | refl => exact sees
  | tail _ draws inductionHypothesis => exact inductionHypothesis.draws draws

theorem named (sees : Sees settings lexemes state) (nonTerminals : List NonTerminal) :
    Sees settings lexemes { state with nonTerminals } :=
  ⟨⟨sees.ready.terminated, sees.ready.isFatal⟩, sees.configured, sees.unreported, sees.faultless,
    sees.ahead⟩

theorem takes {lexeme : Lexeme} (sees : Sees settings (lexeme :: lexemes) state) {token : Token}
    {others : List Token} (buffer : state.buffer = token :: others) :
    token.lexeme = lexeme ∧ Sees settings
      (if lexeme.kind = .endOfInput then lexeme :: lexemes else lexemes)
      (state.afterToken token others) := by
  have shown := sees.ahead
  rw [ParserState.ahead, buffer, List.cons_append, List.map_cons] at shown
  obtain ⟨same, rest⟩ := List.cons.inj shown
  have sameKind : lexeme.kind = token.kind := by rw [← same]; rfl
  refine ⟨same, sees.ready.afterToken buffer, sees.configured, sees.unreported, ?_, ?_⟩
  · intro error member
    apply sees.faultless error
    unfold ParserState.coming ParserState.afterToken at *
    split at member
    next => exact member
    next =>
      rw [buffer, List.map_cons, List.cons_append]
      exact List.mem_cons_of_mem _ member
  · rw [ParserState.ahead_afterToken buffer (by rw [ParserState.ahead, buffer, List.cons_append]),
      sameKind]
    split
    · rw [List.map_cons, same, rest]
    · exact rest

end Sees

namespace Delivers

variable {α β : Type} {settings : Settings} {state : ParserState} {lexemes rest last : List Lexeme}

theorem pure {right : α → Prop} {value : α} (sees : Sees settings lexemes state)
    (holds : right value) :
    Delivers settings (fun _ => Pure.pure value) state right lexemes :=
  ⟨0, value, state, fun _ _ => rfl, holds, sees⟩

theorem bind {parser : Nat → Parser α} {next : α → Nat → Parser β} {right : α → Prop}
    {rightNext : β → Prop} (first : Delivers settings parser state right rest)
    (later : ∀ value after, right value → Sees settings rest after →
      Delivers settings (next value) after rightNext last) :
    Delivers settings (fun fuel => parser fuel >>= fun value => next value fuel) state rightNext
      last := by
  obtain ⟨enough, value, middle, reads, holds, sees⟩ := first
  obtain ⟨enoughNext, valueNext, after, readsNext, holdsNext, seesNext⟩ :=
    later value middle holds sees
  refine ⟨max enough enoughNext, valueNext, after, ?_, holdsNext, seesNext⟩
  intro fuel bound
  have first := reads fuel (Nat.le_trans (Nat.le_max_left _ _) bound)
  exact (Parser.bind_ok first).trans (readsNext fuel (Nat.le_trans (Nat.le_max_right _ _) bound))

/-- A rule spends one unit of fuel. -/
theorem succ {parser : Nat → Parser α} {right : α → Prop}
    (reads : Delivers settings (fun fuel => parser (fuel + 1)) state right rest) :
    Delivers settings parser state right rest := by
  obtain ⟨enough, value, after, reads, holds, sees⟩ := reads
  refine ⟨enough + 1, value, after, ?_, holds, sees⟩
  intro fuel bound
  cases fuel with
  | zero => exact absurd bound (Nat.not_succ_le_zero enough)
  | succ fuel => exact reads fuel (Nat.le_of_succ_le_succ bound)

theorem congr {parser other : Nat → Parser α} {right : α → Prop}
    (reads : Delivers settings parser state right rest) (same : ∀ fuel, other fuel = parser fuel) :
    Delivers settings other state right rest := by
  have equality : other = parser := funext same
  rwa [equality]

theorem mono {parser : Nat → Parser α} {right weaker : α → Prop}
    (reads : Delivers settings parser state right rest)
    (weaken : ∀ value, right value → weaker value) :
    Delivers settings parser state weaker rest := by
  obtain ⟨enough, value, after, reads, holds, sees⟩ := reads
  exact ⟨enough, value, after, reads, weaken value holds, sees⟩

theorem within {nonTerminal : NonTerminal} {parser : Nat → Parser α} {right : α → Prop}
    (sees : Sees settings lexemes state)
    (reads : ∀ named, Sees settings lexemes named → Delivers settings parser named right rest) :
    Delivers settings (fun fuel => Parser.within nonTerminal (parser fuel)) state right rest := by
  obtain ⟨enough, value, after, reads, holds, seesRest⟩ :=
    reads _ (sees.named (nonTerminal :: state.nonTerminals))
  refine ⟨enough, value, _, ?_, holds, seesRest.named state.nonTerminals⟩
  intro fuel bound
  change Parser.within nonTerminal (parser fuel) state = _
  rw [Parser.within, reads fuel bound]

theorem discard {parser : Nat → Parser α} {right : α → Prop}
    (reads : Delivers settings parser state right rest) :
    Delivers settings (fun fuel => Functor.discard (parser fuel)) state (fun _ => True) rest :=
  reads.bind fun _ _ _ sees => Delivers.pure sees trivial

theorem get {next : ParserState → Nat → Parser α} {right : α → Prop}
    (reads : Delivers settings (next state) state right rest) :
    Delivers settings (fun fuel => MonadState.get >>= fun found => next found fuel) state right
      rest :=
  reads

theorem fueled {parser : Nat → Parser α} {right : α → Prop}
    (reads : Delivers settings (fun _ => parser state.fuel) state right rest) :
    Delivers settings (fun _ => Parser.fueled parser) state right rest :=
  reads

/-- An amount of fuel is enough if more of it makes no difference. -/
theorem settled {parser : Nat → Parser α} {right : α → Prop}
    (reads : Delivers settings parser state right rest) {fuel : Nat}
    (same : ∀ more, fuel ≤ more → parser fuel state = parser more state) :
    Delivers settings (fun _ => parser fuel) state right rest := by
  obtain ⟨enough, value, after, reads, holds, sees⟩ := reads
  have result := (same _ (Nat.le_max_right enough fuel)).trans (reads _ (Nat.le_max_left enough fuel))
  exact ⟨0, value, after, fun _ _ => result, holds, sees⟩

theorem attempt {parser : Nat → Parser α} {right : α → Prop}
    (reads : Delivers settings parser state right rest) :
    Delivers settings (fun fuel => Parser.attempt (parser fuel)) state
      (fun result => ∃ value, result = .ok value ∧ right value) rest := by
  obtain ⟨enough, value, after, reads, holds, sees⟩ := reads
  refine ⟨enough, .ok value, after, ?_, ⟨value, rfl, holds⟩, sees⟩
  intro fuel bound
  change Parser.attempt (parser fuel) state = _
  rw [Parser.attempt, reads fuel bound]

end Delivers

/-! ## Taking tokens -/

namespace Sees

variable {settings : Settings} {lexeme : Lexeme} {lexemes : List Lexeme} {state : ParserState}

theorem peek (sees : Sees settings (lexeme :: lexemes) state) :
    Delivers settings (fun _ => Parser.peek) state (fun token => token.lexeme = lexeme)
      (lexeme :: lexemes) := by
  have shown := sees.ahead
  obtain ⟨after, fills, ⟨token, others, rest, _, ahead, result⟩ | ⟨_, _, ahead, _⟩⟩ :=
    Parser.peek_cases sees.ready
  · rw [ahead, List.map_cons] at shown
    exact ⟨0, token, after, fun _ _ => result, List.head_eq_of_cons_eq shown, sees.fills fills⟩
  · rw [ahead] at shown
    contradiction

theorem consumeAny (sees : Sees settings (lexeme :: lexemes) state) :
    Delivers settings (fun _ => Parser.consume) state (fun token => token.lexeme = lexeme)
      (if lexeme.kind = .endOfInput then lexeme :: lexemes else lexemes) := by
  have shown := sees.ahead
  obtain ⟨after, fills, ⟨token, others, rest, buffer, _, result⟩ | ⟨_, _, ahead, _⟩⟩ :=
    Parser.consume_cases sees.ready
  · obtain ⟨same, seesRest⟩ := (sees.fills fills).takes buffer
    exact ⟨0, token, _, fun _ _ => result, same, seesRest⟩
  · rw [ahead] at shown
    contradiction

theorem consume (sees : Sees settings (lexeme :: lexemes) state)
    (notEnd : lexeme.kind ≠ .endOfInput) :
    Delivers settings (fun _ => Parser.consume) state (fun token => token.lexeme = lexeme)
      lexemes := by
  have taken := sees.consumeAny
  rwa [if_neg notEnd] at taken

theorem peekKind (sees : Sees settings (lexeme :: lexemes) state) :
    Delivers settings (fun _ => Parser.peekKind) state (fun kind => kind = lexeme.kind)
      (lexeme :: lexemes) :=
  sees.peek.bind fun token _ same sees => Delivers.pure sees (by rw [← same]; rfl)

theorem check (sees : Sees settings (lexeme :: lexemes) state) (kind : Kind) :
    Delivers settings (fun _ => Parser.check kind) state
      (fun found => found = decide (lexeme.kind = kind)) (lexeme :: lexemes) :=
  sees.peek.bind fun token _ same sees => Delivers.pure sees (by rw [← same]; rfl)

theorem consumeKind (sees : Sees settings (lexeme :: lexemes) state)
    (notEnd : lexeme.kind ≠ .endOfInput) :
    Delivers settings (fun _ => Parser.consumeKind lexeme.kind) state
      (fun token => token.isSome = true) lexemes := by
  refine sees.peek.bind fun token after same sees => ?_
  have sameKind : token.kind = lexeme.kind := by rw [← same]; rfl
  rw [if_pos (decide_eq_true sameKind)]
  exact (sees.consume notEnd).bind fun _ _ _ sees => Delivers.pure sees rfl

theorem consumeOther (sees : Sees settings (lexeme :: lexemes) state) {kind : Kind}
    (other : lexeme.kind ≠ kind) :
    Delivers settings (fun _ => Parser.consumeKind kind) state (fun token => token = none)
      (lexeme :: lexemes) := by
  refine sees.peek.bind fun token after same sees => ?_
  have otherKind : token.kind ≠ kind := by rw [← same] at other; exact other
  rw [if_neg (by simpa using otherKind)]
  exact Delivers.pure sees rfl

theorem expectAny (sees : Sees settings (lexeme :: lexemes) state) :
    Delivers settings (fun _ => Parser.expect lexeme.kind) state
      (fun token => token.lexeme = lexeme)
      (if lexeme.kind = .endOfInput then lexeme :: lexemes else lexemes) := by
  refine sees.peek.bind fun token after same sees => ?_
  have sameKind : token.kind = lexeme.kind := by rw [← same]; rfl
  rw [if_pos sameKind]
  exact sees.consumeAny

theorem expect (sees : Sees settings (lexeme :: lexemes) state)
    (notEnd : lexeme.kind ≠ .endOfInput) :
    Delivers settings (fun _ => Parser.expect lexeme.kind) state
      (fun token => token.lexeme = lexeme) lexemes := by
  have taken := sees.expectAny
  rwa [if_neg notEnd] at taken

end Sees

end Offside
