import Offside.Proofs.Lexer.Placement
import Offside.Proofs.Parser.Ending

/-!
The states that the reading of a text can pass through, and what holds in all of them. The tokens
ahead are the last ones of the text, they close no level that is not open, and at the end of input
no level is open.
-/

namespace Offside

open LexStream

namespace LexStream

/-- Nothing follows the end of input. -/
theorem Terminated.nil_of_endOfInput {items : List LexItem} (terminated : Terminated items)
    {before after : List Token} {token : Token} (found : tokens items = before ++ token :: after)
    (isEnd : token.kind = .endOfInput) : after = [] := by
  obtain ⟨left, right, rfl, _, rightTokens⟩ := List.filterMap_eq_append_iff.mp found
  obtain ⟨errors, item, later, rfl, noTokens, isToken, laterTokens⟩ :=
    List.filterMap_eq_cons_iff.mp rightTokens
  have isItem : item = .token token := by
    cases item with
    | token other => exact congrArg LexItem.token (Option.some.inj isToken)
    | error error => exact absurd isToken (Option.some_ne_none _).symm
  obtain ⟨_, rest⟩ := terminated.split (by simp)
  obtain ⟨_, rest⟩ := rest.split (List.cons_ne_nil item later)
  have nothing := rest.eq_nil_of_isTerminal (by simp [isItem, LexItem.isTerminal, isEnd])
  rw [← laterTokens, nothing]
  rfl

theorem levelsAfter?_add {depth after : Nat} {items : List LexItem}
    (replayed : levelsAfter? depth items = some after) (more : Nat) :
    levelsAfter? (depth + more) items = some (after + more) := by
  induction items generalizing depth with
  | nil => rw [levelsAfter?, Option.some.inj replayed]
  | cons item items inductionHypothesis =>
    simp only [levelsAfter?] at replayed ⊢
    split at replayed
    next opens =>
      have later := inductionHypothesis replayed
      rw [if_pos opens, Nat.add_right_comm]
      exact later
    next notOpens =>
      rw [if_neg notOpens]
      split at replayed
      next closes =>
        rw [if_pos closes]
        split at replayed
        next => contradiction
        next positive =>
          have later := inductionHypothesis replayed
          rw [if_neg (by omega), Nat.sub_add_comm (by omega)]
          exact later
      next notCloses =>
        rw [if_neg notCloses]
        exact inductionHypothesis replayed

end LexStream

/-- A text and what it is read with. -/
structure Input where
  settings : Settings
  cancelled : Bool
  source : List Char

namespace Input

/-- The state before the first token. -/
def start (input : Input) : ParserState :=
  .ofSource input.settings input.cancelled input.source

def lexed (input : Input) : Lexed :=
  .ofSource input.settings input.cancelled input.source

def tokens (input : Input) : List Token :=
  LexStream.tokens input.lexed.items

theorem ahead_start (input : Input) : input.start.ahead = input.tokens :=
  rfl

/-- Whether the last line of code is ended by a line break. -/
def endsInLineBreak (input : Input) : Bool :=
  input.lexed.final.endedAtLineBreak

theorem nil_of_endOfInput {input : Input} {before after : List Token} {token : Token}
    (found : input.tokens = before ++ token :: after) (isEnd : token.kind = .endOfInput) :
    after = [] :=
  Terminated.nil_of_endOfInput (LexState.terminated_stream input.cancelled rfl) found isEnd

theorem behind (input : Input) : input.tokens.Pairwise Token.Behind :=
  (LexState.behind_stream input.cancelled _).2

theorem continues (input : Input) : input.tokens.IsChain Token.Continues :=
  LexState.continues_stream input.cancelled .code

end Input

namespace ParserState

/-- The states that the reading of a text can pass through: those that items drawn, tokens taken,
names of what is being read, failures and reports lead to. -/
inductive Visited (input : Input) : ParserState → Prop
  | start : Visited input input.start
  | draws {state after : ParserState} (visited : Visited input state)
    (draws : Draws state after) : Visited input after
  | takes {state : ParserState} (visited : Visited input state) {token : Token}
    {others : List Token} (buffer : state.buffer = token :: others) :
    Visited input (state.afterToken token others)
  | names {state : ParserState} (visited : Visited input state)
    (nonTerminals : List NonTerminal) : Visited input { state with nonTerminals }
  | abandons {state : ParserState} (visited : Visited input state) (error : SyntaxError) :
    Visited input { state with failures := state.failures ++ [error] }
  | reports {state : ParserState} (visited : Visited input state) (error : SyntaxError) :
    Visited input { state with reported := state.reported ++ [error.toDiagnostic] }

variable {input : Input} {state : ParserState}

/-- The levels open in a state are those that the tokens ahead close, and no others. -/
def Levelled (state : ParserState) : Prop :=
  ∃ depth, levelsAfter? state.depth (state.ahead.map .token) = some depth ∧
    ((∃ token ∈ state.ahead, token.kind = .endOfInput) → depth = 0)

/-- What holds in every state: it is one of a lexer that goes on as that of the text does. -/
structure Sound (input : Input) (state : ParserState) : Prop where
  ready : state.Ready
  settings : state.settings = input.settings
  final : state.lexer.drained state.cancelled = input.lexed.final
  suffix : state.ahead <:+ input.tokens
  levelled : state.Levelled

theorem levelled_start (input : Input) : input.start.Levelled := by
  obtain ⟨depth, replayed, atEnd⟩ := LexState.levelsAfter?_stream input.cancelled
    (.ofSource input.settings.tabWidth input.source)
  have noLevels : (LexState.ofSource input.settings.tabWidth input.source).layout.depth = 0 := by
    unfold LexState.ofSource
    rfl
  rw [noLevels] at replayed
  refine ⟨depth, ?_, fun ⟨token, member, isEnd⟩ => atEnd token (mem_tokens.mp member) isEnd⟩
  rw [input.ahead_start, Input.tokens, levelsAfter?_tokens]
  exact replayed

/-- The levels before a token and after it. -/
theorem levelsAfter?_cons_token {depth after : Nat} {token : Token} {others : List Token}
    (replayed : levelsAfter? depth ((token :: others).map .token) = some after) :
    levelsAfter? (depthAfter token.kind depth) (others.map .token) = some after ∧
      (token.kind = .dedent → 0 < depth) := by
  simp only [List.map_cons, levelsAfter?, LexItem.isIndent, LexItem.isDedent,
    decide_eq_true_eq] at replayed
  split at replayed
  next opens =>
    refine ⟨?_, fun closes => Kind.noConfusion (closes.symm.trans opens)⟩
    rwa [opens]
  next notOpens =>
    split at replayed
    next closes =>
      split at replayed
      next => contradiction
      next positive =>
        refine ⟨?_, fun _ => Nat.pos_of_ne_zero positive⟩
        rwa [closes]
    next notCloses =>
      refine ⟨?_, fun closes => absurd closes notCloses⟩
      have unchanged : depthAfter token.kind depth = depth := by
        unfold depthAfter
        split
        · contradiction
        · contradiction
        · rfl
      rwa [unchanged]

theorem levelsAfter?_singleton {depth after : Nat} {token : Token}
    (replayed : levelsAfter? depth [.token token] = some after) :
    levelsAfter? (depthAfter token.kind depth) [] = some after ∧
      (token.kind = .dedent → 0 < depth) :=
  @levelsAfter?_cons_token _ _ _ [] replayed

theorem Sound.takes (sound : Sound input state) {token : Token} {others : List Token}
    (buffer : state.buffer = token :: others) : Sound input (state.afterToken token others) := by
  obtain ⟨ready, settings, final, suffix, depth, replayed, atEnd⟩ := sound
  obtain ⟨rest, ahead⟩ : ∃ rest, state.ahead = token :: rest := by
    rw [ParserState.ahead, buffer, List.cons_append]
    exact ⟨_, rfl⟩
  have aheadAfter := ahead_afterToken buffer ahead
  refine ⟨ready.afterToken buffer, settings, final, ?_, depth, ?_, ?_⟩
  · exact (Moves.takes buffer).suffix.trans suffix
  · by_cases isEnd : token.kind = .endOfInput
    · rw [aheadAfter, if_pos isEnd, ← ahead, afterToken, isEnd]
      exact replayed
    · rw [aheadAfter, if_neg isEnd]
      rw [ahead] at replayed
      exact (levelsAfter?_cons_token replayed).1
  · rintro ⟨last, member, isEnd⟩
    exact atEnd ⟨last, (Moves.takes buffer).suffix.mem member, isEnd⟩

theorem Visited.sound (visited : Visited input state) : Sound input state := by
  induction visited with
  | start =>
    exact ⟨ready_ofSource _ _ _, rfl, rfl, List.suffix_rfl, levelled_start input⟩
  | @draws state after _ draws inductionHypothesis =>
    obtain ⟨ready, settings, final, suffix, levelled⟩ := inductionHypothesis
    have ahead := draws.ahead_eq
    refine ⟨draws.ready ready, ?_, ?_, ahead ▸ suffix, ?_⟩
    · cases draws <;> exact settings
    · cases draws with
      | token _ found => exact Lexer.drained_of_next? found ▸ final
      | fatal _ found => exact Lexer.drained_of_next? found ▸ final
      | report _ found => exact Lexer.drained_of_next? found ▸ final
    · have depth : after.depth = state.depth := by cases draws <;> rfl
      unfold Levelled
      rw [depth, ahead]
      exact levelled
  | takes _ buffer inductionHypothesis => exact inductionHypothesis.takes buffer
  | names _ _ inductionHypothesis =>
    obtain ⟨⟨terminated, isFatal⟩, settings, final, suffix, levelled⟩ := inductionHypothesis
    exact ⟨⟨terminated, isFatal⟩, settings, final, suffix, levelled⟩
  | abandons _ _ inductionHypothesis =>
    obtain ⟨⟨terminated, isFatal⟩, settings, final, suffix, levelled⟩ := inductionHypothesis
    exact ⟨⟨terminated, isFatal⟩, settings, final, suffix, levelled⟩
  | reports _ _ inductionHypothesis =>
    obtain ⟨⟨terminated, isFatal⟩, settings, final, suffix, levelled⟩ := inductionHypothesis
    exact ⟨⟨terminated, isFatal⟩, settings, final, suffix, levelled⟩

namespace Visited

variable (visited : Visited input state)

include visited

theorem ready : state.Ready :=
  visited.sound.ready

theorem fills {after : ParserState} (fills : Fills state after) : Visited input after := by
  induction fills with
  | refl => exact visited
  | tail _ draws inductionHypothesis => exact inductionHypothesis.draws draws

theorem passes {after : ParserState} (passes : Passes state after) : Visited input after := by
  induction passes with
  | refl => exact visited
  | tail _ moves inductionHypothesis =>
    cases moves with
    | draws draws => exact inductionHypothesis.draws draws
    | takes buffer => exact inductionHypothesis.takes buffer

theorem nil_of_endOfInput {token : Token} {rest : List Token} (ahead : state.ahead = token :: rest)
    (isEnd : token.kind = .endOfInput) : rest = [] := by
  obtain ⟨before, whole⟩ := visited.sound.suffix
  rw [ahead] at whole
  exact Input.nil_of_endOfInput whole.symm isEnd

/-- At the end of input no level is open. -/
theorem depth_eq_zero {token : Token} {rest : List Token} (ahead : state.ahead = token :: rest)
    (isEnd : token.kind = .endOfInput) : state.depth = 0 := by
  obtain ⟨depth, replayed, atEnd⟩ := visited.sound.levelled
  have noLevels := atEnd ⟨token, ahead ▸ List.mem_cons_self, isEnd⟩
  have nothing := visited.nil_of_endOfInput ahead isEnd
  rw [ahead, nothing] at replayed
  have same := (levelsAfter?_cons_token replayed).1
  rw [isEnd] at same
  exact (Option.some.inj same).trans noLevels

/-- A level is open where one is closed. -/
theorem depth_pos {token : Token} {rest : List Token} (ahead : state.ahead = token :: rest)
    (closes : token.kind = .dedent) : 0 < state.depth := by
  obtain ⟨depth, replayed, _⟩ := visited.sound.levelled
  rw [ahead] at replayed
  exact (levelsAfter?_cons_token replayed).2 closes

theorem endedAtLineBreak (atEnd : state.AtEnd) :
    state.lexer.endedAtLineBreak = input.endsInLineBreak := by
  have missing := (visited.ready.nothing_of_atEnd atEnd).2
  rw [Input.endsInLineBreak, ← visited.sound.final, Lexer.drained_of_next?_eq_none missing]

theorem behind : state.ahead.Pairwise Token.Behind :=
  input.behind.sublist visited.sound.suffix.sublist

theorem continues : state.ahead.IsChain Token.Continues :=
  input.continues.suffix visited.sound.suffix

end Visited

/-! ## Levels -/

/-- From one state to a later one, all levels opened were closed but for some, and none that was
open before. -/
structure Rises (levels : Nat) (before after : ParserState) : Prop where
  taken : ∃ taken, before.ahead = taken ++ after.ahead ∧
    levelsAfter? 0 (taken.map .token) = some levels
  depth : after.depth = before.depth + levels

namespace Rises

variable {levels : Nat} {before middle after : ParserState}

theorem refl (state : ParserState) : Rises 0 state state :=
  ⟨⟨[], rfl, rfl⟩, rfl⟩

theorem trans {more : Nat} (rises : Rises levels before middle) (later : Rises more middle after) :
    Rises (levels + more) before after := by
  obtain ⟨⟨taken, ahead, replayed⟩, depth⟩ := rises
  obtain ⟨⟨takenLater, aheadLater, replayedLater⟩, depthLater⟩ := later
  refine ⟨⟨taken ++ takenLater, ?_, ?_⟩, ?_⟩
  · rw [ahead, aheadLater, List.append_assoc]
  · rw [List.map_append, levelsAfter?_append, replayed]
    have shifted := levelsAfter?_add replayedLater levels
    rw [Nat.zero_add, Nat.add_comm more] at shifted
    exact shifted
  · rw [depthLater, depth, Nat.add_assoc]

theorem of_same (rises : Rises levels before middle) (ahead : after.ahead = middle.ahead)
    (depth : after.depth = middle.depth) : Rises levels before after := by
  obtain ⟨taken, beforeDepth⟩ := rises
  exact ⟨ahead ▸ taken, depth.trans beforeDepth⟩

/-- The levels after a token is taken. -/
theorem takes {later : Nat} (rises : Rises levels before middle) {token : Token}
    {rest : List Token} (ahead : middle.ahead = token :: rest) (aheadAfter : after.ahead = rest)
    (depthAfter : after.depth = depthAfter token.kind middle.depth)
    (replayed : levelsAfter? levels [.token token] = some later) : Rises later before after := by
  obtain ⟨⟨taken, whole, takenReplayed⟩, depth⟩ := rises
  refine ⟨⟨taken ++ [token], ?_, ?_⟩, ?_⟩
  · rw [whole, ahead, aheadAfter, List.append_assoc, List.singleton_append]
  · rw [List.map_append, levelsAfter?_append, takenReplayed]
    exact replayed
  · rw [depthAfter, depth]
    obtain ⟨step, positive⟩ := levelsAfter?_singleton replayed
    simp only [levelsAfter?, Option.some.injEq] at step
    rw [← step]
    unfold ParserState.depthAfter
    split
    next => omega
    next closes =>
      have := positive closes
      omega
    next => rfl

end Rises

end ParserState

end Offside
