import Mathlib.Data.List.TakeWhile
import Offside.Proofs.Parser.AbreastSteps

/-!
Passing over line breaks and going on after an error, side by side. Line breaks that the right
text has behind the seam are passed over with those before it. After an error both readings stop
at the same end of the statement, which is never outside of the block that the statement is in.
-/

namespace Offside

open LexStream ParserState Offside.Parser

variable {seam : Seam} {firm : Bool} {slack : Slack} {levels : Nat}
  {origin left right : ParserState}

/-! ## Line breaks -/

/-- Tokens that leave the levels as they are. -/
theorem levelsAfter?_of_isLine {lines : List Token} (areLines : ∀ token ∈ lines, token.isLine = true)
    (levels : Nat) : levelsAfter? levels (lines.map .token) = some levels := by
  induction lines with
  | nil => rfl
  | cons token lines inductionHypothesis =>
    have isLine : token.kind = .newline :=
      of_decide_eq_true (areLines token List.mem_cons_self)
    have later := inductionHypothesis fun other member => areLines other (List.mem_cons_of_mem _ member)
    rw [List.map_cons, ← List.singleton_append, levelsAfter?_append,
      levelsAfter?_of_isFlat (by rw [isLine]; rfl)]
    exact later

/-- What passing over line breaks comes to: there are none ahead, or a fatal error. -/
structure PastLines (state after : ParserState) : Prop where
  passes : Passes state after
  ahead : after.ahead = state.ahead.dropWhile Token.isLine
  depth : after.depth = state.depth
  failures : after.failures = state.failures

/-- The next token was looked at and is no line break. -/
def ParserState.AtToken (state : ParserState) : Prop :=
  ∃ token others, state.buffer = token :: others ∧ token.kind ≠ .newline

theorem ParserState.AtToken.ahead_ne_nil {state : ParserState} (atToken : state.AtToken) :
    state.ahead ≠ [] := by
  obtain ⟨token, others, buffer, _⟩ := atToken
  obtain ⟨rest, ahead⟩ := ahead_of_buffer buffer
  rw [ahead]
  exact List.cons_ne_nil _ _

theorem skipNewlines_cases {fuel : Nat} {state : ParserState} (ready : state.Ready)
    (enough : state.ahead.length < fuel) :
    ∃ after, PastLines state after ∧
      ((skipNewlines fuel state = .ok () after ∧ after.AtToken) ∨
        ∃ error, skipNewlines fuel state = .error (.failure error) after ∧ after.ahead = []) := by
  induction fuel generalizing state with
  | zero => omega
  | succ fuel inductionHypothesis =>
    obtain ⟨middle, fills, ⟨token, others, rest, buffer, ahead, result⟩ |
      ⟨error, ends, nothing, result⟩⟩ := peek_cases ready
    · obtain ⟨depth, failures⟩ := fills.unchanged
      by_cases isLine : token.kind = .newline
      · have taken := consume_of_buffer buffer
        have aheadAfter := ahead_afterToken buffer (fills.ahead_eq.trans ahead)
        rw [if_neg (by rw [isLine]; exact Kind.noConfusion)] at aheadAfter
        have readyAfter := (fills.ready ready).afterToken buffer
        rw [ahead, List.length_cons] at enough
        obtain ⟨after, ⟨passes, aheadLater, depthLater, failuresLater⟩, outcome⟩ :=
          inductionHypothesis readyAfter (by rw [aheadAfter]; omega)
        have goesOn : skipNewlines (fuel + 1) state =
            skipNewlines fuel (middle.afterToken token others) := by
          have some : consumeKind .newline state = .ok (some token) (middle.afterToken token others) := by
            rw [consumeKind, consumeIf, bind_ok result, if_pos (decide_eq_true isLine), bind_ok taken]
            rfl
          rw [skipNewlines, bind_ok some]
          rfl
        refine ⟨after, ⟨?_, ?_, ?_, failuresLater.trans failures⟩, goesOn ▸ outcome⟩
        · exact (fills.passes.take buffer).trans passes
        · have tokenIsLine : token.isLine = true := decide_eq_true isLine
          rw [aheadLater, aheadAfter, ahead, List.dropWhile_cons_of_pos tokenIsLine]
        · rw [depthLater, afterToken, isLine]
          exact depth
      · have none : consumeKind .newline state = .ok none middle := by
          rw [consumeKind, consumeIf, bind_ok result, if_neg (by simpa using isLine)]
          rfl
        refine ⟨middle, ⟨fills.passes, ?_, depth, failures⟩,
          Or.inl ⟨?_, token, others, buffer, isLine⟩⟩
        · rw [fills.ahead_eq, ahead,
            List.dropWhile_cons_of_neg (by simpa [Token.isLine] using isLine)]
        · rw [skipNewlines, bind_ok none]
          rfl
    · obtain ⟨depth, failures⟩ := fills.unchanged
      have missing : consumeKind .newline state = .error (.failure (.ofLexError error)) middle := by
        rw [consumeKind, consumeIf, bind_error result]
      refine ⟨middle, ⟨fills.passes, ?_, depth, failures⟩, Or.inr ⟨.ofLexError error, ?_, ?_⟩⟩
      · rw [fills.ahead_eq, nothing]
        rfl
      · rw [skipNewlines, bind_error missing]
      · rw [fills.ahead_eq, nothing]

theorem removeNewlines_cases {state : ParserState} (ready : state.Ready) :
    ∃ after, PastLines state after ∧
      ((removeNewlines state = .ok () after ∧ after.AtToken) ∨
        ∃ error, removeNewlines state = .error (.failure error) after ∧ after.ahead = []) :=
  skipNewlines_cases ready (by have := state.length_ahead_le_fuel; omega)

/-- Line breaks at the seam belong to both texts or, behind it, to the right one. -/
theorem Seam.Ahead.dropLines {lefts rights : List Token} (ahead : seam.Ahead lefts rights) :
    seam.Ahead (lefts.dropWhile Token.isLine) (rights.dropWhile Token.isLine) ∨
      ∃ last lines, lefts.dropWhile Token.isLine = [last] ∧ last.kind = .endOfInput ∧
        seam.after = some (lines ++ rights.dropWhile Token.isLine) ∧
          ∀ token ∈ lines, token.isLine = true := by
  induction ahead with
  | @more left right lefts rights twins ahead inductionHypothesis =>
    have same : right.isLine = left.isLine := by
      rw [Token.isLine, Token.isLine, twins.kind]
    cases isLine : left.isLine with
    | true =>
      rw [isLine] at same
      rw [List.dropWhile_cons_of_pos isLine, List.dropWhile_cons_of_pos same]
      exact inductionHypothesis
    | false =>
      rw [isLine] at same
      rw [List.dropWhile_cons_of_neg (by simp [isLine]), List.dropWhile_cons_of_neg (by simp [same])]
      exact Or.inl (.more twins ahead)
  | together after => exact Or.inl (.together after)
  | @line last newline after isEnd isLine goesOn =>
    have lastIsNone : last.isLine = false := by simp [Token.isLine, isEnd]
    have newlineIsLine : newline.isLine = true := decide_eq_true isLine
    refine Or.inr ⟨last, after.takeWhile Token.isLine, ?_, isEnd, ?_, ?_⟩
    · rw [List.dropWhile_cons_of_neg (by simp [lastIsNone])]
    · rw [List.dropWhile_cons_of_pos newlineIsLine, List.takeWhile_append_dropWhile]
      exact goesOn
    · exact fun token member => List.mem_takeWhile_imp member
  | level twins closes isEnd goesOn =>
    have same := twins.kind.trans closes
    rw [List.dropWhile_cons_of_neg (by simp [Token.isLine, closes]),
      List.dropWhile_cons_of_neg (by simp [Token.isLine, same])]
    exact Or.inl (.level twins closes isEnd goesOn)

theorem Seam.Ahead.ne_nil {lefts rights : List Token} (ahead : seam.Ahead lefts rights) :
    lefts = [] ↔ rights = [] := by
  cases ahead <;> simp

theorem PastLines.rises {after : ParserState} (past : PastLines left after)
    (rises : Rises levels origin left) : Rises levels origin after := by
  have later : Rises 0 left after := by
    refine ⟨⟨left.ahead.takeWhile Token.isLine, ?_, ?_⟩, past.depth⟩
    · rw [past.ahead, List.takeWhile_append_dropWhile]
    · exact levelsAfter?_of_isLine (fun token member => List.mem_takeWhile_imp member) 0
  exact rises.trans later

theorem alike_removeNewlines (abreast : Abreast seam levels origin left right) :
    Alike seam firm .final origin
      (fun _ after _ after' => Abreast seam levels origin after after' ∨
        ∃ lines, (∀ token ∈ lines, token.isLine = true) ∧
          Across seam levels origin lines after after')
      removeNewlines left removeNewlines right := by
  obtain ⟨after, past, outcome⟩ := removeNewlines_cases abreast.visitedLeft.ready
  obtain ⟨after', past', outcome'⟩ := removeNewlines_cases abreast.visitedRight.ready
  have visitedLeft := abreast.visitedLeft.passes past.passes
  have visitedRight := abreast.visitedRight.passes past'.passes
  have failures : after'.failures.length = after.failures.length + seam.extra := by
    rw [past.failures, past'.failures]
    exact abreast.failures
  have depth : after'.depth = after.depth := by
    rw [past.depth, past'.depth]
    exact abreast.depth
  have rises := past.rises abreast.rises
  have ahead := abreast.ahead.dropLines
  rw [← past.ahead, ← past'.ahead] at ahead
  unfold Alike
  obtain before | ⟨last, lines, found, isEnd, goesOn, areLines⟩ := ahead
  · have both := before.ne_nil
    obtain ⟨result, more⟩ | ⟨error, result, nothing⟩ := outcome
    · obtain ⟨result', _⟩ | ⟨_, _, nothing'⟩ := outcome'
      · rw [result, result']
        exact .ok (Or.inl ⟨visitedLeft, visitedRight, before, depth, failures, rises⟩)
      · exact absurd (both.mpr nothing') more.ahead_ne_nil
    · obtain ⟨_, more'⟩ | ⟨error', result', nothing'⟩ := outcome'
      · exact absurd (both.mp nothing) more'.ahead_ne_nil
      · rw [result, result']
        rw [nothing, nothing'] at before
        cases before with
        | together after => exact .failure after failures
  · obtain ⟨result, _⟩ | ⟨_, _, nothing⟩ := outcome
    · rw [result]
      obtain ⟨result', _⟩ | ⟨error', result', nothing'⟩ := outcome'
      · rw [result']
        refine .ok (Or.inr ⟨lines, areLines, visitedLeft, visitedRight, ⟨last, found, isEnd⟩,
          goesOn, ?_, failures, rises⟩)
        rw [depth]
        exact visitedLeft.depth_eq_zero found isEnd
      · rw [result']
        rw [nothing', List.append_nil] at goesOn
        exact .lost rfl ⟨visitedLeft, ⟨lines, goesOn, areLines⟩, ⟨last, found, isEnd⟩, failures,
          levels, rises⟩
    · rw [found] at nothing
      contradiction

/-! ## Recovery -/

/-- Two statements that start with corresponding tokens, neither of which closes a level. -/
structure Starts (seam : Seam) (origin : ParserState) (start start' : Position) : Prop where
  places : seam.places start start'
  first : ∃ next rest, origin.ahead = next :: rest ∧ next.span.first = start ∧
    next.kind ≠ .dedent

/-- A token that closes a level is behind the start of a statement before it. -/
theorem Starts.lt_of_dedent {start start' : Position} (starts : Starts seam origin start start')
    (visited : Visited seam.left origin) (rises : Rises levels origin left) {token : Token}
    {rest : List Token} (ahead : left.ahead = token :: rest) (closes : token.kind = .dedent) :
    start < token.span.first := by
  obtain ⟨next, others, found, rfl, notDedent⟩ := starts.first
  obtain ⟨⟨taken, whole, _⟩, _⟩ := rises
  have behind := visited.behind
  rw [ahead, found] at whole
  rw [found] at behind
  cases taken with
  | nil =>
    obtain ⟨rfl, -⟩ := List.cons.inj whole
    contradiction
  | cons first taken =>
    obtain ⟨rfl, rfl⟩ := List.cons.inj whole
    have later : token ∈ taken ++ token :: rest :=
      List.mem_append_right _ List.mem_cons_self
    exact (List.pairwise_cons.mp behind).1 token later closes notDedent

/-- Where skipping tokens ends: at an end of the statement, outside of which nothing was taken, or
at the end of a text whose last line is not ended. -/
def SkippedTo (seam : Seam) (origin : ParserState) (found : Bool) (left : ParserState)
    (found' : Bool) (right : ParserState) : Prop :=
  found' = found ∧
    match found with
    | true => Abreast seam 0 origin left right ∨ Across seam 0 origin [] left right
    | false => seam.after = none ∧
      right.failures.length = left.failures.length + seam.extra

theorem Abreast.levels_eq_zero (abreast : Abreast seam levels origin left right)
    (same : left.depth = origin.depth) : levels = 0 := by
  have := abreast.rises.depth
  omega

/-- Two readings that both see the end of input end together. -/
theorem Abreast.together (abreast : Abreast seam levels origin left right) {first first' : Token}
    {others others' : List Token} (twins : Twins seam.places first first')
    (buffer : left.buffer = first :: others) (buffer' : right.buffer = first' :: others')
    (isEnd : first.kind = .endOfInput) : seam.after = none := by
  obtain ⟨rest, found⟩ := ahead_of_buffer buffer
  obtain ⟨rest', found'⟩ := ahead_of_buffer buffer'
  have nothing := abreast.visitedLeft.nil_of_endOfInput found isEnd
  have ahead := abreast.ahead
  rw [found, found', nothing] at ahead
  cases ahead with
  | more _ ahead =>
    cases ahead with
    | together after => exact after
  | line _ isLine =>
    rw [twins.kind, isEnd] at isLine
    contradiction

theorem levelsAfter?_of_closesOwn {token : Token} (closesOwn : token.kind = .dedent → 0 < levels) :
    ∃ later, levelsAfter? levels [.token token] = some later := by
  by_cases closes : token.kind = .dedent
  · have positive := closesOwn closes
    exact ⟨levels - 1, by simp [levelsAfter?, LexItem.isIndent, LexItem.isDedent, closes,
      Nat.ne_of_gt positive]⟩
  · by_cases opens : token.kind = .indent
    · exact ⟨levels + 1, by simp [levelsAfter?, LexItem.isIndent, opens]⟩
    · exact ⟨levels, by simp [levelsAfter?, LexItem.isIndent, LexItem.isDedent, closes, opens]⟩

theorem alike_skipTokens {start start' : Position} (starts : Starts seam origin start start')
    (visited : Visited seam.left origin) {fuel fuel' : Nat} (enough : left.ahead.length < fuel)
    (enough' : right.ahead.length < fuel') (abreast : Abreast seam levels origin left right) :
    Alike seam firm slack origin (SkippedTo seam origin) (skipTokens origin.depth start fuel) left
      (skipTokens origin.depth start' fuel') right := by
  induction fuel generalizing fuel' left right levels with
  | zero => omega
  | succ fuel inductionHypothesis =>
    cases fuel' with
    | zero => omega
    | succ fuel' =>
      rw [skipTokens, skipTokens]
      refine Alike.get ?_
      have sameDepth := abreast.depth
      dsimp only
      refine (alike_peek abreast).bind ?_
      rintro next middle next' middle' ⟨looked, sight, same, same'⟩
      have depth := looked.rises.depth
      cases sight with
      | @line others others' after isEnd isLine buffer buffer' ahead ahead' goesOn =>
        have noDepth := looked.visitedLeft.depth_eq_zero ahead isEnd
        have ends : middle.lexer.endedAtLineBreak = true := by
          rw [looked.visitedLeft.endedAtLineBreak ⟨next, others, buffer, isEnd⟩]
          exact seam.apart (by simp [goesOn])
        have atDepth : right.depth = origin.depth := by
          have := abreast.rises.depth
          omega
        rw [isEnd, isLine]
        dsimp only
        rw [if_pos (by simp [atDepth]), Alike, bind_get,
          bind_ok (discard_consume_of_buffer buffer'), ends]
        refine .ok ⟨rfl, Or.inr ?_⟩
        obtain rfl : levels = 0 := by omega
        exact looked.cross_line isEnd isLine ahead buffer' ahead' goesOn
      | @twins others others' twins buffer buffer' =>
        rw [twins.kind]
        split
        next isEnd =>
          have together := looked.together twins buffer buffer' isEnd
          have flag := looked.visitedLeft.endedAtLineBreak ⟨next, others, buffer, isEnd⟩
          have flag' := looked.visitedRight.endedAtLineBreak
            ⟨next', others', buffer', twins.kind.trans isEnd⟩
          refine Alike.get (alike_pure ⟨?_, ?_⟩)
          · rw [flag, flag', seam.together together]
          · split
            next =>
              obtain ⟨rest, found⟩ := ahead_of_buffer buffer
              have noDepth := looked.visitedLeft.depth_eq_zero found isEnd
              obtain rfl : levels = 0 := by omega
              exact Or.inl looked
            next => exact ⟨together, looked.failures⟩
        next kind notEnd =>
          rw [sameDepth]
          split
          next stops =>
            simp only [Bool.and_eq_true, Bool.or_eq_true, decide_eq_true_eq] at stops
            obtain ⟨atDepth, ends⟩ := stops
            obtain rfl := abreast.levels_eq_zero atDepth
            have flat : next.kind.isFlat = true := by
              rcases ends with ends | ends <;> rw [ends] <;> rfl
            exact (alike_discard_flat looked (.twins twins buffer buffer') flat).bind fun _ _ _ _ taken =>
                alike_pure ⟨rfl, Or.inl taken⟩
          next =>
            have advances : decide (start' < next'.span.first) = decide (start < next.span.first) :=
              decide_eq_decide.mpr (seam.ordered starts.places twins.place).symm
            rw [advances]
            split
            next stops =>
              simp only [Bool.and_eq_true, decide_eq_true_eq] at stops
              obtain rfl := abreast.levels_eq_zero stops.1.1
              exact alike_pure ⟨rfl, Or.inl looked⟩
            next goesOn =>
              obtain ⟨rest, found⟩ := ahead_of_buffer buffer
              -- A level that is closed here is one that was opened behind the start.
              have closesOwn : next.kind = .dedent → 0 < levels := by
                intro closes
                refine Nat.pos_of_ne_zero fun noLevels => goesOn ?_
                have behind := starts.lt_of_dedent visited looked.rises found closes
                have atDepth : left.depth = origin.depth := by
                  rw [abreast.rises.depth, noLevels, Nat.add_zero]
                simp [closes, behind, atDepth]
              obtain ⟨later, replayed⟩ := levelsAfter?_of_closesOwn closesOwn
              refine (alike_consume looked (.twins twins buffer buffer') notEnd replayed).bind ?_
              rintro token after token' after' ⟨isNext, isNext', ahead, ahead', arrived⟩
              subst isNext isNext'
              refine Alike.get ?_
              rw [twins.kind]
              rcases arrived with before | ⟨closes, _, across⟩
              · rw [before.depth]
                split
                next stops =>
                  simp only [Bool.and_eq_true, decide_eq_true_eq] at stops
                  obtain rfl := before.levels_eq_zero stops.2
                  exact alike_pure ⟨rfl, Or.inl before⟩
                next =>
                  have fewer := congrArg List.length (same.symm.trans ahead)
                  have fewer' := congrArg List.length (same'.symm.trans ahead')
                  rw [List.length_cons] at fewer fewer'
                  exact inductionHypothesis (by omega) (by omega) before
              · obtain ⟨noDepth, originDepth, rfl⟩ := across.depth_eq_zero
                rw [if_pos (by simp [closes, noDepth, originDepth]),
                  if_pos (by simp [closes, across.depth, originDepth])]
                exact alike_pure ⟨rfl, Or.inr across⟩

theorem Abreast.reported (abreast : Abreast seam levels origin left right)
    (error error' : SyntaxError) :
    Abreast seam levels origin
      { left with reported := left.reported ++ [error.toDiagnostic] }
      { right with reported := right.reported ++ [error'.toDiagnostic] } :=
  ⟨abreast.visitedLeft.reports error, abreast.visitedRight.reports error', abreast.ahead,
    abreast.depth, abreast.failures, abreast.rises.of_same rfl rfl⟩

theorem Across.reported {taken : List Token} (across : Across seam levels origin taken left right)
    (error error' : SyntaxError) :
    Across seam levels origin taken
      { left with reported := left.reported ++ [error.toDiagnostic] }
      { right with reported := right.reported ++ [error'.toDiagnostic] } :=
  ⟨across.visitedLeft.reports error, across.visitedRight.reports error', across.atEnd,
    across.after, across.depth, across.failures, across.rises.of_same rfl rfl⟩

theorem Abreast.abandoned (abreast : Abreast seam levels origin left right)
    (error error' : SyntaxError) :
    Abreast seam levels origin { left with failures := left.failures ++ [error] }
      { right with failures := right.failures ++ [error'] } := by
  refine ⟨abreast.visitedLeft.abandons error, abreast.visitedRight.abandons error', abreast.ahead,
    abreast.depth, ?_, abreast.rises.of_same rfl rfl⟩
  have failures := abreast.failures
  simp only [List.length_append, List.length_cons, List.length_nil]
  omega

theorem Alike.fueled {α : Type} {post : α → ParserState → α → ParserState → Prop}
    {parser parser' : Nat → Parser α}
    (inner : Alike seam firm slack origin post (parser left.fuel) left (parser' right.fuel) right) :
    Alike seam firm slack origin post (fueled parser) left (fueled parser') right :=
  inner

/-- Both readings go on behind the same end of the statement. -/
theorem alike_recover {start start' : Position} (starts : Starts seam origin start start')
    (visited : Visited seam.left origin) {error error' : SyntaxError}
    (abreast : Abreast seam levels origin left right) :
    Alike seam firm slack origin
      (fun _ after _ after' =>
        Abreast seam 0 origin after after' ∨ Across seam 0 origin [] after after')
      (recover error origin.depth start) left (recover error' origin.depth start') right := by
  have enough : left.ahead.length < left.fuel := by
    have := left.length_ahead_le_fuel
    omega
  have enough' : right.ahead.length < right.fuel := by
    have := right.length_ahead_le_fuel
    omega
  have skipped : Alike seam true .none origin (SkippedTo seam origin)
      (skipStatement origin.depth start) left (skipStatement origin.depth start') right :=
    Alike.fueled (alike_skipTokens starts visited enough enough' abreast)
  unfold Alike at skipped ⊢
  simp only [recover]
  generalize skipStatement origin.depth start left = result at skipped
  generalize skipStatement origin.depth start' right = result' at skipped
  cases skipped with
  | @ok found found' after after' holds =>
    obtain ⟨rfl, ends⟩ := holds
    cases found' with
    | true =>
      refine .ok ?_
      rcases ends with before | across
      · exact Or.inl (before.reported error error')
      · exact Or.inr (across.reported error error')
    | false => exact .failure ends.1 ends.2
  | recoverable soft => contradiction
  | stranded soft => contradiction
  | failure together failures => exact .failure together failures
  | failed apart => exact .failed apart
  | exhausted => exact .exhausted
  | lost isFinal => contradiction
  | doomed isDoomed => contradiction

/-! ## Attempts -/

/-- The seam is not in reach: there is none, or a level is open that is closed before it. -/
def Deep (seam : Seam) (origin : ParserState) : Prop :=
  seam.after = none ∨ 0 < origin.depth

theorem Abreast.deep (abreast : Abreast seam (levels + 1) origin left right) : Deep seam left := by
  have := abreast.rises.depth
  exact Or.inr (by omega)

theorem Across.not_deep {taken : List Token} (across : Across seam levels origin taken left right) :
    ¬ Deep seam origin := by
  rintro (together | deep)
  · rw [across.after] at together
    contradiction
  · have := across.depth_eq_zero
    omega

theorem not_deep_of_atEnd {input : Input} (visited : Visited input left)
    (atEnd : ∃ last, left.ahead = [last] ∧ last.kind = .endOfInput)
    (rises : ∃ levels, Rises levels origin left) (apart : seam.after ≠ none) : ¬ Deep seam origin := by
  rintro (together | deep)
  · exact apart together
  · obtain ⟨last, ahead, isEnd⟩ := atEnd
    obtain ⟨levels, rises⟩ := rises
    have noDepth := visited.depth_eq_zero ahead isEnd
    have depth := rises.depth
    omega

/-- What an attempt comes to away from the seam. -/
def Attempted {α : Type} (seam : Seam) (same : α → α → Prop) (origin : ParserState)
    (result : Except SyntaxError α) (left : ParserState) (result' : Except SyntaxError α)
    (right : ParserState) : Prop :=
  match result, result' with
  | .ok value, .ok other => same value other ∧ Abreast seam 0 origin left right
  | .error _, .error _ => ∃ above, Abreast seam above origin left right
  | _, _ => False

/-- Away from the seam an attempt succeeds for both readings or fails for both. -/
theorem alike_attempt {α : Type} {same : α → α → Prop} {across : α → List Token → Prop}
    {parser parser' : Parser α} (deep : Deep seam origin)
    (inner : Alike seam false .final origin (Arrives seam same across 0 origin) parser left parser'
      right) :
    Alike seam firm slack origin (Attempted seam same origin) (attempt parser) left
      (attempt parser') right := by
  unfold Alike at inner ⊢
  unfold attempt
  generalize parser left = result at inner
  generalize parser' right = result' at inner
  cases inner with
  | ok holds =>
    obtain ⟨isSame, before | ⟨taken, _, crossed⟩⟩ := holds
    · exact .ok ⟨isSame, before⟩
    · exact absurd deep crossed.not_deep
  | @recoverable error error' _ _ above soft abreast => exact .ok ⟨above, abreast.abandoned error error'⟩
  | stranded soft doomed =>
    exact absurd deep (not_deep_of_atEnd doomed.visited doomed.atEnd doomed.rises doomed.apart)
  | failure together failures => exact .failure together failures
  | failed apart => exact .failed apart
  | exhausted => exact .exhausted
  | lost isFinal lost =>
    obtain ⟨lines, goesOn, _⟩ := lost.after
    exact absurd deep (not_deep_of_atEnd lost.visited lost.atEnd lost.rises (by simp [goesOn]))
  | doomed isDoomed => contradiction

/-- What firm readings come to does not depend on where they are said to start. -/
theorem Alike.firmly {α : Type} {post : α → ParserState → α → ParserState → Prop}
    {other : ParserState} {parser parser' : Parser α}
    (inner : Alike seam true .none origin post parser left parser' right) :
    Alike seam firm slack other post parser left parser' right := by
  unfold Alike at inner ⊢
  generalize parser left = result at inner
  generalize parser' right = result' at inner
  cases inner with
  | ok holds => exact .ok holds
  | recoverable soft => contradiction
  | stranded soft => contradiction
  | failure together failures => exact .failure together failures
  | failed apart => exact .failed apart
  | exhausted => exact .exhausted
  | lost isFinal => contradiction
  | doomed isDoomed => contradiction

end Offside
