import Offside.Proofs.Parser.AbreastRecovery
import Offside.Proofs.Syntax.Erase

/-!
What is said of a rule that two texts are read by side by side, and the rules that need no fuel.
Values are the same up to spans. An expression can end at the seam only with the layout of a
switch: then the left reading is at its end, and whatever has to follow the expression is missing
there.
-/

namespace Offside

open LexStream ParserState Offside.Parser

/-! ## What is said of a rule -/

/-- Values that something makes the same, such as the erasure of their spans. -/
def SameBy {α β : Type} (view : α → β) (value other : α) : Prop :=
  view other = view value

theorem SameBy.eq {α β : Type} {view : α → β} {value other : α} (same : SameBy view value other) :
    view other = view value :=
  same

/-- The next token, if there is one, passes a test. -/
def ParserState.Heads (test : Kind → Bool) (state : ParserState) : Prop :=
  ∀ token rest, state.ahead = token :: rest → test token.kind = true

section

variable {α : Type} (seam : Seam)

/-- Two readings by a rule stay before the seam and come to the same, if the next token passes a
test. -/
def KeepsFrom (test : Kind → Bool) (same : α → α → Prop) (parser parser' : Parser α) : Prop :=
  ∀ {slack : Slack} {levels : Nat} {origin left right : ParserState}, left.Heads test →
    Abreast seam levels origin left right →
      Alike seam false slack origin
        (fun value after other after' => same value other ∧ Abreast seam levels origin after after')
        parser left parser' right

/-- Two readings by a rule stay before the seam and come to the same. -/
def Keeps (same : α → α → Prop) (parser parser' : Parser α) : Prop :=
  ∀ {slack : Slack} {levels : Nat} {origin left right : ParserState},
    Abreast seam levels origin left right →
      Alike seam false slack origin
        (fun value after other after' => same value other ∧ Abreast seam levels origin after after')
        parser left parser' right

/-- Two readings by a rule come to the same and arrive before the seam or across it. -/
def Reads (slack : Slack) (same : α → α → Prop) (across : α → List Token → Prop)
    (parser parser' : Parser α) : Prop :=
  ∀ {levels : Nat} {origin left right : ParserState}, Abreast seam levels origin left right →
    Alike seam false slack origin (Arrives seam same across levels origin) parser left parser' right

end

namespace Seam

/-- What ends with the layout of a switch may end at the seam. -/
def Opens {α : Type} (seam : Seam) (layout : α → Bool) (value : α) (taken : List Token) : Prop :=
  taken = [] ∧ seam.left.EndsOpen ∧ layout value = true

/-- What may be taken across the seam at the end of a statement: line breaks, and after the layout
of a switch a semicolon. -/
def Stops {α : Type} (seam : Seam) (layout : α → Bool) (value : α) (taken : List Token) : Prop :=
  (∀ token ∈ taken, token.isLine = true) ∨
    (seam.left.EndsOpen ∧ layout value = true ∧
      ∃ token : Token, taken = [token] ∧ token.kind = .symbol .semicolon)

end Seam

variable {seam : Seam} {firm : Bool} {slack : Slack} {levels : Nat}
  {origin left right : ParserState}

theorem Sight.ahead_eq {first first' : Token} (sight : Sight seam left right first first') :
    ∃ rest, left.ahead = first :: rest := by
  cases sight with
  | twins _ buffer => exact ahead_of_buffer buffer
  | line _ _ buffer => exact ahead_of_buffer buffer

theorem Sight.heads {first first' : Token} (sight : Sight seam left right first first')
    {test : Kind → Bool} (passes : test first.kind = true) : left.Heads test := by
  intro token rest ahead
  obtain ⟨others, found⟩ := sight.ahead_eq
  obtain ⟨rfl, -⟩ := List.cons.inj (found.symm.trans ahead)
  exact passes

theorem ParserState.Heads.named {test : Kind → Bool} (heads : left.Heads test)
    (names : List NonTerminal) : { left with nonTerminals := names }.Heads test :=
  heads

/-- Inside a string the next token is a part of it. -/
theorem heads_of_continues {token : Token} (suffix : token :: left.ahead <:+ seam.left.tokens)
    (continues : token.kind.continuesString = true) : left.Heads Kind.isStringPart := by
  intro next rest ahead
  have chain := seam.left.continues.suffix suffix
  rw [ahead] at chain
  exact (List.isChain_cons_cons.mp chain).1 continues

/-- Taking a token that neither opens nor closes a level. -/
theorem alike_consume_of_heads {test : Kind → Bool}
    (flat : ∀ kind, test kind = true → kind.isFlat = true) (heads : left.Heads test)
    (abreast : Abreast seam levels origin left right) :
    Alike seam firm slack origin
      (fun token after token' after' => token'.kind = token.kind ∧ token'.text = token.text ∧
        test token.kind = true ∧ token :: after.ahead <:+ seam.left.tokens ∧
        Abreast seam levels origin after after')
      consume left consume right := by
  obtain ⟨middle, fills, outcome⟩ := consume_cases abreast.visitedLeft.ready
  obtain ⟨middle', fills', outcome'⟩ := consume_cases abreast.visitedRight.ready
  have filled := abreast.fills fills fills'
  have ahead := abreast.ahead
  obtain ⟨token, others, rest, buffer, found, result⟩ | ⟨error, _, nothing, result⟩ := outcome
  · have passes := heads token rest found
    have isFlat := flat _ passes
    have notEnd := Kind.ne_endOfInput_of_isFlat isFlat
    obtain ⟨token', others', rest', buffer', found', result'⟩ | ⟨_, _, nothing', _⟩ := outcome'
    · have twins : Twins seam.places token token' := by
        rw [found, found'] at ahead
        cases ahead with
        | more twins => exact twins
        | line isEnd => contradiction
        | level twins => exact twins
      rw [Alike, result, result']
      refine .ok ⟨twins.kind, twins.text, passes, ?_, ?_⟩
      · have aheadAfter := ahead_afterToken buffer (fills.ahead_eq.trans found)
        rw [if_neg notEnd] at aheadAfter
        rw [aheadAfter, ← found]
        exact abreast.visitedLeft.sound.suffix
      · refine (filled.take twins buffer buffer' notEnd
          (levelsAfter?_of_isFlat isFlat levels)).resolve_right ?_
        rintro ⟨isDedent, _⟩
        rw [isDedent] at isFlat
        contradiction
    · rw [found, nothing'] at ahead
      cases ahead
  · obtain ⟨_, _, _, _, found', _⟩ | ⟨error', _, _, result'⟩ := outcome'
    · rw [nothing, found'] at ahead
      cases ahead
    · rw [nothing] at ahead
      rw [Alike, result, result']
      generalize right.ahead = rights at ahead
      cases ahead with
      | together after => exact .failure after filled.failures

theorem alike_discard_of_heads (heads : left.Heads Kind.isFlat)
    (abreast : Abreast seam levels origin left right) :
    Alike seam firm slack origin
      (fun _ after _ after' => Abreast seam levels origin after after')
      (Functor.discard consume) left (Functor.discard consume) right :=
  (alike_consume_of_heads (fun _ => id) heads abreast).discard fun _ _ _ _ holds => holds.2.2.2.2

/-! ## Going on at the seam -/

section

variable {α β : Type} {same : α → α → Prop} {across : α → List Token → Prop}
  {parser parser' : Parser α}

/-- What ends at the seam ends where nothing can follow. -/
theorem Alike.settle (opens : ∀ value taken, across value taken → taken = [] ∧ seam.left.EndsOpen)
    (inner : Alike seam firm .doomed origin (Arrives seam same across levels origin) parser left
      parser' right) :
    Alike seam firm .doomed origin
      (fun value after other after' => same value other ∧ Abreast seam levels origin after after')
      parser left parser' right := by
  unfold Alike at inner ⊢
  generalize parser left = result at inner
  generalize parser' right = result' at inner
  cases inner with
  | @ok value other after after' holds =>
    obtain ⟨isSame, before | ⟨taken, allowed, across⟩⟩ := holds
    · exact .ok ⟨isSame, before⟩
    · obtain ⟨rfl, endsOpen⟩ := opens value taken allowed
      exact .doomed rfl (across.doomed endsOpen)
  | recoverable soft abreast => exact .recoverable soft abreast
  | stranded soft doomed isAtEnd => exact .stranded soft doomed isAtEnd
  | failure together failures => exact .failure together failures
  | failed apart => exact .failed apart
  | exhausted => exact .exhausted
  | lost isFinal => contradiction
  | doomed isDoomed doomed => exact .doomed isDoomed doomed

/-- Inside a level what is read stays before the seam. -/
theorem Alike.enclosed (deep : Deep seam left) (abreast : Abreast seam levels origin left right)
    (inner : Alike seam firm .final left (Arrives seam same across 0 left) parser left parser'
      right) :
    Alike seam firm slack origin
      (fun value after other after' => same value other ∧ Abreast seam levels origin after after')
      parser left parser' right := by
  unfold Alike at inner ⊢
  generalize parser left = result at inner
  generalize parser' right = result' at inner
  cases inner with
  | ok holds =>
    obtain ⟨isSame, before | ⟨taken, _, crossed⟩⟩ := holds
    · exact .ok ⟨isSame, abreast.trans before⟩
    · exact absurd deep crossed.not_deep
  | recoverable soft later => exact .recoverable soft (abreast.trans later)
  | stranded soft doomed isAtEnd =>
    exact absurd deep (not_deep_of_atEnd doomed.visited doomed.atEnd doomed.rises doomed.apart)
  | failure together failures => exact .failure together failures
  | failed apart => exact .failed apart
  | exhausted => exact .exhausted
  | lost isFinal lost =>
    obtain ⟨lines, goesOn, _⟩ := lost.after
    exact absurd deep (not_deep_of_atEnd lost.visited lost.atEnd lost.rises (by simp [goesOn]))
  | doomed isDoomed => contradiction

namespace Doomed

variable (doomed : Doomed seam origin left)

include doomed

theorem peek_eq : ∃ last after, peek left = .ok last after ∧ last.kind = .endOfInput ∧
    Doomed seam origin after := by
  obtain ⟨visited, apart, opens, ⟨last, ahead, isEnd⟩, levels, rises⟩ := doomed
  obtain ⟨after, fills, ⟨token, others, rest, buffer, found, result⟩ | ⟨_, _, nothing, _⟩⟩ :=
    peek_cases visited.ready
  · obtain ⟨rfl, -⟩ := List.cons.inj (ahead.symm.trans found)
    refine ⟨last, after, result, isEnd, visited.fills fills, apart, opens, ⟨last, ?_, isEnd⟩,
      levels, rises.of_same fills.ahead_eq fills.unchanged.1⟩
    rw [fills.ahead_eq, ahead]
  · rw [ahead] at nothing
    contradiction

theorem expect_eq {kind : Kind} (notEnd : kind ≠ .endOfInput) :
    ∃ error after, expect kind left = .error (.recoverable error) after ∧ error.AtEnd ∧
      Doomed seam origin after := by
  obtain ⟨last, after, peeked, isEnd, still⟩ := doomed.peek_eq
  have missing : last.kind ≠ kind := fun isKind => notEnd (isKind.symm.trans isEnd)
  refine ⟨⟨.expected [.kind kind] .endOfInput last.text, after.here, after.nonTerminals.reverse⟩,
    after, ?_, ⟨[.kind kind], last.text, rfl⟩, still⟩
  rw [expect, bind_ok peeked, if_neg missing, bind_get, unexpected, isEnd]
  rfl

theorem consumeKind_eq (kind : Kind) (notEnd : kind ≠ .endOfInput) :
    ∃ after, consumeKind kind left = .ok none after ∧ Doomed seam origin after := by
  obtain ⟨last, after, peeked, isEnd, still⟩ := doomed.peek_eq
  have missing : last.kind ≠ kind := fun isKind => notEnd (isKind.symm.trans isEnd)
  refine ⟨after, ?_, still⟩
  rw [consumeKind, consumeIf, bind_ok peeked, if_neg (by simpa using missing)]
  rfl

/-- What has to follow is missing where the left reading is at its end. -/
theorem matches_expect {kind : Kind} (notEnd : kind ≠ .endOfInput) {next : Token → Parser β}
    {post : β → ParserState → β → ParserState → Prop}
    {result : EStateM.Result Abort ParserState β} :
    Matches seam false slack origin post ((expect kind >>= next) left) result := by
  obtain ⟨error, after, missing, isAtEnd, still⟩ := doomed.expect_eq notEnd
  rw [bind_error missing]
  exact .stranded rfl still isAtEnd

theorem matches_discard_expect {kind : Kind} (notEnd : kind ≠ .endOfInput)
    {next : Unit → Parser β} {post : β → ParserState → β → ParserState → Prop}
    {result : EStateM.Result Abort ParserState β} :
    Matches seam false slack origin post
      ((Functor.discard (expect kind) >>= next) left) result := by
  obtain ⟨error, after, missing, isAtEnd, still⟩ := doomed.expect_eq notEnd
  have discarded : (Functor.discard (expect kind) : Parser Unit) left =
      .error (.recoverable error) after := bind_error missing
  rw [bind_error discarded]
  exact .stranded rfl still isAtEnd

end Doomed

end

/-! ## Rules without fuel -/

theorem Keeps.reads {α : Type} {same : α → α → Prop} {across : α → List Token → Prop}
    {parser parser' : Parser α} (keeps : Keeps seam same parser parser') :
    Reads seam slack same across parser parser' :=
  fun abreast => (keeps abreast).mono fun _ _ _ _ holds => ⟨holds.1, Or.inl holds.2⟩

theorem keeps_within {α : Type} {nonTerminal : NonTerminal} {same : α → α → Prop}
    {parser parser' : Parser α} (keeps : Keeps seam same parser parser') :
    Keeps seam same (within nonTerminal parser) (within nonTerminal parser') :=
  fun abreast => alike_within (fun _ _ _ _ _ _ holds => ⟨holds.1, holds.2.named _ _⟩)
    (keeps (abreast.named _ _))

theorem keepsFrom_within {α : Type} {nonTerminal : NonTerminal} {test : Kind → Bool}
    {same : α → α → Prop} {parser parser' : Parser α}
    (keeps : KeepsFrom seam test same parser parser') :
    KeepsFrom seam test same (within nonTerminal parser) (within nonTerminal parser') :=
  fun heads abreast => alike_within (fun _ _ _ _ _ _ holds => ⟨holds.1, holds.2.named _ _⟩)
    (keeps (heads.named _) (abreast.named _ _))

theorem reads_within {α : Type} {nonTerminal : NonTerminal} {same : α → α → Prop}
    {across : α → List Token → Prop} {parser parser' : Parser α}
    (reads : Reads seam slack same across parser parser') :
    Reads seam slack same across (within nonTerminal parser) (within nonTerminal parser') :=
  fun abreast => alike_within (fun _ _ _ _ _ _ arrives => arrives.unnamed _ _)
    (reads (abreast.named _ _))

theorem keeps_identifier : Keeps seam (SameBy Identifier.erase)
    (within .identifier Grammar.identifier) (within .identifier Grammar.identifier) :=
  keeps_within fun abreast =>
    (alike_expect_code rfl abreast).bind fun _ _ _ _ holds =>
      alike_pure ⟨by simp only [SameBy, Identifier.erase, holds.2.1], holds.2.2.2⟩

theorem keepsFrom_updated (op : UpdateOp) {value other : Expr Span}
    (same : SameBy Expr.erase value other) :
    KeepsFrom seam Kind.isFlat (SameBy Expr.erase) (Grammar.updated op value)
      (Grammar.updated op other) :=
  fun heads abreast => (alike_consume_of_heads (fun _ => id) heads abreast).bind
    fun _ _ _ _ holds =>
      alike_pure ⟨by simp only [SameBy, Expr.erase, same.eq], holds.2.2.2.2⟩

theorem keepsFrom_optionalField {value other : Expr Span} (same : SameBy Expr.erase value other) :
    KeepsFrom seam Kind.isFlat (SameBy Expr.erase) (Grammar.optionalField value)
      (Grammar.optionalField other) :=
  fun heads abreast => (alike_discard_of_heads heads abreast).bind fun _ _ _ _ taken =>
    (keeps_identifier taken).bind fun _ _ _ _ holds =>
      alike_pure ⟨by simp only [SameBy, Expr.erase, same.eq, holds.1.eq], holds.2⟩

/-- Kinds of tokens that a literal starts with. -/
def Kind.startsLiteral (kind : Kind) : Bool :=
  kind.isLiteral || kind = .stringStart

theorem Kind.isFlat_of_isLiteral {kind : Kind} (literal : kind.isLiteral = true) :
    kind.isFlat = true := by
  cases kind <;> first | rfl | contradiction

theorem Kind.isFlat_of_isStringPart (kind : Kind) (part : kind.isStringPart = true) :
    kind.isFlat = true := by
  cases kind <;> first | rfl | contradiction

theorem keepsFrom_simpleLiteral : KeepsFrom seam Kind.isLiteral (SameBy Literal.erase)
    Grammar.simpleLiteral Grammar.simpleLiteral := by
  intro slack levels origin left right heads abreast
  refine (alike_consume_of_heads (fun _ => Kind.isFlat_of_isLiteral) heads abreast).bind ?_
  rintro token _ token' _ ⟨sameKind, _, _, _, taken⟩
  rw [sameKind]
  cases token.kind
  all_goals first | exact alike_failAt taken | exact alike_pure ⟨rfl, taken⟩

/-! ## Inside a level -/

theorem alike_removeNewlines_enclosed (deep : Deep seam left)
    (abreast : Abreast seam levels origin left right) :
    Alike seam firm slack origin
      (fun _ after _ after' => Abreast seam levels origin after after')
      removeNewlines left removeNewlines right := by
  have skipped : Alike seam firm .final left
      (Arrives seam (fun _ _ => True) (fun _ lines => ∀ token ∈ lines, token.isLine = true) 0 left)
      removeNewlines left removeNewlines right :=
    (alike_removeNewlines abreast.rebase).mono fun _ _ _ _ arrived => ⟨trivial, arrived⟩
  exact (skipped.enclosed deep abreast).mono fun _ _ _ _ holds => holds.2

/-- Closing the level that was opened last may lead across the seam. -/
theorem alike_consumeKind_dedent (abreast : Abreast seam (levels + 1) origin left right) :
    Alike seam firm slack origin
      (fun taken after taken' after' => taken'.isSome = taken.isSome ∧
        match taken with
        | some _ => Abreast seam levels origin after after' ∨
            seam.left.EndsOpen ∧ Across seam levels origin [] after after'
        | none => Abreast seam (levels + 1) origin after after')
      (consumeKind .dedent) left (consumeKind .dedent) right := by
  refine (alike_peek abreast).bind ?_
  rintro first _ first' _ ⟨looked, sight, _⟩
  have same : decide (first'.kind = .dedent) = decide (first.kind = .dedent) :=
    sight.test (fun other => decide (other = .dedent)) rfl
  by_cases closes : first.kind = .dedent
  · have replayed := levelsAfter?_of_dedent closes levels
    rw [decide_eq_true closes] at same
    rw [if_pos (decide_eq_true closes), if_pos same]
    refine (alike_consume looked sight (closes ▸ Kind.noConfusion) replayed).bind
      fun _ _ _ _ holds => alike_pure ⟨rfl, holds.2.2.2.2.imp_right And.right⟩
  · rw [decide_eq_false closes] at same
    rw [if_neg (by simpa using closes), if_neg (by simpa using same)]
    exact alike_pure ⟨rfl, looked⟩

/-! ## Ends of statements -/

theorem Across.fills {taken : List Token} (across : Across seam levels origin taken left right)
    {after after' : ParserState} (fills : Fills left after) (fills' : Fills right after') :
    Across seam levels origin taken after after' := by
  obtain ⟨visitedLeft, visitedRight, atEnd, goesOn, depth, failures, rises⟩ := across
  obtain ⟨sameDepth, sameFailures⟩ := fills.unchanged
  obtain ⟨sameDepth', sameFailures'⟩ := fills'.unchanged
  refine ⟨visitedLeft.fills fills, visitedRight.fills fills', ?_, ?_, sameDepth'.trans depth, ?_,
    rises.of_same fills.ahead_eq sameDepth⟩
  · rw [fills.ahead_eq]
    exact atEnd
  · rw [fills'.ahead_eq]
    exact goesOn
  · rw [sameFailures, sameFailures']
    exact failures

/-- Behind the seam the right reading goes on alone. -/
theorem Across.takes {taken : List Token} (across : Across seam levels origin taken left right)
    {token : Token} {others : List Token} (buffer : right.buffer = token :: others)
    (flat : token.kind.isFlat = true) :
    Across seam levels origin (taken ++ [token]) left (right.afterToken token others) := by
  obtain ⟨visitedLeft, visitedRight, atEnd, goesOn, depth, failures, rises⟩ := across
  obtain ⟨rest, ahead⟩ := ahead_of_buffer buffer
  refine ⟨visitedLeft, visitedRight.takes buffer, atEnd, ?_, ?_, failures, rises⟩
  · rw [ahead_afterToken buffer ahead, if_neg (Kind.ne_endOfInput_of_isFlat flat),
      List.append_assoc, List.singleton_append, ← ahead]
    exact goesOn
  · have unchanged := (levelsAfter?_singleton (levelsAfter?_of_isFlat flat right.depth)).1
    exact (Option.some.inj unchanged).trans depth

/-- Where the left reading stops at its end, the right one takes what ends the statement behind
the seam. -/
theorem alike_terminator_across {value other : Expr Span} (same : SameBy Expr.erase value other)
    (across : Across seam levels origin [] left right) (opens : seam.left.EndsOpen)
    (layout : value.endsWithLayout = true) :
    Alike seam firm .final origin
      (fun _ after _ after' => ∃ taken, seam.Stops Expr.endsWithLayout value taken ∧
        Across seam levels origin taken after after')
      (Grammar.terminator value) left (Grammar.terminator other) right := by
  have layout' : other.endsWithLayout = true := by
    rw [← other.endsWithLayout_erase, same.eq, value.endsWithLayout_erase, layout]
  obtain ⟨last, middle, peeked, isEnd, atEnd⟩ := (across.doomed opens).peek_eq
  obtain ⟨_, fills, ⟨last, _, _, _, _, result⟩ | ⟨_, _, _, result⟩⟩ :=
    peek_cases across.visitedLeft.ready
  · obtain ⟨rfl, rfl⟩ := EStateM.Result.ok.inj (peeked.symm.trans result)
    have ended : Grammar.terminator value left = .ok none middle := by
      rw [Grammar.terminator, bind_ok peeked, isEnd]
      rfl
    obtain ⟨middle', fills', ⟨next, others, rest, buffer, ahead, result'⟩ |
      ⟨error, ends, nothing, result'⟩⟩ := peek_cases across.visitedRight.ready
    · have looked := across.fills fills fills'
      have stays : ∃ taken, seam.Stops Expr.endsWithLayout value taken ∧
          Across seam levels origin taken middle middle' :=
        ⟨[], Or.inl fun _ member => absurd member List.not_mem_nil, looked⟩
      rw [Alike, ended, Grammar.terminator, bind_ok result', if_pos layout']
      refine (?_ : Alike _ _ _ _ _ (pure none) middle _ middle')
      split
      next isSemicolon =>
        rw [Alike]
        simp only [bind_ok (consume_of_buffer buffer)]
        refine .ok ⟨[next], Or.inr ⟨opens, layout, next, rfl, isSemicolon⟩, ?_⟩
        exact looked.takes buffer (by rw [isSemicolon]; rfl)
      next isLine =>
        rw [Alike, bind_ok (discard_consume_of_buffer buffer)]
        refine .ok ⟨[next], Or.inl fun token member => ?_, ?_⟩
        · rw [List.mem_singleton.mp member]
          exact decide_eq_true isLine
        · exact looked.takes buffer (by rw [isLine]; rfl)
      next => exact .ok stays
      next => exact .ok stays
      next => exact .ok stays
      next => exact .ok stays
    · rw [Alike, ended, Grammar.terminator, bind_error result']
      have goesOn := across.after
      rw [nothing, List.append_nil] at goesOn
      refine .lost rfl ⟨across.visitedLeft.fills fills,
        ⟨[], goesOn, fun _ member => absurd member List.not_mem_nil⟩, ?_, ?_, levels, ?_⟩
      · rw [fills.ahead_eq]
        exact across.atEnd
      · rw [fills.unchanged.2, fills'.unchanged.2]
        exact across.failures
      · exact across.rises.of_same fills.ahead_eq fills.unchanged.1
  · rw [peeked] at result
    contradiction

theorem alike_terminator {value other : Expr Span} (same : SameBy Expr.erase value other)
    (arrived : Abreast seam levels origin left right ∨
      ∃ taken, seam.Opens Expr.endsWithLayout value taken ∧
        Across seam levels origin taken left right) :
    Alike seam false .final origin
      (fun _ after _ after' => Abreast seam levels origin after after' ∨
        ∃ taken, seam.Stops Expr.endsWithLayout value taken ∧
          Across seam levels origin taken after after')
      (Grammar.terminator value) left (Grammar.terminator other) right := by
  obtain abreast | ⟨_, ⟨rfl, opens, layout⟩, across⟩ := arrived
  · have sameLayout : other.endsWithLayout = value.endsWithLayout := by
      rw [← other.endsWithLayout_erase, same.eq, value.endsWithLayout_erase]
    refine (alike_peek abreast).bind ?_
    rintro next _ next' _ ⟨looked, sight, _⟩
    cases sight with
    | line isEnd isLine buffer buffer' ahead ahead' goesOn =>
      rw [isEnd, isLine]
      dsimp only
      rw [Alike, bind_ok (discard_consume_of_buffer buffer')]
      refine .ok (Or.inr ⟨[], Or.inl fun _ member => absurd member List.not_mem_nil, ?_⟩)
      exact looked.cross_line isEnd isLine ahead buffer' ahead' goesOn
    | @twins others others' twins buffer buffer' =>
      have sight : Sight seam _ _ next next' := .twins twins buffer buffer'
      rw [twins.kind, sameLayout]
      split
      next isSemicolon =>
        exact (alike_consume_flat looked sight (by rw [isSemicolon]; rfl)).bind
          fun _ _ _ _ holds => alike_pure (Or.inl holds.2.2)
      next isLine =>
        exact (alike_discard_flat looked sight (by rw [isLine]; rfl)).bind
          fun _ _ _ _ taken => alike_pure (Or.inl taken)
      next => exact alike_pure (Or.inl looked)
      next => exact alike_pure (Or.inl looked)
      next => exact alike_pure (Or.inl looked)
      next =>
        split
        next => exact alike_pure (Or.inl looked)
        next => exact alike_failAt looked
  · exact (alike_terminator_across same across opens layout).mono fun _ _ _ _ => Or.inr

end Offside
