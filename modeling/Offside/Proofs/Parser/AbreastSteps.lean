import Offside.Proofs.Parser.Abreast

/-!
The readings that every rule is made of, side by side: looking ahead, taking tokens, failing, and
passing over line breaks. At the seam the left reading sees the end of input where the right one
sees a line break, and no rule takes one for the beginning of something.
-/

namespace Offside

open LexStream ParserState Offside.Parser

variable {seam : Seam} {firm : Bool} {slack : Slack} {levels : Nat}
  {origin left right : ParserState}

/-- What two readings see next: twins, or at the seam the end of input and a line break. -/
inductive Sight (seam : Seam) (left right : ParserState) : Token → Token → Prop
  | twins {first first' : Token} {others others' : List Token}
    (twins : Twins seam.places first first') (buffer : left.buffer = first :: others)
    (buffer' : right.buffer = first' :: others') : Sight seam left right first first'
  | line {last line : Token} {others others' after : List Token} (isEnd : last.kind = .endOfInput)
    (isLine : line.kind = .newline) (buffer : left.buffer = last :: others)
    (buffer' : right.buffer = line :: others') (ahead : left.ahead = [last])
    (ahead' : right.ahead = line :: after) (goesOn : seam.after = some after) :
    Sight seam left right last line

namespace Sight

variable {first first' : Token}

/-- A test that does not tell the end of input from a line break has one result. -/
theorem test {γ : Type} (sight : Sight seam left right first first') (test : Kind → γ)
    (untold : test .newline = test .endOfInput) : test first'.kind = test first.kind := by
  cases sight with
  | twins twins => rw [twins.kind]
  | line isEnd isLine => rw [isEnd, isLine, untold]

theorem twins_of_kind (sight : Sight seam left right first first')
    (notEnd : first.kind ≠ .endOfInput) :
    Twins seam.places first first' ∧ (∃ others, left.buffer = first :: others) ∧
      ∃ others, right.buffer = first' :: others := by
  cases sight with
  | twins twins buffer buffer' => exact ⟨twins, ⟨_, buffer⟩, _, buffer'⟩
  | line isEnd => contradiction

end Sight

theorem Parser.consume_of_buffer {state : ParserState} {token : Token} {others : List Token}
    (buffer : state.buffer = token :: others) :
    consume state = .ok token (state.afterToken token others) := by
  have filled : fill 1 state = .ok () state := by
    unfold fill
    rw [if_pos (by rw [buffer]; simp)]
  rw [consume, bind_ok filled, bind_get]
  simp only [buffer]
  rfl

theorem Parser.discard_consume_of_buffer {state : ParserState} {token : Token}
    {others : List Token} (buffer : state.buffer = token :: others) :
    (Functor.discard consume : Parser Unit) state = .ok () (state.afterToken token others) :=
  bind_ok (consume_of_buffer buffer)

/-! ## Looking ahead -/

theorem alike_peek (abreast : Abreast seam levels origin left right) :
    Alike seam firm slack origin
      (fun first after first' after' =>
        Abreast seam levels origin after after' ∧ Sight seam after after' first first' ∧
          after.ahead = left.ahead ∧ after'.ahead = right.ahead)
      peek left peek right := by
  obtain ⟨after, fills, outcome⟩ := peek_cases abreast.visitedLeft.ready
  obtain ⟨after', fills', outcome'⟩ := peek_cases abreast.visitedRight.ready
  have filled := abreast.fills fills fills'
  have aheadOf := fills.ahead_eq
  have aheadOf' := fills'.ahead_eq
  have ahead := abreast.ahead
  obtain ⟨first, others, rest, buffer, found, result⟩ | ⟨error, ends, nothing, result⟩ := outcome
  · obtain ⟨first', others', rest', buffer', found', result'⟩ | ⟨_, _, nothing', _⟩ := outcome'
    · rw [Alike, result, result']
      refine .ok ⟨filled, ?_, aheadOf, aheadOf'⟩
      rw [found, found'] at ahead
      cases ahead with
      | more twins => exact .twins twins buffer buffer'
      | line isEnd isLine goesOn =>
        exact .line isEnd isLine buffer buffer' (aheadOf.trans found) (aheadOf'.trans found') goesOn
      | level twins => exact .twins twins buffer buffer'
    · rw [found, nothing'] at ahead
      cases ahead
  · obtain ⟨first', others', rest', buffer', found', result'⟩ | ⟨error', _, _, result'⟩ := outcome'
    · rw [nothing, found'] at ahead
      cases ahead
    · rw [Alike, result, result']
      rw [nothing] at ahead
      generalize right.ahead = rights at ahead
      cases ahead with
      | together after => exact .failure after filled.failures

theorem alike_peekKind (abreast : Abreast seam levels origin left right) :
    Alike seam firm slack origin
      (fun kind after kind' after' => Abreast seam levels origin after after' ∧
        after.ahead = left.ahead ∧ ∃ first first', Sight seam after after' first first' ∧
          kind = first.kind ∧ kind' = first'.kind)
      peekKind left peekKind right :=
  (alike_peek abreast).bind fun first _ first' _ looked =>
    alike_pure ⟨looked.1, looked.2.2.1, first, first', looked.2.1, rfl, rfl⟩

theorem alike_check {kind : Kind} (code : kind.isStructural = false)
    (abreast : Abreast seam levels origin left right) :
    Alike seam firm slack origin
      (fun isKind after isKind' after' => isKind' = isKind ∧
        Abreast seam levels origin after after' ∧ after.ahead = left.ahead ∧
          ∃ first first', Sight seam after after' first first' ∧ isKind = decide (first.kind = kind))
      (check kind) left (check kind) right := by
  refine (alike_peek abreast).bind ?_
  rintro first _ first' _ ⟨abreast, sight, ahead, _⟩
  refine alike_pure ⟨sight.test (fun other => decide (other = kind)) ?_, abreast, ahead, first, first', sight,
    rfl⟩
  cases kind <;> first | rfl | contradiction

/-! ## Taking tokens -/

/-- Behind a token that was taken the two readings are before the seam, unless it closed the last
level of the left text. -/
theorem Abreast.take (abreast : Abreast seam levels origin left right) {first first' : Token}
    {others others' : List Token} {later : Nat} (twins : Twins seam.places first first')
    (buffer : left.buffer = first :: others) (buffer' : right.buffer = first' :: others')
    (notEnd : first.kind ≠ .endOfInput) (replayed : levelsAfter? levels [.token first] = some later) :
    Abreast seam later origin (left.afterToken first others) (right.afterToken first' others') ∨
      (first.kind = .dedent ∧ seam.left.EndsOpen ∧
        Across seam later origin [] (left.afterToken first others)
          (right.afterToken first' others')) := by
  obtain ⟨rest, found⟩ := ahead_of_buffer buffer
  obtain ⟨rest', found'⟩ := ahead_of_buffer buffer'
  have visitedLeft := abreast.visitedLeft.takes buffer
  have visitedRight := abreast.visitedRight.takes buffer'
  have aheadAfter := ahead_afterToken buffer found
  have aheadAfter' := ahead_afterToken buffer' found'
  rw [if_neg notEnd] at aheadAfter
  rw [if_neg (twins.kind ▸ notEnd)] at aheadAfter'
  have depth : (right.afterToken first' others').depth = (left.afterToken first others).depth := by
    unfold afterToken
    rw [twins.kind, abreast.depth]
  have rises := abreast.rises.takes found aheadAfter rfl replayed
  have ahead := abreast.ahead
  rw [found, found'] at ahead
  generalize leftAhead : first :: rest = lefts at ahead
  generalize rightAhead : first' :: rest' = rights at ahead
  cases ahead with
  | more _ ahead =>
    obtain ⟨-, rfl⟩ := List.cons.inj leftAhead
    obtain ⟨-, rfl⟩ := List.cons.inj rightAhead
    exact Or.inl ⟨visitedLeft, visitedRight, aheadAfter ▸ aheadAfter' ▸ ahead, depth,
      abreast.failures, rises⟩
  | together => contradiction
  | line isEnd =>
    obtain ⟨rfl, -⟩ := List.cons.inj leftAhead
    contradiction
  | @level _ _ last after _ closes isEnd goesOn =>
    obtain ⟨rfl, rfl⟩ := List.cons.inj leftAhead
    obtain ⟨-, rfl⟩ := List.cons.inj rightAhead
    refine Or.inr ⟨closes, ⟨first, last, ?_, isEnd, Or.inr closes⟩, visitedLeft, visitedRight,
      ⟨last, aheadAfter, isEnd⟩, ?_, ?_, abreast.failures, rises⟩
    · rw [← found]
      exact abreast.visitedLeft.sound.suffix
    · rw [aheadAfter', List.nil_append]
      exact goesOn
    · rw [depth]
      exact visitedLeft.depth_eq_zero aheadAfter isEnd

/-- At the seam the right reading goes across by taking the line break. -/
theorem Abreast.cross_line (abreast : Abreast seam levels origin left right) {last line : Token}
    {others after : List Token} (isEnd : last.kind = .endOfInput) (isLine : line.kind = .newline)
    (ahead : left.ahead = [last]) (buffer : right.buffer = line :: others)
    (ahead' : right.ahead = line :: after) (goesOn : seam.after = some after) :
    Across seam levels origin [] left (right.afterToken line others) := by
  have noDepth := abreast.visitedLeft.depth_eq_zero ahead isEnd
  refine ⟨abreast.visitedLeft, abreast.visitedRight.takes buffer, ⟨last, ahead, isEnd⟩, ?_, ?_,
    abreast.failures, abreast.rises⟩
  · rw [ahead_afterToken buffer ahead', if_neg (by rw [isLine]; exact Kind.noConfusion)]
    exact goesOn
  · rw [afterToken, isLine]
    exact abreast.depth.trans noDepth

/-- At the end of the left text no level is open, not even one from before the reading. -/
theorem Across.depth_eq_zero {taken : List Token}
    (across : Across seam levels origin taken left right) :
    left.depth = 0 ∧ origin.depth = 0 ∧ levels = 0 := by
  obtain ⟨last, ahead, isEnd⟩ := across.atEnd
  have noDepth := across.visitedLeft.depth_eq_zero ahead isEnd
  have depth := across.rises.depth
  omega

/-- Kinds that neither open nor close a level nor end the input. -/
def Kind.isFlat : Kind → Bool
  | .indent | .dedent | .endOfInput => false
  | _ => true

theorem levelsAfter?_of_isFlat {token : Token} (flat : token.kind.isFlat = true) (levels : Nat) :
    levelsAfter? levels [.token token] = some levels := by
  have notIndent : token.kind ≠ .indent := fun same => by simp [same, Kind.isFlat] at flat
  have notDedent : token.kind ≠ .dedent := fun same => by simp [same, Kind.isFlat] at flat
  simp [levelsAfter?, LexItem.isIndent, LexItem.isDedent, notIndent, notDedent]

theorem Kind.isFlat_of_isStructural {kind : Kind} (code : kind.isStructural = false) :
    kind.isFlat = true := by
  cases kind <;> first | rfl | contradiction

theorem Kind.ne_endOfInput_of_isFlat {kind : Kind} (flat : kind.isFlat = true) :
    kind ≠ .endOfInput := by
  rintro rfl
  contradiction

theorem levelsAfter?_of_indent {token : Token} (isIndent : token.kind = .indent) (levels : Nat) :
    levelsAfter? levels [.token token] = some (levels + 1) := by
  simp [levelsAfter?, LexItem.isIndent, isIndent]

theorem levelsAfter?_of_dedent {token : Token} (isDedent : token.kind = .dedent) (levels : Nat) :
    levelsAfter? (levels + 1) [.token token] = some levels := by
  simp [levelsAfter?, LexItem.isIndent, LexItem.isDedent, isDedent]

theorem alike_consume {first first' : Token} {later : Nat}
    (abreast : Abreast seam levels origin left right) (sight : Sight seam left right first first')
    (notEnd : first.kind ≠ .endOfInput) (replayed : levelsAfter? levels [.token first] = some later) :
    Alike seam firm slack origin
      (fun token after token' after' => token = first ∧ token' = first' ∧
        left.ahead = first :: after.ahead ∧ right.ahead = first' :: after'.ahead ∧
        (Abreast seam later origin after after' ∨ first.kind = .dedent ∧ seam.left.EndsOpen ∧
          Across seam later origin [] after after'))
      consume left consume right := by
  obtain ⟨twins, ⟨others, buffer⟩, others', buffer'⟩ := sight.twins_of_kind notEnd
  obtain ⟨rest, found⟩ := ahead_of_buffer buffer
  obtain ⟨rest', found'⟩ := ahead_of_buffer buffer'
  rw [Alike, consume_of_buffer buffer, consume_of_buffer buffer']
  refine .ok ⟨rfl, rfl, ?_, ?_, abreast.take twins buffer buffer' notEnd replayed⟩
  · rw [ahead_afterToken buffer found, if_neg notEnd, found]
  · rw [ahead_afterToken buffer' found', if_neg (twins.kind ▸ notEnd), found']

theorem alike_consume_flat {first first' : Token}
    (abreast : Abreast seam levels origin left right) (sight : Sight seam left right first first')
    (flat : first.kind.isFlat = true) :
    Alike seam firm slack origin
      (fun token after token' after' => token = first ∧ token' = first' ∧
        Abreast seam levels origin after after')
      consume left consume right := by
  refine (alike_consume abreast sight (Kind.ne_endOfInput_of_isFlat flat)
    (levelsAfter?_of_isFlat flat levels)).mono ?_
  rintro _ _ _ _ ⟨isFirst, isFirst', _, _, arrived⟩
  refine ⟨isFirst, isFirst', arrived.resolve_right fun crossed => ?_⟩
  rw [crossed.1] at flat
  contradiction

theorem alike_discard_flat {first first' : Token}
    (abreast : Abreast seam levels origin left right) (sight : Sight seam left right first first')
    (flat : first.kind.isFlat = true) :
    Alike seam firm slack origin
      (fun _ after _ after' => Abreast seam levels origin after after')
      (Functor.discard consume) left (Functor.discard consume) right :=
  (alike_consume_flat abreast sight flat).discard fun _ _ _ _ holds => holds.2.2

theorem alike_consumeKind {kind : Kind} (code : kind.isStructural = false)
    (abreast : Abreast seam levels origin left right) :
    Alike seam firm slack origin
      (fun taken after taken' after' => taken'.isSome = taken.isSome ∧
        Abreast seam levels origin after after')
      (consumeKind kind) left (consumeKind kind) right := by
  refine (alike_peek abreast).bind ?_
  rintro first _ first' _ ⟨abreast, sight, _⟩
  have same : decide (first'.kind = kind) = decide (first.kind = kind) :=
    sight.test (fun other => decide (other = kind)) (by cases kind <;> first | rfl | contradiction)
  by_cases isKind : first.kind = kind
  · rw [decide_eq_true isKind] at same
    rw [if_pos (decide_eq_true isKind), if_pos same]
    have flat : first.kind.isFlat = true := isKind ▸ Kind.isFlat_of_isStructural code
    exact (alike_consume_flat abreast sight flat).bind fun _ _ _ _ holds =>
      alike_pure ⟨rfl, holds.2.2⟩
  · rw [decide_eq_false isKind] at same
    rw [if_neg (by simpa using isKind), if_neg (by simpa using same)]
    exact alike_pure ⟨rfl, abreast⟩

/-- The next token is of some kind. -/
def ParserState.Faces (kind : Kind) (state : ParserState) : Prop :=
  ∃ token rest, state.ahead = token :: rest ∧ token.kind = kind

theorem alike_failAt {α : Type} {post : α → ParserState → α → ParserState → Prop}
    {span span' : Span} {fault fault' : SyntaxFault}
    (abreast : Abreast seam levels origin left right) :
    Alike seam false slack origin post (failAt span fault) left (failAt span' fault') right :=
  .recoverable rfl abreast

theorem alike_expect {kind : Kind} {later : Nat} (notEnd : kind ≠ .endOfInput)
    (notLine : kind ≠ .newline)
    (replayed : ∀ token : Token, token.kind = kind → levelsAfter? levels [.token token] = some later)
    (certain : firm = true → left.Faces kind) (abreast : Abreast seam levels origin left right) :
    Alike seam firm slack origin
      (fun token after token' after' => token.kind = kind ∧ token'.text = token.text ∧
        token :: after.ahead <:+ seam.left.tokens ∧
        (Abreast seam later origin after after' ∨
          kind = .dedent ∧ seam.left.EndsOpen ∧ Across seam later origin [] after after'))
      (expect kind) left (expect kind) right := by
  refine (alike_peek abreast).bind ?_
  rintro first middle first' _ ⟨abreast, sight, ahead, _⟩
  have same : decide (first'.kind = kind) = decide (first.kind = kind) :=
    sight.test (fun other => decide (other = kind)) (by
      rw [decide_eq_false (Ne.symm notEnd), decide_eq_false (Ne.symm notLine)])
  by_cases isKind : first.kind = kind
  · rw [decide_eq_true isKind, decide_eq_true_eq] at same
    rw [if_pos isKind, if_pos same]
    refine (alike_consume abreast sight (isKind ▸ notEnd) (replayed first isKind)).mono ?_
    rintro token after token' _ ⟨isFirst, isFirst', found, _, arrived⟩
    subst isFirst isFirst'
    refine ⟨isKind, (sight.twins_of_kind (isKind ▸ notEnd)).1.text, ?_,
      arrived.imp_right (And.imp_left isKind.symm.trans)⟩
    rw [← found]
    exact abreast.visitedLeft.sound.suffix
  · rw [decide_eq_false isKind, decide_eq_false_iff_not] at same
    rw [if_neg isKind, if_neg same]
    refine .recoverable ?_ abreast
    cases firm with
    | false => rfl
    | true =>
      obtain ⟨token, rest, found, faces⟩ := certain rfl
      obtain ⟨others, buffer⟩ : ∃ others, middle.buffer = first :: others := by
        cases sight with
        | twins _ buffer => exact ⟨_, buffer⟩
        | line _ _ buffer => exact ⟨_, buffer⟩
      obtain ⟨more, foundAgain⟩ := ahead_of_buffer buffer
      rw [ahead, found] at foundAgain
      obtain ⟨rfl, -⟩ := List.cons.inj foundAgain
      exact absurd faces isKind

theorem alike_expect_code {kind : Kind} (code : kind.isStructural = false)
    (abreast : Abreast seam levels origin left right) :
    Alike seam false slack origin
      (fun token after token' after' => token.kind = kind ∧ token'.text = token.text ∧
        token :: after.ahead <:+ seam.left.tokens ∧ Abreast seam levels origin after after')
      (expect kind) left (expect kind) right := by
  have flat := Kind.isFlat_of_isStructural code
  have notLine : kind ≠ .newline := by
    rintro rfl
    contradiction
  refine (alike_expect (Kind.ne_endOfInput_of_isFlat flat) notLine
    (fun token isKind => levelsAfter?_of_isFlat (isKind ▸ flat) levels) Bool.noConfusion
    abreast).mono ?_
  rintro token after _ after' ⟨isKind, text, suffix, arrived⟩
  refine ⟨isKind, text, suffix, arrived.resolve_right fun crossed => ?_⟩
  rw [crossed.1] at flat
  contradiction

theorem alike_discard_expect {kind : Kind} (code : kind.isStructural = false)
    (abreast : Abreast seam levels origin left right) :
    Alike seam false slack origin
      (fun _ after _ after' => Abreast seam levels origin after after')
      (Functor.discard (expect kind)) left (Functor.discard (expect kind)) right :=
  (alike_expect_code code abreast).discard fun _ _ _ _ holds => holds.2.2.2

end Offside
