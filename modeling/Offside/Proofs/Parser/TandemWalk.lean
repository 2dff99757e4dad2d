import Offside.Proofs.Parser.TandemRules

/-!
Every rule of the grammar in tandem with itself, for any amounts of fuel. A type with dimensions and
values, which one reading takes in one round, is for a reading without hints an element that is
called in the next one.
-/

namespace Offside

open LexStream ParserState Offside.Parser

namespace Tandem

/-- What two readings by each rule of the grammar come to, with some amounts of fuel. -/
structure Walk (pair : Tandem) (n m : Nat) : Prop where
  fieldNames : pair.Keeps pair.SameNames (Grammar.fieldNames n) (Grammar.fieldNames m)
  expression (minimum : Nat) :
    pair.Keeps pair.SameExpr (Grammar.expression n minimum) (Grammar.expression m minimum)
  climb (minimum : Nat) {value other : Expr Span} (same : pair.SameExpr value other) :
    pair.Keeps pair.SameExpr (Grammar.climb n minimum value) (Grammar.climb m minimum other)
  applyInfix (op : InfixOp) {span span' : Span} (spans : pair.spans span span')
    {value other : Expr Span} (same : pair.SameExpr value other) :
    pair.Keeps pair.SameExpr (Grammar.applyInfix n op span value)
      (Grammar.applyInfix m op span' other)
  rangeEnd : pair.Keeps pair.SameEnd (Grammar.rangeEnd n) (Grammar.rangeEnd m)
  operand : pair.Keeps pair.SameExpr (Grammar.operand n) (Grammar.operand m)
  primary : pair.Keeps pair.SameExpr (Grammar.primary n) (Grammar.primary m)
  suffixes {value other : Expr Span} (same : pair.SameExpr value other) {left right : ParserState}
    (precedes : Precedes pair.left.settings value left) (beside : pair.Beside left right) :
    pair.Meet (fun value after other after' => pair.SameExpr value other ∧
      pair.Beside after after') (Grammar.suffixes n value) left (Grammar.suffixes m other) right
  unwrapped {value other : Expr Span} (same : pair.SameExpr value other) :
    pair.KeepsFrom pair.Made (Grammar.unwrapped n value) (Grammar.unwrapped m other)
  extracted {value other : Expr Span} (same : pair.SameExpr value other) :
    pair.KeepsFrom pair.Made (Grammar.extracted n value) (Grammar.extracted m other)
  field {value other : Expr Span} (same : pair.SameExpr value other) :
    pair.KeepsFrom pair.Made (Grammar.field n value) (Grammar.field m other)
  /-- What follows indices may be read along with them. -/
  indexed {value other : Expr Span} (same : pair.SameExpr value other) {left right : ParserState}
    (precedes : Precedes pair.left.settings value left) (beside : pair.Beside left right) (k l : Nat)
    (later : ∀ {value other : Expr Span} {left right : ParserState} (l : Nat),
      pair.Made value other → pair.Beside left right →
        pair.Meet (fun value after other after' => pair.SameExpr value other ∧
          pair.Beside after after')
          (Grammar.suffixes k value) left (Grammar.suffixes l other) right) :
    pair.Meet (fun value after other after' => pair.SameExpr value other ∧
        pair.Beside after after')
      (Grammar.indexed n value >>= Grammar.suffixes k) left
      (Grammar.indexed m other >>= Grammar.suffixes l) right
  called {value other : Expr Span} (same : pair.SameExpr value other) :
    pair.Keeps pair.Made (Grammar.called n value) (Grammar.called m other)
  delimited (opening closing : Symbol) :
    pair.Keeps (fun group group' => pair.SameExprs group.1 group'.1 ∧ pair.spans group.2 group'.2)
      (Grammar.delimited n opening closing) (Grammar.delimited m opening closing)
  listed (closing : Symbol) :
    pair.Keeps pair.SameExprs (Grammar.listed n closing) (Grammar.listed m closing)
  literal : pair.Keeps pair.SameLiteral (Grammar.literal n) (Grammar.literal m)
  stringParts {left right : ParserState} (trails : pair.Trails left right) :
    pair.Meet (fun string after string' after' =>
        (pair.Same StringPart.unhintAll StringPart.eraseAll string.1 string'.1 ∧
          pair.spans string.2 string'.2) ∧ pair.Beside after after')
      (Grammar.stringParts n) left (Grammar.stringParts m) right
  switch : pair.Keeps pair.SameExpr (Grammar.switch n) (Grammar.switch m)
  subjects : pair.Keeps pair.SameExprs (Grammar.subjects n) (Grammar.subjects m)
  arms : pair.Keeps (List.Forall₂ pair.SameArm) (Grammar.arms n) (Grammar.arms m)
  arm : pair.Keeps pair.SameArm (Grammar.arm n) (Grammar.arm m)
  pattern : pair.Keeps pair.SamePattern (Grammar.pattern n) (Grammar.pattern m)
  armBody : pair.Keeps pair.SameAction (Grammar.armBody n) (Grammar.armBody m)
  statement : pair.Keeps pair.SameStatement (Grammar.statement n) (Grammar.statement m)
  block : pair.Keeps pair.SameAction (Grammar.block n) (Grammar.block m)
  expressionStatement :
    pair.Keeps pair.SameAction (Grammar.expressionStatement n) (Grammar.expressionStatement m)
  throwStatement : pair.Keeps pair.SameAction (Grammar.throwStatement n) (Grammar.throwStatement m)
  statementsUntil {last : Kind} {left right : ParserState}
    (sound : Lists.Sound pair.left last left) (sound' : Lists.Sound pair.right last right)
    (beside : pair.Beside left right) :
    pair.Meet (fun statements after others after' =>
        List.Forall₂ pair.SameStatement statements others ∧ pair.Beside after after')
      (Grammar.statementsUntil n last) left (Grammar.statementsUntil m last) right

namespace Walk

variable {pair : Tandem} {n m : Nat} (walk : ∀ k, pair.Walk n k)

include walk

/-! ## Expressions -/

theorem fieldNames_succ :
    pair.Keeps pair.SameNames (Grammar.fieldNames (n + 1)) (Grammar.fieldNames (m + 1)) := by
  intro left right beside
  rw [Grammar.fieldNames, Grammar.fieldNames]
  refine (meet_consumeKind _ beside).bind ?_
  rintro _ _ _ _ (⟨_, looked⟩ | ⟨isComma, took⟩)
  · exact meet_pure ⟨rfl, looked.beside⟩
  · rw [if_neg (by simp), if_neg (by simp)]
    refine (meet_check _ (took.beside (by rw [isComma]; rfl))).bind ?_
    rintro closes _ _ _ ⟨rfl, _, _, _, looked⟩
    split
    next => exact meet_pure ⟨rfl, looked.beside⟩
    next =>
      refine (keeps_identifier looked.beside).bind ?_
      rintro name _ name' _ ⟨sameName, named⟩
      refine ((walk m).fieldNames named).bind ?_
      rintro others _ others' _ ⟨sameOthers, more⟩
      refine meet_pure ⟨?_, more⟩
      simp only [SameNames, Same, List.map_cons, sameName.same, sameOthers.eq]

theorem expression_succ (minimum : Nat) :
    pair.Keeps pair.SameExpr (Grammar.expression (n + 1) minimum)
      (Grammar.expression (m + 1) minimum) := by
  intro left right beside
  rw [Grammar.expression, Grammar.expression]
  exact ((walk m).operand beside).bind fun _ _ _ _ holds => (walk m).climb minimum holds.1 holds.2

omit walk in
theorem isPlain_of_binds {kind : Kind} {op : InfixOp} (isInfix : InfixOp.ofKind? kind = some op) :
    kind.opensText = false := by
  cases kind <;> first | rfl | contradiction

omit walk in
theorem isPlain_of_leads {kind : Kind} {op : PrefixOp} (isPrefix : PrefixOp.ofKind? kind = some op) :
    kind.opensText = false := by
  cases kind <;> first | rfl | contradiction

theorem climb_succ (minimum : Nat) {value other : Expr Span} (same : pair.SameExpr value other) :
    pair.Keeps pair.SameExpr (Grammar.climb (n + 1) minimum value)
      (Grammar.climb (m + 1) minimum other) := by
  intro left right beside
  rw [Grammar.climb, Grammar.climb, same.endsWithLayout]
  split
  next => exact meet_pure ⟨same, beside⟩
  next =>
    refine (meet_peekKind beside).bind ?_
    rintro kind _ _ _ ⟨rfl, first, second, rfl, looked⟩
    split
    next => exact meet_pure ⟨same, looked.beside⟩
    next op isInfix =>
      split
      next => exact meet_pure ⟨same, looked.beside⟩
      next =>
        refine (looked.takes (isPlain_of_binds isInfix)).bind ?_
        rintro _ _ _ _ ⟨rfl, rfl, taken⟩
        refine ((walk m).applyInfix op looked.sight.counterparts.span same taken).bind ?_
        rintro longer _ longer' _ ⟨sameLonger, applied⟩
        exact (walk m).climb minimum sameLonger applied

theorem applyInfix_succ (op : InfixOp) {span span' : Span} (spans : pair.spans span span')
    {value other : Expr Span} (same : pair.SameExpr value other) :
    pair.Keeps pair.SameExpr (Grammar.applyInfix (n + 1) op span value)
      (Grammar.applyInfix (m + 1) op span' other) := by
  intro left right beside
  cases op with
  | assign assignOp =>
    rw [Grammar.applyInfix, Grammar.applyInfix, same.isAssignable]
    split
    next =>
      refine ((walk m).expression _ beside).bind ?_
      rintro _ _ _ _ ⟨sameRight, read⟩
      refine meet_pure ⟨⟨?_, pair.join same.spans sameRight.spans⟩, read⟩
      simp only [Expr.unhint, Expr.erase, same.same, sameRight.same]
    next =>
      exact meet_failAt (fun _ => SyntaxFault.noConfusion) (fun _ => SyntaxFault.noConfusion)
        (fun _ => rfl) same.spans (.inl beside)
  | binary binaryOp =>
    rw [Grammar.applyInfix, Grammar.applyInfix]
    refine ((walk m).expression _ beside).bind ?_
    rintro _ _ _ _ ⟨sameRight, read⟩
    refine meet_pure ⟨⟨?_, pair.join same.spans sameRight.spans⟩, read⟩
    simp only [Expr.unhint, Expr.erase, same.same, sameRight.same]
  | range =>
    rw [Grammar.applyInfix, Grammar.applyInfix]
    refine ((walk m).rangeEnd beside).bind ?_
    rintro upper _ upper' _ ⟨sameUpper, read⟩
    refine meet_pure ⟨⟨?_, pair.join same.spans ?_⟩, read⟩
    · simp only [Expr.unhint, Expr.unhintEnd, Expr.erase, Expr.eraseEnd, same.same,
        sameUpper.erase]
    · cases sameUpper with
      | none => exact spans
      | some sameUpper => exact sameUpper.spans

theorem rangeEnd_succ :
    pair.Keeps pair.SameEnd (Grammar.rangeEnd (n + 1)) (Grammar.rangeEnd (m + 1)) := by
  intro left right beside
  rw [Grammar.rangeEnd, Grammar.rangeEnd]
  refine (meet_peekKind beside).bind ?_
  rintro kind _ _ _ ⟨rfl, first, second, rfl, looked⟩
  split
  next =>
    refine ((walk m).expression _ looked.beside).bind ?_
    rintro _ _ _ _ ⟨same, read⟩
    exact meet_pure ⟨.some same, read⟩
  next => exact meet_pure ⟨.none, looked.beside⟩

theorem operand_succ :
    pair.Keeps pair.SameExpr (Grammar.operand (n + 1)) (Grammar.operand (m + 1)) := by
  intro left right beside
  rw [Grammar.operand, Grammar.operand]
  refine (meet_peekKind beside).bind ?_
  rintro kind _ _ _ ⟨rfl, first, second, rfl, looked⟩
  have counterparts := looked.sight.counterparts
  split
  next op isPrefix =>
    refine (looked.takes (isPlain_of_leads isPrefix)).bind ?_
    rintro _ _ _ _ ⟨rfl, rfl, taken⟩
    refine ((walk m).expression _ taken).bind ?_
    rintro _ _ _ _ ⟨same, read⟩
    refine meet_pure ⟨⟨?_, ?_⟩, read⟩
    · cases op <;> simp only [Grammar.applyPrefix, Expr.unhint, Expr.erase, same.same]
    · rw [Grammar.span_applyPrefix, Grammar.span_applyPrefix]
      exact pair.join counterparts.span same.spans
  next isRange =>
    refine (looked.takes (by rw [isRange]; rfl)).bind ?_
    rintro _ _ _ _ ⟨rfl, rfl, taken⟩
    refine ((walk m).rangeEnd taken).bind ?_
    rintro upper _ upper' _ ⟨sameUpper, read⟩
    refine meet_pure ⟨⟨?_, ?_⟩, read⟩
    · simp only [Expr.unhint, Expr.unhintEnd, Expr.erase, Expr.eraseEnd, sameUpper.erase]
    · cases sameUpper with
      | none => exact counterparts.span
      | some sameUpper => exact pair.join counterparts.span sameUpper.spans
  next => exact (walk m).switch.within looked.beside
  next =>
    refine ((walk m).primary looked.beside).bindWith ?_
    rintro value _ other _ read _ ⟨same, after⟩
    exact (walk m).suffixes same (precedes_of_primary looked.beside.visitedLeft read _) after

theorem primary_succ :
    pair.Keeps pair.SameExpr (Grammar.primary (n + 1)) (Grammar.primary (m + 1)) := by
  intro left right beside
  rw [Grammar.primary, Grammar.primary]
  refine (meet_peek beside).bind ?_
  rintro next _ next' _ looked
  rw [looked.kind]
  split
  next =>
    refine (keeps_identifier looked.beside).bind ?_
    rintro _ _ _ _ ⟨same, named⟩
    refine meet_pure ⟨⟨?_, same.spans⟩, named⟩
    simp only [Expr.unhint, Expr.erase, same.same]
  next isParen =>
    refine (looked.drops (by rw [isParen]; rfl)).bind fun _ _ _ _ opened => ?_
    refine (((walk m).expression 0).within opened).bind ?_
    rintro value _ other _ ⟨same, read⟩
    refine ((meet_expect_code rfl read).discard fun _ _ _ _ holds => holds.2.2).bind
      fun _ _ _ _ closed => ?_
    exact meet_pure ⟨same, closed⟩
  next =>
    split
    next =>
      refine ((walk m).literal.within looked.beside).bind ?_
      rintro _ _ _ _ ⟨same, read⟩
      refine meet_pure ⟨⟨?_, same.spans⟩, read⟩
      simp only [Expr.unhint, Expr.erase, same.same]
    next => exact looked.meet_unexpected

theorem suffixes_succ {value other : Expr Span} (same : pair.SameExpr value other)
    {left right : ParserState} (precedes : Precedes pair.left.settings value left)
    (beside : pair.Beside left right) :
    pair.Meet (fun value after other after' => pair.SameExpr value other ∧
        pair.Beside after after')
      (Grammar.suffixes (n + 1) value) left (Grammar.suffixes (m + 1) other) right := by
  have made : ∀ {value other : Expr Span} {left right : ParserState} (l : Nat),
      pair.Made value other → pair.Beside left right →
        pair.Meet (fun value after other after' => pair.SameExpr value other ∧
          pair.Beside after after') (Grammar.suffixes n value) left (Grammar.suffixes l other)
          right :=
    fun l made beside => (walk l).suffixes made.1 (made.2.precedes _ _) beside
  rw [Grammar.suffixes, Grammar.suffixes]
  refine (meet_peekKind beside).bind ?_
  rintro kind _ _ _ ⟨rfl, first, second, rfl, looked⟩
  split
  next isSymbol =>
    exact (keepsFrom_updated .increment same looked (by rw [isSymbol]; rfl)).bind
      fun _ _ _ _ holds => made m holds.1 holds.2
  next isSymbol =>
    exact (keepsFrom_updated .decrement same looked (by rw [isSymbol]; rfl)).bind
      fun _ _ _ _ holds => made m holds.1 holds.2
  next isSymbol =>
    exact ((walk m).unwrapped same looked (by rw [isSymbol]; rfl)).bind
      fun _ _ _ _ holds => made m holds.1 holds.2
  next isSymbol =>
    exact ((walk m).extracted same looked (by rw [isSymbol]; rfl)).bind
      fun _ _ _ _ holds => made m holds.1 holds.2
  next isSymbol =>
    exact (keepsFrom_optionalField same looked (by rw [isSymbol]; rfl)).bind
      fun _ _ _ _ holds => made m holds.1 holds.2
  next isSymbol =>
    exact ((walk m).field same looked (by rw [isSymbol]; rfl)).bind
      fun _ _ _ _ holds => made m holds.1 holds.2
  next =>
    refine (walk m).indexed same ?_ looked.beside n m made
    unfold Precedes
    rw [looked.ahead]
    exact precedes
  next =>
    exact ((walk m).called same looked.beside).bind fun _ _ _ _ holds => made m holds.1 holds.2
  next => exact meet_pure ⟨same, looked.beside⟩

theorem unwrapped_succ {value other : Expr Span} (same : pair.SameExpr value other) :
    pair.KeepsFrom pair.Made (Grammar.unwrapped (n + 1) value)
      (Grammar.unwrapped (m + 1) other) := by
  intro _ _ _ _ _ _ looked plain
  rw [Grammar.unwrapped, Grammar.unwrapped]
  refine (looked.takes plain).bind ?_
  rintro _ _ _ _ ⟨rfl, rfl, taken⟩
  refine (meet_check _ taken).bind ?_
  rintro opens _ _ _ ⟨rfl, _, _, _, checked⟩
  split
  next =>
    refine ((walk m).delimited _ _ checked.beside).bind ?_
    rintro _ _ _ _ ⟨⟨sameArguments, spans⟩, read⟩
    refine meet_pure ⟨⟨⟨?_, pair.join same.spans spans⟩, fun _ => rfl⟩, read⟩
    simp only [Expr.unhint, Expr.erase, same.same, sameArguments.eq]
  next =>
    refine meet_pure ⟨⟨⟨?_, pair.join same.spans looked.sight.counterparts.span⟩, fun _ => rfl⟩,
      checked.beside⟩
    simp only [Expr.unhint, Expr.erase, same.same]

theorem extracted_succ {value other : Expr Span} (same : pair.SameExpr value other) :
    pair.KeepsFrom pair.Made (Grammar.extracted (n + 1) value)
      (Grammar.extracted (m + 1) other) := by
  intro _ _ _ _ _ _ looked plain
  rw [Grammar.extracted, Grammar.extracted]
  refine (looked.drops plain).bind fun _ _ _ _ taken => ?_
  refine ((walk m).delimited _ _ taken).bind ?_
  rintro _ _ _ _ ⟨⟨sameArguments, spans⟩, read⟩
  refine meet_pure ⟨⟨⟨?_, pair.join same.spans spans⟩, fun _ => rfl⟩, read⟩
  simp only [Expr.unhint, Expr.erase, same.same, sameArguments.eq]

theorem field_succ {value other : Expr Span} (same : pair.SameExpr value other) :
    pair.KeepsFrom pair.Made (Grammar.field (n + 1) value) (Grammar.field (m + 1) other) := by
  intro _ _ _ _ _ _ looked plain
  rw [Grammar.field, Grammar.field]
  refine (looked.drops plain).bind fun _ _ _ _ taken => ?_
  refine (meet_consumeKind _ taken).bind ?_
  rintro _ _ _ _ (⟨_, seen⟩ | ⟨isParen, took⟩)
  · rw [if_neg (by simp), if_neg (by simp)]
    refine (keeps_identifier seen.beside).bind ?_
    rintro name _ name' _ ⟨sameName, named⟩
    refine meet_pure ⟨⟨⟨?_, pair.join same.spans sameName.spans⟩, fun _ => rfl⟩, named⟩
    simp only [Expr.unhint, Expr.erase, same.same, sameName.same]
  · rw [if_pos (by simp), if_pos (by simp)]
    refine (keeps_identifier (took.beside (by rw [isParen]; rfl))).bind ?_
    rintro name _ name' _ ⟨sameName, named⟩
    refine ((walk m).fieldNames named).bind ?_
    rintro others _ others' _ ⟨sameOthers, more⟩
    refine (meet_expect_code rfl more).bind ?_
    rintro _ _ _ _ ⟨_, counterparts, closed⟩
    refine meet_pure ⟨⟨⟨?_, pair.join same.spans counterparts.span⟩, fun _ => rfl⟩, closed⟩
    simp only [Expr.unhint, Expr.erase, List.map_cons, same.same, sameName.same, sameOthers.eq]

theorem called_succ {value other : Expr Span} (same : pair.SameExpr value other) :
    pair.Keeps pair.Made (Grammar.called (n + 1) value) (Grammar.called (m + 1) other) := by
  intro left right beside
  rw [Grammar.called, Grammar.called]
  refine ((walk m).delimited _ _ beside).bind ?_
  rintro ⟨arguments, span⟩ _ ⟨arguments', span'⟩ _ ⟨⟨sameArguments, spans⟩, read⟩
  refine Meet.get ?_
  rw [read.visitedLeft.sound.settings, read.visitedRight.sound.settings]
  exact meet_pure ⟨⟨applyCall_same same sameArguments (pair.join same.spans spans),
    composite_applyCall _ _ _ _⟩, read⟩

theorem delimited_succ (opening closing : Symbol) :
    pair.Keeps (fun group group' => pair.SameExprs group.1 group'.1 ∧ pair.spans group.2 group'.2)
      (Grammar.delimited (n + 1) opening closing) (Grammar.delimited (m + 1) opening closing) := by
  intro left right beside
  rw [Grammar.delimited, Grammar.delimited]
  refine (meet_expect_code rfl beside).bind ?_
  rintro _ _ _ _ ⟨_, opened, inside⟩
  refine ((walk m).listed closing inside).bind ?_
  rintro _ _ _ _ ⟨same, read⟩
  refine (meet_expect_code rfl read).bind ?_
  rintro _ _ _ _ ⟨_, closed, behind⟩
  exact meet_pure ⟨⟨same, pair.join opened.span closed.span⟩, behind⟩

theorem listed_succ (closing : Symbol) :
    pair.Keeps pair.SameExprs (Grammar.listed (n + 1) closing) (Grammar.listed (m + 1) closing) := by
  intro left right beside
  rw [Grammar.listed, Grammar.listed]
  refine (meet_check _ beside).bind ?_
  rintro closes _ _ _ ⟨rfl, _, _, _, checked⟩
  split
  next => exact meet_pure ⟨rfl, checked.beside⟩
  next =>
    refine (((walk m).expression 0).within checked.beside).bind ?_
    rintro value _ other _ ⟨same, read⟩
    refine (meet_consumeKind _ read).bind ?_
    rintro _ _ _ _ (⟨_, looked⟩ | ⟨isComma, took⟩)
    · rw [if_neg (by simp), if_neg (by simp)]
      refine meet_pure ⟨?_, looked.beside⟩
      simp only [SameExprs, Same, Expr.unhintAll, Expr.eraseAll, same.same]
    · rw [if_pos (by simp), if_pos (by simp)]
      refine ((walk m).listed closing (took.beside (by rw [isComma]; rfl))).bind ?_
      rintro _ _ _ _ ⟨sameOthers, more⟩
      refine meet_pure ⟨?_, more⟩
      simp only [SameExprs, Same, Expr.unhintAll, Expr.eraseAll, same.same, sameOthers.eq]

/-- Where the right text has no hints, what it takes for an element is called there in the next
round. -/
theorem called_later {name name' : Identifier Span} {indices others : List (Expr Span)}
    {span span' : Span} {before left right : ParserState} {k : Nat}
    (hinted : pair.hinted = true) (sameName : name'.erase = name.erase)
    (names : pair.spans name.span name'.span) (spans : pair.spans span span')
    (sameIndices : pair.SameExprs indices others) (visited : Visited pair.left before)
    (precedes : ∀ token ∈ before.ahead, name.span.first ≤ token.span.first)
    {middle : ParserState}
    (dimensions : Grammar.delimited n .leftBracket .rightBracket before = .ok (indices, span) middle)
    (ahead : left.ahead = middle.ahead) (beside : pair.Beside left right) (l : Nat)
    (later : ∀ {value other : Expr Span} {left right : ParserState} (l : Nat),
      pair.Made value other → pair.Beside left right →
        pair.Meet (fun value after other after' => pair.SameExpr value other ∧
          pair.Beside after after')
          (Grammar.suffixes k value) left (Grammar.suffixes l other) right) :
    pair.Meet (fun value after other after' => pair.SameExpr value other ∧
        pair.Beside after after')
      (do
        let (values, valuesSpan) ← Grammar.delimited n .leftParen .rightParen
        Grammar.suffixes k (.newArray name indices values (name.span.join valuesSpan)))
      left
      (Grammar.called l (.element (.identifier name') others (name'.span.join span')) >>=
        Grammar.suffixes l) right := by
  cases l with
  | zero => exact .exhaustedRight
  | succ l =>
    rw [Grammar.called]
    simp only [bind_assoc]
    refine ((walk l).delimited _ _ beside).bindWith ?_
    rintro ⟨values, valuesSpan⟩ _ ⟨values', valuesSpan'⟩ _ called _ ⟨⟨sameValues, covers⟩, read⟩
    refine later (l + 1) ⟨⟨?_, ?_⟩, fun _ => rfl⟩ read
    · simp only [Expr.unhint, Expr.erase, hinted, if_true, sameName]
      have sameIndices := sameIndices.eq
      have sameValues := sameValues.eq
      rw [hinted] at sameIndices sameValues
      rw [sameIndices, sameValues]
    · have covered := join_groups visited precedes dimensions called beside.visitedLeft ahead
      change pair.spans (name.span.join valuesSpan) ((name'.span.join span').join valuesSpan')
      rw [← covered]
      exact pair.join (pair.join names spans) covers

theorem indexed_succ {value other : Expr Span} (same : pair.SameExpr value other)
    {left right : ParserState} (precedes : Precedes pair.left.settings value left)
    (beside : pair.Beside left right) (k l : Nat)
    (later : ∀ {value other : Expr Span} {left right : ParserState} (l : Nat),
      pair.Made value other → pair.Beside left right →
        pair.Meet (fun value after other after' => pair.SameExpr value other ∧
          pair.Beside after after')
          (Grammar.suffixes k value) left (Grammar.suffixes l other) right) :
    pair.Meet (fun value after other after' => pair.SameExpr value other ∧
        pair.Beside after after')
      (Grammar.indexed (n + 1) value >>= Grammar.suffixes k) left
      (Grammar.indexed (m + 1) other >>= Grammar.suffixes l) right := by
  rw [Grammar.indexed, Grammar.indexed]
  simp only [bind_assoc]
  refine ((walk m).delimited _ _ beside).bindWith ?_
  rintro ⟨indices, span⟩ middle ⟨others, span'⟩ middle' dimensions _ ⟨⟨sameIndices, spans⟩, read⟩
  dsimp only
  rw [sameIndices.isEmpty]
  split
  next =>
    have missing : pair.Meet (fun (_ : Expr Span) _ _ _ => False)
        (failAt span (.expected [.expression] (.symbol .rightBracket) "]")) middle
        (failAt span' (.expected [.expression] (.symbol .rightBracket) "]")) middle' :=
      meet_failAt (fun _ => SyntaxFault.noConfusion) (fun _ => SyntaxFault.noConfusion)
        (fun _ => rfl) spans (.inl read)
    exact missing.bind fun _ _ _ _ never => never.elim
  next =>
    simp only [bind_assoc]
    refine (meet_check _ read).bind ?_
    rintro _ after hasValues after' ⟨rfl, first, second, isValues, checked⟩
    refine Meet.get ?_
    rw [checked.beside.visitedLeft.sound.settings, checked.beside.visitedRight.sound.settings]
    have element : pair.Made (.element value indices (value.span.join span))
        (.element other others (other.span.join span')) := by
      refine ⟨⟨?_, pair.join same.spans spans⟩, fun _ => rfl⟩
      simp only [Expr.unhint, Expr.erase, same.same, sameIndices.eq]
    have known := same.knownType?
    rcases known with ⟨unknown, unknown'⟩ | ⟨name, name', rfl, rfl, sameName, known, known'⟩
    · rw [unknown, unknown']
      exact later l element checked.beside
    · rw [known, known']
      cases hasValues with
      | false => cases pair.hinted <;> exact later l element checked.beside
      | true =>
        cases hinted : pair.hinted with
        | false =>
          simp only [bind_assoc, Bool.false_eq_true, if_false]
          refine ((walk m).delimited _ _ checked.beside).bind ?_
          rintro ⟨values, valuesSpan⟩ _ ⟨values', valuesSpan'⟩ _ ⟨⟨sameValues, covers⟩, more⟩
          refine later l ⟨⟨?_, pair.join same.spans covers⟩, fun _ => rfl⟩ more
          have sameIndices := sameIndices.eq
          have sameValues := sameValues.eq
          rw [hinted] at sameIndices sameValues
          simp only [Expr.unhint, Expr.erase, hinted, Bool.false_eq_true, if_false, sameName,
            sameIndices, sameValues]
        | true =>
          obtain ⟨_, buffer'⟩ := checked.sight.buffer'
          have isParen : second.kind = .symbol .leftParen :=
            checked.kind.trans (of_decide_eq_true isValues.symm)
          have seen : peekKind after' = .ok (.symbol .leftParen) after' := by
            rw [peekKind, bind_ok (peek_of_buffer buffer'), isParen]
            rfl
          cases l with
          | zero => exact .exhaustedRight
          | succ l =>
            simp only [bind_assoc, if_true, pure_bind]
            rw [Grammar.suffixes, Meet, bind_ok seen]
            exact called_later walk hinted sameName same.spans spans sameIndices beside.visitedLeft
              (precedes (by rw [known]; exact Option.some_ne_none name)) dimensions checked.ahead
              checked.beside l later

/-! ## Literals -/

theorem literal_succ :
    pair.Keeps pair.SameLiteral (Grammar.literal (n + 1)) (Grammar.literal (m + 1)) := by
  intro left right beside
  rw [Grammar.literal, Grammar.literal]
  refine (meet_check _ beside).bind ?_
  rintro isString _ _ _ ⟨rfl, first, second, _, looked⟩
  split
  next =>
    refine (looked.sight.consume looked.beside).bind ?_
    rintro _ _ _ _ ⟨rfl, rfl, took⟩
    refine ((walk m).stringParts took.trails).bind ?_
    rintro ⟨parts, last⟩ _ ⟨parts', last'⟩ _ ⟨⟨sameParts, spans⟩, read⟩
    refine meet_pure ⟨⟨?_, pair.join took.counterparts.span spans⟩, read⟩
    have sameParts := sameParts.eq
    simp only [Literal.unhint, Literal.erase, sameParts]
  next => exact keeps_simpleLiteral looked.beside

theorem stringParts_succ {left right : ParserState} (trails : pair.Trails left right) :
    pair.Meet (fun string after string' after' =>
        (pair.Same StringPart.unhintAll StringPart.eraseAll string.1 string'.1 ∧
          pair.spans string.2 string'.2) ∧ pair.Beside after after')
      (Grammar.stringParts (n + 1)) left (Grammar.stringParts (m + 1)) right := by
  rcases trails with beside | sunk
  · rw [Grammar.stringParts, Grammar.stringParts]
    refine (meet_consume beside).bind ?_
    rintro token _ token' _ took
    have taken := took.beside
    rw [took.counterparts.kind]
    split
    next text isFragment =>
      refine ((walk m).stringParts took.trails).bind ?_
      rintro ⟨parts, last⟩ _ ⟨parts', last'⟩ _ ⟨⟨sameParts, spans⟩, read⟩
      refine meet_pure ⟨⟨?_, spans⟩, read⟩
      have sameParts := sameParts.eq
      simp only [Same, StringPart.unhintAll, StringPart.unhint, StringPart.eraseAll,
        StringPart.erase, sameParts]
    next isStart =>
      refine (((walk m).expression 0).within (taken (by rw [isStart]; rfl))).bind ?_
      rintro value _ other _ ⟨same, read⟩
      refine ((meet_expect .interpolationEnd read).discard fun _ _ _ _ holds =>
        holds.2.trails).bind fun _ _ _ _ trails => ?_
      refine ((walk m).stringParts trails).bind ?_
      rintro ⟨parts, last⟩ _ ⟨parts', last'⟩ _ ⟨⟨sameParts, spans⟩, more⟩
      refine meet_pure ⟨⟨?_, spans⟩, more⟩
      have sameParts := sameParts.eq
      simp only [Same, StringPart.unhintAll, StringPart.unhint, StringPart.eraseAll,
        StringPart.erase, same.same, sameParts]
    next isEnd =>
      exact meet_pure ⟨⟨rfl, took.counterparts.span⟩, taken (by rw [isEnd]; rfl)⟩
    next => exact meet_unexpected took.counterparts took.counterparts.span took.trails
  · exact sunk.meet_stringParts _ _

/-! ## Switches -/

theorem switch_succ :
    pair.Keeps pair.SameExpr (Grammar.switch (n + 1)) (Grammar.switch (m + 1)) := by
  intro left right beside
  rw [Grammar.switch, Grammar.switch]
  refine (meet_expect_code rfl beside).bind ?_
  rintro keyword _ keyword' _ ⟨_, keywords, started⟩
  refine (((walk m).expression 0).within started).bind ?_
  rintro first _ first' _ ⟨sameFirst, read⟩
  refine ((walk m).subjects read).bind ?_
  rintro others _ others' _ ⟨sameOthers, more⟩
  refine (meet_expect_code rfl more).bind ?_
  rintro colon _ colon' _ ⟨_, colons, headed⟩
  have head := pair.join keywords.span colons.span
  have made : ∀ {arms arms' : List (Arm Span)} {span span' : Span},
      List.Forall₂ pair.SameArm arms arms' → pair.spans span span' →
        pair.SameExpr (.switch (first :: others) arms span)
          (.switch (first' :: others') arms' span') := by
    intro arms arms' span span' sameArms spans
    refine ⟨?_, spans⟩
    simp only [Expr.unhint, Expr.unhintAll, Expr.erase, Expr.eraseAll, sameFirst.same,
      sameOthers.eq, (arms_same sameArms).1]
  refine (meet_peek headed).bind ?_
  rintro next _ next' _ looked
  dsimp only
  rw [looked.kind]
  split
  next isLine =>
    exact (looked.drops (by rw [isLine]; rfl)).bind fun _ _ _ _ taken =>
      meet_pure ⟨made .nil head, taken⟩
  next => exact meet_pure ⟨made .nil head, looked.beside⟩
  next => exact meet_pure ⟨made .nil head, looked.beside⟩
  next isIndent =>
    refine (looked.drops (by rw [isIndent]; rfl)).bind fun _ _ _ _ opened => ?_
    refine ((walk m).arms opened).bind ?_
    rintro arms _ arms' _ ⟨sameArms, closed⟩
    exact meet_pure ⟨made sameArms (spans_foldl (arms_same sameArms).2 head), closed⟩
  next => exact looked.meet_unexpected

theorem subjects_succ :
    pair.Keeps pair.SameExprs (Grammar.subjects (n + 1)) (Grammar.subjects (m + 1)) := by
  intro left right beside
  rw [Grammar.subjects, Grammar.subjects]
  refine (meet_consumeKind _ beside).bind ?_
  rintro _ _ _ _ (⟨_, looked⟩ | ⟨isComma, took⟩)
  · exact meet_pure ⟨rfl, looked.beside⟩
  · rw [if_pos (by simp), if_pos (by simp)]
    refine (((walk m).expression 0).within (took.beside (by rw [isComma]; rfl))).bind ?_
    rintro subject _ subject' _ ⟨same, read⟩
    refine ((walk m).subjects read).bind ?_
    rintro others _ others' _ ⟨sameOthers, more⟩
    refine meet_pure ⟨?_, more⟩
    simp only [SameExprs, Same, Expr.unhintAll, Expr.eraseAll, same.same, sameOthers.eq]

theorem arms_succ :
    pair.Keeps (List.Forall₂ pair.SameArm) (Grammar.arms (n + 1)) (Grammar.arms (m + 1)) := by
  intro left right beside
  rw [Grammar.arms, Grammar.arms]
  refine (meet_removeNewlines beside).bind fun _ _ _ _ skipped => ?_
  refine (meet_consumeKind _ skipped).bind ?_
  rintro _ _ _ _ (⟨_, looked⟩ | ⟨isDedent, took⟩)
  · rw [if_neg (by simp), if_neg (by simp)]
    refine ((walk m).arm.within looked.beside).bind ?_
    rintro first _ first' _ ⟨same, read⟩
    refine ((walk m).arms read).bind ?_
    rintro others _ others' _ ⟨sameOthers, more⟩
    exact meet_pure ⟨.cons same sameOthers, more⟩
  · exact meet_pure ⟨.nil, took.beside (by rw [isDedent]; rfl)⟩

theorem arm_succ : pair.Keeps pair.SameArm (Grammar.arm (n + 1)) (Grammar.arm (m + 1)) := by
  intro left right beside
  rw [Grammar.arm, Grammar.arm]
  refine ((walk m).pattern.within beside).bind ?_
  rintro _ _ _ _ ⟨samePattern, matched⟩
  refine ((meet_expect_code rfl matched).discard fun _ _ _ _ holds => holds.2.2).bind
    fun _ _ _ _ pointed => ?_
  refine ((walk m).armBody.within pointed).bind ?_
  rintro _ _ _ _ ⟨sameBody, read⟩
  refine meet_pure ⟨⟨?_, pair.join samePattern.spans sameBody.spans⟩, read⟩
  simp only [Arm.unhint, Arm.erase, samePattern.same, sameBody.same]

theorem pattern_succ :
    pair.Keeps pair.SamePattern (Grammar.pattern (n + 1)) (Grammar.pattern (m + 1)) := by
  intro left right beside
  rw [Grammar.pattern, Grammar.pattern]
  refine (meet_peek beside).bind ?_
  rintro next _ next' _ looked
  rw [looked.kind]
  split
  next =>
    refine (keeps_identifier looked.beside).bind ?_
    rintro _ _ _ _ ⟨same, named⟩
    refine meet_pure ⟨⟨?_, same.spans⟩, named⟩
    simp only [Pattern.unhint, Pattern.erase, same.same]
  next =>
    split
    next =>
      refine ((walk m).literal.within looked.beside).bind ?_
      rintro _ _ _ _ ⟨same, read⟩
      refine meet_pure ⟨⟨?_, same.spans⟩, read⟩
      simp only [Pattern.unhint, Pattern.erase, same.same]
    next => exact looked.meet_unexpected

theorem armBody_succ :
    pair.Keeps pair.SameAction (Grammar.armBody (n + 1)) (Grammar.armBody (m + 1)) := by
  intro left right beside
  rw [Grammar.armBody, Grammar.armBody]
  refine (meet_peekKind beside).bind ?_
  rintro kind _ _ _ ⟨rfl, first, second, rfl, looked⟩
  split
  next => exact (walk m).block.within looked.beside
  next => exact (walk m).throwStatement.within looked.beside
  next => exact (walk m).expressionStatement.within looked.beside

/-! ## Statements -/

omit walk in
theorem keeps_action {parser parser' : Parser (Action Span)}
    (keeps : pair.Keeps pair.SameAction parser parser') :
    pair.Keeps pair.SameStatement (do return .action (← parser)) (do return .action (← parser')) :=
  fun _ _ beside => (keeps beside).bind fun _ _ _ _ ⟨same, read⟩ =>
    meet_pure ⟨⟨by simp only [Statement.unhint, Statement.erase, same.same], same.spans⟩, read⟩

theorem statement_succ :
    pair.Keeps pair.SameStatement (Grammar.statement (n + 1)) (Grammar.statement (m + 1)) := by
  intro left right beside
  rw [Grammar.statement, Grammar.statement]
  refine (meet_peek beside).bind ?_
  rintro next _ next' _ looked
  have counterparts := looked.sight.counterparts
  rw [looked.kind]
  split
  next => exact keeps_action (walk m).block.within looked.beside
  next isSemicolon =>
    refine (looked.takes (by rw [isSemicolon]; rfl)).bind ?_
    rintro _ _ _ _ ⟨rfl, rfl, taken⟩
    exact meet_pure ⟨⟨rfl, counterparts.span⟩, taken⟩
  next => exact keeps_action (walk m).throwStatement.within looked.beside
  next =>
    split
    next =>
      refine meet_failAt (fun _ => SyntaxFault.noConfusion) (fun _ => SyntaxFault.noConfusion) ?_
        counterparts.span (.inl looked.beside)
      intro spelled
      rw [counterparts.text spelled]
    next => exact keeps_action (walk m).expressionStatement.within looked.beside

theorem block_succ :
    pair.Keeps pair.SameAction (Grammar.block (n + 1)) (Grammar.block (m + 1)) := by
  intro left right beside
  rw [Grammar.block, Grammar.block]
  refine (meet_expect_code rfl beside).bindWith ?_
  rintro first _ first' _ opened opened' ⟨_, firsts, inside⟩
  have sound := (Lists.block beside.visitedLeft opened).sound
  have sound' := (Lists.block beside.visitedRight opened').sound
  refine ((walk m).statementsUntil sound sound' inside).bind ?_
  rintro statements _ statements' _ ⟨all, read⟩
  refine (meet_expect_code rfl read).bind ?_
  rintro last _ last' _ ⟨_, lasts, closed⟩
  obtain ⟨same, spans⟩ := statements_same all
  refine meet_pure ⟨⟨?_, spans_foldl spans (pair.join firsts.span lasts.span)⟩, closed⟩
  simp only [Action.unhint, Action.erase, same]

theorem expressionStatement_succ :
    pair.Keeps pair.SameAction (Grammar.expressionStatement (n + 1))
      (Grammar.expressionStatement (m + 1)) := by
  intro left right beside
  rw [Grammar.expressionStatement, Grammar.expressionStatement]
  refine (((walk m).expression 0).within beside).bind ?_
  rintro value _ other _ ⟨same, read⟩
  refine (meet_terminator same read).bind ?_
  rintro _ _ _ _ ⟨spans, ended⟩
  cases spans with
  | none =>
    refine meet_pure ⟨⟨?_, same.spans⟩, ended⟩
    simp only [Action.unhint, Action.erase, same.same]
  | some span =>
    refine meet_pure ⟨⟨?_, pair.join same.spans span⟩, ended⟩
    simp only [Action.unhint, Action.erase, same.same]

theorem throwStatement_succ :
    pair.Keeps pair.SameAction (Grammar.throwStatement (n + 1))
      (Grammar.throwStatement (m + 1)) := by
  intro left right beside
  rw [Grammar.throwStatement, Grammar.throwStatement]
  refine (meet_expect_code rfl beside).bind ?_
  rintro keyword _ keyword' _ ⟨_, keywords, started⟩
  refine (((walk m).expression 0).within started).bind ?_
  rintro value _ other _ ⟨same, read⟩
  refine (meet_terminator same read).bind ?_
  rintro _ _ _ _ ⟨spans, ended⟩
  cases spans with
  | none =>
    refine meet_pure ⟨⟨?_, pair.join keywords.span same.spans⟩, ended⟩
    simp only [Action.unhint, Action.erase, same.same]
  | some span =>
    refine meet_pure ⟨⟨?_, pair.join keywords.span span⟩, ended⟩
    simp only [Action.unhint, Action.erase, same.same]

theorem statementsUntil_succ {last : Kind} {left right : ParserState}
    (sound : Lists.Sound pair.left last left) (sound' : Lists.Sound pair.right last right)
    (beside : pair.Beside left right) :
    pair.Meet (fun statements after others after' =>
        List.Forall₂ pair.SameStatement statements others ∧ pair.Beside after after')
      (Grammar.statementsUntil (n + 1) last) left (Grammar.statementsUntil (m + 1) last) right := by
  rw [Grammar.statementsUntil, Grammar.statementsUntil]
  refine (meet_removeNewlines beside).bindWith ?_
  rintro _ skipped _ skipped' passed passed' aside
  refine (meet_peek aside).bindWith ?_
  rintro next middle next' middle' peeked peeked' looked
  have here := looked.beside
  rw [looked.kind]
  split
  next => exact meet_pure ⟨.nil, here⟩
  next goesOn =>
    simp only [Bool.or_eq_true, decide_eq_true_eq, not_or] at goesOn
    have round : Round last left next middle := ⟨⟨skipped, passed, peeked⟩, goesOn.1, goesOn.2⟩
    have round' : Round last right next' middle' :=
      ⟨⟨skipped', passed', peeked'⟩, looked.kind ▸ goesOn.1, looked.kind ▸ goesOn.2⟩
    obtain ⟨soundHere, _, ahead⟩ := sound.looks round
    obtain ⟨soundHere', _, ahead'⟩ := sound'.looks round'
    refine Meet.get ?_
    refine (meet_attempt ((walk m).statement.within here)).bindWith ?_
    rintro _ failed _ failed' tried tried' (⟨same, read⟩ | ⟨told, trails⟩)
    · obtain ⟨_, kept⟩ := soundHere.attempts tried
      obtain ⟨_, kept'⟩ := soundHere'.attempts tried'
      have soundAfter := Returns.sound ⟨kept.visitedLeft, kept.rises.depth⟩ soundHere.encloses
      have soundAfter' := Returns.sound ⟨kept'.visitedLeft, kept'.rises.depth⟩ soundHere'.encloses
      refine ((walk m).statementsUntil soundAfter soundAfter' read).bind ?_
      rintro others _ others' _ ⟨all, more⟩
      exact meet_pure ⟨.cons same all, more⟩
    · obtain ⟨rest, taken, found, whole, later⟩ := sound.fails round tried
      obtain ⟨rest', taken', found', whole', later'⟩ := sound'.fails round' tried'
      dsimp only
      rw [here.depth]
      refine (meet_recover middle.depth told trails fun still =>
        .of_taken here still found whole later found' whole' later').bindWith ?_
      rintro _ _ _ _ recovered recovered' read
      rw [← here.depth] at recovered'
      exact (walk m).statementsUntil
        ((soundHere.recovers ahead round.notLast tried recovered).sound soundHere.encloses)
        ((soundHere'.recovers ahead' round'.notLast tried' recovered').sound soundHere'.encloses)
        read

end Walk

/-! ## All rules -/

variable {pair : Tandem} {n m : Nat}

section

variable {α : Type} {post : α → ParserState → α → ParserState → Prop} {parser parser' : Parser α}
  {left right : ParserState}

/-- A reading that runs out of fuel comes to nothing that is said of. -/
theorem Meet.of_left (empty : parser = exhausted) : pair.Meet post parser left parser' right :=
  empty ▸ .exhaustedLeft

theorem Meet.of_right (empty : parser' = exhausted) : pair.Meet post parser left parser' right :=
  empty ▸ .exhaustedRight

end

theorem walk_zero_left : pair.Walk 0 m where
  fieldNames := fun _ _ _ => .of_left (by rw [Grammar.fieldNames])
  expression _ := fun _ _ _ => .of_left (by rw [Grammar.expression])
  climb := by
    intro _ _ _ _ _ _ _
    exact .of_left (by rw [Grammar.climb])
  applyInfix op := by
    intro _ _ _ _ _ _ _ _ _
    cases op <;> exact .of_left (by rw [Grammar.applyInfix])
  rangeEnd := fun _ _ _ => .of_left (by rw [Grammar.rangeEnd])
  operand := fun _ _ _ => .of_left (by rw [Grammar.operand])
  primary := fun _ _ _ => .of_left (by rw [Grammar.primary])
  suffixes := by
    intro _ _ _ _ _ _ _
    exact .of_left (by rw [Grammar.suffixes])
  unwrapped _ := fun _ _ _ _ _ _ _ _ => .of_left (by rw [Grammar.unwrapped])
  extracted _ := fun _ _ _ _ _ _ _ _ => .of_left (by rw [Grammar.extracted])
  field _ := fun _ _ _ _ _ _ _ _ => .of_left (by rw [Grammar.field])
  indexed := by
    intro _ _ _ _ _ _ _ _ _ _
    rw [Grammar.indexed]
    exact .exhaustedLeft
  called _ := fun _ _ _ => .of_left (by rw [Grammar.called])
  delimited _ _ := fun _ _ _ => .of_left (by rw [Grammar.delimited])
  listed _ := fun _ _ _ => .of_left (by rw [Grammar.listed])
  literal := fun _ _ _ => .of_left (by rw [Grammar.literal])
  stringParts _ := .of_left (by rw [Grammar.stringParts])
  switch := fun _ _ _ => .of_left (by rw [Grammar.switch])
  subjects := fun _ _ _ => .of_left (by rw [Grammar.subjects])
  arms := fun _ _ _ => .of_left (by rw [Grammar.arms])
  arm := fun _ _ _ => .of_left (by rw [Grammar.arm])
  pattern := fun _ _ _ => .of_left (by rw [Grammar.pattern])
  armBody := fun _ _ _ => .of_left (by rw [Grammar.armBody])
  statement := fun _ _ _ => .of_left (by rw [Grammar.statement])
  block := fun _ _ _ => .of_left (by rw [Grammar.block])
  expressionStatement := fun _ _ _ => .of_left (by rw [Grammar.expressionStatement])
  throwStatement := fun _ _ _ => .of_left (by rw [Grammar.throwStatement])
  statementsUntil _ _ _ := .of_left (by rw [Grammar.statementsUntil])

theorem walk_zero_right : pair.Walk n 0 where
  fieldNames := fun _ _ _ => .of_right (by rw [Grammar.fieldNames])
  expression _ := fun _ _ _ => .of_right (by rw [Grammar.expression])
  climb := by
    intro _ _ _ _ _ _ _
    exact .of_right (by rw [Grammar.climb])
  applyInfix op := by
    intro _ _ _ _ _ _ _ _ _
    cases op <;> exact .of_right (by rw [Grammar.applyInfix])
  rangeEnd := fun _ _ _ => .of_right (by rw [Grammar.rangeEnd])
  operand := fun _ _ _ => .of_right (by rw [Grammar.operand])
  primary := fun _ _ _ => .of_right (by rw [Grammar.primary])
  suffixes := by
    intro _ _ _ _ _ _ _
    exact .of_right (by rw [Grammar.suffixes])
  unwrapped _ := fun _ _ _ _ _ _ _ _ => .of_right (by rw [Grammar.unwrapped])
  extracted _ := fun _ _ _ _ _ _ _ _ => .of_right (by rw [Grammar.extracted])
  field _ := fun _ _ _ _ _ _ _ _ => .of_right (by rw [Grammar.field])
  indexed := by
    intro _ _ _ _ _ _ _ _ _ _
    rw [Grammar.indexed]
    exact .exhaustedRight
  called _ := fun _ _ _ => .of_right (by rw [Grammar.called])
  delimited _ _ := fun _ _ _ => .of_right (by rw [Grammar.delimited])
  listed _ := fun _ _ _ => .of_right (by rw [Grammar.listed])
  literal := fun _ _ _ => .of_right (by rw [Grammar.literal])
  stringParts _ := .of_right (by rw [Grammar.stringParts])
  switch := fun _ _ _ => .of_right (by rw [Grammar.switch])
  subjects := fun _ _ _ => .of_right (by rw [Grammar.subjects])
  arms := fun _ _ _ => .of_right (by rw [Grammar.arms])
  arm := fun _ _ _ => .of_right (by rw [Grammar.arm])
  pattern := fun _ _ _ => .of_right (by rw [Grammar.pattern])
  armBody := fun _ _ _ => .of_right (by rw [Grammar.armBody])
  statement := fun _ _ _ => .of_right (by rw [Grammar.statement])
  block := fun _ _ _ => .of_right (by rw [Grammar.block])
  expressionStatement := fun _ _ _ => .of_right (by rw [Grammar.expressionStatement])
  throwStatement := fun _ _ _ => .of_right (by rw [Grammar.throwStatement])
  statementsUntil _ _ _ := .of_right (by rw [Grammar.statementsUntil])

theorem walk_succ (walk : ∀ k, pair.Walk n k) : pair.Walk (n + 1) (m + 1) where
  fieldNames := Walk.fieldNames_succ walk
  expression := Walk.expression_succ walk
  climb := Walk.climb_succ walk
  applyInfix := Walk.applyInfix_succ walk
  rangeEnd := Walk.rangeEnd_succ walk
  operand := Walk.operand_succ walk
  primary := Walk.primary_succ walk
  suffixes := Walk.suffixes_succ walk
  unwrapped := Walk.unwrapped_succ walk
  extracted := Walk.extracted_succ walk
  field := Walk.field_succ walk
  indexed := Walk.indexed_succ walk
  called := Walk.called_succ walk
  delimited := Walk.delimited_succ walk
  listed := Walk.listed_succ walk
  literal := Walk.literal_succ walk
  stringParts := Walk.stringParts_succ walk
  switch := Walk.switch_succ walk
  subjects := Walk.subjects_succ walk
  arms := Walk.arms_succ walk
  arm := Walk.arm_succ walk
  pattern := Walk.pattern_succ walk
  armBody := Walk.armBody_succ walk
  statement := Walk.statement_succ walk
  block := Walk.block_succ walk
  expressionStatement := Walk.expressionStatement_succ walk
  throwStatement := Walk.throwStatement_succ walk
  statementsUntil := Walk.statementsUntil_succ walk

/-- Two readings by any rule of the grammar come to the same. -/
theorem walk (pair : Tandem) (n m : Nat) : pair.Walk n m := by
  induction n generalizing m with
  | zero => exact walk_zero_left
  | succ n inductionHypothesis =>
    cases m with
    | zero => exact walk_zero_right
    | succ m => exact walk_succ inductionHypothesis

end Tandem

end Offside
