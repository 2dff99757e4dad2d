import Offside.Proofs.Parser.Derived
import Offside.Proofs.Parser.Visited

/-!
The rules of the grammar one by one: each one derives what it returns, if those inside of it do.
-/

namespace Offside

open ParserState Offside.Parser

/-- What is derived by the rules of the grammar for some amount of fuel. -/
structure Grammar.Sound (settings : Settings) (n : Nat) : Prop where
  fieldNames : Traces settings (Grammar.fieldNames n) .names
  expression (minimum : Nat) : Traces settings (Grammar.expression n minimum) .expr
  climb (minimum : Nat) : Extends settings (Grammar.climb n minimum) .expr
  applyInfix (op : InfixOp) {origin state : ParserState} {k m : Nat} {before : List Token}
    {token : Token} {value : Expr Span} (past : Past settings (k + m) origin state)
    (left : Derives settings m before (.expr value) (token :: state.ahead))
    (isOp : InfixOp.ofKind? token.kind = some op) (goesOn : value.endsWithLayout = false) :
    Finds settings origin (Grammar.applyInfix n op token.span value) state fun longer after =>
      ∃ n, Past settings (k + n) origin after ∧
        Derives settings n before (.expr longer) after.ahead
  rangeEnd : Traces settings (Grammar.rangeEnd n) .upper
  operand : Traces settings (Grammar.operand n) .expr
  primary : Traces settings (Grammar.primary n) .primary
  suffixes : Extends settings (Grammar.suffixes n) .primary
  unwrapped : ExtendsAt settings (.symbol .bang) (Grammar.unwrapped n)
  extracted : ExtendsAt settings (.symbol .question) (Grammar.extracted n)
  field : ExtendsAt settings (.symbol .dot) (Grammar.field n)
  indexed : Extends settings (Grammar.indexed n) .primary
  called : Extends settings (Grammar.called n) .primary
  delimited (opening closing : Symbol) : Traces settings (Grammar.delimited n opening closing)
    fun group => .group opening closing group.1 group.2
  listed (closing : Symbol) : Traces settings (Grammar.listed n closing) .listed
  literal : Traces settings (Grammar.literal n) .literal
  stringParts : Traces settings (Grammar.stringParts n) fun string => .parts string.1 string.2
  switch : Traces settings (Grammar.switch n) .expr
  subjects : Traces settings (Grammar.subjects n) .subjects
  arms : Traces settings (Grammar.arms n) .arms
  arm : Traces settings (Grammar.arm n) .arm
  pattern : Traces settings (Grammar.pattern n) .pattern
  armBody : Traces settings (Grammar.armBody n) .action
  statement : Traces settings (Grammar.statement n) .statement
  block : Traces settings (Grammar.block n) .action
  expressionStatement : Traces settings (Grammar.expressionStatement n) .action
  throwStatement : Traces settings (Grammar.throwStatement n) .action
  statementsUntil (last : Kind) : Traces settings (Grammar.statementsUntil n last) .statements

/-! ## Rules without fuel -/

theorem extends_updated {settings : Settings} {kind : Kind} {op : UpdateOp}
    (isUpdate : PrefixOp.ofKind? kind = some (.update op)) :
    ExtendsAt settings kind (Grammar.updated op) := by
  intro origin state k m before value token rest past ahead isKind derives
  subst isKind
  have notEnd : token.kind ≠ .endOfInput := by
    intro isEnd
    rw [isEnd] at isUpdate
    contradiction
  refine (finds_consume_of_ahead past ahead notEnd).bind ?_
  rintro taken after ⟨rfl, taking, shorter⟩
  refine finds_pure ⟨m, taking, ?_⟩
  rw [shorter]
  exact .updated derives isUpdate

theorem extends_optionalField {settings : Settings} :
    ExtendsAt settings (.symbol .questionDot) Grammar.optionalField := by
  intro origin state k m before value token rest past ahead isMark derives
  refine ((finds_consume_of_ahead past ahead (by simp [isMark])).discard
    fun _ _ taken => taken.2).bind ?_
  rintro _ middle ⟨taking, shorter⟩
  refine (traces_identifier taking).bind ?_
  rintro name _ ⟨more, reached, named⟩
  rw [shorter] at named
  exact finds_pure ⟨m + more, reached.congr (by omega), .optionalField derives isMark named⟩

namespace Grammar.Sound

variable {settings : Settings} {n : Nat} (sound : Grammar.Sound settings n)

include sound

/-! ## Expressions -/

theorem fieldNames_succ : Traces settings (Grammar.fieldNames (n + 1)) .names := by
  intro origin state k past
  rw [Grammar.fieldNames]
  refine (finds_consumeKind past Kind.noConfusion).bind ?_
  rintro taken after ⟨looked, ⟨rfl, same⟩ | ⟨comma, rfl, isComma, ahead⟩⟩
  · refine finds_pure ⟨0, looked, ?_⟩
    rw [same]
    exact .noNames
  · refine (finds_check looked _).bind ?_
    rintro closes middle ⟨checked, same, _⟩
    split
    next =>
      refine finds_pure ⟨0, checked, ?_⟩
      rw [ahead, same]
      exact .noNamesAfter isComma
    next =>
      refine (traces_identifier checked).bind ?_
      rintro name _ ⟨m, named, first⟩
      refine (sound.fieldNames named).bind ?_
      rintro names last ⟨more, past, others⟩
      refine finds_pure ⟨m + more, past.congr (by omega), ?_⟩
      rw [ahead, ← same]
      exact .names isComma first others

theorem expression_succ (minimum : Nat) :
    Traces settings (Grammar.expression (n + 1) minimum) .expr := by
  intro origin state k past
  rw [Grammar.expression]
  refine (sound.operand past).bind ?_
  rintro first _ ⟨m, reached, derives⟩
  exact sound.climb minimum reached derives

theorem climb_succ (minimum : Nat) : Extends settings (Grammar.climb (n + 1) minimum) .expr := by
  intro origin state k m before value past derives
  rw [Grammar.climb]
  split
  next => exact finds_pure ⟨m, past, derives⟩
  next goesOn =>
    refine (finds_peekKind past).bind ?_
    rintro kind middle ⟨looked, same, token, rest, ahead, rfl⟩
    have aheadMiddle := same.trans ahead
    split
    next =>
      refine finds_pure ⟨m, looked, ?_⟩
      rw [same]
      exact derives
    next op isOp =>
      split
      next =>
        refine finds_pure ⟨m, looked, ?_⟩
        rw [same]
        exact derives
      next =>
        have notEnd : token.kind ≠ .endOfInput := by
          intro isEnd
          rw [isEnd] at isOp
          contradiction
        refine (finds_consume_of_ahead looked aheadMiddle notEnd).bind ?_
        rintro taken after ⟨rfl, taking, shorter⟩
        rw [ahead, ← shorter] at derives
        refine (sound.applyInfix op taking derives isOp (by simpa using goesOn)).bind ?_
        rintro longer later ⟨more, reached, derivesLonger⟩
        exact sound.climb minimum reached derivesLonger

theorem applyInfix_succ (op : InfixOp) {origin state : ParserState} {k m : Nat}
    {before : List Token} {token : Token} {value : Expr Span}
    (past : Past settings (k + m) origin state)
    (left : Derives settings m before (.expr value) (token :: state.ahead))
    (isOp : InfixOp.ofKind? token.kind = some op) (goesOn : value.endsWithLayout = false) :
    Finds settings origin (Grammar.applyInfix (n + 1) op token.span value) state
      fun longer after => ∃ n, Past settings (k + n) origin after ∧
        Derives settings n before (.expr longer) after.ahead := by
  cases op with
  | assign assignOp =>
    rw [Grammar.applyInfix]
    split
    next isAssignable =>
      refine (sound.expression _ past).bind ?_
      rintro second _ ⟨more, reached, right⟩
      exact finds_pure
        ⟨m + more, reached.congr (by omega), .assignment left isOp goesOn isAssignable right⟩
    next => exact finds_failAt past
  | binary binaryOp =>
    rw [Grammar.applyInfix]
    refine (sound.expression _ past).bind ?_
    rintro second _ ⟨more, reached, right⟩
    exact finds_pure ⟨m + more, reached.congr (by omega), .binary left isOp goesOn right⟩
  | range =>
    rw [Grammar.applyInfix]
    refine (sound.rangeEnd past).bind ?_
    rintro upper _ ⟨more, reached, right⟩
    exact finds_pure ⟨m + more, reached.congr (by omega), .rangeFrom left isOp goesOn right⟩

theorem rangeEnd_succ : Traces settings (Grammar.rangeEnd (n + 1)) .upper := by
  intro origin state k past
  rw [Grammar.rangeEnd]
  refine (finds_peekKind past).bind ?_
  rintro kind middle ⟨looked, same, _⟩
  split
  next =>
    refine (sound.expression _ looked).bind ?_
    rintro value _ ⟨m, reached, read⟩
    refine finds_pure ⟨m, reached, ?_⟩
    rw [← same]
    exact .closedEnd read
  next =>
    refine finds_pure ⟨0, looked, ?_⟩
    rw [same]
    exact .openEnd

theorem operand_succ : Traces settings (Grammar.operand (n + 1)) .expr := by
  intro origin state k past
  rw [Grammar.operand]
  refine (finds_peekKind past).bind ?_
  rintro kind middle ⟨looked, same, token, rest, ahead, rfl⟩
  have aheadMiddle := same.trans ahead
  dsimp only
  split
  next op isPrefix =>
    have notEnd : token.kind ≠ .endOfInput := by
      intro isEnd
      rw [isEnd] at isPrefix
      contradiction
    refine (finds_consume_of_ahead looked aheadMiddle notEnd).bind ?_
    rintro taken after ⟨rfl, taking, shorter⟩
    refine (sound.expression _ taking).bind ?_
    rintro value _ ⟨m, reached, read⟩
    refine finds_pure ⟨m, reached, ?_⟩
    rw [ahead, ← shorter]
    exact .prefixed isPrefix read
  next isOp =>
    refine (finds_consume_of_ahead looked aheadMiddle (by simp [isOp])).bind ?_
    rintro taken after ⟨rfl, taking, shorter⟩
    refine (sound.rangeEnd taking).bind ?_
    rintro upper _ ⟨m, reached, right⟩
    refine finds_pure ⟨m, reached, ?_⟩
    rw [ahead, ← shorter]
    cases upper with
    | none => exact .rangeTo isOp right
    | some upper => exact .rangeTo isOp right
  next =>
    rw [← same]
    exact sound.switch.within looked
  next =>
    refine (sound.primary looked).bind ?_
    rintro value _ ⟨m, reached, read⟩
    refine (sound.suffixes reached read).mono ?_
    rintro longer _ ⟨more, later, derives⟩
    refine ⟨more, later, ?_⟩
    rw [← same]
    exact .primary derives

theorem primary_succ : Traces settings (Grammar.primary (n + 1)) .primary := by
  intro origin state k past
  rw [Grammar.primary]
  refine (finds_peek past).bind ?_
  rintro next middle ⟨looked, same, rest, ahead⟩
  have aheadMiddle := same.trans ahead
  split
  next =>
    refine (traces_identifier looked).bind ?_
    rintro name _ ⟨m, reached, read⟩
    refine finds_pure ⟨m, reached, ?_⟩
    rw [← same]
    exact .name read
  next opens =>
    refine ((finds_consume_of_ahead looked aheadMiddle (by simp [opens])).discard
      fun _ _ taken => taken.2).bind ?_
    rintro _ after ⟨taking, shorter⟩
    refine ((sound.expression 0).within taking).bind ?_
    rintro value inner ⟨m, reached, inside⟩
    refine (finds_discard_expect reached Kind.noConfusion).bind ?_
    rintro _ later ⟨past, closing, closes, aheadInner⟩
    refine finds_pure ⟨m, past, ?_⟩
    rw [ahead, ← shorter]
    exact .parenthesized opens (aheadInner ▸ inside) closes
  next =>
    split
    next =>
      refine (sound.literal.within looked).bind ?_
      rintro literal _ ⟨m, reached, read⟩
      refine finds_pure ⟨m, reached, ?_⟩
      rw [← same]
      exact .literal read
    next => exact finds_unexpected looked

theorem suffixes_succ : Extends settings (Grammar.suffixes (n + 1)) .primary := by
  intro origin state k m before value past derives
  rw [Grammar.suffixes]
  refine (finds_peekKind past).bind ?_
  rintro kind middle ⟨looked, same, token, rest, ahead, rfl⟩
  have aheadMiddle := same.trans ahead
  have derivesHere : Derives settings m before (.primary value) middle.ahead := same ▸ derives
  rw [ahead] at derives
  split
  case h_1 isUpdate =>
    refine (extends_updated rfl looked aheadMiddle isUpdate derives).bind ?_
    rintro longer _ ⟨more, reached, read⟩
    exact sound.suffixes reached read
  case h_2 isUpdate =>
    refine (extends_updated rfl looked aheadMiddle isUpdate derives).bind ?_
    rintro longer _ ⟨more, reached, read⟩
    exact sound.suffixes reached read
  case h_3 isBang =>
    refine (sound.unwrapped looked aheadMiddle isBang derives).bind ?_
    rintro longer _ ⟨more, reached, read⟩
    exact sound.suffixes reached read
  case h_4 isQuestion =>
    refine (sound.extracted looked aheadMiddle isQuestion derives).bind ?_
    rintro longer _ ⟨more, reached, read⟩
    exact sound.suffixes reached read
  case h_5 isMark =>
    refine (extends_optionalField looked aheadMiddle isMark derives).bind ?_
    rintro longer _ ⟨more, reached, read⟩
    exact sound.suffixes reached read
  case h_6 isDot =>
    refine (sound.field looked aheadMiddle isDot derives).bind ?_
    rintro longer _ ⟨more, reached, read⟩
    exact sound.suffixes reached read
  case h_7 =>
    refine (sound.indexed looked derivesHere).bind ?_
    rintro longer _ ⟨more, reached, read⟩
    exact sound.suffixes reached read
  case h_8 =>
    refine (sound.called looked derivesHere).bind ?_
    rintro longer _ ⟨more, reached, read⟩
    exact sound.suffixes reached read
  case h_9 => exact finds_pure ⟨m, looked, derivesHere⟩

theorem unwrapped_succ :
    ExtendsAt settings (.symbol .bang) (Grammar.unwrapped (n + 1)) := by
  intro origin state k m before value token rest past ahead isBang derives
  rw [Grammar.unwrapped]
  refine (finds_consume_of_ahead past ahead (by simp [isBang])).bind ?_
  rintro bang middle ⟨rfl, taking, shorter⟩
  refine (finds_check taking _).bind ?_
  rintro hasArguments after ⟨checked, same, _⟩
  split
  next =>
    refine (sound.delimited .leftParen .rightParen checked).bind ?_
    rintro ⟨arguments, span⟩ _ ⟨more, reached, group⟩
    rw [same, shorter] at group
    exact finds_pure ⟨m + more, reached.congr (by omega), .unwrapWith derives isBang group⟩
  next =>
    refine finds_pure ⟨m, checked, ?_⟩
    rw [same, shorter]
    exact .unwrap derives isBang

theorem extracted_succ :
    ExtendsAt settings (.symbol .question) (Grammar.extracted (n + 1)) := by
  intro origin state k m before value token rest past ahead isQuestion derives
  rw [Grammar.extracted]
  refine ((finds_consume_of_ahead past ahead (by simp [isQuestion])).discard
    fun _ _ taken => taken.2).bind ?_
  rintro _ middle ⟨taking, shorter⟩
  refine (sound.delimited .leftParen .rightParen taking).bind ?_
  rintro ⟨arguments, span⟩ _ ⟨more, reached, group⟩
  rw [shorter] at group
  exact finds_pure ⟨m + more, reached.congr (by omega), .extraction derives isQuestion group⟩

theorem field_succ : ExtendsAt settings (.symbol .dot) (Grammar.field (n + 1)) := by
  intro origin state k m before value token rest past ahead isDot derives
  rw [Grammar.field]
  refine ((finds_consume_of_ahead past ahead (by simp [isDot])).discard
    fun _ _ taken => taken.2).bind ?_
  rintro _ middle ⟨taking, shorter⟩
  refine (finds_consumeKind taking Kind.noConfusion).bind ?_
  rintro taken after ⟨looked, ⟨rfl, same⟩ | ⟨opening, rfl, opens, aheadMiddle⟩⟩
  · refine (traces_identifier looked).bind ?_
    rintro name _ ⟨more, reached, named⟩
    rw [same, shorter] at named
    exact finds_pure ⟨m + more, reached.congr (by omega), .field derives isDot named⟩
  · refine (traces_identifier looked).bind ?_
    rintro name _ ⟨some, named, first⟩
    refine (sound.fieldNames named).bind ?_
    rintro names inner ⟨more, reached, others⟩
    refine (finds_expect reached Kind.noConfusion).bind ?_
    rintro closing last ⟨past, closes, aheadInner⟩
    rw [← shorter, aheadMiddle] at derives
    rw [aheadInner] at others
    exact finds_pure ⟨m + some + more, past.congr (by omega),
      .fieldGroup derives isDot opens first others closes⟩

theorem indexed_succ : Extends settings (Grammar.indexed (n + 1)) .primary := by
  intro origin state k m before value past derives
  rw [Grammar.indexed]
  refine (sound.delimited .leftBracket .rightBracket past).bind ?_
  rintro ⟨indices, span⟩ middle ⟨some, reached, group⟩
  dsimp only
  split
  next => exact finds_failAt reached
  next isNonempty =>
    have nonempty : indices ≠ [] := by
      intro isEmpty
      exact isNonempty (by rw [isEmpty]; rfl)
    refine (finds_check reached _).bind ?_
    rintro hasValues after ⟨checked, same, _⟩
    refine finds_get ?_
    rw [checked.settings]
    rw [← same] at group
    split
    next type isType _ =>
      refine (sound.delimited .leftParen .rightParen checked).bind ?_
      rintro ⟨values, valuesSpan⟩ _ ⟨more, later, called⟩
      exact finds_pure ⟨m + some + more, later.congr (by omega),
        .newArray derives isType group nonempty called⟩
    next => exact finds_pure ⟨m + some, checked.congr (by omega), .element derives group nonempty⟩

theorem called_succ : Extends settings (Grammar.called (n + 1)) .primary := by
  intro origin state k m before value past derives
  rw [Grammar.called]
  refine (sound.delimited .leftParen .rightParen past).bind ?_
  rintro ⟨arguments, span⟩ middle ⟨more, reached, group⟩
  refine finds_get ?_
  rw [reached.settings]
  exact finds_pure ⟨m + more, reached.congr (by omega), .called derives group⟩

theorem delimited_succ (opening closing : Symbol) :
    Traces settings (Grammar.delimited (n + 1) opening closing)
      fun group => .group opening closing group.1 group.2 := by
  intro origin state k past
  rw [Grammar.delimited]
  refine (finds_expect past Kind.noConfusion).bind ?_
  rintro first middle ⟨taking, opens, ahead⟩
  refine (sound.listed closing taking).bind ?_
  rintro values inner ⟨m, reached, inside⟩
  refine (finds_expect reached Kind.noConfusion).bind ?_
  rintro last after ⟨later, closes, aheadInner⟩
  rw [aheadInner] at inside
  refine finds_pure ⟨m, later, ?_⟩
  rw [ahead]
  exact .group opens inside closes

theorem listed_succ (closing : Symbol) :
    Traces settings (Grammar.listed (n + 1) closing) .listed := by
  intro origin state k past
  rw [Grammar.listed]
  refine (finds_check past _).bind ?_
  rintro closes middle ⟨checked, same, _⟩
  split
  next =>
    refine finds_pure ⟨0, checked, ?_⟩
    rw [same]
    exact .noneListed
  next =>
    refine ((sound.expression 0).within checked).bind ?_
    rintro value inner ⟨m, reached, read⟩
    rw [same] at read
    refine (finds_consumeKind reached Kind.noConfusion).bind ?_
    rintro taken after ⟨looked, ⟨rfl, sameInner⟩ | ⟨comma, rfl, isComma, aheadInner⟩⟩
    · rw [← sameInner] at read
      exact finds_pure ⟨m, looked, .lastListed read⟩
    · rw [aheadInner] at read
      refine (sound.listed closing looked).bind ?_
      rintro values _ ⟨more, later, others⟩
      exact finds_pure ⟨m + more, later.congr (by omega), .listed read isComma others⟩

/-! ## Literals -/

theorem literal_succ : Traces settings (Grammar.literal (n + 1)) .literal := by
  intro origin state k past
  rw [Grammar.literal]
  refine (finds_check past _).bind ?_
  rintro isString middle ⟨checked, same, start, rest, ahead, rfl⟩
  split
  next isStart =>
    have isStart : start.kind = .stringStart := of_decide_eq_true isStart
    refine (finds_consume_of_ahead checked (same.trans ahead) (by simp [isStart])).bind ?_
    rintro taken after ⟨rfl, taking, shorter⟩
    refine (sound.stringParts taking).bind ?_
    rintro ⟨parts, last⟩ _ ⟨m, reached, inside⟩
    rw [shorter] at inside
    refine finds_pure ⟨m, reached, ?_⟩
    rw [ahead]
    exact .string isStart inside
  next =>
    rw [← same]
    exact traces_simpleLiteral checked

theorem stringParts_succ : Traces settings (Grammar.stringParts (n + 1))
    fun string => .parts string.1 string.2 := by
  intro origin state k past
  rw [Grammar.stringParts]
  refine (finds_consume past).bind ?_
  rintro token middle ⟨taking, rest, ahead, shorter⟩
  split
  next text isText =>
    refine (sound.stringParts taking).bind ?_
    rintro ⟨parts, last⟩ _ ⟨m, reached, others⟩
    rw [shorter (by simp [isText])] at others
    refine finds_pure ⟨m, reached, ?_⟩
    rw [ahead]
    exact .fragment isText others
  next opens =>
    refine ((sound.expression 0).within taking).bind ?_
    rintro value inner ⟨m, reached, inside⟩
    rw [shorter (by simp [opens])] at inside
    refine (finds_discard_expect reached Kind.noConfusion).bind ?_
    rintro _ after ⟨past, closing, closes, aheadInner⟩
    rw [aheadInner] at inside
    refine (sound.stringParts past).bind ?_
    rintro ⟨parts, last⟩ _ ⟨more, later, others⟩
    refine finds_pure ⟨m + more, later.congr (by omega), ?_⟩
    rw [ahead]
    exact .interpolation opens inside closes others
  next isEnd =>
    refine finds_pure ⟨0, taking, ?_⟩
    rw [ahead, shorter (by simp [isEnd])]
    exact .stringEnd isEnd
  next => exact finds_unexpected taking

/-! ## Switches -/

theorem switch_succ : Traces settings (Grammar.switch (n + 1)) .expr := by
  intro origin state k past
  rw [Grammar.switch]
  refine (finds_expect past Kind.noConfusion).bind ?_
  rintro keyword afterKeyword ⟨taking, isSwitch, ahead⟩
  refine ((sound.expression 0).within taking).bind ?_
  rintro first afterFirst ⟨m, reached, subject⟩
  refine (sound.subjects reached).bind ?_
  rintro others afterSubjects ⟨some, later, subjects⟩
  refine (finds_expect later Kind.noConfusion).bind ?_
  rintro colon afterColon ⟨past, isColon, aheadColon⟩
  rw [aheadColon] at subjects
  have derives {arms : List (Arm Span)} {more : Nat} {rest : List Token}
      (block : Derives settings more afterColon.ahead (.armBlock arms) rest) :
      Derives settings (m + some + more) state.ahead (.expr (.switch (first :: others) arms
        ((arms.map Arm.span).foldl Span.join (keyword.span.join colon.span)))) rest := by
    rw [ahead]
    exact .switch isSwitch subject subjects isColon block
  refine (finds_peek past).bind ?_
  rintro next middle ⟨looked, same, rest, aheadNext⟩
  have aheadMiddle := same.trans aheadNext
  have noArms (isEnd : next.kind = .dedent ∨ next.kind = .endOfInput) :
      Finds settings origin (pure (.switch (first :: others) [] (keyword.span.join colon.span)))
        middle fun value after => ∃ n, Past settings (k + n) origin after ∧
          Derives settings n state.ahead (.expr value) after.ahead := by
    refine finds_pure ⟨m + some + 0, looked.congr (by omega), derives ?_⟩
    rw [aheadNext, aheadMiddle]
    exact .noArms isEnd
  dsimp only
  split
  next isLine =>
    refine ((finds_consume_of_ahead looked aheadMiddle (by simp [isLine])).discard
      fun _ _ taken => taken.2).bind ?_
    rintro _ after ⟨taking, shorter⟩
    refine finds_pure ⟨m + some + 0, taking.congr (by omega), derives ?_⟩
    rw [aheadNext, shorter]
    exact .noArmsInLine isLine
  next isDedent => exact noArms (Or.inl isDedent)
  next isEnd => exact noArms (Or.inr isEnd)
  next isIndent =>
    refine ((finds_consume_of_ahead looked aheadMiddle (by simp [isIndent])).discard
      fun _ _ taken => taken.2).bind ?_
    rintro _ after ⟨taking, shorter⟩
    refine (sound.arms taking).bind ?_
    rintro arms _ ⟨more, reached, inside⟩
    refine finds_pure ⟨m + some + more, reached.congr (by omega), derives ?_⟩
    rw [aheadNext, ← shorter]
    exact .armBlock isIndent inside
  next => exact finds_unexpected looked

theorem subjects_succ : Traces settings (Grammar.subjects (n + 1)) .subjects := by
  intro origin state k past
  rw [Grammar.subjects]
  refine (finds_consumeKind past Kind.noConfusion).bind ?_
  rintro taken middle ⟨looked, ⟨rfl, same⟩ | ⟨comma, rfl, isComma, ahead⟩⟩
  · refine finds_pure ⟨0, looked, ?_⟩
    rw [same]
    exact .noSubjects
  · refine ((sound.expression 0).within looked).bind ?_
    rintro value _ ⟨m, reached, read⟩
    refine (sound.subjects reached).bind ?_
    rintro values _ ⟨more, later, others⟩
    refine finds_pure ⟨m + more, later.congr (by omega), ?_⟩
    rw [ahead]
    exact .subjects isComma read others

theorem arms_succ : Traces settings (Grammar.arms (n + 1)) .arms := by
  intro origin state k past
  rw [Grammar.arms]
  refine (finds_removeNewlines past).bind ?_
  rintro _ start ⟨skipped, drops⟩
  refine (finds_consumeKind skipped Kind.noConfusion).bind ?_
  rintro taken middle ⟨looked, ⟨rfl, same⟩ | ⟨dedent, rfl, isDedent, ahead⟩⟩
  · refine (sound.arm.within looked).bind ?_
    rintro first _ ⟨m, reached, read⟩
    rw [same] at read
    refine (sound.arms reached).bind ?_
    rintro arms _ ⟨more, later, others⟩
    exact finds_pure ⟨m + more, later.congr (by omega), drops.arms (.arms read others)⟩
  · refine finds_pure ⟨0, looked, drops.arms ?_⟩
    rw [ahead]
    exact .armsEnd isDedent

theorem arm_succ : Traces settings (Grammar.arm (n + 1)) .arm := by
  intro origin state k past
  rw [Grammar.arm]
  refine (sound.pattern.within past).bind ?_
  rintro pattern afterPattern ⟨m, reached, matched⟩
  refine (finds_discard_expect reached Kind.noConfusion).bind ?_
  rintro _ afterArrow ⟨past, arrow, isArrow, ahead⟩
  rw [ahead] at matched
  refine (sound.armBody.within past).bind ?_
  rintro body _ ⟨more, later, done⟩
  exact finds_pure ⟨m + more, later.congr (by omega), .arm matched isArrow done⟩

theorem pattern_succ : Traces settings (Grammar.pattern (n + 1)) .pattern := by
  intro origin state k past
  rw [Grammar.pattern]
  refine (finds_peek past).bind ?_
  rintro next middle ⟨looked, same, _⟩
  split
  next =>
    refine (traces_identifier looked).bind ?_
    rintro name _ ⟨m, reached, read⟩
    rw [same] at read
    exact finds_pure ⟨m, reached, .binding read⟩
  next =>
    split
    next =>
      refine (sound.literal.within looked).bind ?_
      rintro literal _ ⟨m, reached, read⟩
      rw [same] at read
      exact finds_pure ⟨m, reached, .literalPattern read⟩
    next => exact finds_unexpected looked

theorem armBody_succ : Traces settings (Grammar.armBody (n + 1)) .action := by
  intro origin state k past
  rw [Grammar.armBody]
  refine (finds_peekKind past).bind ?_
  rintro kind middle ⟨looked, same, _⟩
  rw [← same]
  split
  next => exact sound.block.within looked
  next => exact sound.throwStatement.within looked
  next => exact sound.expressionStatement.within looked

/-! ## Statements -/

theorem statement_succ : Traces settings (Grammar.statement (n + 1)) .statement := by
  intro origin state k past
  rw [Grammar.statement]
  refine (finds_peek past).bind ?_
  rintro next middle ⟨looked, same, rest, ahead⟩
  have aheadMiddle := same.trans ahead
  have acts {parser : Parser (Action Span)} (traces : Traces settings parser .action) :
      Finds settings origin (do return Statement.action (← parser)) middle fun value after =>
        ∃ n, Past settings (k + n) origin after ∧
          Derives settings n state.ahead (.statement value) after.ahead := by
    refine (traces looked).bind ?_
    rintro action _ ⟨m, reached, read⟩
    rw [same] at read
    exact finds_pure ⟨m, reached, .statement read⟩
  split
  next => exact acts sound.block.within
  next isSemicolon =>
    refine (finds_consume_of_ahead looked aheadMiddle (by simp [isSemicolon])).bind ?_
    rintro taken after ⟨rfl, taking, shorter⟩
    refine finds_pure ⟨0, taking, ?_⟩
    rw [ahead, shorter]
    exact .empty isSemicolon
  next => exact acts sound.throwStatement.within
  next =>
    split
    next => exact finds_failAt looked
    next => exact acts sound.expressionStatement.within

theorem block_succ : Traces settings (Grammar.block (n + 1)) .action := by
  intro origin state k past
  rw [Grammar.block]
  refine (finds_expect past Kind.noConfusion).bind ?_
  rintro first _ ⟨taking, isIndent, ahead⟩
  refine (sound.statementsUntil .dedent taking).bind ?_
  rintro statements _ ⟨m, reached, inside⟩
  refine (finds_expect reached Kind.noConfusion).bind ?_
  rintro last _ ⟨later, isDedent, aheadLast⟩
  rw [aheadLast] at inside
  refine finds_pure ⟨m, later, ?_⟩
  rw [ahead]
  exact .block isIndent inside isDedent

theorem expressionStatement_succ :
    Traces settings (Grammar.expressionStatement (n + 1)) .action := by
  intro origin state k past
  rw [Grammar.expressionStatement]
  refine ((sound.expression 0).within past).bind ?_
  rintro value _ ⟨m, reached, read⟩
  refine (finds_terminator reached).bind ?_
  rintro last after ⟨later, ends⟩
  cases last with
  | some last => exact finds_pure ⟨m, later, .expression read ends⟩
  | none => exact finds_pure ⟨m, later, .expression read ends⟩

theorem throwStatement_succ : Traces settings (Grammar.throwStatement (n + 1)) .action := by
  intro origin state k past
  rw [Grammar.throwStatement]
  refine (finds_expect past Kind.noConfusion).bind ?_
  rintro keyword _ ⟨taking, isThrow, ahead⟩
  refine ((sound.expression 0).within taking).bind ?_
  rintro value _ ⟨m, reached, read⟩
  refine (finds_terminator reached).bind ?_
  rintro last after ⟨later, ends⟩
  rw [ahead]
  cases last with
  | some last => exact finds_pure ⟨m, later, .throw isThrow read ends⟩
  | none => exact finds_pure ⟨m, later, .throw isThrow read ends⟩

theorem statementsUntil_succ (last : Kind) :
    Traces settings (Grammar.statementsUntil (n + 1) last) .statements := by
  intro origin state k past
  rw [Grammar.statementsUntil]
  refine (finds_removeNewlines past).bind ?_
  rintro _ start ⟨skipped, drops⟩
  refine (finds_peek skipped).bind ?_
  rintro next middle ⟨looked, same, _⟩
  split
  next =>
    refine finds_pure ⟨0, looked, drops.statements ?_⟩
    rw [same]
    exact .noStatements
  next =>
    refine finds_get ((finds_attempt looked (sound.statement.within looked.restart)).bind ?_)
    rintro (error | first) failed outcome
    · obtain ⟨m, attempted⟩ := outcome
      refine (finds_recover error _ _ (attempted.trans looked)).bind ?_
      rintro _ after ⟨recovered, wrong, ahead, resumes⟩
      refine (sound.statementsUntil last recovered).mono ?_
      rintro statements _ ⟨more, later, others⟩
      refine ⟨m + 1 + more, later.congr (by omega), drops.statements ?_⟩
      -- What the attempt took is skipped, too.
      obtain ⟨taken, suffix⟩ := attempted.suffix
      rw [← same, ← suffix, ahead, ← List.append_assoc]
      exact .skipped (resumes.prepend taken) others
    · obtain ⟨m, read, derives⟩ := outcome
      rw [same] at derives
      refine (sound.statementsUntil last (read.trans looked)).bind ?_
      rintro statements _ ⟨more, later, others⟩
      exact finds_pure ⟨0 + m + more, later.congr (by omega),
        drops.statements ((Nat.zero_add m).symm ▸ .statements derives others)⟩

end Grammar.Sound

/-! ## All rules -/

theorem traces_exhausted {α : Type} {settings : Settings} {phrase : α → Phrase} :
    Traces settings exhausted phrase :=
  fun _ _ _ past => finds_exhausted past

theorem extends_exhausted {settings : Settings} {phrase : Expr Span → Phrase} :
    Extends settings (fun _ => exhausted) phrase :=
  fun _ _ _ _ _ _ past _ => finds_exhausted past

theorem extendsAt_exhausted {settings : Settings} {kind : Kind} :
    ExtendsAt settings kind fun _ => exhausted :=
  fun _ _ _ _ _ _ _ _ past _ _ _ => finds_exhausted past

theorem Grammar.sound_zero (settings : Settings) : Grammar.Sound settings 0 where
  fieldNames := traces_exhausted
  expression _ := traces_exhausted
  climb _ := extends_exhausted
  applyInfix _ _ _ _ _ _ _ _ past _ _ _ := finds_exhausted past
  rangeEnd := traces_exhausted
  operand := traces_exhausted
  primary := traces_exhausted
  suffixes := extends_exhausted
  unwrapped := extendsAt_exhausted
  extracted := extendsAt_exhausted
  field := extendsAt_exhausted
  indexed := extends_exhausted
  called := extends_exhausted
  delimited _ _ := traces_exhausted
  listed _ := traces_exhausted
  literal := traces_exhausted
  stringParts := traces_exhausted
  switch := traces_exhausted
  subjects := traces_exhausted
  arms := traces_exhausted
  arm := traces_exhausted
  pattern := traces_exhausted
  armBody := traces_exhausted
  statement := traces_exhausted
  block := traces_exhausted
  expressionStatement := traces_exhausted
  throwStatement := traces_exhausted
  statementsUntil _ := traces_exhausted

theorem Grammar.sound (settings : Settings) (n : Nat) : Grammar.Sound settings n := by
  induction n with
  | zero => exact sound_zero settings
  | succ n sound =>
    exact {
      fieldNames := sound.fieldNames_succ
      expression := sound.expression_succ
      climb := sound.climb_succ
      applyInfix := sound.applyInfix_succ
      rangeEnd := sound.rangeEnd_succ
      operand := sound.operand_succ
      primary := sound.primary_succ
      suffixes := sound.suffixes_succ
      unwrapped := sound.unwrapped_succ
      extracted := sound.extracted_succ
      field := sound.field_succ
      indexed := sound.indexed_succ
      called := sound.called_succ
      delimited := sound.delimited_succ
      listed := sound.listed_succ
      literal := sound.literal_succ
      stringParts := sound.stringParts_succ
      switch := sound.switch_succ
      subjects := sound.subjects_succ
      arms := sound.arms_succ
      arm := sound.arm_succ
      pattern := sound.pattern_succ
      armBody := sound.armBody_succ
      statement := sound.statement_succ
      block := sound.block_succ
      expressionStatement := sound.expressionStatement_succ
      throwStatement := sound.throwStatement_succ
      statementsUntil := sound.statementsUntil_succ }

/-! ## Whole texts -/

/-- What a tree of a whole text is derived from: all tokens up to the end of input, with as many
statements left out as attempts failed. -/
structure File.Derived (input : Input) (file : File Span) : Prop where
  derives : ∃ last, last.kind = .endOfInput ∧ file.span.last = last.span.last ∧
    Derives input.settings (ended input.settings input.cancelled input.source).failures.length
      input.tokens (.statements file.statements) [last]

theorem finds_expect_end {settings : Settings} {origin state : ParserState} {k : Nat}
    (past : Past settings k origin state) :
    Finds settings origin (expect .endOfInput) state fun token after =>
      Past settings k origin after ∧ token.kind = .endOfInput ∧
        ∃ rest, state.ahead = token :: rest := by
  refine (finds_peek past).bind ?_
  rintro next middle ⟨looked, same, rest, ahead⟩
  split
  next isEnd =>
    refine (finds_consume looked).mono ?_
    rintro token after ⟨taking, others, aheadMiddle, _⟩
    obtain ⟨rfl, rfl⟩ := List.cons.inj (aheadMiddle.symm.trans (same.trans ahead))
    exact ⟨taking, isEnd, others, ahead⟩
  next => exact finds_get (finds_unexpected looked)

theorem file_derived (input : Input) {file : File Span}
    (read : (parse input.settings input.cancelled input.source).file? = some file) :
    file.Derived input := by
  have past : Past input.settings 0 input.start input.start :=
    .start (ready_ofSource _ _ _)
  have finds : Finds input.settings input.start Parser.file input.start fun file after =>
      ∃ last rest n, last.kind = .endOfInput ∧ file.span.last = last.span.last ∧
        Past input.settings n input.start after ∧ last :: rest <:+ input.tokens ∧
        Derives input.settings n input.tokens (.statements file.statements) (last :: rest) := by
    refine finds_within ?_ (finds_fueled ?_)
    · rintro file after nonTerminals ⟨last, rest, n, isEnd, span, later, ending⟩
      exact ⟨last, rest, n, isEnd, span, later.named _, ending⟩
    · rw [Grammar.file]
      refine ((Grammar.sound _ _).statementsUntil .endOfInput (past.named _)).bind ?_
      rintro statements middle ⟨n, reached, derives⟩
      refine (finds_expect_end reached).bind ?_
      rintro last after ⟨later, isEnd, rest, ahead⟩
      have suffix := reached.suffix
      rw [ahead] at derives suffix
      exact finds_pure ⟨last, rest, n, isEnd, rfl, later.congr (by omega), suffix, derives⟩
  rw [parse] at read
  cases result : Parser.file (.ofSource input.settings input.cancelled input.source) with
  | error abort after =>
    rw [result] at read
    exact absurd read (Option.some_ne_none file).symm
  | ok tree after =>
    rw [result] at read
    obtain rfl := Option.some.inj read
    rw [Finds, Input.start, result] at finds
    obtain ⟨last, rest, n, isEnd, span, later, ⟨before, whole⟩, derives⟩ := finds
    have nothing := Input.nil_of_endOfInput whole.symm isEnd
    have failures : (ended input.settings input.cancelled input.source).failures.length = n := by
      rw [ended, result]
      exact later.failures.trans (Nat.zero_add n)
    refine ⟨last, isEnd, span, ?_⟩
    rw [failures, ← nothing]
    exact derives

end Offside
