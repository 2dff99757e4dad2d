import Offside.Parser
import Offside.Proofs.Parser.Primitive

/-!
Every rule of the grammar keeps every discipline, and two runs of a rule agree if both have enough
fuel. Enough is sixteen calls for each token ahead and what the rule needs before it takes its
first token: the rank of the rule.
-/

namespace Offside

open Offside.Parser

namespace Discipline

/-- Two runs have enough fuel for a rule of some rank after `count` tokens were taken. -/
structure Enough (rank count : Nat) (origin : ParserState) (fuelLeft fuelRight : Nat) : Prop where
  left : 16 * origin.ahead.length + rank ≤ fuelLeft + 16 * count
  right : 16 * origin.ahead.length + rank ≤ fuelRight + 16 * count

/-- A rule inside another has enough fuel if its rank is lower or if tokens were taken. -/
theorem Enough.step {rank lower count later fuelLeft fuelRight : Nat} {origin : ParserState}
    (enough : Enough rank count origin (fuelLeft + 1) (fuelRight + 1))
    (covered : lower + 16 * count + 1 ≤ rank + 16 * later) :
    Enough lower later origin fuelLeft fuelRight := by
  obtain ⟨left, right⟩ := enough
  exact ⟨by omega, by omega⟩

/-- The fuel that is left is enough also if the reading starts over. -/
theorem Enough.restart {discipline : Discipline} {rank count fuelLeft fuelRight : Nat}
    {origin state : ParserState} (enough : Enough rank count origin fuelLeft fuelRight)
    (reach : discipline.Reach count origin state) : Enough rank 0 state fuelLeft fuelRight := by
  obtain ⟨left, right⟩ := enough
  have fewer := reach.fewer
  exact ⟨by omega, by omega⟩

variable (discipline : Discipline)

/-- Two runs of a rule agree wherever both have enough fuel, and take at least `progress`
tokens. -/
def Walks {α : Type} (rank progress fuelLeft fuelRight : Nat) (left right : Parser α) : Prop :=
  ∀ {origin state : ParserState} {count : Nat}, discipline.Reach count origin state →
    Enough rank count origin fuelLeft fuelRight →
      discipline.Agrees false origin left right state fun _ after =>
        discipline.Reach (count + progress) origin after

/-- What holds of every rule of the grammar for two amounts of fuel. -/
structure Walk (n m : Nat) : Prop where
  fieldNames : discipline.Walks 1 0 n m (Grammar.fieldNames n) (Grammar.fieldNames m)
  expression (minimum : Nat) :
    discipline.Walks 4 1 n m (Grammar.expression n minimum) (Grammar.expression m minimum)
  climb (minimum : Nat) (value : Expr Span) :
    discipline.Walks 1 0 n m (Grammar.climb n minimum value) (Grammar.climb m minimum value)
  applyInfix (op : InfixOp) (span : Span) (value : Expr Span) :
    discipline.Walks 6 0 n m (Grammar.applyInfix n op span value)
      (Grammar.applyInfix m op span value)
  rangeEnd : discipline.Walks 5 0 n m (Grammar.rangeEnd n) (Grammar.rangeEnd m)
  operand : discipline.Walks 3 1 n m (Grammar.operand n) (Grammar.operand m)
  primary : discipline.Walks 2 1 n m (Grammar.primary n) (Grammar.primary m)
  suffixes (value : Expr Span) :
    discipline.Walks 3 0 n m (Grammar.suffixes n value) (Grammar.suffixes m value)
  unwrapped (value : Expr Span) {origin state : ParserState} {count : Nat} {token : Token}
    {rest : List Token} (ahead : state.ahead = token :: rest) (notEnd : token.kind ≠ .endOfInput)
    (reach : discipline.Reach count origin state) (enough : Enough 1 count origin n m) :
    discipline.Agrees false origin (Grammar.unwrapped n value) (Grammar.unwrapped m value) state
      fun _ after => discipline.Reach (count + 1) origin after
  extracted (value : Expr Span) :
    discipline.Walks 2 1 n m (Grammar.extracted n value) (Grammar.extracted m value)
  field (value : Expr Span) :
    discipline.Walks 1 1 n m (Grammar.field n value) (Grammar.field m value)
  indexed (value : Expr Span) :
    discipline.Walks 2 1 n m (Grammar.indexed n value) (Grammar.indexed m value)
  called (value : Expr Span) :
    discipline.Walks 2 1 n m (Grammar.called n value) (Grammar.called m value)
  delimited (opening closing : Symbol) :
    discipline.Walks 1 1 n m (Grammar.delimited n opening closing)
      (Grammar.delimited m opening closing)
  listed (closing : Symbol) :
    discipline.Walks 5 0 n m (Grammar.listed n closing) (Grammar.listed m closing)
  literal : discipline.Walks 1 1 n m (Grammar.literal n) (Grammar.literal m)
  stringParts : discipline.Walks 1 1 n m (Grammar.stringParts n) (Grammar.stringParts m)
  switch : discipline.Walks 1 1 n m (Grammar.switch n) (Grammar.switch m)
  subjects : discipline.Walks 1 0 n m (Grammar.subjects n) (Grammar.subjects m)
  arms : discipline.Walks 4 0 n m (Grammar.arms n) (Grammar.arms m)
  arm : discipline.Walks 3 1 n m (Grammar.arm n) (Grammar.arm m)
  pattern : discipline.Walks 2 1 n m (Grammar.pattern n) (Grammar.pattern m)
  armBody : discipline.Walks 6 1 n m (Grammar.armBody n) (Grammar.armBody m)
  statement : discipline.Walks 6 1 n m (Grammar.statement n) (Grammar.statement m)
  block : discipline.Walks 1 1 n m (Grammar.block n) (Grammar.block m)
  expressionStatement :
    discipline.Walks 5 1 n m (Grammar.expressionStatement n) (Grammar.expressionStatement m)
  throwStatement :
    discipline.Walks 1 1 n m (Grammar.throwStatement n) (Grammar.throwStatement m)
  statementsUntil (last : Kind) {firm : Bool} {origin state : ParserState} {count : Nat}
    (reach : discipline.Reach count origin state) (enough : Enough 7 count origin n m) :
    discipline.Agrees firm origin (Grammar.statementsUntil n last) (Grammar.statementsUntil m last)
      state fun _ after => discipline.Reach count origin after ∧
        ∃ token rest, after.ahead = token :: rest ∧
          (token.kind = last ∨ token.kind = .endOfInput)

variable {discipline} {n m : Nat}

theorem walks_within {α : Type} {rank progress : Nat} {nonTerminal : NonTerminal}
    {left right : Parser α} (walks : discipline.Walks rank progress n m left right) :
    discipline.Walks rank progress n m (within nonTerminal left) (within nonTerminal right) :=
  fun reach enough => agrees_within reach fun reached => walks reached enough

namespace Walk

variable (walk : discipline.Walk n m)

include walk

/-! ## Expressions -/

theorem fieldNames_succ : discipline.Walks 1 0 (n + 1) (m + 1) (Grammar.fieldNames (n + 1))
    (Grammar.fieldNames (m + 1)) := by
  intro origin state count reach enough
  rw [Grammar.fieldNames, Grammar.fieldNames]
  have isComma : Kind.symbol .comma ≠ .endOfInput := Kind.noConfusion
  refine (agrees_consumeKind isComma reach).bind fun comma _ ⟨reached, counts⟩ => ?_
  split
  next => exact agrees_pure reached
  next isSome =>
    have taken := counts (Option.isSome_iff_ne_none.mpr (by simpa using isSome))
    refine (agrees_check _ taken).bind fun closes _ ⟨checked, _⟩ => ?_
    split
    next => exact agrees_pure (checked.weaken (by omega))
    next =>
      refine (agrees_identifier checked).bind fun name _ named => ?_
      refine (walk.fieldNames named (enough.step (by omega))).bind fun others _ more => ?_
      exact agrees_pure (more.weaken (by omega))

theorem expression_succ (minimum : Nat) : discipline.Walks 4 1 (n + 1) (m + 1)
    (Grammar.expression (n + 1) minimum) (Grammar.expression (m + 1) minimum) := by
  intro origin state count reach enough
  rw [Grammar.expression, Grammar.expression]
  refine (walk.operand reach (enough.step (by omega))).bind fun first _ reached => ?_
  exact walk.climb minimum first reached (enough.step (by omega))

theorem climb_succ (minimum : Nat) (value : Expr Span) : discipline.Walks 1 0 (n + 1) (m + 1)
    (Grammar.climb (n + 1) minimum value) (Grammar.climb (m + 1) minimum value) := by
  intro origin state count reach enough
  rw [Grammar.climb, Grammar.climb]
  split
  next => exact agrees_pure reach
  next =>
    refine (agrees_peekKind reach).bind fun kind _ ⟨reached, token, rest, ahead, same⟩ => ?_
    split
    next => exact agrees_pure reached
    next op isInfix =>
      split
      next => exact agrees_pure reached
      next =>
        have notEnd : token.kind ≠ .endOfInput := by
          rintro isEnd
          rw [← same, isEnd] at isInfix
          exact nomatch isInfix
        refine (agrees_consume_of_ahead reached ahead notEnd).bind fun taken _ ⟨_, counts⟩ => ?_
        refine (walk.applyInfix op _ value counts (enough.step (by omega))).bind
          fun longer _ applied => ?_
        exact (walk.climb minimum longer applied (enough.step (by omega))).mono
          fun _ _ climbed => climbed.weaken (by omega)

theorem applyInfix_succ (op : InfixOp) (span : Span) (value : Expr Span) :
    discipline.Walks 6 0 (n + 1) (m + 1) (Grammar.applyInfix (n + 1) op span value)
      (Grammar.applyInfix (m + 1) op span value) := by
  intro origin state count reach enough
  cases op with
  | assign assignOp =>
    rw [Grammar.applyInfix, Grammar.applyInfix]
    split
    next =>
      refine (walk.expression _ reach (enough.step (by omega))).bind fun right _ reached => ?_
      exact agrees_pure (reached.weaken (by omega))
    next => exact agrees_failAt reach fun _ => SyntaxFault.noConfusion
  | binary binaryOp =>
    rw [Grammar.applyInfix, Grammar.applyInfix]
    refine (walk.expression _ reach (enough.step (by omega))).bind fun right _ reached => ?_
    exact agrees_pure (reached.weaken (by omega))
  | range =>
    rw [Grammar.applyInfix, Grammar.applyInfix]
    refine (walk.rangeEnd reach (enough.step (by omega))).bind fun upper _ reached => ?_
    exact agrees_pure reached

theorem rangeEnd_succ : discipline.Walks 5 0 (n + 1) (m + 1) (Grammar.rangeEnd (n + 1))
    (Grammar.rangeEnd (m + 1)) := by
  intro origin state count reach enough
  rw [Grammar.rangeEnd, Grammar.rangeEnd]
  refine (agrees_peekKind reach).bind fun kind _ ⟨reached, _⟩ => ?_
  split
  next =>
    refine (walk.expression _ reached (enough.step (by omega))).bind fun upper _ read => ?_
    exact agrees_pure (read.weaken (by omega))
  next => exact agrees_pure reached

theorem operand_succ : discipline.Walks 3 1 (n + 1) (m + 1) (Grammar.operand (n + 1))
    (Grammar.operand (m + 1)) := by
  intro origin state count reach enough
  rw [Grammar.operand, Grammar.operand]
  refine (agrees_peekKind reach).bind fun kind _ ⟨reached, token, rest, ahead, same⟩ => ?_
  split
  next op isPrefix =>
    have notEnd : token.kind ≠ .endOfInput := by
      rintro isEnd
      rw [← same, isEnd] at isPrefix
      exact nomatch isPrefix
    refine (agrees_consume_of_ahead reached ahead notEnd).bind fun taken _ ⟨_, counts⟩ => ?_
    refine (walk.expression _ counts (enough.step (by omega))).bind fun value _ read => ?_
    exact agrees_pure (read.weaken (by omega))
  next =>
    have notEnd : token.kind ≠ .endOfInput := by
      rw [same]
      exact Kind.noConfusion
    refine (agrees_consume_of_ahead reached ahead notEnd).bind fun taken _ ⟨_, counts⟩ => ?_
    refine (walk.rangeEnd counts (enough.step (by omega))).bind fun upper _ read => ?_
    exact agrees_pure read
  next => exact walks_within walk.switch reached (enough.step (by omega))
  next =>
    refine (walk.primary reached (enough.step (by omega))).bind fun value _ read => ?_
    exact walk.suffixes value read (enough.step (by omega))

theorem primary_succ : discipline.Walks 2 1 (n + 1) (m + 1) (Grammar.primary (n + 1))
    (Grammar.primary (m + 1)) := by
  intro origin state count reach enough
  rw [Grammar.primary, Grammar.primary]
  refine (agrees_peek reach).bind fun next _ ⟨reached, rest, ahead⟩ => ?_
  split
  next =>
    exact (agrees_identifier reached).bind fun name _ named => agrees_pure named
  next isParen =>
    have notEnd : next.kind ≠ .endOfInput := by
      rw [isParen]
      exact Kind.noConfusion
    have isClosing : Kind.symbol .rightParen ≠ .endOfInput := Kind.noConfusion
    refine ((agrees_consume_of_ahead reached ahead notEnd).discard
      fun _ _ ⟨_, counts⟩ => counts).bind fun _ _ opened => ?_
    refine (walks_within (walk.expression 0) opened (enough.step (by omega))).bind
      fun value _ read => ?_
    refine ((agrees_expect isClosing read).discard fun _ _ counts => counts).bind
      fun _ _ closed => ?_
    exact agrees_pure (closed.weaken (by omega))
  next =>
    split
    next =>
      exact (walks_within walk.literal reached (enough.step (by omega))).bind
        fun value _ read => agrees_pure read
    next => exact agrees_unexpected reached

theorem suffixes_succ (value : Expr Span) : discipline.Walks 3 0 (n + 1) (m + 1)
    (Grammar.suffixes (n + 1) value) (Grammar.suffixes (m + 1) value) := by
  intro origin state count reach enough
  rw [Grammar.suffixes, Grammar.suffixes]
  refine (agrees_peekKind reach).bind fun kind _ ⟨reached, token, rest, ahead, same⟩ => ?_
  -- After any suffix, which takes at least one token, more can follow.
  have more : ∀ (longer : Expr Span) (after : ParserState),
      discipline.Reach (count + 1) origin after →
        discipline.Agrees false origin (Grammar.suffixes n longer) (Grammar.suffixes m longer) after
          fun _ last => discipline.Reach count origin last :=
    fun longer after read => (walk.suffixes longer read (enough.step (by omega))).mono
      fun _ _ last => last.weaken (by omega)
  have isSymbol : ∀ {symbol : Symbol}, token.kind = .symbol symbol → token.kind ≠ .endOfInput := by
    intro symbol isSymbol isEnd
    rw [isEnd] at isSymbol
    exact Kind.noConfusion isSymbol
  split
  next => exact (agrees_updated reached ahead (isSymbol same)).bind more
  next => exact (agrees_updated reached ahead (isSymbol same)).bind more
  next =>
    exact (walk.unwrapped value ahead (isSymbol same) reached (enough.step (by omega))).bind more
  next => exact (walk.extracted value reached (enough.step (by omega))).bind more
  next => exact (agrees_optionalField reached).bind more
  next => exact (walk.field value reached (enough.step (by omega))).bind more
  next => exact (walk.indexed value reached (enough.step (by omega))).bind more
  next => exact (walk.called value reached (enough.step (by omega))).bind more
  next => exact agrees_pure reached

theorem unwrapped_succ (value : Expr Span) {origin state : ParserState} {count : Nat}
    {token : Token} {rest : List Token} (ahead : state.ahead = token :: rest)
    (notEnd : token.kind ≠ .endOfInput) (reach : discipline.Reach count origin state)
    (enough : Enough 1 count origin (n + 1) (m + 1)) :
    discipline.Agrees false origin (Grammar.unwrapped (n + 1) value)
      (Grammar.unwrapped (m + 1) value) state fun _ after => discipline.Reach (count + 1) origin after := by
  rw [Grammar.unwrapped, Grammar.unwrapped]
  refine (agrees_consume_of_ahead reach ahead notEnd).bind fun bang _ ⟨_, counts⟩ => ?_
  refine (agrees_check _ counts).bind fun opens _ ⟨checked, _⟩ => ?_
  split
  next =>
    refine (walk.delimited _ _ checked (enough.step (by omega))).bind fun _ _ read => ?_
    exact agrees_pure (read.weaken (by omega))
  next => exact agrees_pure checked

theorem extracted_succ (value : Expr Span) : discipline.Walks 2 1 (n + 1) (m + 1)
    (Grammar.extracted (n + 1) value) (Grammar.extracted (m + 1) value) := by
  intro origin state count reach enough
  rw [Grammar.extracted, Grammar.extracted]
  refine ((agrees_consume reach).discard fun _ _ ⟨_, kept, _⟩ => kept).bind fun _ _ reached => ?_
  refine (walk.delimited _ _ reached (enough.step (by omega))).bind fun _ _ read => ?_
  exact agrees_pure read

theorem field_succ (value : Expr Span) : discipline.Walks 1 1 (n + 1) (m + 1)
    (Grammar.field (n + 1) value) (Grammar.field (m + 1) value) := by
  intro origin state count reach enough
  rw [Grammar.field, Grammar.field]
  have isOpening : Kind.symbol .leftParen ≠ .endOfInput := Kind.noConfusion
  have isClosing : Kind.symbol .rightParen ≠ .endOfInput := Kind.noConfusion
  refine ((agrees_consume reach).discard fun _ _ ⟨_, kept, _⟩ => kept).bind fun _ _ reached => ?_
  refine (agrees_consumeKind isOpening reached).bind fun opens _ ⟨looked, _⟩ => ?_
  split
  next =>
    refine (agrees_identifier looked).bind fun first _ named => ?_
    refine (walk.fieldNames named (enough.step (by omega))).bind fun others _ more => ?_
    refine (agrees_expect isClosing more).bind fun close _ closed => ?_
    exact agrees_pure (closed.weaken (by omega))
  next => exact (agrees_identifier looked).bind fun name _ named => agrees_pure named

theorem indexed_succ (value : Expr Span) : discipline.Walks 2 1 (n + 1) (m + 1)
    (Grammar.indexed (n + 1) value) (Grammar.indexed (m + 1) value) := by
  intro origin state count reach enough
  rw [Grammar.indexed, Grammar.indexed]
  refine (walk.delimited _ _ reach (enough.step (by omega))).bind fun ⟨indices, span⟩ _ read => ?_
  dsimp only
  split
  next => exact agrees_failAt read fun _ => SyntaxFault.noConfusion
  next =>
    refine (agrees_check _ read).bind fun hasValues _ ⟨checked, _⟩ => agrees_get ?_
    split
    next =>
      refine (walk.delimited _ _ checked (enough.step (by omega))).bind fun _ _ more => ?_
      exact agrees_pure (more.weaken (by omega))
    next => exact agrees_pure checked

theorem called_succ (value : Expr Span) : discipline.Walks 2 1 (n + 1) (m + 1)
    (Grammar.called (n + 1) value) (Grammar.called (m + 1) value) := by
  intro origin state count reach enough
  rw [Grammar.called, Grammar.called]
  refine (walk.delimited _ _ reach (enough.step (by omega))).bind fun _ _ read => ?_
  exact agrees_get (agrees_pure read)

theorem delimited_succ (opening closing : Symbol) : discipline.Walks 1 1 (n + 1) (m + 1)
    (Grammar.delimited (n + 1) opening closing) (Grammar.delimited (m + 1) opening closing) := by
  intro origin state count reach enough
  rw [Grammar.delimited, Grammar.delimited]
  have isOpening : Kind.symbol opening ≠ .endOfInput := Kind.noConfusion
  have isClosing : Kind.symbol closing ≠ .endOfInput := Kind.noConfusion
  refine (agrees_expect isOpening reach).bind fun first _ opened => ?_
  refine (walk.listed closing opened (enough.step (by omega))).bind fun values _ read => ?_
  refine (agrees_expect isClosing read).bind fun last _ closed => ?_
  exact agrees_pure (closed.weaken (by omega))

theorem listed_succ (closing : Symbol) : discipline.Walks 5 0 (n + 1) (m + 1)
    (Grammar.listed (n + 1) closing) (Grammar.listed (m + 1) closing) := by
  intro origin state count reach enough
  rw [Grammar.listed, Grammar.listed]
  have isComma : Kind.symbol .comma ≠ .endOfInput := Kind.noConfusion
  refine (agrees_check _ reach).bind fun closes _ ⟨checked, _⟩ => ?_
  split
  next => exact agrees_pure checked
  next =>
    refine (walks_within (walk.expression 0) checked (enough.step (by omega))).bind
      fun value _ read => ?_
    refine (agrees_consumeKind isComma read).bind fun comma _ ⟨looked, _⟩ => ?_
    split
    next =>
      refine (walk.listed closing looked (enough.step (by omega))).bind fun others _ more => ?_
      exact agrees_pure (more.weaken (by omega))
    next => exact agrees_pure (looked.weaken (by omega))

/-! ## Literals -/

theorem literal_succ : discipline.Walks 1 1 (n + 1) (m + 1) (Grammar.literal (n + 1))
    (Grammar.literal (m + 1)) := by
  intro origin state count reach enough
  rw [Grammar.literal, Grammar.literal]
  refine (agrees_check _ reach).bind fun isString _ ⟨checked, token, rest, ahead, same⟩ => ?_
  split
  next starts =>
    have notEnd : token.kind ≠ .endOfInput := by
      rw [of_decide_eq_true (same.symm.trans starts)]
      exact Kind.noConfusion
    refine (agrees_consume_of_ahead checked ahead notEnd).bind fun start _ ⟨_, counts⟩ => ?_
    refine (walk.stringParts counts (enough.step (by omega))).bind fun _ _ read => ?_
    exact agrees_pure (read.weaken (by omega))
  next => exact agrees_simpleLiteral checked

theorem stringParts_succ : discipline.Walks 1 1 (n + 1) (m + 1) (Grammar.stringParts (n + 1))
    (Grammar.stringParts (m + 1)) := by
  intro origin state count reach enough
  rw [Grammar.stringParts, Grammar.stringParts]
  refine (agrees_consume reach).bind fun token _ ⟨_, reached, counts⟩ => ?_
  split
  next same =>
    have taken := counts (same ▸ Kind.noConfusion)
    refine (walk.stringParts taken (enough.step (by omega))).bind fun _ _ read => ?_
    exact agrees_pure (read.weaken (by omega))
  next same =>
    have taken := counts (same ▸ Kind.noConfusion)
    have isClosing : Kind.interpolationEnd ≠ .endOfInput := Kind.noConfusion
    refine (walks_within (walk.expression 0) taken (enough.step (by omega))).bind
      fun value _ read => ?_
    refine ((agrees_expect isClosing read).discard fun _ _ closed => closed).bind
      fun _ _ closed => ?_
    refine (walk.stringParts closed (enough.step (by omega))).bind fun _ _ more => ?_
    exact agrees_pure (more.weaken (by omega))
  next same => exact agrees_pure (counts (same ▸ Kind.noConfusion))
  next => exact agrees_unexpected reached

/-! ## Switches -/

theorem switch_succ : discipline.Walks 1 1 (n + 1) (m + 1) (Grammar.switch (n + 1))
    (Grammar.switch (m + 1)) := by
  intro origin state count reach enough
  rw [Grammar.switch, Grammar.switch]
  have isSwitch : Kind.keyword .switch ≠ .endOfInput := Kind.noConfusion
  have isColon : Kind.symbol .colon ≠ .endOfInput := Kind.noConfusion
  refine (agrees_expect isSwitch reach).bind fun keyword _ started => ?_
  refine (walks_within (walk.expression 0) started (enough.step (by omega))).bind
    fun first _ read => ?_
  refine (walk.subjects read (enough.step (by omega))).bind fun others _ more => ?_
  refine (agrees_expect isColon more).bind fun colon _ headed => ?_
  refine (agrees_peek headed).bind fun next _ ⟨looked, rest, ahead⟩ => ?_
  dsimp only
  split
  next =>
    exact ((agrees_consume looked).discard fun _ _ ⟨_, kept, _⟩ => kept).bind
      fun _ _ kept => agrees_pure (kept.weaken (by omega))
  next => exact agrees_pure (looked.weaken (by omega))
  next => exact agrees_pure (looked.weaken (by omega))
  next =>
    refine ((agrees_consume looked).discard fun _ _ ⟨_, kept, _⟩ => kept).bind
      fun _ _ kept => ?_
    refine (walk.arms kept (enough.step (by omega))).bind fun arms _ last => ?_
    exact agrees_pure (last.weaken (by omega))
  next => exact agrees_unexpected looked

theorem subjects_succ : discipline.Walks 1 0 (n + 1) (m + 1) (Grammar.subjects (n + 1))
    (Grammar.subjects (m + 1)) := by
  intro origin state count reach enough
  rw [Grammar.subjects, Grammar.subjects]
  have isComma : Kind.symbol .comma ≠ .endOfInput := Kind.noConfusion
  refine (agrees_consumeKind isComma reach).bind fun comma _ ⟨looked, counts⟩ => ?_
  split
  next isSome =>
    refine (walks_within (walk.expression 0) (counts isSome) (enough.step (by omega))).bind
      fun subject _ read => ?_
    refine (walk.subjects read (enough.step (by omega))).bind fun others _ more => ?_
    exact agrees_pure (more.weaken (by omega))
  next => exact agrees_pure looked

theorem arms_succ : discipline.Walks 4 0 (n + 1) (m + 1) (Grammar.arms (n + 1))
    (Grammar.arms (m + 1)) := by
  intro origin state count reach enough
  rw [Grammar.arms, Grammar.arms]
  have isDedent : Kind.dedent ≠ .endOfInput := Kind.noConfusion
  refine (agrees_removeNewlines reach).bind fun _ _ skipped => ?_
  refine (agrees_consumeKind isDedent skipped).bind fun dedent _ ⟨looked, _⟩ => ?_
  split
  next => exact agrees_pure looked
  next =>
    refine (walks_within walk.arm looked (enough.step (by omega))).bind fun first _ read => ?_
    refine (walk.arms read (enough.step (by omega))).bind fun others _ more => ?_
    exact agrees_pure (more.weaken (by omega))

theorem arm_succ : discipline.Walks 3 1 (n + 1) (m + 1) (Grammar.arm (n + 1))
    (Grammar.arm (m + 1)) := by
  intro origin state count reach enough
  rw [Grammar.arm, Grammar.arm]
  have isArrow : Kind.symbol .arrow ≠ .endOfInput := Kind.noConfusion
  refine (walks_within walk.pattern reach (enough.step (by omega))).bind
    fun pattern _ matched => ?_
  refine ((agrees_expect isArrow matched).discard fun _ _ counts => counts).bind
    fun _ _ pointed => ?_
  refine (walks_within walk.armBody pointed (enough.step (by omega))).bind fun body _ read => ?_
  exact agrees_pure (read.weaken (by omega))

theorem pattern_succ : discipline.Walks 2 1 (n + 1) (m + 1) (Grammar.pattern (n + 1))
    (Grammar.pattern (m + 1)) := by
  intro origin state count reach enough
  rw [Grammar.pattern, Grammar.pattern]
  refine (agrees_peek reach).bind fun next _ ⟨looked, rest, ahead⟩ => ?_
  split
  next => exact (agrees_identifier looked).bind fun name _ named => agrees_pure named
  next =>
    split
    next =>
      exact (walks_within walk.literal looked (enough.step (by omega))).bind
        fun value _ read => agrees_pure read
    next => exact agrees_unexpected looked

theorem armBody_succ : discipline.Walks 6 1 (n + 1) (m + 1) (Grammar.armBody (n + 1))
    (Grammar.armBody (m + 1)) := by
  intro origin state count reach enough
  rw [Grammar.armBody, Grammar.armBody]
  refine (agrees_peekKind reach).bind fun kind _ ⟨looked, _⟩ => ?_
  split
  next => exact walks_within walk.block looked (enough.step (by omega))
  next => exact walks_within walk.throwStatement looked (enough.step (by omega))
  next => exact walks_within walk.expressionStatement looked (enough.step (by omega))

/-! ## Statements -/

theorem statement_succ : discipline.Walks 6 1 (n + 1) (m + 1) (Grammar.statement (n + 1))
    (Grammar.statement (m + 1)) := by
  intro origin state count reach enough
  rw [Grammar.statement, Grammar.statement]
  refine (agrees_peek reach).bind fun next _ ⟨looked, rest, ahead⟩ => ?_
  split
  next =>
    exact (walks_within walk.block looked (enough.step (by omega))).bind
      fun action _ read => agrees_pure read
  next isSemicolon =>
    have notEnd : next.kind ≠ .endOfInput := by
      rw [isSemicolon]
      exact Kind.noConfusion
    exact (agrees_consume_of_ahead looked ahead notEnd).bind
      fun token _ ⟨_, counts⟩ => agrees_pure counts
  next =>
    exact (walks_within walk.throwStatement looked (enough.step (by omega))).bind
      fun action _ read => agrees_pure read
  next =>
    split
    next => exact agrees_failAt looked fun _ => SyntaxFault.noConfusion
    next =>
      exact (walks_within walk.expressionStatement looked (enough.step (by omega))).bind
        fun action _ read => agrees_pure read

theorem block_succ : discipline.Walks 1 1 (n + 1) (m + 1) (Grammar.block (n + 1))
    (Grammar.block (m + 1)) := by
  intro origin state count reach enough
  rw [Grammar.block, Grammar.block]
  have isIndent : Kind.indent ≠ .endOfInput := Kind.noConfusion
  have isDedent : Kind.dedent ≠ .endOfInput := Kind.noConfusion
  refine (agrees_expect isIndent reach).bind fun first _ opened => ?_
  refine (walk.statementsUntil .dedent opened (enough.step (by omega))).bind
    fun statements _ ⟨read, _⟩ => ?_
  refine (agrees_expect isDedent read).bind fun last _ closed => ?_
  exact agrees_pure (closed.weaken (by omega))

theorem expressionStatement_succ : discipline.Walks 5 1 (n + 1) (m + 1)
    (Grammar.expressionStatement (n + 1)) (Grammar.expressionStatement (m + 1)) := by
  intro origin state count reach enough
  rw [Grammar.expressionStatement, Grammar.expressionStatement]
  refine (walks_within (walk.expression 0) reach (enough.step (by omega))).bind
    fun value _ read => ?_
  refine (agrees_terminator read).bind fun last _ ended => ?_
  split
  next => exact agrees_pure ended
  next => exact agrees_pure ended

theorem throwStatement_succ : discipline.Walks 1 1 (n + 1) (m + 1)
    (Grammar.throwStatement (n + 1)) (Grammar.throwStatement (m + 1)) := by
  intro origin state count reach enough
  rw [Grammar.throwStatement, Grammar.throwStatement]
  have isThrow : Kind.keyword .throw ≠ .endOfInput := Kind.noConfusion
  refine (agrees_expect isThrow reach).bind fun keyword _ started => ?_
  refine (walks_within (walk.expression 0) started (enough.step (by omega))).bind
    fun value _ read => ?_
  refine (agrees_terminator read).bind fun last _ ended => ?_
  split
  next => exact agrees_pure (ended.weaken (by omega))
  next => exact agrees_pure (ended.weaken (by omega))

theorem statementsUntil_succ (last : Kind) {firm : Bool} {origin state : ParserState} {count : Nat}
    (reach : discipline.Reach count origin state)
    (enough : Enough 7 count origin (n + 1) (m + 1)) :
    discipline.Agrees firm origin (Grammar.statementsUntil (n + 1) last)
      (Grammar.statementsUntil (m + 1) last) state fun _ after =>
        discipline.Reach count origin after ∧ ∃ token rest, after.ahead = token :: rest ∧
          (token.kind = last ∨ token.kind = .endOfInput) := by
  rw [Grammar.statementsUntil, Grammar.statementsUntil]
  refine (agrees_removeNewlines reach).bind fun _ _ skipped => ?_
  refine (agrees_peek skipped).bind fun next middle ⟨looked, rest, ahead⟩ => ?_
  dsimp only
  split
  next ends =>
    refine agrees_pure ⟨looked, next, rest, ahead, ?_⟩
    simpa using ends
  next goesOn =>
    have notEnd : next.kind ≠ .endOfInput := fun isEnd => goesOn (by simp [isEnd])
    have started : Enough 6 0 middle n m := (enough.restart looked).step (by omega)
    have reads : discipline.Walks 6 1 n m (within .statement (Grammar.statement n))
        (within .statement (Grammar.statement m)) := walks_within walk.statement
    have tried : discipline.Agrees firm origin _ _ middle _ :=
      looked.agrees (reads looked.restart started).attempt
    refine agrees_get (tried.bind fun result failed outcome => ?_)
    cases result with
    | ok first =>
      have read := outcome.trans looked
      refine (walk.statementsUntil last read (enough.step (by omega))).bind
        fun others _ ⟨more, closed⟩ => ?_
      exact agrees_pure ⟨more.weaken (by omega), closed⟩
    | error error =>
      obtain ⟨ready, holds, suffix⟩ := outcome
      refine (agrees_recover looked ahead notEnd ready holds suffix).bind
        fun _ _ recovered => ?_
      refine (walk.statementsUntil last recovered (enough.step (by omega))).mono
        fun others _ ⟨more, closed⟩ => ?_
      exact ⟨more.weaken (by omega), closed⟩

end Walk

/-! ## All rules -/

/-- Without fuel there is not enough of it for any rule. -/
theorem Enough.not_empty {rank count : Nat} {origin state : ParserState}
    (enough : Enough rank count origin n m) (reach : discipline.Reach count origin state)
    (positive : 0 < rank) : ¬ (n = 0 ∨ m = 0) := by
  obtain ⟨left, right⟩ := enough
  have fewer := reach.fewer
  omega

theorem walks_of_empty {α : Type} {rank progress : Nat} {left right : Parser α}
    (positive : 0 < rank) (empty : n = 0 ∨ m = 0) :
    discipline.Walks rank progress n m left right :=
  fun reach enough => absurd empty (enough.not_empty reach positive)

theorem walk_of_empty (empty : n = 0 ∨ m = 0) : discipline.Walk n m where
  fieldNames := walks_of_empty (by decide) empty
  expression _ := walks_of_empty (by decide) empty
  climb _ _ := walks_of_empty (by decide) empty
  applyInfix _ _ _ := walks_of_empty (by decide) empty
  rangeEnd := walks_of_empty (by decide) empty
  operand := walks_of_empty (by decide) empty
  primary := walks_of_empty (by decide) empty
  suffixes _ := walks_of_empty (by decide) empty
  unwrapped _ := fun _ _ reach enough => absurd empty (enough.not_empty reach (by decide))
  extracted _ := walks_of_empty (by decide) empty
  field _ := walks_of_empty (by decide) empty
  indexed _ := walks_of_empty (by decide) empty
  called _ := walks_of_empty (by decide) empty
  delimited _ _ := walks_of_empty (by decide) empty
  listed _ := walks_of_empty (by decide) empty
  literal := walks_of_empty (by decide) empty
  stringParts := walks_of_empty (by decide) empty
  switch := walks_of_empty (by decide) empty
  subjects := walks_of_empty (by decide) empty
  arms := walks_of_empty (by decide) empty
  arm := walks_of_empty (by decide) empty
  pattern := walks_of_empty (by decide) empty
  armBody := walks_of_empty (by decide) empty
  statement := walks_of_empty (by decide) empty
  block := walks_of_empty (by decide) empty
  expressionStatement := walks_of_empty (by decide) empty
  throwStatement := walks_of_empty (by decide) empty
  statementsUntil _ := fun reach enough => absurd empty (enough.not_empty reach (by decide))

theorem walk_succ (walk : discipline.Walk n m) : discipline.Walk (n + 1) (m + 1) where
  fieldNames := walk.fieldNames_succ
  expression := walk.expression_succ
  climb := walk.climb_succ
  applyInfix := walk.applyInfix_succ
  rangeEnd := walk.rangeEnd_succ
  operand := walk.operand_succ
  primary := walk.primary_succ
  suffixes := walk.suffixes_succ
  unwrapped := walk.unwrapped_succ
  extracted := walk.extracted_succ
  field := walk.field_succ
  indexed := walk.indexed_succ
  called := walk.called_succ
  delimited := walk.delimited_succ
  listed := walk.listed_succ
  literal := walk.literal_succ
  stringParts := walk.stringParts_succ
  switch := walk.switch_succ
  subjects := walk.subjects_succ
  arms := walk.arms_succ
  arm := walk.arm_succ
  pattern := walk.pattern_succ
  armBody := walk.armBody_succ
  statement := walk.statement_succ
  block := walk.block_succ
  expressionStatement := walk.expressionStatement_succ
  throwStatement := walk.throwStatement_succ
  statementsUntil := walk.statementsUntil_succ

/-- Every rule keeps the discipline, with any two amounts of fuel. -/
theorem walk (discipline : Discipline) (n m : Nat) : discipline.Walk n m := by
  induction n generalizing m with
  | zero => exact walk_of_empty (Or.inl rfl)
  | succ n inductionHypothesis =>
    cases m with
    | zero => exact walk_of_empty (Or.inr rfl)
    | succ m => exact walk_succ (inductionHypothesis m)

/-- Once the statements of a text are read, it is at its end. -/
theorem agrees_grammar_file {firm : Bool} {origin state : ParserState}
    (reach : discipline.Reach 0 origin state) (enough : Enough 7 0 origin n m) :
    discipline.Agrees firm origin (Grammar.file n) (Grammar.file m) state fun _ after =>
      discipline.Reach 0 origin after ∧ after.AtEnd := by
  rw [Grammar.file, Grammar.file]
  refine ((discipline.walk n m).statementsUntil .endOfInput reach enough).bind
    fun statements _ ⟨reached, token, rest, ahead, ends⟩ => ?_
  have isEnd : token.kind = .endOfInput := ends.elim id id
  exact (agrees_expect_end reached ahead isEnd).bind fun last _ closed => agrees_pure closed

/-- A whole text is read up to its end, or up to an error that nothing can follow. -/
theorem agrees_file {state : ParserState} (ready : state.Ready)
    (holds : discipline.Holds none state) :
    discipline.Agrees true state file file state fun _ after =>
      discipline.Reach 0 state after ∧ after.AtEnd := by
  have fuel := state.length_ahead_le_fuel
  have enough : Enough 7 0 state state.fuel state.fuel := ⟨by omega, by omega⟩
  refine agrees_naming (fun _ _ nonTerminals ⟨reached, atEnd⟩ =>
    ⟨reached.named nonTerminals, atEnd⟩) (agrees_fueled ?_)
  exact agrees_grammar_file ((Reach.start ready holds).named _) enough

end Discipline

end Offside
