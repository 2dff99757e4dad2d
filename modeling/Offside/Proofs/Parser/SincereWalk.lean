import Offside.Proofs.Parser.Sincere

/-!
All rules of the grammar are sincere. Only strings have to be followed closely: their parts are read
where the lexer goes on with a string, and an expression between two of them comes back there.
-/

namespace Offside

open ParserState Offside.Parser

/-- The rules of the grammar that are read with some fuel are sincere. -/
structure Grammar.Sincere (input : Input) (n : Nat) : Prop where
  fieldNames : Parser.Sincere input (Grammar.fieldNames n)
  expression (minimum : Nat) : Parser.Sincere input (Grammar.expression n minimum)
  climb (minimum : Nat) (value : Expr Span) : Parser.Sincere input (Grammar.climb n minimum value)
  applyInfix (op : InfixOp) (span : Span) (value : Expr Span) :
    Parser.Sincere input (Grammar.applyInfix n op span value)
  rangeEnd : Parser.Sincere input (Grammar.rangeEnd n)
  operand : Parser.Sincere input (Grammar.operand n)
  primary : Parser.Sincere input (Grammar.primary n)
  suffixes (value : Expr Span) : Parser.Sincere input (Grammar.suffixes n value)
  unwrapped (value : Expr Span) : Parser.Sincere input (Grammar.unwrapped n value)
  extracted (value : Expr Span) : Parser.Sincere input (Grammar.extracted n value)
  field (value : Expr Span) : Parser.Sincere input (Grammar.field n value)
  indexed (value : Expr Span) : Parser.Sincere input (Grammar.indexed n value)
  called (value : Expr Span) : Parser.Sincere input (Grammar.called n value)
  delimited (opening closing : Symbol) : Parser.Sincere input (Grammar.delimited n opening closing)
  listed (closing : Symbol) : Parser.Sincere input (Grammar.listed n closing)
  literal : Parser.Sincere input (Grammar.literal n)
  stringParts {state : ParserState} {token : Token} (clean : state.Clean input)
    (comesAfter : state.ComesAfter input token) (continues : token.kind.continuesString = true) :
    Proceeds input (Grammar.stringParts n) state fun _ _ => True
  switch : Parser.Sincere input (Grammar.switch n)
  subjects : Parser.Sincere input (Grammar.subjects n)
  arms : Parser.Sincere input (Grammar.arms n)
  arm : Parser.Sincere input (Grammar.arm n)
  pattern : Parser.Sincere input (Grammar.pattern n)
  armBody : Parser.Sincere input (Grammar.armBody n)
  statement : Parser.Sincere input (Grammar.statement n)
  block : Parser.Sincere input (Grammar.block n)
  expressionStatement : Parser.Sincere input (Grammar.expressionStatement n)
  throwStatement : Parser.Sincere input (Grammar.throwStatement n)
  statementsUntil (last : Kind) : Parser.Sincere input (Grammar.statementsUntil n last)

variable {input : Input}

/-! ## Rules without fuel -/

theorem sincere_identifier : Parser.Sincere input (within .identifier Grammar.identifier) :=
  ((sincere_expect .identifier).bind fun _ => sincere_pure _).within

theorem sincere_updated (op : UpdateOp) (value : Expr Span) :
    Parser.Sincere input (Grammar.updated op value) :=
  sincere_consume.bind fun _ => sincere_pure _

theorem sincere_optionalField (value : Expr Span) :
    Parser.Sincere input (Grammar.optionalField value) :=
  sincere_consume.discard.bind fun _ => sincere_identifier.bind fun _ => sincere_pure _

theorem sincere_simpleLiteral : Parser.Sincere input Grammar.simpleLiteral := by
  refine sincere_consume.bind fun token => ?_
  have other : Parser.Sincere input (@unexpected (Literal Span) token.span token [.literal]) :=
    sincere_unexpected (by simp [partExpectations])
  cases token.kind
  all_goals first | exact sincere_pure _ | exact other

theorem sincere_terminator (value : Expr Span) :
    Parser.Sincere input (Grammar.terminator value) := by
  refine sincere_peek.bind fun next => ?_
  split
  next => exact sincere_consume.bind fun _ => sincere_pure _
  next => exact sincere_consume.discard.bind fun _ => sincere_pure _
  next => exact sincere_pure _
  next => exact sincere_pure _
  next => exact sincere_pure _
  next => exact sincere_ite (sincere_pure _) (sincere_unexpected (by simp [partExpectations]))

namespace Grammar.Sincere

variable {n : Nat} (sincere : Grammar.Sincere input n)

include sincere

theorem expr : Parser.Sincere input (within .expr (Grammar.expression n 0)) :=
  (sincere.expression 0).within

/-! ## Expressions -/

theorem fieldNames_succ : Parser.Sincere input (Grammar.fieldNames (n + 1)) := by
  rw [Grammar.fieldNames]
  refine (sincere_consumeKind _).bind fun _ => sincere_ite (sincere_pure _) ?_
  refine (sincere_check _).bind fun _ => sincere_ite (sincere_pure _) ?_
  exact sincere_identifier.bind fun _ => sincere.fieldNames.bind fun _ => sincere_pure _

theorem expression_succ (minimum : Nat) :
    Parser.Sincere input (Grammar.expression (n + 1) minimum) := by
  rw [Grammar.expression]
  exact sincere.operand.bind fun first => sincere.climb minimum first

theorem climb_succ (minimum : Nat) (value : Expr Span) :
    Parser.Sincere input (Grammar.climb (n + 1) minimum value) := by
  rw [Grammar.climb]
  refine sincere_ite (sincere_pure _) (sincere_peekKind.bind fun kind => ?_)
  split
  next => exact sincere_pure _
  next op _ =>
    refine sincere_ite (sincere_pure _) (sincere_consume.bind fun token => ?_)
    exact (sincere.applyInfix op token.span value).bind fun longer => sincere.climb minimum longer

theorem applyInfix_succ (op : InfixOp) (span : Span) (value : Expr Span) :
    Parser.Sincere input (Grammar.applyInfix (n + 1) op span value) := by
  cases op with
  | assign assignOp =>
    rw [Grammar.applyInfix]
    exact sincere_ite ((sincere.expression _).bind fun _ => sincere_pure _)
      (sincere_failAt SyntaxFault.genuine_invalidTarget)
  | binary binaryOp =>
    rw [Grammar.applyInfix]
    exact (sincere.expression _).bind fun _ => sincere_pure _
  | range =>
    rw [Grammar.applyInfix]
    exact sincere.rangeEnd.bind fun _ => sincere_pure _

theorem rangeEnd_succ : Parser.Sincere input (Grammar.rangeEnd (n + 1)) := by
  rw [Grammar.rangeEnd]
  exact sincere_peekKind.bind fun _ =>
    sincere_ite ((sincere.expression _).bind fun _ => sincere_pure _) (sincere_pure _)

theorem operand_succ : Parser.Sincere input (Grammar.operand (n + 1)) := by
  rw [Grammar.operand]
  refine sincere_peekKind.bind fun kind => ?_
  split
  next => exact sincere_consume.bind fun _ => (sincere.expression _).bind fun _ => sincere_pure _
  next => exact sincere_consume.bind fun _ => sincere.rangeEnd.bind fun _ => sincere_pure _
  next => exact sincere.switch.within
  next => exact sincere.primary.bind sincere.suffixes

theorem primary_succ : Parser.Sincere input (Grammar.primary (n + 1)) := by
  rw [Grammar.primary]
  refine sincere_peek.bind fun next => ?_
  split
  next => exact sincere_identifier.bind fun _ => sincere_pure _
  next =>
    exact sincere_consume.discard.bind fun _ => sincere.expr.bind fun _ =>
      (sincere_expect _).discard.bind fun _ => sincere_pure _
  next =>
    exact sincere_ite (sincere.literal.within.bind fun _ => sincere_pure _)
      (sincere_unexpected (by simp [partExpectations]))

theorem suffixes_succ (value : Expr Span) :
    Parser.Sincere input (Grammar.suffixes (n + 1) value) := by
  rw [Grammar.suffixes]
  refine sincere_peekKind.bind fun kind => ?_
  split
  next => exact (sincere_updated _ _).bind sincere.suffixes
  next => exact (sincere_updated _ _).bind sincere.suffixes
  next => exact (sincere.unwrapped _).bind sincere.suffixes
  next => exact (sincere.extracted _).bind sincere.suffixes
  next => exact (sincere_optionalField _).bind sincere.suffixes
  next => exact (sincere.field _).bind sincere.suffixes
  next => exact (sincere.indexed _).bind sincere.suffixes
  next => exact (sincere.called _).bind sincere.suffixes
  next => exact sincere_pure _

theorem unwrapped_succ (value : Expr Span) :
    Parser.Sincere input (Grammar.unwrapped (n + 1) value) := by
  rw [Grammar.unwrapped]
  refine sincere_consume.bind fun _ => (sincere_check _).bind fun _ => ?_
  exact sincere_ite ((sincere.delimited _ _).bind fun _ => sincere_pure _) (sincere_pure _)

theorem extracted_succ (value : Expr Span) :
    Parser.Sincere input (Grammar.extracted (n + 1) value) := by
  rw [Grammar.extracted]
  exact sincere_consume.discard.bind fun _ => (sincere.delimited _ _).bind fun _ => sincere_pure _

theorem field_succ (value : Expr Span) :
    Parser.Sincere input (Grammar.field (n + 1) value) := by
  rw [Grammar.field]
  refine sincere_consume.discard.bind fun _ => (sincere_consumeKind _).bind fun _ => ?_
  refine sincere_ite (sincere_identifier.bind fun _ => ?_)
    (sincere_identifier.bind fun _ => sincere_pure _)
  exact sincere.fieldNames.bind fun _ => (sincere_expect _).bind fun _ => sincere_pure _

theorem indexed_succ (value : Expr Span) :
    Parser.Sincere input (Grammar.indexed (n + 1) value) := by
  rw [Grammar.indexed]
  refine (sincere.delimited _ _).bind fun group => ?_
  refine sincere_ite (sincere_failAt ?_) ((sincere_check _).bind fun _ => sincere_get fun _ => ?_)
  · exact SyntaxFault.genuine_expected (by simp [partExpectations]) _ _
  · split
    next => exact (sincere.delimited _ _).bind fun _ => sincere_pure _
    next => exact sincere_pure _

theorem called_succ (value : Expr Span) :
    Parser.Sincere input (Grammar.called (n + 1) value) := by
  rw [Grammar.called]
  exact (sincere.delimited _ _).bind fun _ => sincere_get fun _ => sincere_pure _

theorem delimited_succ (opening closing : Symbol) :
    Parser.Sincere input (Grammar.delimited (n + 1) opening closing) := by
  rw [Grammar.delimited]
  exact (sincere_expect _).bind fun _ => (sincere.listed _).bind fun _ =>
    (sincere_expect _).bind fun _ => sincere_pure _

theorem listed_succ (closing : Symbol) :
    Parser.Sincere input (Grammar.listed (n + 1) closing) := by
  rw [Grammar.listed]
  refine (sincere_check _).bind fun _ => sincere_ite (sincere_pure _) ?_
  refine sincere.expr.bind fun _ => (sincere_consumeKind _).bind fun _ => ?_
  exact sincere_ite ((sincere.listed _).bind fun _ => sincere_pure _) (sincere_pure _)

/-! ## Strings -/

theorem literal_succ : Parser.Sincere input (Grammar.literal (n + 1)) := by
  intro state clean
  rw [Grammar.literal]
  refine (proceeds_check _ clean).bind ?_
  rintro isString middle looked ⟨token, rest, ahead, same⟩
  split
  next starts =>
    rw [same, decide_eq_true_eq] at starts
    refine (proceeds_consume looked).bind ?_
    rintro start inside consumed ⟨⟨_, found⟩, comesAfter⟩
    obtain ⟨rfl, _⟩ := List.cons.inj (ahead.symm.trans found)
    have comesAfter := comesAfter (by simp [starts])
    refine (sincere.stringParts consumed comesAfter (by simp [starts, Kind.continuesString])).bind ?_
    exact fun _ _ reached _ => proceeds_pure reached trivial
  next => exact sincere_simpleLiteral looked

theorem stringParts_succ {state : ParserState} {token : Token} (clean : state.Clean input)
    (comesAfter : state.ComesAfter input token) (continues : token.kind.continuesString = true) :
    Proceeds input (Grammar.stringParts (n + 1)) state fun _ _ => True := by
  rw [Grammar.stringParts]
  refine (proceeds_consume clean).bind ?_
  rintro next middle consumed ⟨⟨rest, ahead⟩, comesNext⟩
  have isPart : next.kind.isStringPart = true := by
    obtain ⟨before, found⟩ := comesAfter
    rw [ahead] at found
    exact Input.isStringPart found continues
  split
  next isFragment =>
    have inside := comesNext (by simp [isFragment])
    refine (sincere.stringParts consumed inside (by simp [isFragment, Kind.continuesString])).bind ?_
    exact fun _ _ reached _ => proceeds_pure reached trivial
  next =>
    refine (sincere.expr consumed).bind fun value interpolated read _ => ?_
    have closes : Proceeds input (discard (expect .interpolationEnd)) interpolated
        fun _ after => ∃ close, close.kind = .interpolationEnd ∧ after.ComesAfter input close :=
      (proceeds_expect Kind.noConfusion read).discard fun close _ closed => ⟨close, closed⟩
    refine closes.bind ?_
    rintro _ _ closed ⟨close, isEnd, inside⟩
    refine (sincere.stringParts closed inside (by simp [isEnd, Kind.continuesString])).bind ?_
    exact fun _ _ reached _ => proceeds_pure reached trivial
  next => exact proceeds_pure consumed trivial
  next notFragment notInterpolation notEnd =>
    -- Nothing else goes on with a string.
    cases isKind : next.kind
    case stringFragment text => exact absurd isKind (notFragment text)
    case interpolationStart => exact absurd isKind notInterpolation
    case stringEnd => exact absurd isKind notEnd
    all_goals simp [isKind, Kind.isStringPart] at isPart

/-! ## Switches -/

theorem switch_succ : Parser.Sincere input (Grammar.switch (n + 1)) := by
  rw [Grammar.switch]
  refine (sincere_expect _).bind fun _ => sincere.expr.bind fun _ => sincere.subjects.bind
    fun _ => (sincere_expect _).bind fun _ => sincere_peek.bind fun next => ?_
  dsimp only
  split
  next => exact sincere_consume.discard.bind fun _ => sincere_pure _
  next => exact sincere_pure _
  next => exact sincere_pure _
  next => exact sincere_consume.discard.bind fun _ => sincere.arms.bind fun _ => sincere_pure _
  next => exact sincere_unexpected (by simp [partExpectations])

theorem subjects_succ : Parser.Sincere input (Grammar.subjects (n + 1)) := by
  rw [Grammar.subjects]
  refine (sincere_consumeKind _).bind fun _ => sincere_ite ?_ (sincere_pure _)
  exact sincere.expr.bind fun _ => sincere.subjects.bind fun _ => sincere_pure _

theorem arms_succ : Parser.Sincere input (Grammar.arms (n + 1)) := by
  rw [Grammar.arms]
  refine sincere_removeNewlines.bind fun _ => (sincere_consumeKind _).bind fun _ => ?_
  refine sincere_ite (sincere_pure _) (sincere.arm.within.bind fun _ => ?_)
  exact sincere.arms.bind fun _ => sincere_pure _

theorem arm_succ : Parser.Sincere input (Grammar.arm (n + 1)) := by
  rw [Grammar.arm]
  exact sincere.pattern.within.bind fun _ => (sincere_expect _).discard.bind fun _ =>
    sincere.armBody.within.bind fun _ => sincere_pure _

theorem pattern_succ : Parser.Sincere input (Grammar.pattern (n + 1)) := by
  rw [Grammar.pattern]
  refine sincere_peek.bind fun next => ?_
  split
  next => exact sincere_identifier.bind fun _ => sincere_pure _
  next =>
    exact sincere_ite (sincere.literal.within.bind fun _ => sincere_pure _)
      (sincere_unexpected (by simp [partExpectations]))

theorem armBody_succ : Parser.Sincere input (Grammar.armBody (n + 1)) := by
  rw [Grammar.armBody]
  refine sincere_peekKind.bind fun kind => ?_
  split
  next => exact sincere.block.within
  next => exact sincere.throwStatement.within
  next => exact sincere.expressionStatement.within

/-! ## Statements -/

theorem statement_succ : Parser.Sincere input (Grammar.statement (n + 1)) := by
  rw [Grammar.statement]
  refine sincere_peek.bind fun next => ?_
  split
  next => exact sincere.block.within.bind fun _ => sincere_pure _
  next => exact sincere_consume.bind fun _ => sincere_pure _
  next => exact sincere.throwStatement.within.bind fun _ => sincere_pure _
  next =>
    exact sincere_ite (sincere_failAt (SyntaxFault.genuine_unsupportedDeclaration _))
      (sincere.expressionStatement.within.bind fun _ => sincere_pure _)

theorem block_succ : Parser.Sincere input (Grammar.block (n + 1)) := by
  rw [Grammar.block]
  exact (sincere_expect _).bind fun _ => (sincere.statementsUntil _).bind fun _ =>
    (sincere_expect _).bind fun _ => sincere_pure _

theorem expressionStatement_succ :
    Parser.Sincere input (Grammar.expressionStatement (n + 1)) := by
  rw [Grammar.expressionStatement]
  refine sincere.expr.bind fun value => (sincere_terminator value).bind fun last => ?_
  split
  next => exact sincere_pure _
  next => exact sincere_pure _

theorem throwStatement_succ : Parser.Sincere input (Grammar.throwStatement (n + 1)) := by
  rw [Grammar.throwStatement]
  refine (sincere_expect _).bind fun _ => sincere.expr.bind fun value =>
    (sincere_terminator value).bind fun last => ?_
  split
  next => exact sincere_pure _
  next => exact sincere_pure _

/-- A statement that is wrong is so for a genuine fault, with which the list goes on. -/
theorem statementsUntil_succ (last : Kind) :
    Parser.Sincere input (Grammar.statementsUntil (n + 1) last) := by
  rw [Grammar.statementsUntil]
  refine sincere_removeNewlines.bind fun _ => sincere_peek.bind fun next => ?_
  refine sincere_ite (sincere_pure _) (sincere_get fun looked => fun state clean => ?_)
  refine (sincere.statement.within.attempt clean).bind fun result after tried genuine => ?_
  split
  next => exact ((sincere.statementsUntil last).bind fun _ => sincere_pure _) tried
  next error =>
    exact ((sincere_recover (genuine error rfl) _ _).bind fun _ => sincere.statementsUntil last) tried

end Grammar.Sincere

/-! ## All rules -/

theorem Grammar.sincere_zero (input : Input) : Grammar.Sincere input 0 where
  fieldNames := sincere_exhausted
  expression _ := sincere_exhausted
  climb _ _ := sincere_exhausted
  applyInfix _ _ _ := sincere_exhausted
  rangeEnd := sincere_exhausted
  operand := sincere_exhausted
  primary := sincere_exhausted
  suffixes _ := sincere_exhausted
  unwrapped _ := sincere_exhausted
  extracted _ := sincere_exhausted
  field _ := sincere_exhausted
  indexed _ := sincere_exhausted
  called _ := sincere_exhausted
  delimited _ _ := sincere_exhausted
  listed _ := sincere_exhausted
  literal := sincere_exhausted
  stringParts clean _ _ := sincere_exhausted clean
  switch := sincere_exhausted
  subjects := sincere_exhausted
  arms := sincere_exhausted
  arm := sincere_exhausted
  pattern := sincere_exhausted
  armBody := sincere_exhausted
  statement := sincere_exhausted
  block := sincere_exhausted
  expressionStatement := sincere_exhausted
  throwStatement := sincere_exhausted
  statementsUntil _ := sincere_exhausted

/-- Every rule is sincere, with any amount of fuel. -/
theorem Grammar.sincere (input : Input) (n : Nat) : Grammar.Sincere input n := by
  induction n with
  | zero => exact Grammar.sincere_zero input
  | succ n sincere =>
    exact {
      fieldNames := sincere.fieldNames_succ
      expression := sincere.expression_succ
      climb := sincere.climb_succ
      applyInfix := sincere.applyInfix_succ
      rangeEnd := sincere.rangeEnd_succ
      operand := sincere.operand_succ
      primary := sincere.primary_succ
      suffixes := sincere.suffixes_succ
      unwrapped := sincere.unwrapped_succ
      extracted := sincere.extracted_succ
      field := sincere.field_succ
      indexed := sincere.indexed_succ
      called := sincere.called_succ
      delimited := sincere.delimited_succ
      listed := sincere.listed_succ
      literal := sincere.literal_succ
      stringParts := sincere.stringParts_succ
      switch := sincere.switch_succ
      subjects := sincere.subjects_succ
      arms := sincere.arms_succ
      arm := sincere.arm_succ
      pattern := sincere.pattern_succ
      armBody := sincere.armBody_succ
      statement := sincere.statement_succ
      block := sincere.block_succ
      expressionStatement := sincere.expressionStatement_succ
      throwStatement := sincere.throwStatement_succ
      statementsUntil := sincere.statementsUntil_succ }

theorem sincere_expr : Parser.Sincere input Parser.expr :=
  (Sincere.fueled fun n => (Grammar.sincere input n).expression 0).within

theorem sincere_startsExpr : Parser.Sincere input Parser.startsExpr :=
  sincere_peekKind.bind fun _ => sincere_pure _

theorem Grammar.sincere_file (input : Input) (n : Nat) : Parser.Sincere input (Grammar.file n) :=
  ((Grammar.sincere input n).statementsUntil _).bind fun _ =>
    (sincere_expect _).bind fun _ => sincere_pure _

end Offside
