import Offside.Parser
import Offside.Proofs.Parser.AbreastRules

/-!
Every rule of the grammar, side by side with itself. A rule comes to the same for two texts as
long as it stays before the seam. Only an expression that ends with the layout of a switch, or the
end of a statement, can arrive across it, and not inside a level.
-/

namespace Offside

open LexStream ParserState Offside.Parser

/-! ## Values up to spans -/

/-- The type that an expression without spans names. -/
def Grammar.typeNamed? (settings : Settings) : Expr Unit → Option (Identifier Unit)
  | .identifier name => if settings.isTypeName name.name then some name else none
  | _ => none

theorem Grammar.erase_knownType? (settings : Settings) (value : Expr Span) :
    (knownType? settings value).map Identifier.erase = typeNamed? settings value.erase := by
  cases value <;> simp only [knownType?, Expr.erase, typeNamed?, Option.map_none]
  split
  next known => rw [if_pos (by simpa only [Identifier.erase] using known), Option.map_some]
  next unknown => rw [if_neg (by simpa only [Identifier.erase] using unknown), Option.map_none]

theorem Grammar.knownType?_same (settings : Settings) {value other : Expr Span}
    (same : SameBy Expr.erase value other) :
    SameBy (Option.map Identifier.erase) (knownType? settings value)
      (knownType? settings other) := by
  rw [SameBy, erase_knownType?, erase_knownType?, same.eq]

theorem Grammar.applyCall_same (settings : Settings) {callee callee' : Expr Span}
    {arguments arguments' : List (Expr Span)} (span span' : Span)
    (same : SameBy Expr.erase callee callee') (sameArguments : SameBy Expr.eraseAll arguments arguments') :
    SameBy Expr.erase (applyCall settings callee arguments span)
      (applyCall settings callee' arguments' span') := by
  have known := knownType?_same settings same
  simp only [SameBy] at same sameArguments known ⊢
  unfold applyCall
  generalize knownType? settings callee = type at known
  generalize knownType? settings callee' = type' at known
  cases type <;> cases type' <;>
    simp only [Option.map_none, Option.map_some, Option.some.injEq, reduceCtorEq] at known
  · simp only [Expr.erase, same, sameArguments]
  · rcases arguments with _ | ⟨value, _ | ⟨more, others⟩⟩ <;>
      rcases arguments' with _ | ⟨value', _ | ⟨more', others'⟩⟩ <;>
      simp only [Expr.eraseAll, List.cons.injEq, and_true, reduceCtorEq, and_false] at sameArguments
    all_goals simp only [Expr.erase, Expr.eraseAll, known, sameArguments]

theorem SameBy.endsWithLayout {value other : Expr Span} (same : SameBy Expr.erase value other) :
    other.endsWithLayout = value.endsWithLayout := by
  rw [← other.endsWithLayout_erase, same.eq, value.endsWithLayout_erase]

theorem SameBy.isAssignable {value other : Expr Span} (same : SameBy Expr.erase value other) :
    other.isAssignable = value.isAssignable := by
  rw [← other.isAssignable_erase, same.eq, value.isAssignable_erase]

/-- Whether the end of a range, if it has one, ends with the layout of a switch. -/
def Expr.endEndsWithLayout {α : Type} : Option (Expr α) → Bool
  | none => false
  | some upper => upper.endsWithLayout

def Action.endsWithLayout {α : Type} : Action α → Bool
  | .expression value _ | .throw value _ => value.endsWithLayout
  | .block _ _ => false

def Statement.endsWithLayout {α : Type} : Statement α → Bool
  | .action body => body.endsWithLayout
  | .empty _ => false

theorem Doomed.subjects_eq {seam : Seam} {origin left : ParserState} (doomed : Doomed seam origin left)
    (n : Nat) :
    Grammar.subjects n left = .error .exhausted left ∨
      ∃ after, Grammar.subjects n left = .ok [] after ∧ Doomed seam origin after := by
  cases n with
  | zero =>
    rw [Grammar.subjects]
    exact Or.inl rfl
  | succ n =>
    obtain ⟨after, missing, still⟩ := doomed.consumeKind_eq (.symbol .comma) Kind.noConfusion
    rw [Grammar.subjects, bind_ok missing]
    exact Or.inr ⟨after, rfl, still⟩

theorem reads_action {seam : Seam} {parser parser' : Parser (Action Span)}
    (reads : Reads seam .final (SameBy Action.erase) (seam.Stops Action.endsWithLayout) parser
      parser') :
    Reads seam .final (SameBy Statement.erase) (seam.Stops Statement.endsWithLayout)
      (do return .action (← parser)) (do return .action (← parser')) :=
  fun abreast => (reads abreast).map (fun _ _ => ⟨_, rfl⟩) fun _ _ _ _ arrives =>
    alike_pure ⟨by simp only [SameBy, Statement.erase, arrives.1.eq], arrives.2⟩

namespace Seam

theorem Opens.range {seam : Seam} {lower upper : Option (Expr Span)} {span : Span}
    {taken : List Token} (opens : seam.Opens Expr.endEndsWithLayout upper taken) :
    seam.Opens Expr.endsWithLayout (.range lower upper span) taken := by
  obtain ⟨noneTaken, endsOpen, layout⟩ := opens
  refine ⟨noneTaken, endsOpen, ?_⟩
  cases upper with
  | none => contradiction
  | some upper => exact layout

theorem Opens.stops {α β : Type} {seam : Seam} {layout : α → Bool} {layout' : β → Bool} {value : α}
    {made : β} {taken : List Token} (opens : seam.Opens layout value taken) :
    seam.Stops layout' made taken := by
  obtain ⟨rfl, _⟩ := opens
  exact Or.inl fun _ member => absurd member List.not_mem_nil

theorem opens_nil {α : Type} {seam : Seam} {levels : Nat} {origin left right : ParserState}
    {value : α} (crossed : seam.left.EndsOpen ∧ Across seam levels origin [] left right) :
    ∃ taken, seam.Opens (fun _ => true) value taken ∧
      Across seam levels origin taken left right :=
  ⟨[], ⟨rfl, crossed.1, rfl⟩, crossed.2⟩

/-- The end of a text inside of which the seam is not, as it is for the statements up to a token of
some kind: a level is open, or both texts end together. -/
def Encloses (seam : Seam) (last : Kind) (state : ParserState) : Prop :=
  (last = .dedent ∧ 0 < state.depth) ∨
    (last = .endOfInput ∧ state.depth = 0 ∧ seam.after = none)

variable (seam : Seam)

variable {seam} in
theorem Encloses.deep {last : Kind} {state : ParserState} (encloses : seam.Encloses last state) :
    Deep seam state :=
  encloses.elim (fun inside => Or.inr inside.2) fun outside => Or.inl outside.2.2

variable {seam} in
theorem Encloses.of_depth {last : Kind} {state after : ParserState}
    (encloses : seam.Encloses last state) (depth : after.depth = state.depth) :
    seam.Encloses last after := by
  unfold Encloses
  rw [depth]
  exact encloses

/-- What two readings by each rule of the grammar come to, with some amount of fuel. -/
structure Walk (n : Nat) : Prop where
  fieldNames : Keeps seam (SameBy (List.map Identifier.erase)) (Grammar.fieldNames n)
    (Grammar.fieldNames n)
  expression (slack : Slack) (minimum : Nat) :
    Reads seam slack (SameBy Expr.erase) (seam.Opens Expr.endsWithLayout)
      (Grammar.expression n minimum) (Grammar.expression n minimum)
  climb {slack : Slack} (minimum : Nat) {levels : Nat} {origin left right : ParserState}
    {value other : Expr Span}
    (arrives : Arrives seam (SameBy Expr.erase) (seam.Opens Expr.endsWithLayout) levels origin
      value left other right) :
    Alike seam false slack origin
      (Arrives seam (SameBy Expr.erase) (seam.Opens Expr.endsWithLayout) levels origin)
      (Grammar.climb n minimum value) left (Grammar.climb n minimum other) right
  applyInfix (slack : Slack) (op : InfixOp) (span span' : Span) {value other : Expr Span}
    (same : SameBy Expr.erase value other) :
    Reads seam slack (SameBy Expr.erase) (seam.Opens Expr.endsWithLayout)
      (Grammar.applyInfix n op span value) (Grammar.applyInfix n op span' other)
  rangeEnd (slack : Slack) :
    Reads seam slack (SameBy Expr.eraseEnd) (seam.Opens Expr.endEndsWithLayout)
      (Grammar.rangeEnd n) (Grammar.rangeEnd n)
  operand (slack : Slack) :
    Reads seam slack (SameBy Expr.erase) (seam.Opens Expr.endsWithLayout) (Grammar.operand n)
      (Grammar.operand n)
  primary : Keeps seam (SameBy Expr.erase) (Grammar.primary n) (Grammar.primary n)
  suffixes {value other : Expr Span} (same : SameBy Expr.erase value other) :
    Keeps seam (SameBy Expr.erase) (Grammar.suffixes n value) (Grammar.suffixes n other)
  unwrapped {value other : Expr Span} (same : SameBy Expr.erase value other) :
    KeepsFrom seam Kind.isFlat (SameBy Expr.erase) (Grammar.unwrapped n value)
      (Grammar.unwrapped n other)
  extracted {value other : Expr Span} (same : SameBy Expr.erase value other) :
    KeepsFrom seam Kind.isFlat (SameBy Expr.erase) (Grammar.extracted n value)
      (Grammar.extracted n other)
  field {value other : Expr Span} (same : SameBy Expr.erase value other) :
    KeepsFrom seam Kind.isFlat (SameBy Expr.erase) (Grammar.field n value) (Grammar.field n other)
  indexed {value other : Expr Span} (same : SameBy Expr.erase value other) :
    Keeps seam (SameBy Expr.erase) (Grammar.indexed n value) (Grammar.indexed n other)
  called {value other : Expr Span} (same : SameBy Expr.erase value other) :
    Keeps seam (SameBy Expr.erase) (Grammar.called n value) (Grammar.called n other)
  delimited (opening closing : Symbol) :
    Keeps seam (SameBy fun values : List (Expr Span) × Span => Expr.eraseAll values.1)
      (Grammar.delimited n opening closing) (Grammar.delimited n opening closing)
  listed (closing : Symbol) {levels : Nat} {origin left right : ParserState}
    (abreast : Abreast seam levels origin left right) :
    Alike seam false .doomed origin
      (fun values after others after' => SameBy Expr.eraseAll values others ∧
        Abreast seam levels origin after after')
      (Grammar.listed n closing) left (Grammar.listed n closing) right
  literal : KeepsFrom seam Kind.startsLiteral (SameBy Literal.erase) (Grammar.literal n)
    (Grammar.literal n)
  stringParts : KeepsFrom seam Kind.isStringPart
    (SameBy fun parts : List (StringPart Span) × Span => StringPart.eraseAll parts.1)
    (Grammar.stringParts n) (Grammar.stringParts n)
  switch (slack : Slack) :
    Reads seam slack (SameBy Expr.erase) (seam.Opens Expr.endsWithLayout) (Grammar.switch n)
      (Grammar.switch n)
  subjects {levels : Nat} {origin left right : ParserState}
    (abreast : Abreast seam levels origin left right) :
    Alike seam false .doomed origin
      (fun values after others after' => SameBy Expr.eraseAll values others ∧
        Abreast seam levels origin after after')
      (Grammar.subjects n) left (Grammar.subjects n) right
  arms {slack : Slack} {levels : Nat} {origin left right : ParserState}
    (abreast : Abreast seam (levels + 1) origin left right) :
    Alike seam false slack origin
      (Arrives seam (SameBy Arm.eraseAll) (seam.Opens fun _ => true) levels origin)
      (Grammar.arms n) left (Grammar.arms n) right
  arm {slack : Slack} {levels : Nat} {origin left right : ParserState}
    (abreast : Abreast seam (levels + 1) origin left right) :
    Alike seam false slack origin
      (fun arm after other after' => SameBy Arm.erase arm other ∧
        Abreast seam (levels + 1) origin after after')
      (Grammar.arm n) left (Grammar.arm n) right
  pattern : Keeps seam (SameBy Pattern.erase) (Grammar.pattern n) (Grammar.pattern n)
  armBody : Reads seam .final (SameBy Action.erase) (seam.Stops Action.endsWithLayout)
    (Grammar.armBody n) (Grammar.armBody n)
  statement : Reads seam .final (SameBy Statement.erase) (seam.Stops Statement.endsWithLayout)
    (Grammar.statement n) (Grammar.statement n)
  block {firm : Bool} {slack : Slack} {levels : Nat} {origin left right : ParserState}
    (certain : firm = true → left.Faces .indent) (abreast : Abreast seam levels origin left right) :
    Alike seam firm slack origin
      (Arrives seam (SameBy Action.erase) (seam.Opens fun _ => true) levels origin)
      (Grammar.block n) left (Grammar.block n) right
  expressionStatement :
    Reads seam .final (SameBy Action.erase) (seam.Stops Action.endsWithLayout)
      (Grammar.expressionStatement n) (Grammar.expressionStatement n)
  throwStatement : Reads seam .final (SameBy Action.erase) (seam.Stops Action.endsWithLayout)
    (Grammar.throwStatement n) (Grammar.throwStatement n)
  statementsUntil {last : Kind} {firm : Bool} {slack : Slack} {levels : Nat}
    {origin left right : ParserState} (encloses : seam.Encloses last left)
    (abreast : Abreast seam levels origin left right) :
    Alike seam firm slack origin
      (fun statements after others after' => SameBy Statement.eraseAll statements others ∧
        Abreast seam levels origin after after' ∧ ∃ token rest, after.ahead = token :: rest ∧
          (token.kind = last ∨ token.kind = .endOfInput))
      (Grammar.statementsUntil n last) left (Grammar.statementsUntil n last) right

namespace Walk

variable {seam} {n : Nat} (walk : seam.Walk n)

include walk

/-! ## Expressions -/

theorem fieldNames_succ : Keeps seam (SameBy (List.map Identifier.erase))
    (Grammar.fieldNames (n + 1)) (Grammar.fieldNames (n + 1)) := by
  intro slack levels origin left right abreast
  rw [Grammar.fieldNames]
  refine (alike_consumeKind rfl abreast).bind ?_
  rintro comma _ comma' _ ⟨isSome, looked⟩
  rw [← Option.not_isSome, ← Option.not_isSome, isSome]
  split
  next => exact alike_pure ⟨rfl, looked⟩
  next =>
    refine (alike_check rfl looked).bind ?_
    rintro closes _ closes' _ ⟨sameCloses, checked, _⟩
    rw [sameCloses]
    split
    next => exact alike_pure ⟨rfl, checked⟩
    next =>
      refine (keeps_identifier checked).bind ?_
      rintro name _ name' _ ⟨sameName, named⟩
      refine (walk.fieldNames named).bind ?_
      rintro others _ others' _ ⟨sameOthers, more⟩
      exact alike_pure ⟨by simp only [SameBy, List.map_cons, sameName.eq, sameOthers.eq], more⟩

theorem expression_succ (slack : Slack) (minimum : Nat) :
    Reads seam slack (SameBy Expr.erase) (seam.Opens Expr.endsWithLayout)
      (Grammar.expression (n + 1) minimum) (Grammar.expression (n + 1) minimum) := by
  intro levels origin left right abreast
  rw [Grammar.expression]
  exact (walk.operand .none abreast).bind fun _ _ _ _ arrives => walk.climb minimum arrives

theorem climb_succ {slack : Slack} (minimum : Nat) {levels : Nat}
    {origin left right : ParserState} {value other : Expr Span}
    (arrives : Arrives seam (SameBy Expr.erase) (seam.Opens Expr.endsWithLayout) levels origin
      value left other right) :
    Alike seam false slack origin
      (Arrives seam (SameBy Expr.erase) (seam.Opens Expr.endsWithLayout) levels origin)
      (Grammar.climb (n + 1) minimum value) left (Grammar.climb (n + 1) minimum other) right := by
  rw [Grammar.climb, Grammar.climb, arrives.1.endsWithLayout]
  split
  next => exact alike_pure arrives
  next goesOn =>
    obtain ⟨same, abreast | ⟨_, ⟨_, _, layout⟩, _⟩⟩ := arrives
    · refine (alike_peekKind abreast).bind ?_
      rintro kind _ kind' _ ⟨looked, _, first, first', sight, isKind, isKind'⟩
      rw [isKind, isKind', sight.test InfixOp.ofKind? rfl]
      split
      next => exact alike_pure ⟨same, Or.inl looked⟩
      next op isInfix =>
        split
        next => exact alike_pure ⟨same, Or.inl looked⟩
        next =>
          have flat : first.kind.isFlat = true := by
            cases kindOf : first.kind <;> first | rfl | (rw [kindOf] at isInfix; contradiction)
          refine (alike_consume_flat looked sight flat).bind ?_
          rintro token _ token' _ ⟨_, _, taken⟩
          exact (walk.applyInfix .none op token.span token'.span same taken).bind
            fun longer _ longer' _ applied => walk.climb minimum applied
    · contradiction

theorem applyInfix_succ (slack : Slack) (op : InfixOp) (span span' : Span)
    {value other : Expr Span} (same : SameBy Expr.erase value other) :
    Reads seam slack (SameBy Expr.erase) (seam.Opens Expr.endsWithLayout)
      (Grammar.applyInfix (n + 1) op span value) (Grammar.applyInfix (n + 1) op span' other) := by
  intro levels origin left right abreast
  cases op with
  | assign assignOp =>
    rw [Grammar.applyInfix, Grammar.applyInfix, same.isAssignable]
    split
    next =>
      refine (walk.expression .none _ abreast).bind ?_
      rintro _ _ _ _ ⟨sameRight, arrived⟩
      exact alike_pure ⟨by simp only [SameBy, Expr.erase, same.eq, sameRight.eq], arrived⟩
    next => exact alike_failAt abreast
  | binary binaryOp =>
    rw [Grammar.applyInfix, Grammar.applyInfix]
    refine (walk.expression .none _ abreast).bind ?_
    rintro _ _ _ _ ⟨sameRight, arrived⟩
    exact alike_pure ⟨by simp only [SameBy, Expr.erase, same.eq, sameRight.eq], arrived⟩
  | range =>
    rw [Grammar.applyInfix, Grammar.applyInfix]
    refine (walk.rangeEnd .none abreast).bind ?_
    rintro upper _ upper' _ ⟨sameUpper, arrived⟩
    refine alike_pure ⟨by simp only [SameBy, Expr.erase, Expr.eraseEnd, same.eq, sameUpper.eq], ?_⟩
    exact arrived.imp_right (Exists.imp fun _ => And.imp_left Opens.range)

theorem rangeEnd_succ (slack : Slack) :
    Reads seam slack (SameBy Expr.eraseEnd) (seam.Opens Expr.endEndsWithLayout)
      (Grammar.rangeEnd (n + 1)) (Grammar.rangeEnd (n + 1)) := by
  intro levels origin left right abreast
  rw [Grammar.rangeEnd]
  refine (alike_peekKind abreast).bind ?_
  rintro kind _ kind' _ ⟨looked, _, first, first', sight, isKind, isKind'⟩
  rw [isKind, isKind', sight.test Kind.startsExpression rfl]
  split
  next =>
    refine (walk.expression .none _ looked).bind ?_
    rintro _ _ _ _ ⟨same, arrived⟩
    exact alike_pure ⟨by simp only [SameBy, Expr.eraseEnd, same.eq], arrived⟩
  next => exact alike_pure ⟨rfl, Or.inl looked⟩

theorem operand_succ (slack : Slack) :
    Reads seam slack (SameBy Expr.erase) (seam.Opens Expr.endsWithLayout)
      (Grammar.operand (n + 1)) (Grammar.operand (n + 1)) := by
  intro levels origin left right abreast
  rw [Grammar.operand]
  refine (alike_peekKind abreast).bind ?_
  rintro kind _ kind' _ ⟨looked, _, first, first', sight, isKind, isKind'⟩
  have value : Reads seam slack (SameBy Expr.erase) (seam.Opens Expr.endsWithLayout)
      (Grammar.primary n >>= Grammar.suffixes n) (Grammar.primary n >>= Grammar.suffixes n) :=
    Keeps.reads fun abreast => (walk.primary abreast).bind fun _ _ _ _ holds =>
      walk.suffixes holds.1 holds.2
  rw [isKind, isKind']
  cases sight with
  | line isEnd isLine =>
    rw [isEnd, isLine]
    exact value looked
  | twins twins buffer buffer' =>
    have sight : Sight seam _ _ first first' := .twins twins buffer buffer'
    rw [twins.kind]
    split
    next op isPrefix =>
      have flat : first.kind.isFlat = true := by
        cases kindOf : first.kind <;> first | rfl | (rw [kindOf] at isPrefix; contradiction)
      refine (alike_consume_flat looked sight flat).bind ?_
      rintro token _ token' _ ⟨_, _, taken⟩
      refine (walk.expression .none _ taken).bind ?_
      rintro _ _ _ _ ⟨same, arrived⟩
      cases op <;>
        exact alike_pure ⟨by simp only [SameBy, Grammar.applyPrefix, Expr.erase, same.eq], arrived⟩
    next isRange =>
      refine (alike_consume_flat looked sight (by rw [isRange]; rfl)).bind ?_
      rintro token _ token' _ ⟨_, _, taken⟩
      refine (walk.rangeEnd .none taken).bind ?_
      rintro upper _ upper' _ ⟨sameUpper, arrived⟩
      refine alike_pure ⟨by simp only [SameBy, Expr.erase, Expr.eraseEnd, sameUpper.eq], ?_⟩
      exact arrived.imp_right (Exists.imp fun _ => And.imp_left Opens.range)
    next => exact reads_within (walk.switch slack) looked
    next => exact value looked

/-- An expression that something has to follow. -/
theorem followed {levels : Nat} {origin left right : ParserState}
    (abreast : Abreast seam levels origin left right) :
    Alike seam false .doomed origin
      (fun value after other after' => SameBy Expr.erase value other ∧
        Abreast seam levels origin after after')
      (within .expr (Grammar.expression n 0)) left (within .expr (Grammar.expression n 0)) right :=
  (reads_within (walk.expression .doomed 0) abreast).settle
    fun _ _ opens => ⟨opens.1, opens.2.1⟩

theorem primary_succ : Keeps seam (SameBy Expr.erase) (Grammar.primary (n + 1))
    (Grammar.primary (n + 1)) := by
  intro slack levels origin left right abreast
  rw [Grammar.primary]
  refine (alike_peek abreast).bind ?_
  rintro next _ next' _ ⟨looked, sight, _⟩
  cases sight with
  | line isEnd isLine =>
    rw [isEnd, isLine]
    exact alike_failAt looked
  | twins twins buffer buffer' =>
    have sight : Sight seam _ _ next next' := .twins twins buffer buffer'
    rw [twins.kind]
    split
    next =>
      refine (keeps_identifier looked).bind ?_
      rintro _ _ _ _ ⟨same, named⟩
      exact alike_pure ⟨by simp only [SameBy, Expr.erase, same.eq], named⟩
    next isParen =>
      refine (alike_discard_flat looked sight (by rw [isParen]; rfl)).bind fun _ _ _ _ opened => ?_
      refine (walk.followed opened).bindWith Slack.noConfusion
        (fun _ _ _ _ doomed => doomed.matches_discard_expect Kind.noConfusion) ?_
      rintro value _ value' _ ⟨same, read⟩
      refine (alike_discard_expect rfl read).bind
        fun _ _ _ _ closed => ?_
      exact alike_pure ⟨same, closed⟩
    next kind _ _ =>
      split
      next isLiteral =>
        refine (keepsFrom_within walk.literal (sight.heads isLiteral) looked).bind ?_
        rintro _ _ _ _ ⟨same, read⟩
        exact alike_pure ⟨by simp only [SameBy, Expr.erase, same.eq], read⟩
      next => exact alike_failAt looked

theorem suffixes_succ {value other : Expr Span} (same : SameBy Expr.erase value other) :
    Keeps seam (SameBy Expr.erase) (Grammar.suffixes (n + 1) value)
      (Grammar.suffixes (n + 1) other) := by
  intro slack levels origin left right abreast
  rw [Grammar.suffixes, Grammar.suffixes]
  refine (alike_peekKind abreast).bind ?_
  rintro kind _ kind' _ ⟨looked, _, first, first', sight, isKind, isKind'⟩
  rw [isKind, isKind']
  cases sight with
  | line isEnd isLine =>
    rw [isEnd, isLine]
    exact alike_pure ⟨same, looked⟩
  | twins twins buffer buffer' =>
    have sight : Sight seam _ _ first first' := .twins twins buffer buffer'
    have heads : ∀ {symbol : Symbol}, first.kind = .symbol symbol →
        ParserState.Heads Kind.isFlat _ :=
      fun isSymbol => sight.heads (by rw [isSymbol]; rfl)
    rw [twins.kind]
    split
    next isSymbol =>
      exact (keepsFrom_updated .increment same (heads isSymbol) looked).bind
        fun _ _ _ _ holds => walk.suffixes holds.1 holds.2
    next isSymbol =>
      exact (keepsFrom_updated .decrement same (heads isSymbol) looked).bind
        fun _ _ _ _ holds => walk.suffixes holds.1 holds.2
    next isSymbol =>
      exact (walk.unwrapped same (heads isSymbol) looked).bind
        fun _ _ _ _ holds => walk.suffixes holds.1 holds.2
    next isSymbol =>
      exact (walk.extracted same (heads isSymbol) looked).bind
        fun _ _ _ _ holds => walk.suffixes holds.1 holds.2
    next isSymbol =>
      exact (keepsFrom_optionalField same (heads isSymbol) looked).bind
        fun _ _ _ _ holds => walk.suffixes holds.1 holds.2
    next isSymbol =>
      exact (walk.field same (heads isSymbol) looked).bind
        fun _ _ _ _ holds => walk.suffixes holds.1 holds.2
    next =>
      exact (walk.indexed same looked).bind
        fun _ _ _ _ holds => walk.suffixes holds.1 holds.2
    next =>
      exact (walk.called same looked).bind
        fun _ _ _ _ holds => walk.suffixes holds.1 holds.2
    next => exact alike_pure ⟨same, looked⟩

theorem unwrapped_succ {value other : Expr Span} (same : SameBy Expr.erase value other) :
    KeepsFrom seam Kind.isFlat (SameBy Expr.erase) (Grammar.unwrapped (n + 1) value)
      (Grammar.unwrapped (n + 1) other) := by
  intro slack levels origin left right heads abreast
  rw [Grammar.unwrapped, Grammar.unwrapped]
  refine (alike_consume_of_heads (fun _ => id) heads abreast).bind ?_
  rintro _ _ _ _ ⟨_, _, _, _, taken⟩
  refine (alike_check rfl taken).bind ?_
  rintro opens _ opens' _ ⟨sameOpens, checked, _⟩
  rw [sameOpens]
  split
  next =>
    refine (walk.delimited _ _ checked).bind ?_
    rintro _ _ _ _ ⟨sameArguments, read⟩
    exact alike_pure ⟨by simp only [SameBy, Expr.erase, same.eq, sameArguments.eq], read⟩
  next => exact alike_pure ⟨by simp only [SameBy, Expr.erase, same.eq], checked⟩

theorem extracted_succ {value other : Expr Span} (same : SameBy Expr.erase value other) :
    KeepsFrom seam Kind.isFlat (SameBy Expr.erase) (Grammar.extracted (n + 1) value)
      (Grammar.extracted (n + 1) other) := by
  intro slack levels origin left right heads abreast
  rw [Grammar.extracted, Grammar.extracted]
  refine (alike_discard_of_heads heads abreast).bind fun _ _ _ _ taken => ?_
  refine (walk.delimited _ _ taken).bind ?_
  rintro _ _ _ _ ⟨sameArguments, read⟩
  exact alike_pure ⟨by simp only [SameBy, Expr.erase, same.eq, sameArguments.eq], read⟩

theorem field_succ {value other : Expr Span} (same : SameBy Expr.erase value other) :
    KeepsFrom seam Kind.isFlat (SameBy Expr.erase) (Grammar.field (n + 1) value)
      (Grammar.field (n + 1) other) := by
  intro slack levels origin left right heads abreast
  rw [Grammar.field, Grammar.field]
  refine (alike_discard_of_heads heads abreast).bind fun _ _ _ _ taken => ?_
  refine (alike_consumeKind rfl taken).bind ?_
  rintro opens _ opens' _ ⟨isSome, looked⟩
  rw [isSome]
  split
  next =>
    refine (keeps_identifier looked).bind ?_
    rintro _ _ _ _ ⟨sameFirst, named⟩
    refine (walk.fieldNames named).bind ?_
    rintro _ _ _ _ ⟨sameOthers, more⟩
    refine (alike_expect_code rfl more).bind ?_
    rintro _ _ _ _ ⟨_, _, _, closed⟩
    refine alike_pure ⟨?_, closed⟩
    simp only [SameBy, Expr.erase, List.map_cons, same.eq, sameFirst.eq, sameOthers.eq]
  next =>
    refine (keeps_identifier looked).bind ?_
    rintro _ _ _ _ ⟨sameName, named⟩
    exact alike_pure ⟨by simp only [SameBy, Expr.erase, same.eq, sameName.eq], named⟩

theorem indexed_succ {value other : Expr Span} (same : SameBy Expr.erase value other) :
    Keeps seam (SameBy Expr.erase) (Grammar.indexed (n + 1) value)
      (Grammar.indexed (n + 1) other) := by
  intro slack levels origin left right abreast
  rw [Grammar.indexed, Grammar.indexed]
  refine (walk.delimited _ _ abreast).bind ?_
  rintro ⟨indices, span⟩ _ ⟨indices', span'⟩ _ ⟨sameIndices, read⟩
  have sameEmpty : indices'.isEmpty = indices.isEmpty := by
    rw [← Expr.eraseAll_isEmpty, sameIndices.eq, Expr.eraseAll_isEmpty]
  dsimp only
  rw [sameEmpty]
  split
  next => exact alike_failAt read
  next =>
    refine (alike_check rfl read).bind ?_
    rintro valued _ valued' _ ⟨sameValued, checked, _⟩
    refine Alike.get ?_
    have known := Grammar.knownType?_same seam.left.settings same
    rw [sameValued, checked.visitedLeft.sound.settings, checked.visitedRight.sound.settings,
      seam.settings]
    generalize Grammar.knownType? seam.left.settings value = type at known
    generalize Grammar.knownType? seam.left.settings other = type' at known
    cases type <;> cases type' <;> cases valued <;>
      simp only [SameBy, Option.map_none, Option.map_some, Option.some.injEq, reduceCtorEq] at known
    case some.some.true =>
      refine (walk.delimited _ _ checked).bind ?_
      rintro _ _ _ _ ⟨sameValues, more⟩
      refine alike_pure ⟨?_, more⟩
      simp only [SameBy, Expr.erase, known, sameIndices.eq, sameValues.eq]
    all_goals
      exact alike_pure ⟨by simp only [SameBy, Expr.erase, same.eq, sameIndices.eq], checked⟩

theorem called_succ {value other : Expr Span} (same : SameBy Expr.erase value other) :
    Keeps seam (SameBy Expr.erase) (Grammar.called (n + 1) value)
      (Grammar.called (n + 1) other) := by
  intro slack levels origin left right abreast
  rw [Grammar.called, Grammar.called]
  refine (walk.delimited _ _ abreast).bind ?_
  rintro ⟨arguments, span⟩ _ ⟨arguments', span'⟩ _ ⟨sameArguments, read⟩
  refine Alike.get ?_
  rw [read.visitedLeft.sound.settings, read.visitedRight.sound.settings, seam.settings]
  exact alike_pure ⟨Grammar.applyCall_same _ _ _ same sameArguments, read⟩

theorem delimited_succ (opening closing : Symbol) :
    Keeps seam (SameBy fun values : List (Expr Span) × Span => Expr.eraseAll values.1)
      (Grammar.delimited (n + 1) opening closing) (Grammar.delimited (n + 1) opening closing) := by
  intro slack levels origin left right abreast
  rw [Grammar.delimited]
  refine (alike_expect_code rfl abreast).bind ?_
  rintro _ _ _ _ ⟨_, _, _, opened⟩
  refine (walk.listed closing opened).bindWith Slack.noConfusion
    (fun _ _ _ _ doomed => doomed.matches_expect Kind.noConfusion) ?_
  rintro _ _ _ _ ⟨same, read⟩
  refine (alike_expect_code rfl read).bind ?_
  rintro _ _ _ _ ⟨_, _, _, closed⟩
  exact alike_pure ⟨same, closed⟩

theorem listed_succ (closing : Symbol) {levels : Nat} {origin left right : ParserState}
    (abreast : Abreast seam levels origin left right) :
    Alike seam false .doomed origin
      (fun values after others after' => SameBy Expr.eraseAll values others ∧
        Abreast seam levels origin after after')
      (Grammar.listed (n + 1) closing) left (Grammar.listed (n + 1) closing) right := by
  rw [Grammar.listed]
  refine (alike_check rfl abreast).bind ?_
  rintro closes _ closes' _ ⟨sameCloses, checked, _⟩
  rw [sameCloses]
  split
  next => exact alike_pure ⟨rfl, checked⟩
  next =>
    refine (walk.followed checked).bindWith Slack.noConfusion
      (fun _ value after _ doomed => ?_) ?_
    · obtain ⟨last, missing, still⟩ := doomed.consumeKind_eq (.symbol .comma) Kind.noConfusion
      rw [bind_ok missing]
      exact .doomed rfl still
    · rintro value _ value' _ ⟨same, read⟩
      refine (alike_consumeKind rfl read).bind ?_
      rintro comma _ comma' _ ⟨isSome, looked⟩
      rw [isSome]
      split
      next =>
        refine (walk.listed closing looked).bindWith Slack.noConfusion
          (fun _ _ _ _ doomed => .doomed rfl doomed) ?_
        rintro _ _ _ _ ⟨sameOthers, more⟩
        exact alike_pure ⟨by simp only [SameBy, Expr.eraseAll, same.eq, sameOthers.eq], more⟩
      next => exact alike_pure ⟨by simp only [SameBy, Expr.eraseAll, same.eq], looked⟩

/-! ## Literals -/

theorem literal_succ : KeepsFrom seam Kind.startsLiteral (SameBy Literal.erase)
    (Grammar.literal (n + 1)) (Grammar.literal (n + 1)) := by
  intro slack levels origin left right heads abreast
  rw [Grammar.literal]
  refine (alike_check rfl abreast).bind ?_
  rintro isString _ isString' _ ⟨sameString, looked, ahead, first, first', sight, isKind⟩
  rw [sameString]
  split
  next starts =>
    have isStart : first.kind = .stringStart := of_decide_eq_true (isKind.symm.trans starts)
    have start : ParserState.Heads (fun kind => kind = .stringStart) _ :=
      sight.heads (decide_eq_true isStart)
    refine (alike_consume_of_heads (fun kind same => ?_) start looked).bind ?_
    · rw [of_decide_eq_true same]
      rfl
    rintro token _ token' _ ⟨_, _, same, suffix, taken⟩
    have parts := heads_of_continues suffix (by rw [of_decide_eq_true same]; rfl)
    refine (walk.stringParts parts taken).bind ?_
    rintro _ _ _ _ ⟨sameParts, read⟩
    exact alike_pure ⟨by simp only [SameBy, Literal.erase, sameParts.eq], read⟩
  next notString =>
    obtain ⟨rest, found⟩ := sight.ahead_eq
    have passes := heads first rest (ahead.symm.trans found)
    have notStart : first.kind ≠ .stringStart := by simpa [isKind] using notString
    exact keepsFrom_simpleLiteral
      (sight.heads (by simpa [Kind.startsLiteral, notStart] using passes)) looked

theorem stringParts_succ : KeepsFrom seam Kind.isStringPart
    (SameBy fun parts : List (StringPart Span) × Span => StringPart.eraseAll parts.1)
    (Grammar.stringParts (n + 1)) (Grammar.stringParts (n + 1)) := by
  intro slack levels origin left right heads abreast
  rw [Grammar.stringParts]
  refine (alike_consume_of_heads Kind.isFlat_of_isStringPart heads abreast).bind ?_
  rintro token _ token' _ ⟨sameKind, _, _, suffix, taken⟩
  rw [sameKind]
  split
  next isFragment =>
    have parts := heads_of_continues suffix (by rw [isFragment]; rfl)
    refine (walk.stringParts parts taken).bind ?_
    rintro _ _ _ _ ⟨same, read⟩
    exact alike_pure ⟨by simp only [SameBy, StringPart.eraseAll, StringPart.erase, same.eq], read⟩
  next =>
    refine (walk.followed taken).bindWith Slack.noConfusion
      (fun _ _ _ _ doomed => doomed.matches_discard_expect Kind.noConfusion) ?_
    rintro _ _ _ _ ⟨same, read⟩
    have expected : Alike seam false .none origin
        (fun _ after _ after' => after.Heads Kind.isStringPart ∧
          Abreast seam levels origin after after')
        (Functor.discard (expect .interpolationEnd)) _
        (Functor.discard (expect .interpolationEnd)) _ :=
      (alike_expect_code rfl read).discard fun _ _ _ _ holds =>
        ⟨heads_of_continues holds.2.2.1 (by rw [holds.1]; rfl), holds.2.2.2⟩
    refine expected.bind ?_
    rintro _ _ _ _ ⟨parts, closed⟩
    refine (walk.stringParts parts closed).bind ?_
    rintro _ _ _ _ ⟨sameParts, more⟩
    refine alike_pure ⟨?_, more⟩
    simp only [SameBy, StringPart.eraseAll, StringPart.erase, same.eq, sameParts.eq]
  next => exact alike_pure ⟨rfl, taken⟩
  next => exact alike_failAt taken

/-! ## Switches -/

theorem switch_succ (slack : Slack) :
    Reads seam slack (SameBy Expr.erase) (seam.Opens Expr.endsWithLayout)
      (Grammar.switch (n + 1)) (Grammar.switch (n + 1)) := by
  intro levels origin left right abreast
  rw [Grammar.switch]
  refine (alike_expect_code rfl abreast).bind ?_
  rintro keyword _ keyword' _ ⟨_, _, _, started⟩
  refine (walk.followed started).bindWith Slack.noConfusion (fun _ value after _ doomed => ?_) ?_
  · obtain missing | ⟨last, none, still⟩ := doomed.subjects_eq n
    · rw [bind_error missing]
      exact .exhausted
    · rw [bind_ok none]
      exact still.matches_expect Kind.noConfusion
  rintro first _ first' _ ⟨sameFirst, read⟩
  refine (walk.subjects read).bindWith Slack.noConfusion
    (fun _ _ _ _ doomed => doomed.matches_expect Kind.noConfusion) ?_
  rintro others _ others' _ ⟨sameOthers, more⟩
  have sameSubjects : Expr.eraseAll (first' :: others') = Expr.eraseAll (first :: others) := by
    simp only [Expr.eraseAll, sameFirst.eq, sameOthers.eq]
  refine (alike_expect_code rfl more).bind ?_
  rintro colon after colon' after' ⟨isColon, _, suffix, headed⟩
  have same : ∀ {arms arms' : List (Arm Span)} {span span' : Span},
      SameBy Arm.eraseAll arms arms' → SameBy Expr.erase
        (Expr.switch (first :: others) arms span) (Expr.switch (first' :: others') arms' span') :=
    fun sameArms => by simp only [SameBy, Expr.erase, sameSubjects, sameArms.eq]
  refine (alike_peek headed).bind ?_
  rintro next _ next' _ ⟨looked, sight, ahead, _⟩
  dsimp only
  cases sight with
  | line isEnd isLine buffer buffer' ended ended' goesOn =>
    have opens : seam.left.EndsOpen := by
      rw [← ahead, ended] at suffix
      exact ⟨colon, next, suffix, isEnd, Or.inl isColon⟩
    have across := looked.cross_line isEnd isLine ended buffer' ended' goesOn
    rw [isEnd, isLine]
    dsimp only
    rw [Alike, bind_ok (discard_consume_of_buffer buffer')]
    exact .ok ⟨same rfl, Or.inr ⟨[], ⟨rfl, opens, rfl⟩, across⟩⟩
  | twins twins buffer buffer' =>
    have sight : Sight seam _ _ next next' := .twins twins buffer buffer'
    rw [twins.kind]
    split
    next isLine =>
      refine (alike_discard_flat looked sight (by rw [isLine]; rfl)).bind fun _ _ _ _ taken => ?_
      exact alike_pure ⟨same rfl, Or.inl taken⟩
    next => exact alike_pure ⟨same rfl, Or.inl looked⟩
    next => exact alike_pure ⟨same rfl, Or.inl looked⟩
    next isIndent =>
      have replayed := levelsAfter?_of_indent isIndent levels
      refine ((alike_consume looked sight (isIndent ▸ Kind.noConfusion) replayed).discard
        fun _ _ _ _ holds => holds.2.2.2.2.resolve_right fun crossed =>
          Kind.noConfusion (isIndent.symm.trans crossed.1)).bind fun _ _ _ _ opened => ?_
      refine (walk.arms opened).bind ?_
      rintro _ _ _ _ ⟨sameArms, closed⟩
      exact alike_pure ⟨same sameArms, closed⟩
    next => exact alike_failAt looked

theorem subjects_succ {levels : Nat} {origin left right : ParserState}
    (abreast : Abreast seam levels origin left right) :
    Alike seam false .doomed origin
      (fun values after others after' => SameBy Expr.eraseAll values others ∧
        Abreast seam levels origin after after')
      (Grammar.subjects (n + 1)) left (Grammar.subjects (n + 1)) right := by
  rw [Grammar.subjects]
  refine (alike_consumeKind rfl abreast).bind ?_
  rintro comma _ comma' _ ⟨isSome, looked⟩
  rw [isSome]
  split
  next =>
    refine (walk.followed looked).bindWith Slack.noConfusion
      (fun _ value after _ doomed => ?_) ?_
    · obtain missing | ⟨last, none, still⟩ := doomed.subjects_eq n
      · rw [bind_error missing]
        exact .exhausted
      · rw [bind_ok none]
        exact .doomed rfl still
    rintro _ _ _ _ ⟨same, read⟩
    refine (walk.subjects read).bindWith Slack.noConfusion
      (fun _ _ _ _ doomed => .doomed rfl doomed) ?_
    rintro _ _ _ _ ⟨sameOthers, more⟩
    exact alike_pure ⟨by simp only [SameBy, Expr.eraseAll, same.eq, sameOthers.eq], more⟩
  next => exact alike_pure ⟨rfl, looked⟩

theorem arms_succ {slack : Slack} {levels : Nat} {origin left right : ParserState}
    (abreast : Abreast seam (levels + 1) origin left right) :
    Alike seam false slack origin
      (Arrives seam (SameBy Arm.eraseAll) (seam.Opens fun _ => true) levels origin)
      (Grammar.arms (n + 1)) left (Grammar.arms (n + 1)) right := by
  rw [Grammar.arms]
  refine (alike_removeNewlines_enclosed abreast.deep abreast).bind fun _ _ _ _ skipped => ?_
  refine (alike_consumeKind_dedent skipped).bind ?_
  rintro dedent _ dedent' _ ⟨isSome, looked⟩
  rw [isSome]
  cases dedent with
  | some dedent =>
    exact alike_pure ⟨rfl, looked.imp_right opens_nil⟩
  | none =>
    refine (alike_within (fun _ _ _ _ _ _ holds => ⟨holds.1, holds.2.named _ _⟩)
      (walk.arm (looked.named _ _))).bind ?_
    rintro _ _ _ _ ⟨sameFirst, read⟩
    refine (walk.arms read).bind ?_
    rintro _ _ _ _ ⟨sameOthers, more⟩
    exact alike_pure ⟨by simp only [SameBy, Arm.eraseAll, sameFirst.eq, sameOthers.eq], more⟩

theorem arm_succ {slack : Slack} {levels : Nat} {origin left right : ParserState}
    (abreast : Abreast seam (levels + 1) origin left right) :
    Alike seam false slack origin
      (fun arm after other after' => SameBy Arm.erase arm other ∧
        Abreast seam (levels + 1) origin after after')
      (Grammar.arm (n + 1)) left (Grammar.arm (n + 1)) right := by
  rw [Grammar.arm]
  refine (keeps_within walk.pattern abreast).bind ?_
  rintro _ _ _ _ ⟨samePattern, matched⟩
  refine (alike_discard_expect rfl matched).bind
    fun _ _ _ _ pointed => ?_
  refine (Alike.enclosed pointed.deep pointed (reads_within walk.armBody pointed.rebase)).bind ?_
  rintro _ _ _ _ ⟨sameBody, read⟩
  exact alike_pure ⟨by simp only [SameBy, Arm.erase, samePattern.eq, sameBody.eq], read⟩

theorem pattern_succ : Keeps seam (SameBy Pattern.erase) (Grammar.pattern (n + 1))
    (Grammar.pattern (n + 1)) := by
  intro slack levels origin left right abreast
  rw [Grammar.pattern]
  refine (alike_peek abreast).bind ?_
  rintro next _ next' _ ⟨looked, sight, _⟩
  cases sight with
  | line isEnd isLine =>
    rw [isEnd, isLine]
    exact alike_failAt looked
  | twins twins buffer buffer' =>
    have sight : Sight seam _ _ next next' := .twins twins buffer buffer'
    rw [twins.kind]
    split
    next =>
      refine (keeps_identifier looked).bind ?_
      rintro _ _ _ _ ⟨same, named⟩
      exact alike_pure ⟨by simp only [SameBy, Pattern.erase, same.eq], named⟩
    next =>
      split
      next isLiteral =>
        refine (keepsFrom_within walk.literal (sight.heads isLiteral) looked).bind ?_
        rintro _ _ _ _ ⟨same, read⟩
        exact alike_pure ⟨by simp only [SameBy, Pattern.erase, same.eq], read⟩
      next => exact alike_failAt looked

/-- A block ends a statement with what closes its level. -/
theorem block_reads : Reads seam slack (SameBy Action.erase) (seam.Stops Action.endsWithLayout)
    (within .block (Grammar.block n)) (within .block (Grammar.block n)) := by
  refine reads_within fun abreast => (walk.block Bool.noConfusion abreast).mono
    fun _ _ _ _ arrives =>
      ⟨arrives.1, arrives.2.imp_right (Exists.imp fun _ => And.imp_left Opens.stops)⟩

theorem armBody_succ : Reads seam .final (SameBy Action.erase) (seam.Stops Action.endsWithLayout)
    (Grammar.armBody (n + 1)) (Grammar.armBody (n + 1)) := by
  intro levels origin left right abreast
  rw [Grammar.armBody]
  refine (alike_peekKind abreast).bind ?_
  rintro kind _ kind' _ ⟨looked, _, first, first', sight, isKind, isKind'⟩
  rw [isKind, isKind']
  cases sight with
  | line isEnd isLine =>
    rw [isEnd, isLine]
    exact reads_within walk.expressionStatement looked
  | twins twins =>
    rw [twins.kind]
    split
    next => exact walk.block_reads looked
    next => exact reads_within walk.throwStatement looked
    next => exact reads_within walk.expressionStatement looked

/-! ## Statements -/

theorem statement_succ : Reads seam .final (SameBy Statement.erase)
    (seam.Stops Statement.endsWithLayout) (Grammar.statement (n + 1))
    (Grammar.statement (n + 1)) := by
  intro levels origin left right abreast
  rw [Grammar.statement]
  refine (alike_peek abreast).bind ?_
  rintro next _ next' _ ⟨looked, sight, _⟩
  cases sight with
  | line isEnd isLine =>
    rw [isEnd, isLine]
    exact reads_action (reads_within walk.expressionStatement) looked
  | twins twins buffer buffer' =>
    have sight : Sight seam _ _ next next' := .twins twins buffer buffer'
    rw [twins.kind]
    split
    next => exact reads_action walk.block_reads looked
    next isSemicolon =>
      refine (alike_consume_flat looked sight (by rw [isSemicolon]; rfl)).bind ?_
      rintro _ _ _ _ ⟨_, _, taken⟩
      exact alike_pure ⟨rfl, Or.inl taken⟩
    next => exact reads_action (reads_within walk.throwStatement) looked
    next =>
      split
      next => exact alike_failAt looked
      next => exact reads_action (reads_within walk.expressionStatement) looked

theorem block_succ {firm : Bool} {slack : Slack} {levels : Nat} {origin left right : ParserState}
    (certain : firm = true → left.Faces .indent) (abreast : Abreast seam levels origin left right) :
    Alike seam firm slack origin
      (Arrives seam (SameBy Action.erase) (seam.Opens fun _ => true) levels origin)
      (Grammar.block (n + 1)) left (Grammar.block (n + 1)) right := by
  rw [Grammar.block]
  refine (alike_expect Kind.noConfusion Kind.noConfusion
    (fun token isIndent => levelsAfter?_of_indent isIndent levels) certain abreast).bind ?_
  rintro first _ first' _ ⟨_, _, _, arrived⟩
  have opened := arrived.resolve_right fun crossed => Kind.noConfusion crossed.1
  have depth := opened.rises.depth
  refine (walk.statementsUntil (Or.inl ⟨rfl, by omega⟩) opened).bind ?_
  rintro statements after statements' _ ⟨same, read, token, rest, ahead, ends⟩
  have faces : after.Faces .dedent := by
    refine ⟨token, rest, ahead, ends.resolve_right fun isEnd => ?_⟩
    have noDepth := read.visitedLeft.depth_eq_zero ahead isEnd
    have := read.rises.depth
    omega
  refine (alike_expect Kind.noConfusion Kind.noConfusion
    (fun token isDedent => levelsAfter?_of_dedent isDedent levels) (fun _ => faces) read).bind ?_
  rintro last _ last' _ ⟨_, _, _, closed⟩
  exact alike_pure ⟨by simp only [SameBy, Action.erase, same.eq],
    closed.imp_right fun crossed => opens_nil crossed.2⟩

theorem expressionStatement_succ : Reads seam .final (SameBy Action.erase)
    (seam.Stops Action.endsWithLayout) (Grammar.expressionStatement (n + 1))
    (Grammar.expressionStatement (n + 1)) := by
  intro levels origin left right abreast
  rw [Grammar.expressionStatement]
  refine (reads_within (walk.expression .none 0) abreast).bind ?_
  rintro value _ value' _ ⟨same, arrived⟩
  refine (alike_terminator same arrived).map (fun last _ => by cases last <;> exact ⟨_, rfl⟩)
    fun last _ last' _ ended => ?_
  cases last <;> cases last' <;>
    exact alike_pure ⟨by simp only [SameBy, Action.erase, same.eq], ended⟩

theorem throwStatement_succ : Reads seam .final (SameBy Action.erase)
    (seam.Stops Action.endsWithLayout) (Grammar.throwStatement (n + 1))
    (Grammar.throwStatement (n + 1)) := by
  intro levels origin left right abreast
  rw [Grammar.throwStatement]
  refine (alike_expect_code rfl abreast).bind ?_
  rintro _ _ _ _ ⟨_, _, _, started⟩
  refine (reads_within (walk.expression .none 0) started).bind ?_
  rintro value _ value' _ ⟨same, arrived⟩
  refine (alike_terminator same arrived).map (fun last _ => by cases last <;> exact ⟨_, rfl⟩)
    fun last _ last' _ ended => ?_
  cases last <;> cases last' <;>
    exact alike_pure ⟨by simp only [SameBy, Action.erase, same.eq], ended⟩

theorem statementsUntil_succ {last : Kind} {firm : Bool} {slack : Slack} {levels : Nat}
    {origin left right : ParserState} (encloses : seam.Encloses last left)
    (abreast : Abreast seam levels origin left right) :
    Alike seam firm slack origin
      (fun statements after others after' => SameBy Statement.eraseAll statements others ∧
        Abreast seam levels origin after after' ∧ ∃ token rest, after.ahead = token :: rest ∧
          (token.kind = last ∨ token.kind = .endOfInput))
      (Grammar.statementsUntil (n + 1) last) left (Grammar.statementsUntil (n + 1) last) right := by
  rw [Grammar.statementsUntil]
  refine (alike_removeNewlines_enclosed encloses.deep abreast).bind fun _ _ _ _ skipped => ?_
  refine (alike_peek skipped).bind ?_
  rintro next middle next' middle' ⟨looked, sight, _⟩
  have depth : middle.depth = left.depth := looked.rises.depth.trans abreast.rises.depth.symm
  have encloses := encloses.of_depth depth
  cases sight with
  | line isEnd _ _ _ ahead _ goesOn =>
    exact absurd encloses.deep (not_deep_of_atEnd looked.visitedLeft ⟨next, ahead, isEnd⟩
      ⟨0, Rises.refl middle⟩ (by simp [goesOn]))
  | @twins others others' twins buffer buffer' =>
    obtain ⟨rest, ahead⟩ := ahead_of_buffer buffer
    dsimp only
    rw [twins.kind]
    split
    next ends => exact alike_pure ⟨rfl, looked, next, rest, ahead, by simpa using ends⟩
    next goesOn =>
      have tried : Alike seam true .none middle
          (Attempted seam (SameBy Statement.erase) middle)
          (attempt (within .statement (Grammar.statement n))) middle
          (attempt (within .statement (Grammar.statement n))) middle' :=
        alike_attempt encloses.deep (reads_within walk.statement looked.rebase)
      refine Alike.get (tried.firmly.bind fun result failed result' failed' outcome => ?_)
      cases result with
      | ok first =>
        cases result' with
        | error => contradiction
        | ok first' =>
          obtain ⟨sameFirst, read⟩ := outcome
          have encloses := encloses.of_depth (read.rises.depth.trans (Nat.add_zero _))
          refine (walk.statementsUntil encloses (looked.trans read)).bind ?_
          rintro _ _ _ _ ⟨sameOthers, more, ended⟩
          refine alike_pure ⟨?_, more, ended⟩
          simp only [SameBy, Statement.eraseAll, sameFirst.eq, sameOthers.eq]
      | error error =>
        cases result' with
        | ok => contradiction
        | error error' =>
          obtain ⟨above, failed⟩ := outcome
          have starts : Starts seam middle next.span.first next'.span.first :=
            ⟨twins.place, next, rest, ahead, rfl, fun isDedent => ?_⟩
          · have recovered : Alike seam true .none middle
                (fun _ after _ after' => Abreast seam 0 middle after after' ∨
                  Across seam 0 middle [] after after')
                (recover error middle.depth next.span.first) _
                (recover error' middle.depth next'.span.first) _ :=
              alike_recover starts looked.visitedLeft failed
            dsimp only
            rw [looked.depth]
            refine recovered.firmly.bind fun _ _ _ _ arrived => ?_
            have read := arrived.resolve_right fun across => across.not_deep encloses.deep
            have encloses := encloses.of_depth (read.rises.depth.trans (Nat.add_zero _))
            exact walk.statementsUntil encloses (looked.trans read)
          · obtain ⟨isLast, _⟩ | ⟨_, noDepth, _⟩ := encloses
            · exact goesOn (by simp [isDedent, isLast])
            · have := looked.visitedLeft.depth_pos ahead isDedent
              omega

end Walk

/-! ## All rules -/

variable {seam}

/-- A reading that runs out of fuel comes to nothing that is said of. -/
theorem alike_of_exhausted {α : Type} {firm : Bool} {slack : Slack}
    {origin left right : ParserState} {post : α → ParserState → α → ParserState → Prop}
    {parser parser' : Parser α} (empty : parser = exhausted) :
    Alike seam firm slack origin post parser left parser' right :=
  empty ▸ .exhausted

theorem walk_zero : seam.Walk 0 where
  fieldNames := fun _ => alike_of_exhausted (by rw [Grammar.fieldNames])
  expression _ _ := fun _ => alike_of_exhausted (by rw [Grammar.expression])
  climb _ := fun _ => alike_of_exhausted (by rw [Grammar.climb])
  applyInfix _ _ _ _ := fun _ => fun _ => alike_of_exhausted (by rw [Grammar.applyInfix])
  rangeEnd _ := fun _ => alike_of_exhausted (by rw [Grammar.rangeEnd])
  operand _ := fun _ => alike_of_exhausted (by rw [Grammar.operand])
  primary := fun _ => alike_of_exhausted (by rw [Grammar.primary])
  suffixes _ := fun _ => alike_of_exhausted (by rw [Grammar.suffixes])
  unwrapped _ := fun _ _ => alike_of_exhausted (by rw [Grammar.unwrapped])
  extracted _ := fun _ _ => alike_of_exhausted (by rw [Grammar.extracted])
  field _ := fun _ _ => alike_of_exhausted (by rw [Grammar.field])
  indexed _ := fun _ => alike_of_exhausted (by rw [Grammar.indexed])
  called _ := fun _ => alike_of_exhausted (by rw [Grammar.called])
  delimited _ _ := fun _ => alike_of_exhausted (by rw [Grammar.delimited])
  listed _ := fun _ => alike_of_exhausted (by rw [Grammar.listed])
  literal := fun _ _ => alike_of_exhausted (by rw [Grammar.literal])
  stringParts := fun _ _ => alike_of_exhausted (by rw [Grammar.stringParts])
  switch _ := fun _ => alike_of_exhausted (by rw [Grammar.switch])
  subjects _ := alike_of_exhausted (by rw [Grammar.subjects])
  arms _ := alike_of_exhausted (by rw [Grammar.arms])
  arm _ := alike_of_exhausted (by rw [Grammar.arm])
  pattern := fun _ => alike_of_exhausted (by rw [Grammar.pattern])
  armBody := fun _ => alike_of_exhausted (by rw [Grammar.armBody])
  statement := fun _ => alike_of_exhausted (by rw [Grammar.statement])
  block _ _ := alike_of_exhausted (by rw [Grammar.block])
  expressionStatement := fun _ => alike_of_exhausted (by rw [Grammar.expressionStatement])
  throwStatement := fun _ => alike_of_exhausted (by rw [Grammar.throwStatement])
  statementsUntil _ _ := alike_of_exhausted (by rw [Grammar.statementsUntil])

theorem walk_succ {n : Nat} (walk : seam.Walk n) : seam.Walk (n + 1) where
  fieldNames := walk.fieldNames_succ
  expression := walk.expression_succ
  climb := walk.climb_succ
  applyInfix := walk.applyInfix_succ
  rangeEnd := walk.rangeEnd_succ
  operand := walk.operand_succ
  primary := walk.primary_succ
  suffixes := walk.suffixes_succ
  unwrapped := walk.unwrapped_succ
  extracted := walk.extracted_succ
  field := walk.field_succ
  indexed := walk.indexed_succ
  called := walk.called_succ
  delimited := walk.delimited_succ
  listed := walk.listed_succ
  literal := walk.literal_succ
  stringParts := walk.stringParts_succ
  switch := walk.switch_succ
  subjects := walk.subjects_succ
  arms := walk.arms_succ
  arm := walk.arm_succ
  pattern := walk.pattern_succ
  armBody := walk.armBody_succ
  statement := walk.statement_succ
  block := walk.block_succ
  expressionStatement := walk.expressionStatement_succ
  throwStatement := walk.throwStatement_succ
  statementsUntil := walk.statementsUntil_succ

/-- Two readings by any rule of the grammar come to the same. -/
theorem walk (seam : Seam) (n : Nat) : seam.Walk n := by
  induction n with
  | zero => exact walk_zero
  | succ n inductionHypothesis => exact walk_succ inductionHypothesis

end Seam

end Offside
