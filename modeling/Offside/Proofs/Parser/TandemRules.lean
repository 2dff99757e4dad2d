import Offside.Proofs.Parser.DerivedWalk
import Offside.Proofs.Parser.SpanStarts
import Offside.Proofs.Parser.TandemRecovery
import Offside.Proofs.Syntax.Unhinted

/-!
What is said of a rule that two texts are read by in tandem, and the rules that need no fuel. Where
the names of types are known for the left text only, the right tree is the left one without hints.
-/

namespace Offside

open LexStream ParserState Offside.Parser

/-! ## Spans -/

/-- A span between two others adds nothing to what they cover. -/
theorem Span.join_join {first middle last : Span} (starts : first.first ≤ middle.first)
    (ends : middle.last ≤ last.last) : (first.join middle).join last = first.join last := by
  have sameFirst : min first.first middle.first = first.first := if_pos starts
  have sameLast : max (max first.last middle.last) last.last = max first.last last.last := by
    by_cases grows : first.last ≤ middle.last
    · have isMiddle : max first.last middle.last = middle.last := if_pos grows
      have toMiddle : max middle.last last.last = last.last := if_pos ends
      have toLast : max first.last last.last = last.last := if_pos (Position.le_trans grows ends)
      rw [isMiddle, toMiddle, toLast]
    · have isFirst : max first.last middle.last = first.last := if_neg grows
      rw [isFirst]
  simp only [Span.join, sameFirst, sameLast]

namespace Tandem

variable (pair : Tandem)

/-! ## Values -/

/-- Parts of two trees that are the same up to spans, once what hints made of the left one is
undone. -/
def Same {α β : Type} (unhint : Bool → α → α) (erase : α → β) (value other : α) : Prop :=
  erase other = erase (unhint pair.hinted value)

variable {pair} in
theorem Same.eq {α β : Type} {unhint : Bool → α → α} {erase : α → β} {value other : α}
    (same : pair.Same unhint erase value other) : erase other = erase (unhint pair.hinted value) :=
  same

/-- The parts stand at corresponding places, too. -/
structure SameAt {α β : Type} (unhint : Bool → α → α) (erase : α → β) (spanOf : α → Span)
    (value other : α) : Prop where
  same : erase other = erase (unhint pair.hinted value)
  spans : pair.spans (spanOf value) (spanOf other)

def SameNames : List (Identifier Span) → List (Identifier Span) → Prop :=
  pair.Same (fun _ names => names) (List.map Identifier.erase)

def SameName : Identifier Span → Identifier Span → Prop :=
  pair.SameAt (fun _ name => name) Identifier.erase Identifier.span

def SameExpr : Expr Span → Expr Span → Prop :=
  pair.SameAt Expr.unhint Expr.erase Expr.span

def SameExprs : List (Expr Span) → List (Expr Span) → Prop :=
  pair.Same Expr.unhintAll Expr.eraseAll

/-- Ends of ranges, either of which may be open. -/
inductive SameEnd : Option (Expr Span) → Option (Expr Span) → Prop
  | none : SameEnd none none
  | some {value other : Expr Span} (same : pair.SameExpr value other) :
    SameEnd (some value) (some other)

def SameLiteral : Literal Span → Literal Span → Prop :=
  pair.SameAt Literal.unhint Literal.erase Literal.span

def SamePattern : Pattern Span → Pattern Span → Prop :=
  pair.SameAt Pattern.unhint Pattern.erase Pattern.span

def SameArm : Arm Span → Arm Span → Prop :=
  pair.SameAt Arm.unhint Arm.erase Arm.span

def SameAction : Action Span → Action Span → Prop :=
  pair.SameAt Action.unhint Action.erase Action.span

def SameStatement : Statement Span → Statement Span → Prop :=
  pair.SameAt Statement.unhint Statement.erase Statement.span

variable {pair} {left right : ParserState}

theorem SameExpr.endsWithLayout {value other : Expr Span} (same : pair.SameExpr value other) :
    other.endsWithLayout = value.endsWithLayout := by
  rw [← other.endsWithLayout_erase, same.same, Expr.endsWithLayout_erase,
    Expr.endsWithLayout_unhint]

theorem SameExpr.isAssignable {value other : Expr Span} (same : pair.SameExpr value other) :
    other.isAssignable = value.isAssignable := by
  rw [← other.isAssignable_erase, same.same, Expr.isAssignable_erase, Expr.isAssignable_unhint]

theorem SameExprs.isEmpty {values others : List (Expr Span)} (same : pair.SameExprs values others) :
    others.isEmpty = values.isEmpty := by
  rw [← Expr.eraseAll_isEmpty, Eq.trans (congrArg List.isEmpty same) (Expr.eraseAll_isEmpty _),
    Expr.unhintAll_isEmpty]

theorem SameEnd.erase {upper upper' : Option (Expr Span)} (same : pair.SameEnd upper upper') :
    Expr.eraseEnd upper' = Expr.eraseEnd (Expr.unhintEnd pair.hinted upper) := by
  cases same with
  | none => rfl
  | some same => simp only [Expr.unhintEnd, Expr.eraseEnd, same.same]

/-- Spans that cover corresponding spans correspond. -/
theorem spans_foldl {spans others : List Span} {first first' : Span}
    (all : List.Forall₂ pair.spans spans others) (firsts : pair.spans first first') :
    pair.spans (spans.foldl Span.join first) (others.foldl Span.join first') := by
  induction all generalizing first first' with
  | nil => exact firsts
  | cons span _ inductionHypothesis => exact inductionHypothesis (pair.join firsts span)

theorem arms_same {arms others : List (Arm Span)} (all : List.Forall₂ pair.SameArm arms others) :
    Arm.eraseAll others = Arm.eraseAll (Arm.unhintAll pair.hinted arms) ∧
      List.Forall₂ pair.spans (arms.map Arm.span) (others.map Arm.span) := by
  induction all with
  | nil => exact ⟨rfl, .nil⟩
  | cons first _ inductionHypothesis =>
    obtain ⟨same, spans⟩ := inductionHypothesis
    exact ⟨by simp only [Arm.unhintAll, Arm.eraseAll, first.same, same], .cons first.spans spans⟩

theorem statements_same {statements others : List (Statement Span)}
    (all : List.Forall₂ pair.SameStatement statements others) :
    Statement.eraseAll others = Statement.eraseAll (Statement.unhintAll pair.hinted statements) ∧
      List.Forall₂ pair.spans (statements.map Statement.span) (others.map Statement.span) := by
  induction all with
  | nil => exact ⟨rfl, .nil⟩
  | cons first _ inductionHypothesis =>
    obtain ⟨same, spans⟩ := inductionHypothesis
    exact ⟨by simp only [Statement.unhintAll, Statement.eraseAll, first.same, same],
      .cons first.spans spans⟩

/-! ## Names of types -/

/-- Something that is no name, so that it names no type. -/
def Composite (value : Expr Span) : Prop :=
  ∀ settings, Grammar.knownType? settings value = none

/-- What a name of a type is followed by starts behind it. -/
def Precedes (settings : Settings) (value : Expr Span) (state : ParserState) : Prop :=
  Grammar.knownType? settings value ≠ none →
    ∀ token ∈ state.ahead, value.span.first ≤ token.span.first

theorem Composite.precedes {value : Expr Span} (composite : Composite value) (settings : Settings)
    (state : ParserState) : Precedes settings value state :=
  fun known => absurd (composite settings) known

theorem composite_applyCall (settings : Settings) (callee : Expr Span)
    (arguments : List (Expr Span)) (span : Span) :
    Composite (Grammar.applyCall settings callee arguments span) := by
  intro settings'
  unfold Grammar.applyCall
  split <;> rfl

theorem exists_identifier_of_erase {value : Expr Span} {name : Identifier Unit}
    (same : value.erase = .identifier name) :
    ∃ found, value = .identifier found ∧ found.erase = name := by
  cases value with
  | identifier found =>
    exact ⟨found, rfl, Expr.identifier.inj (by simpa only [Expr.erase] using same)⟩
  | _ => simp only [Expr.erase, reduceCtorEq] at same

/-- Only names are known to be types, on both sides: what hints made is no name. -/
theorem SameExpr.identifier_iff {value other : Expr Span} (same : pair.SameExpr value other) :
    (∃ name name', value = .identifier name ∧ other = .identifier name' ∧
        name'.erase = name.erase) ∨ Composite value ∧ Composite other := by
  have erased := same.same
  cases value with
  | identifier name =>
    have isName : other.erase = .identifier name.erase := by
      simpa only [Expr.unhint, Expr.erase] using erased
    obtain ⟨found, isName, sameName⟩ := exists_identifier_of_erase isName
    exact Or.inl ⟨name, found, rfl, isName, sameName⟩
  | _ =>
    refine Or.inr ⟨fun _ => rfl, ?_⟩
    cases other with
    | identifier name =>
      cases hinted : pair.hinted <;>
        simp only [hinted, Expr.unhint, Expr.erase, Bool.false_eq_true, if_false, if_true,
          reduceCtorEq] at erased
    | _ => exact fun _ => rfl

/-- What names are known to be types: the same for both texts, or none for the right one. -/
theorem SameExpr.knownType? {value other : Expr Span} (same : pair.SameExpr value other) :
    (Grammar.knownType? pair.left.settings value = none ∧
        Grammar.knownType? pair.right.settings other = none) ∨
      ∃ name name', value = .identifier name ∧ other = .identifier name' ∧
        name'.erase = name.erase ∧ Grammar.knownType? pair.left.settings value = some name ∧
        Grammar.knownType? pair.right.settings other =
          if pair.hinted then none else some name' := by
  rcases same.identifier_iff with ⟨name, name', rfl, rfl, sameName⟩ | ⟨composite, composite'⟩
  · have same : name'.name = name.name := (Identifier.mk.inj sameName).1
    simp only [Grammar.knownType?, pair.types, same]
    cases known : pair.left.settings.isTypeName name.name with
    | false => exact Or.inl ⟨rfl, by simp⟩
    | true =>
      refine Or.inr ⟨name, name', rfl, rfl, sameName, rfl, ?_⟩
      cases pair.hinted <;> rfl
  · exact Or.inl ⟨composite _, composite' _⟩

theorem applyCall_same {callee callee' : Expr Span} {arguments arguments' : List (Expr Span)}
    {span span' : Span} (same : pair.SameExpr callee callee')
    (sameArguments : pair.SameExprs arguments arguments') (spans : pair.spans span span') :
    pair.SameExpr (Grammar.applyCall pair.left.settings callee arguments span)
      (Grammar.applyCall pair.right.settings callee' arguments' span') := by
  refine ⟨?_, by rwa [Grammar.span_applyCall, Grammar.span_applyCall]⟩
  have sameAll : Expr.eraseAll arguments' =
    Expr.eraseAll (Expr.unhintAll pair.hinted arguments) := sameArguments
  unfold Grammar.applyCall
  rcases same.knownType? with ⟨unknown, unknown'⟩ | ⟨name, name', rfl, rfl, sameName, known, known'⟩
  · rw [unknown, unknown']
    simp only [Expr.unhint, Expr.erase, same.same, sameAll]
  · rw [known, known']
    cases hinted : pair.hinted with
    | true =>
      rw [hinted] at sameAll
      rcases arguments with _ | ⟨value, _ | ⟨more, others⟩⟩ <;>
        simp only [if_true, Expr.unhint, Expr.unhintAll, Expr.erase, Expr.eraseAll, sameName,
          sameAll]
    | false =>
      rw [hinted] at sameAll
      rcases arguments with _ | ⟨value, _ | ⟨more, others⟩⟩ <;>
        rcases arguments' with _ | ⟨value', _ | ⟨more', others'⟩⟩ <;>
        simp only [Expr.unhintAll, Expr.eraseAll, List.cons.injEq, and_true, reduceCtorEq,
          and_false] at sameAll
      all_goals
        simp only [Bool.false_eq_true, if_false, Expr.unhint, Expr.unhintAll, Expr.erase,
          Expr.eraseAll, sameName, sameAll]

/-! ## Where groups stand -/

section

variable {input : Input} {state middle after after' : ParserState} {n m : Nat}

theorem inOrder_of_visited (visited : Visited input state) : InOrder state.ahead :=
  (inOrder_ofSource input.settings input.cancelled input.source).of_suffix visited.sound.suffix

theorem past_of_visited (visited : Visited input state) :
    Past input.settings 0 state state :=
  visited.sound.settings ▸ Past.start visited.ready

/-- What a primary expression is followed by starts behind it. -/
theorem precedes_of_primary (visited : Visited input state) {value : Expr Span}
    (read : Grammar.primary n state = .ok value after) (settings : Settings) :
    Precedes settings value after := by
  have finds := (Grammar.sound input.settings n).primary (past_of_visited visited)
  rw [Finds, read] at finds
  obtain ⟨_, _, derives⟩ := finds
  have inOrder := inOrder_of_visited visited
  intro _ token member
  exact (derives.starts inOrder).2.le_of_startsIn inOrder ⟨token, member, rfl⟩

/-- What is between delimiters stands between two tokens. -/
theorem group_of_delimited (visited : Visited input state) {opening closing : Symbol}
    {values : List (Expr Span)} {span : Span}
    (read : Grammar.delimited n opening closing state = .ok (values, span) after) :
    ∃ first last rest, state.ahead = first :: rest ∧ last :: after.ahead <:+ rest ∧
      span = first.span.join last.span := by
  have finds := (Grammar.sound input.settings n).delimited opening closing (past_of_visited visited)
  rw [Finds, read] at finds
  obtain ⟨_, _, derives⟩ := finds
  have inOrder := inOrder_of_visited visited
  generalize state.ahead = before at derives inOrder
  cases derives with
  | group _ inside _ => exact ⟨_, _, _, rfl, (inside.starts inOrder.tail).1, rfl⟩

/-- A type with dimensions and values covers the same as what is called by the type with indices:
the dimensions stand between the type and the values. -/
theorem join_groups (visited : Visited input state) {value span valuesSpan : Span}
    {indices values : List (Expr Span)}
    (precedes : ∀ token ∈ state.ahead, value.first ≤ token.span.first)
    (dimensions : Grammar.delimited n .leftBracket .rightBracket state = .ok (indices, span) after)
    (called : Grammar.delimited m .leftParen .rightParen middle =
      .ok (values, valuesSpan) after')
    (visited' : Visited input middle) (ahead : middle.ahead = after.ahead) :
    (value.join span).join valuesSpan = value.join valuesSpan := by
  obtain ⟨opening, closing, rest, aheadState, suffix, rfl⟩ := group_of_delimited visited dimensions
  obtain ⟨opening', closing', rest', aheadMiddle, suffix', rfl⟩ := group_of_delimited visited' called
  have inOrder := inOrder_of_visited visited
  rw [aheadState] at inOrder precedes
  rw [← ahead, aheadMiddle] at suffix
  have isClosing : closing ∈ rest := suffix.mem List.mem_cons_self
  have behind : ∀ token ∈ [opening, closing], token.span.last ≤ opening'.span.first := by
    have ordered := (inOrder.tail.of_suffix suffix).ordered
    intro token member
    rcases List.mem_pair.mp member with rfl | rfl
    · exact (List.pairwise_cons.mp inOrder.ordered).1 _
        (suffix.mem (List.mem_cons_of_mem _ List.mem_cons_self))
    · exact (List.pairwise_cons.mp ordered).1 _ List.mem_cons_self
  have forward := (inOrder_of_visited visited').forward opening' (aheadMiddle ▸ List.mem_cons_self)
  refine Span.join_join ?_ ?_
  · exact Position.le_min (precedes opening List.mem_cons_self)
      (precedes closing (List.mem_cons_of_mem _ isClosing))
  · exact Position.le_trans (Position.max_le (behind opening (by simp)) (behind closing (by simp)))
      (Position.le_trans forward (Position.le_max_left _ _))

end

/-! ## Rules without fuel -/

section

variable {α : Type}

/-- Two readings by a rule stay as far as each other and come to corresponding values. -/
def Keeps (pair : Tandem) (same : α → α → Prop) (parser parser' : Parser α) : Prop :=
  ∀ ⦃left right⦄, pair.Beside left right →
    pair.Meet (fun value after other after' => same value other ∧ pair.Beside after after') parser
      left parser' right

/-- The same, if the next token was looked at and no text of a string comes behind it. -/
def KeepsFrom (pair : Tandem) (same : α → α → Prop) (parser parser' : Parser α) : Prop :=
  ∀ ⦃origin origin' left right first second⦄,
    pair.Looked origin origin' first second left right → first.kind.opensText = false →
      pair.Meet (fun value after other after' => same value other ∧ pair.Beside after after') parser
        left parser' right

theorem Keeps.within {nonTerminal : NonTerminal} {same : α → α → Prop} {parser parser' : Parser α}
    (keeps : pair.Keeps same parser parser') :
    pair.Keeps same (within nonTerminal parser) (within nonTerminal parser') :=
  fun _ _ beside => meet_within (fun _ _ _ _ _ _ holds => ⟨holds.1, holds.2.named _ _⟩)
    (keeps (beside.named _ _))

end

theorem keeps_identifier :
    pair.Keeps pair.SameName (within .identifier Grammar.identifier)
      (within .identifier Grammar.identifier) :=
  Keeps.within fun _ _ beside =>
    (meet_expect_code rfl beside).bind fun first _ second _ ⟨isName, counterparts, taken⟩ =>
      meet_pure ⟨⟨by simp only [Identifier.erase, counterparts.name isName], counterparts.span⟩,
        taken⟩

/-- An expression made of a part that was read before. -/
def Made (pair : Tandem) (value other : Expr Span) : Prop :=
  pair.SameExpr value other ∧ Composite value

theorem keepsFrom_updated (op : UpdateOp) {value other : Expr Span}
    (same : pair.SameExpr value other) :
    pair.KeepsFrom pair.Made (Grammar.updated op value) (Grammar.updated op other) := by
  intro _ _ _ _ _ _ looked plain
  refine (looked.takes plain).bind ?_
  rintro _ _ _ _ ⟨rfl, rfl, taken⟩
  refine meet_pure ⟨⟨⟨?_, pair.join same.spans looked.sight.counterparts.span⟩, fun _ => rfl⟩, taken⟩
  simp only [Expr.unhint, Expr.erase, same.same]

theorem keepsFrom_optionalField {value other : Expr Span} (same : pair.SameExpr value other) :
    pair.KeepsFrom pair.Made (Grammar.optionalField value) (Grammar.optionalField other) := by
  intro _ _ _ _ _ _ looked plain
  refine (looked.drops plain).bind fun _ _ _ _ taken => ?_
  refine (keeps_identifier taken).bind ?_
  rintro name _ name' _ ⟨sameName, named⟩
  refine meet_pure ⟨⟨⟨?_, pair.join same.spans sameName.spans⟩, fun _ => rfl⟩, named⟩
  simp only [Expr.unhint, Expr.erase, same.same, sameName.same]

theorem keeps_simpleLiteral :
    pair.Keeps pair.SameLiteral Grammar.simpleLiteral Grammar.simpleLiteral := by
  intro _ _ beside
  refine (meet_consume beside).bind ?_
  rintro first after second after' ⟨counterparts, trails, taken, _⟩
  rw [counterparts.kind]
  have made : ∀ {literal literal' : Literal Span}, first.kind.opensText = false →
      literal'.erase = (literal.unhint pair.hinted).erase → literal.span = first.span →
      literal'.span = second.span →
      pair.Meet (fun value after other after' => pair.SameLiteral value other ∧
        pair.Beside after after') (pure literal) after (pure literal') after' := by
    intro literal literal' plain same span span'
    refine meet_pure ⟨⟨same, ?_⟩, taken plain⟩
    rw [span, span']
    exact counterparts.span
  generalize first.kind = kind at made counterparts
  cases kind
  all_goals first
    | exact made rfl rfl rfl rfl
    | exact meet_unexpected counterparts counterparts.span trails

theorem meet_terminator {value other : Expr Span} (same : pair.SameExpr value other)
    (beside : pair.Beside left right) :
    pair.Meet (fun last after last' after' => Option.Rel pair.spans last last' ∧
        pair.Beside after after')
      (Grammar.terminator value) left (Grammar.terminator other) right := by
  refine (meet_peek beside).bind ?_
  rintro next _ next' _ looked
  rw [looked.kind, same.endsWithLayout]
  split
  next isSemicolon =>
    refine (looked.takes (by rw [isSemicolon]; rfl)).bind ?_
    rintro _ _ _ _ ⟨rfl, rfl, taken⟩
    exact meet_pure ⟨.some looked.sight.counterparts.span, taken⟩
  next isLine =>
    exact (looked.drops (by rw [isLine]; rfl)).bind fun _ _ _ _ taken => meet_pure ⟨.none, taken⟩
  next => exact meet_pure ⟨.none, looked.beside⟩
  next => exact meet_pure ⟨.none, looked.beside⟩
  next => exact meet_pure ⟨.none, looked.beside⟩
  next =>
    split
    next => exact meet_pure ⟨.none, looked.beside⟩
    next => exact looked.meet_unexpected

end Tandem

end Offside
