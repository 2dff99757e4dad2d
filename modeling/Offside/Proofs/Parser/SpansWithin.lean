import Offside.Proofs.Parser.Enclosed

/-!
What the spans of a tree cover. What is read from some tokens starts where one of them starts, ends
where one of them ends, and is over before those that are left. So the parts of a node stand one
behind the other, and the node covers them.
-/

namespace Offside

namespace Span

/-- The span covers all that another one does. -/
structure Covers (outer inner : Span) : Prop where
  first : outer.first ≤ inner.first
  last : inner.last ≤ outer.last

/-- The span is that of something read from the tokens before those that are left. -/
structure Within (before after : List Token) (span : Span) : Prop where
  taken : after <:+ before
  starts : StartsIn before span.first
  ends : ∃ token ∈ before, span.last = token.span.last
  forward : span.first ≤ span.last
  behind : ∀ token ∈ after, span.last ≤ token.span.first

end Span

/-- Spans that stand one behind the other, of parts read from the tokens before those that are
left. -/
structure Row (before after : List Token) (spans : List Span) : Prop where
  taken : after <:+ before
  within : ∀ span ∈ spans, span.Within before after
  ordered : spans.Pairwise fun earlier later => earlier.last ≤ later.first

/-- A node with its parts, by their spans. -/
structure Span.Holds (before after : List Token) (span : Span) (children : List Span) : Prop where
  within : span.Within before after
  row : Row before after children
  covers : ∀ child ∈ children, span.Covers child

variable {before middle rest after found : List Token} {span left right child : Span}
  {spans others : List Span} {token : Token}

namespace Span

theorem Covers.refl (span : Span) : span.Covers span :=
  ⟨Position.le_refl _, Position.le_refl _⟩

theorem Covers.trans (outer : left.Covers span) (inner : span.Covers right) : left.Covers right :=
  ⟨Position.le_trans outer.first inner.first, Position.le_trans inner.last outer.last⟩

theorem covers_join_left (left right : Span) : (left.join right).Covers left :=
  ⟨Position.min_le_left _ _, Position.le_max_left _ _⟩

theorem covers_join_right (left right : Span) : (left.join right).Covers right :=
  ⟨Position.min_le_right _ _, Position.le_max_right _ _⟩

/-- Spans that are joined to another one are covered, and so is that one. -/
theorem covers_foldl_join (spans : List Span) (span : Span) :
    (spans.foldl join span).Covers span ∧ ∀ part ∈ spans, (spans.foldl join span).Covers part := by
  induction spans generalizing span with
  | nil => exact ⟨.refl span, fun _ member => absurd member List.not_mem_nil⟩
  | cons first spans inductionHypothesis =>
    obtain ⟨joined, parts⟩ := inductionHypothesis (span.join first)
    exact ⟨joined.trans (covers_join_left _ _), List.forall_mem_cons.mpr
      ⟨joined.trans (covers_join_right _ _), parts⟩⟩

namespace Within

theorem of_token (inOrder : InOrder (token :: after)) : token.span.Within (token :: after) after where
  taken := List.suffix_cons _ _
  starts := .of_head _ _
  ends := ⟨token, List.mem_cons_self, rfl⟩
  forward := inOrder.forward token List.mem_cons_self
  behind := (List.pairwise_cons.mp inOrder.ordered).1

/-- More tokens in front, and fewer that are left. -/
theorem mono (within : span.Within before after) (more : before <:+ found) (fewer : rest <:+ after) :
    span.Within found rest where
  taken := (fewer.trans within.taken).trans more
  starts := within.starts.of_suffix more
  ends := within.ends.imp fun _ ⟨member, same⟩ => ⟨more.mem member, same⟩
  forward := within.forward
  behind token member := within.behind token (fewer.mem member)

theorem le_of_startsIn {place : Position} (within : span.Within before after)
    (starts : StartsIn after place) : span.last ≤ place := by
  obtain ⟨token, member, rfl⟩ := starts
  exact within.behind token member

/-- What is read later stands behind. -/
theorem le (first : left.Within before middle) (second : right.Within rest after)
    (suffix : rest <:+ middle) : left.last ≤ right.first :=
  first.le_of_startsIn (second.starts.of_suffix suffix)

theorem join (first : left.Within before middle) (second : right.Within rest after)
    (suffix : rest <:+ middle) : (left.join right).Within before after := by
  have between := first.le second suffix
  have isFirst : (left.join right).first = left.first :=
    first_join (Position.le_trans first.forward between)
  have isLast : (left.join right).last = right.last :=
    if_pos (Position.le_trans between second.forward)
  have further := suffix.trans first.taken
  refine ⟨second.taken.trans further, isFirst ▸ first.starts, ?_, ?_, isLast ▸ second.behind⟩
  · exact isLast ▸ (second.mono further List.suffix_rfl).ends
  · rw [isFirst, isLast]
    exact Position.le_trans first.forward (Position.le_trans between second.forward)

/-- What is joined to a span and starts no earlier leaves its start where it was. -/
theorem foldl_join (within : span.Within before after)
    (parts : ∀ part ∈ spans, part.Within before after ∧ span.first ≤ part.first) :
    (spans.foldl Span.join span).Within before after := by
  induction spans generalizing span with
  | nil => exact within
  | cons first spans inductionHypothesis =>
    obtain ⟨⟨within', later⟩, parts⟩ := List.forall_mem_cons.mp parts
    have isFirst : (span.join first).first = span.first := first_join later
    have joined : (span.join first).Within before after := by
      refine ⟨within.taken, isFirst ▸ within.starts, ?_, ?_, ?_⟩
      · have isLast : (span.join first).last = span.last ∨ (span.join first).last = first.last :=
          Position.max_cases _ _
        rcases isLast with isLast | isLast
        · exact isLast ▸ within.ends
        · exact isLast ▸ within'.ends
      · exact isFirst ▸ Position.le_trans within.forward (Position.le_max_left _ _)
      · exact fun token member => Position.max_le (within.behind token member)
          (within'.behind token member)
    exact inductionHypothesis joined (isFirst ▸ parts)

end Within

end Span

namespace Row

theorem nil (taken : after <:+ before) : Row before after [] :=
  ⟨taken, fun _ member => absurd member List.not_mem_nil, .nil⟩

theorem mono (row : Row before after spans) (more : before <:+ found) (fewer : rest <:+ after) :
    Row found rest spans where
  taken := (fewer.trans row.taken).trans more
  within span member := (row.within span member).mono more fewer
  ordered := row.ordered

theorem append (row : Row before middle spans) (later : Row rest after others)
    (suffix : rest <:+ middle) : Row before after (spans ++ others) where
  taken := (later.taken.trans suffix).trans row.taken
  within := List.forall_mem_append.mpr
    ⟨(row.mono List.suffix_rfl (later.taken.trans suffix)).within,
      (later.mono (suffix.trans row.taken) List.suffix_rfl).within⟩
  ordered := List.pairwise_append.mpr ⟨row.ordered, later.ordered, fun _ inSpans _ inOthers =>
    (row.within _ inSpans).le (later.within _ inOthers) suffix⟩

theorem single (within : span.Within before after) : Row before after [span] :=
  ⟨within.taken, List.forall_mem_singleton.mpr within, List.pairwise_singleton _ _⟩

theorem cons (within : span.Within before middle) (later : Row rest after others)
    (suffix : rest <:+ middle) : Row before after (span :: others) :=
  (single within).append later suffix

/-- What is in a row ends before a part that is read behind it. -/
theorem upTo (row : Row before middle spans) (within : span.Within rest after)
    (suffix : rest <:+ middle) : ∀ part ∈ spans, part.last ≤ span.last :=
  fun _ member =>
    Position.le_trans ((row.within _ member).le within suffix) within.forward

end Row

namespace Span.Holds

theorem leaf (within : span.Within before after) : span.Holds before after [] :=
  ⟨within, .nil within.taken, fun _ member => absurd member List.not_mem_nil⟩

theorem single (within : span.Within before after) : span.Holds before after [span] :=
  ⟨within, .single within, List.forall_mem_singleton.mpr (.refl span)⟩

theorem mono (holds : span.Holds before after spans) (more : before <:+ found)
    (fewer : rest <:+ after) : span.Holds found rest spans :=
  ⟨holds.within.mono more fewer, holds.row.mono more fewer, holds.covers⟩

theorem tail (holds : span.Holds before after (child :: spans)) : span.Holds before after spans where
  within := holds.within
  row := ⟨holds.row.taken, fun _ member => holds.row.within _ (List.mem_cons_of_mem _ member),
    (List.pairwise_cons.mp holds.row.ordered).2⟩
  covers _ member := holds.covers _ (List.mem_cons_of_mem _ member)

/-- A node that reaches from one part to another, with all parts in between. -/
theorem join (first : left.Within before middle) (last : right.Within rest after)
    (row : Row rest after spans) (suffix : rest <:+ middle)
    (upTo : ∀ part ∈ spans, part.last ≤ right.last) :
    (left.join right).Holds before after (left :: spans) where
  within := first.join last suffix
  row := .cons first row suffix
  covers := by
    refine List.forall_mem_cons.mpr ⟨covers_join_left _ _, fun part member => ⟨?_, ?_⟩⟩
    · have between := first.le (row.within part member) suffix
      exact Position.le_trans (Position.min_le_left _ _)
        (Position.le_trans first.forward between)
    · exact Position.le_trans (upTo part member) (Position.le_max_right _ _)

/-- A node with nothing between its ends. -/
theorem join_leaf (first : left.Within before middle) (last : right.Within rest after)
    (suffix : rest <:+ middle) : (left.join right).Holds before after [left] :=
  join first last (.nil last.taken) suffix fun _ member => absurd member List.not_mem_nil

/-- A node of two parts. -/
theorem join_last (first : left.Within before middle) (last : right.Within rest after)
    (suffix : rest <:+ middle) : (left.join right).Holds before after [left, right] :=
  join first last (.single last) suffix (List.forall_mem_singleton.mpr (Position.le_refl _))

/-- A node that goes on with a node whose parts are its own. -/
theorem join_node (first : left.Within before middle) (last : right.Holds rest after spans)
    (suffix : rest <:+ middle) : (left.join right).Holds before after (left :: spans) :=
  join first last.within last.row suffix fun part member => (last.covers part member).last

/-- A node between two others that are none of its parts. -/
theorem between (first : left.Within before middle) (row : Row middle rest spans)
    (last : right.Within rest after) : (left.join right).Holds before after spans :=
  (join first (last.mono row.taken List.suffix_rfl) (row.mono List.suffix_rfl last.taken)
    List.suffix_rfl (row.upTo last List.suffix_rfl)).tail

/-- A node that is joined with more parts, which are read behind it. -/
theorem foldl_join (holds : span.Holds before middle spans) (later : Row rest after others)
    (suffix : rest <:+ middle) : (others.foldl Span.join span).Holds before after (spans ++ others) where
  within := by
    have row := later.mono (suffix.trans holds.within.taken) List.suffix_rfl
    refine (holds.within.mono List.suffix_rfl (later.taken.trans suffix)).foldl_join
      fun part member => ⟨row.within part member, ?_⟩
    exact Position.le_trans holds.within.forward
      (holds.within.le (later.within part member) suffix)
  row := holds.row.append later suffix
  covers := by
    obtain ⟨node, parts⟩ := covers_foldl_join others span
    exact List.forall_mem_append.mpr ⟨fun part member => node.trans (holds.covers part member), parts⟩

/-- A node that is joined with its own parts. -/
theorem foldl_join_self (holds : span.Holds before after spans) :
    (spans.foldl Span.join span).Holds before after spans where
  within := holds.within.foldl_join fun part member =>
    ⟨holds.row.within part member, (holds.covers part member).first⟩
  row := holds.row
  covers := (covers_foldl_join spans span).2

end Span.Holds

/-! ## The parts of nodes -/

section Children

variable {α : Type}

/-- What an expression is annotated with in its parts, in source order. -/
def Expr.children : Expr α → List α
  | .literal value => [value.span]
  | .identifier name => [name.span]
  | .assignment _ target value _ => [target.span, value.span]
  | .binary _ left right _ => [left.span, right.span]
  | .unary _ operand _ | .update _ _ operand _ => [operand.span]
  | .cast type value _ => [type.span, value.span]
  | .field object name _ | .optionalField object name _ => [object.span, name.span]
  | .fieldGroup object names _ => object.span :: names.map Identifier.span
  | .unwrap value _ => [value.span]
  | .unwrapWith value arguments _ | .extraction value arguments _ =>
    value.span :: arguments.map Expr.span
  | .element array indices _ => array.span :: indices.map Expr.span
  | .newArray type dimensions values _ =>
    type.span :: (dimensions.map Expr.span ++ values.map Expr.span)
  | .initializer type values _ => type.span :: values.map Expr.span
  | .call callee arguments _ => callee.span :: arguments.map Expr.span
  | .range lower upper _ => lower.toList.map Expr.span ++ upper.toList.map Expr.span
  | .switch subjects arms _ => subjects.map Expr.span ++ arms.map Arm.span

def Literal.children (literal : Literal α) : List α :=
  literal.interpolated.map Expr.span

def Arm.children (arm : Arm α) : List α :=
  [arm.pattern.span, arm.body.span]

def Pattern.children (pattern : Pattern α) : List α :=
  [pattern.span]

def Action.children : Action α → List α
  | .expression value _ | .throw value _ => [value.span]
  | .block statements _ => statements.map Statement.span

def Statement.children : Statement α → List α
  | .action body => body.children
  | .empty _ => []

end Children

/-- How the spans of a phrase stand that is read from the tokens before those that are left. -/
def Phrase.Holds (before after : List Token) : Phrase → Prop
  | .identifier name => name.span.Holds before after []
  | .names others => Row before after (others.map Identifier.span)
  | .literal value => value.span.Holds before after value.children
  | .parts values last => ∃ closing, last = closing.span ∧ closing :: after <:+ before ∧
      Row before (closing :: after) ((values.filterMap StringPart.value?).map Expr.span)
  | .primary value | .expr value => value.span.Holds before after value.children
  | .upper value => Row before after (value.toList.map Expr.span)
  | .group _ _ values span => span.Holds before after (values.map Expr.span)
  | .listed values | .subjects values => Row before after (values.map Expr.span)
  | .armBlock values | .arms values => Row before after (values.map Arm.span)
  | .arm value => value.span.Holds before after value.children
  | .pattern value => value.span.Holds before after value.children
  | .action value => value.span.Holds before after value.children
  | .statement value => value.span.Holds before after value.children
  | .statements values => Row before after (values.map Statement.span)

theorem Token.children_of_literal? {literal : Literal Span}
    (isLiteral : token.literal? = some literal) : literal.children = [] := by
  obtain ⟨kind, text, span⟩ := token
  cases kind
  all_goals first | contradiction | obtain rfl := Option.some.inj isLiteral
  all_goals rfl

theorem Grammar.holds_applyCall {settings : Settings} {callee : Expr Span}
    {arguments : List (Expr Span)}
    (holds : span.Holds before after (callee.span :: arguments.map Expr.span)) :
    (applyCall settings callee arguments span).span.Holds before after
      (applyCall settings callee arguments span).children := by
  obtain ⟨type, value, rfl, rfl, isCast⟩ | ⟨type, rfl, isInitializer⟩ | isCall :=
    applyCall_cases settings callee arguments span
  · rw [isCast]
    exact holds
  · rw [isInitializer]
    exact holds
  · rw [isCall]
    exact holds

variable {settings : Settings} {failed : Nat} {phrase : Phrase}

theorem Derives.holds (derives : Derives settings failed before phrase after)
    (inOrder : InOrder before) : phrase.Holds before after := by
  induction derives with
  | identifier => exact Span.Holds.leaf (.of_token inOrder)
  | noNames => exact Row.nil List.suffix_rfl
  | noNamesAfter => exact Row.nil (List.suffix_cons _ _)
  | names _ read _ first others =>
    have name := first inOrder.tail
    have row := others (inOrder.tail.of_suffix read.suffix)
    exact (Row.cons name.within row List.suffix_rfl).mono (List.suffix_cons _ _) List.suffix_rfl
  | @simpleLiteral token after literal isLiteral =>
    rw [Phrase.Holds, Token.children_of_literal? isLiteral, (Token.span_of_literal? isLiteral).1]
    exact .leaf (.of_token inOrder)
  | string _ _ parts =>
    obtain ⟨closing, rfl, suffix, row⟩ := parts inOrder.tail
    exact Span.Holds.between (.of_token inOrder) row (.of_token (inOrder.tail.of_suffix suffix))
  | stringEnd => exact ⟨_, rfl, List.suffix_rfl, .nil List.suffix_rfl⟩
  | fragment _ _ parts =>
    obtain ⟨closing, last, suffix, row⟩ := parts inOrder.tail
    exact ⟨closing, last, suffix.trans (List.suffix_cons _ _),
      row.mono (List.suffix_cons _ _) List.suffix_rfl⟩
  | interpolation _ read _ others value parts =>
    have first := value inOrder.tail
    obtain ⟨closing, last, suffix, row⟩ := parts (inOrder.tail.of_suffix read.suffix).tail
    have both := Row.cons first.within row (List.suffix_cons _ _)
    exact ⟨closing, last, both.taken.trans (List.suffix_cons _ _),
      both.mono (List.suffix_cons _ _) List.suffix_rfl⟩
  | name _ name => exact Span.Holds.single (name inOrder).within
  | literal _ value => exact Span.Holds.single (value inOrder).within
  | parenthesized _ _ _ value =>
    exact Span.Holds.mono (value inOrder.tail) (List.suffix_cons _ _) (List.suffix_cons _ _)
  | updated read _ value =>
    have operand := value inOrder
    exact Span.Holds.join_leaf operand.within (.of_token (inOrder.of_suffix read.suffix))
      List.suffix_rfl
  | unwrap read _ value =>
    have operand := value inOrder
    exact Span.Holds.join_leaf operand.within (.of_token (inOrder.of_suffix read.suffix))
      List.suffix_rfl
  | unwrapWith read _ _ value group =>
    have operand := value inOrder
    exact Span.Holds.join_node operand.within (group (inOrder.of_suffix read.suffix).tail)
      (List.suffix_cons _ _)
  | extraction read _ _ value group =>
    have operand := value inOrder
    exact Span.Holds.join_node operand.within (group (inOrder.of_suffix read.suffix).tail)
      (List.suffix_cons _ _)
  | field read _ _ value name =>
    have object := value inOrder
    have named := name (inOrder.of_suffix read.suffix).tail
    exact Span.Holds.join_last object.within named.within (List.suffix_cons _ _)
  | fieldGroup read _ _ first others _ value name names =>
    have object := value inOrder
    have inside := (inOrder.of_suffix read.suffix).tail.tail
    have named := name inside
    have behind := inside.of_suffix first.suffix
    have row := Row.cons named.within (names behind) List.suffix_rfl
    have closing := Span.Within.of_token (behind.of_suffix others.suffix)
    exact Span.Holds.join object.within (closing.mono row.taken List.suffix_rfl)
      (row.mono List.suffix_rfl (List.suffix_cons _ _))
      ((List.suffix_cons _ _).trans (List.suffix_cons _ _)) (row.upTo closing List.suffix_rfl)
  | optionalField read _ _ value name =>
    have object := value inOrder
    have named := name (inOrder.of_suffix read.suffix).tail
    exact Span.Holds.join_last object.within named.within (List.suffix_cons _ _)
  | element read _ _ value group =>
    have array := value inOrder
    exact Span.Holds.join_node array.within (group (inOrder.of_suffix read.suffix)) List.suffix_rfl
  | newArray read isType group _ _ value dimensions values =>
    have type := (value inOrder).within
    rw [← Grammar.span_of_knownType? isType] at type
    have behind := inOrder.of_suffix read.suffix
    have sizes := (dimensions behind).row
    have called := values (behind.of_suffix group.suffix)
    exact Span.Holds.join type (called.within.mono sizes.taken List.suffix_rfl)
      (sizes.append called.row List.suffix_rfl) List.suffix_rfl
      (List.forall_mem_append.mpr ⟨sizes.upTo called.within List.suffix_rfl,
        fun part member => (called.covers part member).last⟩)
  | called read _ callee group =>
    have first := callee inOrder
    have arguments := group (inOrder.of_suffix read.suffix)
    exact Grammar.holds_applyCall (Span.Holds.join_node first.within arguments List.suffix_rfl)
  | primary _ value => exact value inOrder
  | @prefixed _ _ _ op _ _ _ _ operand =>
    have inner := operand inOrder.tail
    have node := (Span.Holds.join_last (.of_token inOrder) inner.within List.suffix_rfl).tail
    cases op <;> exact node
  | assignment left _ _ _ _ target value =>
    have first := target inOrder
    have second := value (inOrder.of_suffix left.suffix).tail
    exact Span.Holds.join_last first.within second.within (List.suffix_cons _ _)
  | binary left _ _ _ first second =>
    have first := first inOrder
    have second := second (inOrder.of_suffix left.suffix).tail
    exact Span.Holds.join_last first.within second.within (List.suffix_cons _ _)
  | openEnd => exact Row.nil List.suffix_rfl
  | closedEnd _ value =>
    have inner := value inOrder
    exact Row.single inner.within
  | @rangeFrom _ _ _ _ _ upper _ _ left _ _ right lower ending =>
    have first := lower inOrder
    have behind := inOrder.of_suffix left.suffix
    have last := ending behind.tail
    cases upper with
    | none =>
      have token := (Span.Within.of_token behind).mono List.suffix_rfl right.suffix
      exact Span.Holds.join_leaf first.within token List.suffix_rfl
    | some upper =>
      exact Span.Holds.join_last first.within (last.within _ List.mem_cons_self)
        (List.suffix_cons _ _)
  | @rangeTo token _ _ upper _ _ right ending =>
    have first := Span.Within.of_token inOrder
    have last := ending inOrder.tail
    cases upper with
    | none => exact Span.Holds.leaf (first.mono List.suffix_rfl right.suffix)
    | some upper =>
      have both := Span.Holds.join_last first (last.within _ List.mem_cons_self) List.suffix_rfl
      exact both.tail
  | switch _ subject more _ block first others arms =>
    have inside := inOrder.tail
    have behind := inside.of_suffix subject.suffix
    have subjects := Row.cons (first inside).within (others behind) List.suffix_rfl
    have colon := behind.of_suffix more.suffix
    have head := Span.Holds.between (.of_token inOrder) subjects (.of_token colon)
    exact head.foldl_join (arms colon.tail) List.suffix_rfl
  | group _ inside _ values =>
    have row := values inOrder.tail
    exact Span.Holds.between (.of_token inOrder) row
      (.of_token (inOrder.tail.of_suffix inside.suffix))
  | noneListed => exact Row.nil List.suffix_rfl
  | lastListed _ value =>
    have inner := value inOrder
    exact Row.single inner.within
  | listed read _ _ value others =>
    have inner := value inOrder
    exact Row.cons inner.within (others (inOrder.of_suffix read.suffix).tail) (List.suffix_cons _ _)
  | noSubjects => exact Row.nil List.suffix_rfl
  | subjects _ read _ value others =>
    have inner := value inOrder.tail
    have row := Row.cons inner.within (others (inOrder.tail.of_suffix read.suffix)) List.suffix_rfl
    exact row.mono (List.suffix_cons _ _) List.suffix_rfl
  | noArmsInLine => exact Row.nil (List.suffix_cons _ _)
  | noArms => exact Row.nil List.suffix_rfl
  | armBlock _ _ arms => exact Row.mono (arms inOrder.tail) (List.suffix_cons _ _) List.suffix_rfl
  | armsEnd => exact Row.nil (List.suffix_cons _ _)
  | armLine _ _ arms => exact Row.mono (arms inOrder.tail) (List.suffix_cons _ _) List.suffix_rfl
  | arms first _ arm others =>
    have inner := arm inOrder
    exact Row.cons inner.within (others (inOrder.of_suffix first.suffix)) List.suffix_rfl
  | arm matched _ _ pattern body =>
    have first := pattern inOrder
    have second := body (inOrder.of_suffix matched.suffix).tail
    exact Span.Holds.join_last first.within second.within (List.suffix_cons _ _)
  | binding _ name => exact Span.Holds.single (name inOrder).within
  | literalPattern _ value => exact Span.Holds.single (value inOrder).within
  | block _ inside _ statements =>
    have row := statements inOrder.tail
    have behind := inOrder.tail.of_suffix inside.suffix
    exact (Span.Holds.between (.of_token inOrder) row (.of_token behind)).foldl_join_self
  | expression read ends value =>
    have inner := value inOrder
    have behind := inOrder.of_suffix read.suffix
    cases ends with
    | semicolon => exact Span.Holds.join_leaf inner.within (.of_token behind) List.suffix_rfl
    | line => exact Span.Holds.single (inner.within.mono List.suffix_rfl (List.suffix_cons _ _))
    | block => exact Span.Holds.single inner.within
    | layout => exact Span.Holds.single inner.within
  | throw _ read ends value =>
    have keyword := Span.Within.of_token inOrder
    have inner := value inOrder.tail
    have behind := inOrder.tail.of_suffix read.suffix
    have node := (Span.Holds.join_last keyword inner.within List.suffix_rfl).tail
    cases ends with
    | semicolon => exact Span.Holds.between keyword (.single inner.within) (.of_token behind)
    | line => exact node.mono List.suffix_rfl (List.suffix_cons _ _)
    | block => exact node
    | layout => exact node
  | empty => exact Span.Holds.leaf (.of_token inOrder)
  | statement _ action => exact action inOrder
  | noStatements => exact Row.nil List.suffix_rfl
  | line _ _ statements => exact Row.mono (statements inOrder.tail) (List.suffix_cons _ _) List.suffix_rfl
  | statements first _ statement others =>
    have inner := statement inOrder
    exact Row.cons inner.within (others (inOrder.of_suffix first.suffix)) List.suffix_rfl
  | skipped _ _ others =>
    exact Row.mono (others (inOrder.of_suffix (List.suffix_append _ _))) (List.suffix_append _ _)
      List.suffix_rfl

end Offside
