import Offside.Proofs.Lexer.SourceOrder
import Offside.Proofs.Parser.Derivation

/-!
Where the parts of a tree start. What is read from some tokens starts with the first of them,
except that opening parentheses leave no trace.
-/

namespace Offside

namespace Position

variable {position first second : Position}

theorem le_min (left : position ≤ first) (right : position ≤ second) :
    position ≤ min first second := by
  change position ≤ if first ≤ second then first else second
  split
  next => exact left
  next => exact right

theorem max_le (left : first ≤ position) (right : second ≤ position) :
    max first second ≤ position := by
  change (if first ≤ second then second else first) ≤ position
  split
  next => exact right
  next => exact left

theorem le_max_left (first second : Position) : first ≤ max first second := by
  change first ≤ if first ≤ second then second else first
  split
  next less => exact less
  next => exact le_refl first

theorem le_max_right (first second : Position) : second ≤ max first second := by
  change second ≤ if first ≤ second then second else first
  split
  next => exact le_refl second
  next more => exact (le_total first second).resolve_left more

theorem min_le_left (first second : Position) : min first second ≤ first := by
  change (if first ≤ second then first else second) ≤ first
  split
  next => exact le_refl first
  next more => exact (le_total first second).resolve_left more

theorem min_le_right (first second : Position) : min first second ≤ second := by
  change (if first ≤ second then first else second) ≤ second
  split
  next less => exact less
  next => exact le_refl second

/-- The later of two positions is one of them. -/
theorem max_cases (first second : Position) :
    max first second = first ∨ max first second = second := by
  by_cases less : first ≤ second
  · exact Or.inr (if_pos less)
  · exact Or.inl (if_neg less)

end Position

namespace Span

theorem first_join {left right : Span} (inOrder : left.first ≤ right.first) :
    (left.join right).first = left.first :=
  if_pos inOrder

/-- A span that only grows by what starts later starts where it did. -/
theorem first_foldl_join {spans : List Span} {span : Span}
    (inOrder : ∀ later ∈ spans, span.first ≤ later.first) :
    (spans.foldl Span.join span).first = span.first := by
  induction spans generalizing span with
  | nil => rfl
  | cons later spans inductionHypothesis =>
    rw [List.forall_mem_cons] at inOrder
    have first := first_join inOrder.1
    rw [List.foldl_cons, inductionHypothesis (first.symm ▸ inOrder.2), first]

end Span

/-- The place is where some of the tokens starts. -/
def StartsIn (before : List Token) (place : Position) : Prop :=
  ∃ token ∈ before, place = token.span.first

/-- The place is where the first of some tokens starts that is no opening parenthesis. That token
is taken. -/
def Begins (before after : List Token) (place : Position) : Prop :=
  ∃ parens token rest, before = parens ++ token :: rest ∧ after <:+ rest ∧
    (∀ paren ∈ parens, paren.kind = .symbol .leftParen) ∧ token.kind ≠ .symbol .leftParen ∧
    place = token.span.first

variable {before middle after : List Token} {place : Position} {token : Token}

namespace Begins

theorem startsIn (begins : Begins before after place) : StartsIn before place := by
  obtain ⟨parens, token, rest, rfl, _, _, _, starts⟩ := begins
  exact ⟨token, List.mem_append_right _ List.mem_cons_self, starts⟩

theorem suffix (begins : Begins before after place) : after <:+ before := by
  obtain ⟨parens, token, rest, rfl, suffix, _⟩ := begins
  exact suffix.trans ((List.suffix_cons _ _).trans (List.suffix_append _ _))

theorem head (notParen : token.kind ≠ .symbol .leftParen) (suffix : after <:+ middle) :
    Begins (token :: middle) after token.span.first :=
  ⟨[], token, middle, rfl, suffix, fun _ member => absurd member List.not_mem_nil, notParen, rfl⟩

theorem of_suffix (begins : Begins before middle place) (suffix : after <:+ middle) :
    Begins before after place := by
  obtain ⟨parens, token, rest, whole, taken, others⟩ := begins
  exact ⟨parens, token, rest, whole, suffix.trans taken, others⟩

theorem paren (begins : Begins before after place) (isParen : token.kind = .symbol .leftParen) :
    Begins (token :: before) after place := by
  obtain ⟨parens, first, rest, rfl, taken, areParens, others⟩ := begins
  exact ⟨token :: parens, first, rest, rfl, taken, List.forall_mem_cons.mpr ⟨isParen, areParens⟩,
    others⟩

theorem taken (begins : Begins before after place) :
    after <:+ before ∧ Begins before after place :=
  ⟨begins.suffix, begins⟩

/-- What is behind starts later. -/
theorem le_of_startsIn {later : Position} (begins : Begins before after place)
    (inOrder : InOrder before) (starts : StartsIn after later) : place ≤ later := by
  obtain ⟨parens, first, rest, rfl, taken, _, _, rfl⟩ := begins
  obtain ⟨token, member, rfl⟩ := starts
  exact (inOrder.of_suffix (List.suffix_append _ _)).first_le token (taken.mem member)

end Begins

theorem StartsIn.of_suffix (starts : StartsIn after place) (suffix : after <:+ before) :
    StartsIn before place := by
  obtain ⟨token, member, start⟩ := starts
  exact ⟨token, suffix.mem member, start⟩

theorem StartsIn.of_head (token : Token) (rest : List Token) :
    StartsIn (token :: rest) token.span.first :=
  ⟨token, List.mem_cons_self, rfl⟩

/-- Where the parts of a phrase start that is read from some tokens. -/
def Phrase.Starts (before after : List Token) : Phrase → Prop
  | .identifier name => Begins before after name.span.first
  | .literal value => Begins before after value.span.first
  | .parts _ last => StartsIn before last.first
  | .primary value | .expr value => Begins before after value.span.first
  | .upper value => ∀ upper ∈ value, StartsIn before upper.span.first
  | .group _ _ _ span => StartsIn before span.first
  | .armBlock values | .arms values => ∀ value ∈ values, StartsIn before value.span.first
  | .arm value => Begins before after value.span.first
  | .pattern value => Begins before after value.span.first
  | .action value => Begins before after value.span.first
  | .statement value => Begins before after value.span.first
  | .statements values => ∀ value ∈ values, StartsIn before value.span.first
  | .names _ | .listed _ | .subjects _ => True

theorem Token.span_of_literal? {literal : Literal Span} (isLiteral : token.literal? = some literal) :
    literal.span = token.span ∧ token.kind ≠ .symbol .leftParen := by
  obtain ⟨kind, text, span⟩ := token
  cases kind
  all_goals first | contradiction | obtain rfl := Option.some.inj isLiteral
  all_goals exact ⟨rfl, Kind.noConfusion⟩

theorem Ends.suffix {value : Expr Span} {last : Option Span} (ends : Ends value before last after) :
    after <:+ before := by
  cases ends with
  | semicolon => exact List.suffix_cons _ _
  | line => exact List.suffix_cons _ _
  | block => exact List.suffix_rfl
  | layout => exact List.suffix_rfl

theorem Ends.startsIn {value : Expr Span} {last : Span} (ends : Ends value before (some last) after) :
    StartsIn before last.first := by
  cases ends with
  | semicolon => exact .of_head _ _

theorem Grammar.span_applyCall (settings : Settings) (callee : Expr Span)
    (arguments : List (Expr Span)) (span : Span) :
    (Grammar.applyCall settings callee arguments span).span = span := by
  unfold Grammar.applyCall
  split <;> rfl

theorem Grammar.span_applyPrefix (op : PrefixOp) (operand : Expr Span) (span : Span) :
    (Grammar.applyPrefix op operand span).span = span := by
  cases op <;> rfl

theorem Grammar.span_of_knownType? {settings : Settings} {value : Expr Span}
    {type : Identifier Span} (isType : Grammar.knownType? settings value = some type) :
    type.span = value.span := by
  unfold Grammar.knownType? at isType
  split at isType
  next name =>
    split at isType
    next => rw [← Option.some.inj isType, Expr.span]
    next => contradiction
  next => contradiction

theorem Kind.ne_paren_of_prefix {kind : Kind} {op : PrefixOp}
    (isPrefix : PrefixOp.ofKind? kind = some op) : kind ≠ .symbol .leftParen := by
  rintro rfl
  contradiction

/-- An expression that goes on with something behind it starts where it did. -/
theorem Begins.join {value later : Span} (begins : Begins before middle value.first)
    (inOrder : InOrder before) (suffix : after <:+ middle) (starts : StartsIn middle later.first) :
    Begins before after (value.join later).first := by
  rw [Span.first_join (begins.le_of_startsIn inOrder starts)]
  exact begins.of_suffix suffix

theorem Begins.join_behind {value later : Span} (begins : Begins before (token :: middle) value.first)
    (inOrder : InOrder before) (suffix : after <:+ middle) (starts : StartsIn middle later.first) :
    Begins before after (value.join later).first :=
  begins.join inOrder (suffix.trans (List.suffix_cons _ _))
    (starts.of_suffix (List.suffix_cons _ _))

/-- What starts with a token starts there, also if it goes on with something behind it. -/
theorem Begins.head_join {later : Span} (notParen : token.kind ≠ .symbol .leftParen)
    (inOrder : InOrder (token :: before)) (suffix : after <:+ before)
    (starts : StartsIn before later.first) :
    Begins (token :: before) after (token.span.join later).first :=
  (Begins.head notParen List.suffix_rfl).join inOrder suffix starts

/-- Parts that start behind do not move the start. -/
theorem Begins.foldl_join {α : Type} {span : Span} {parts : List α} {spanOf : α → Span}
    (begins : Begins before middle span.first) (inOrder : InOrder before)
    (suffix : after <:+ middle) (starts : ∀ part ∈ parts, StartsIn middle (spanOf part).first) :
    Begins before after ((parts.map spanOf).foldl Span.join span).first := by
  rw [Span.first_foldl_join]
  · exact begins.of_suffix suffix
  · intro later member
    obtain ⟨part, isPart, rfl⟩ := List.mem_map.mp member
    exact begins.le_of_startsIn inOrder (starts part isPart)

variable {settings : Settings} {phrase : Phrase} {failed : Nat}

theorem Derives.starts (derives : Derives settings failed before phrase after)
    (inOrder : InOrder before) : after <:+ before ∧ phrase.Starts before after := by
  induction derives with
  | identifier isName =>
    exact ⟨List.suffix_cons _ _, Begins.head (by simp [isName]) List.suffix_rfl⟩
  | noNames => exact ⟨List.suffix_rfl, True.intro⟩
  | noNamesAfter => exact ⟨List.suffix_cons _ _, True.intro⟩
  | names isComma _ _ first others =>
    obtain ⟨taken, _⟩ := first inOrder.tail
    obtain ⟨more, _⟩ := others (inOrder.tail.of_suffix taken)
    exact ⟨(more.trans taken).trans (List.suffix_cons _ _), True.intro⟩
  | simpleLiteral isLiteral =>
    obtain ⟨span, notParen⟩ := Token.span_of_literal? isLiteral
    refine ⟨List.suffix_cons _ _, ?_⟩
    rw [Phrase.Starts, span]
    exact Begins.head notParen List.suffix_rfl
  | string isStart _ inside =>
    obtain ⟨taken, starts⟩ := inside inOrder.tail
    exact ⟨taken.trans (List.suffix_cons _ _),
      Begins.head_join (by simp [isStart]) inOrder taken starts⟩
  | stringEnd => exact ⟨List.suffix_cons _ _, StartsIn.of_head _ _⟩
  | fragment _ _ others =>
    obtain ⟨taken, starts⟩ := others inOrder.tail
    exact ⟨taken.trans (List.suffix_cons _ _), StartsIn.of_suffix starts (List.suffix_cons _ _)⟩
  | interpolation _ _ _ _ inside others =>
    obtain ⟨taken, _⟩ := inside inOrder.tail
    have further := (List.suffix_cons _ _).trans taken
    obtain ⟨more, starts⟩ := others (inOrder.tail.of_suffix further)
    exact ⟨(more.trans further).trans (List.suffix_cons _ _),
      (StartsIn.of_suffix starts further).of_suffix (List.suffix_cons _ _)⟩
  | name _ read => exact read inOrder
  | literal _ read => exact read inOrder
  | parenthesized opens _ _ inside =>
    obtain ⟨taken, begins⟩ := inside inOrder.tail
    exact ⟨((List.suffix_cons _ _).trans taken).trans (List.suffix_cons _ _),
      (Begins.of_suffix begins (List.suffix_cons _ _)).paren opens⟩
  | updated _ _ read =>
    obtain ⟨taken, begins⟩ := read inOrder
    exact ⟨(List.suffix_cons _ _).trans taken,
      Begins.join begins inOrder (List.suffix_cons _ _) (.of_head _ _)⟩
  | unwrap _ _ read =>
    obtain ⟨taken, begins⟩ := read inOrder
    exact ⟨(List.suffix_cons _ _).trans taken,
      Begins.join begins inOrder (List.suffix_cons _ _) (.of_head _ _)⟩
  | unwrapWith _ _ _ read group =>
    obtain ⟨taken, begins⟩ := read inOrder
    obtain ⟨more, starts⟩ := group (inOrder.of_suffix taken).tail
    exact (Begins.join_behind begins inOrder more starts).taken
  | extraction _ _ _ read group =>
    obtain ⟨taken, begins⟩ := read inOrder
    obtain ⟨more, starts⟩ := group (inOrder.of_suffix taken).tail
    exact (Begins.join_behind begins inOrder more starts).taken
  | field _ _ _ read named =>
    obtain ⟨taken, begins⟩ := read inOrder
    obtain ⟨more, starts⟩ := named (inOrder.of_suffix taken).tail
    exact (Begins.join_behind begins inOrder more starts.startsIn).taken
  | fieldGroup _ _ _ _ _ _ read first others =>
    obtain ⟨taken, begins⟩ := read inOrder
    obtain ⟨more, _⟩ := first (inOrder.of_suffix taken).tail.tail
    obtain ⟨most, _⟩ := others ((inOrder.of_suffix taken).tail.tail.of_suffix more)
    have closing := most.trans more
    exact (Begins.join_behind begins inOrder
      (((List.suffix_cons _ _).trans closing).trans (List.suffix_cons _ _))
      ((StartsIn.of_head _ _).of_suffix (closing.trans (List.suffix_cons _ _)))).taken
  | optionalField _ _ _ read named =>
    obtain ⟨taken, begins⟩ := read inOrder
    obtain ⟨more, starts⟩ := named (inOrder.of_suffix taken).tail
    exact (Begins.join_behind begins inOrder more starts.startsIn).taken
  | element _ _ _ read group =>
    obtain ⟨taken, begins⟩ := read inOrder
    obtain ⟨more, starts⟩ := group (inOrder.of_suffix taken)
    exact ⟨more.trans taken, Begins.join begins inOrder more starts⟩
  | newArray _ isType _ _ _ read group called =>
    obtain ⟨taken, begins⟩ := read inOrder
    obtain ⟨more, _⟩ := group (inOrder.of_suffix taken)
    obtain ⟨most, starts⟩ := called ((inOrder.of_suffix taken).of_suffix more)
    rw [Phrase.Starts, ← Grammar.span_of_knownType? isType] at begins
    exact ⟨(most.trans more).trans taken,
      Begins.join begins inOrder (most.trans more) (starts.of_suffix more)⟩
  | called _ _ read group =>
    obtain ⟨taken, begins⟩ := read inOrder
    obtain ⟨more, starts⟩ := group (inOrder.of_suffix taken)
    refine ⟨more.trans taken, ?_⟩
    rw [Phrase.Starts, Grammar.span_applyCall]
    exact Begins.join begins inOrder more starts
  | primary _ read => exact read inOrder
  | prefixed isPrefix _ read =>
    obtain ⟨taken, begins⟩ := read inOrder.tail
    refine ⟨taken.trans (List.suffix_cons _ _), ?_⟩
    rw [Phrase.Starts, Grammar.span_applyPrefix]
    exact Begins.head_join (Kind.ne_paren_of_prefix isPrefix) inOrder taken begins.startsIn
  | assignment _ _ _ _ _ left right =>
    obtain ⟨taken, begins⟩ := left inOrder
    obtain ⟨more, starts⟩ := right (inOrder.of_suffix taken).tail
    exact (Begins.join_behind begins inOrder more starts.startsIn).taken
  | binary _ _ _ _ left right =>
    obtain ⟨taken, begins⟩ := left inOrder
    obtain ⟨more, starts⟩ := right (inOrder.of_suffix taken).tail
    exact (Begins.join_behind begins inOrder more starts.startsIn).taken
  | openEnd => exact ⟨List.suffix_rfl, fun _ isSome => absurd isSome (Option.not_mem_none _)⟩
  | closedEnd _ read =>
    obtain ⟨taken, begins⟩ := read inOrder
    refine ⟨taken, fun upper isSome => ?_⟩
    obtain rfl := Option.some.inj isSome
    exact begins.startsIn
  | @rangeFrom _ _ _ _ _ upper _ _ _ _ _ _ left right =>
    obtain ⟨taken, begins⟩ := left inOrder
    obtain ⟨more, starts⟩ := right (inOrder.of_suffix taken).tail
    cases upper with
    | none =>
      exact (Begins.join begins inOrder (more.trans (List.suffix_cons _ _)) (.of_head _ _)).taken
    | some upper => exact (Begins.join_behind begins inOrder more (starts upper rfl)).taken
  | @rangeTo _ _ _ upper _ isOp _ right =>
    obtain ⟨taken, starts⟩ := right inOrder.tail
    refine ⟨taken.trans (List.suffix_cons _ _), ?_⟩
    cases upper with
    | none => exact Begins.head (by simp [isOp]) taken
    | some upper => exact Begins.head_join (by simp [isOp]) inOrder taken (starts upper rfl)
  | switch isSwitch _ _ _ _ subject more block =>
    obtain ⟨taken, _⟩ := subject inOrder.tail
    obtain ⟨others, _⟩ := more (inOrder.tail.of_suffix taken)
    have colon := others.trans taken
    obtain ⟨arms, starts⟩ := block (inOrder.tail.of_suffix colon).tail
    have further := (arms.trans (List.suffix_cons _ _)).trans colon
    have head := Begins.head_join (by simp [isSwitch]) inOrder List.suffix_rfl
      ((StartsIn.of_head _ _).of_suffix colon)
    refine ⟨further.trans (List.suffix_cons _ _), head.foldl_join inOrder further fun arm member => ?_⟩
    exact ((starts arm member).of_suffix (List.suffix_cons _ _)).of_suffix colon
  | group _ _ _ inside =>
    obtain ⟨taken, _⟩ := inside inOrder.tail
    have behind := inOrder.first_le _ (taken.mem List.mem_cons_self)
    refine ⟨((List.suffix_cons _ _).trans taken).trans (List.suffix_cons _ _), ?_⟩
    rw [Phrase.Starts, Span.first_join behind]
    exact .of_head _ _
  | noneListed => exact ⟨List.suffix_rfl, True.intro⟩
  | lastListed _ read => exact ⟨(read inOrder).1, True.intro⟩
  | listed _ _ _ read others =>
    obtain ⟨taken, _⟩ := read inOrder
    obtain ⟨more, _⟩ := others (inOrder.of_suffix taken).tail
    exact ⟨(more.trans (List.suffix_cons _ _)).trans taken, True.intro⟩
  | noSubjects => exact ⟨List.suffix_rfl, True.intro⟩
  | subjects _ _ _ read others =>
    obtain ⟨taken, _⟩ := read inOrder.tail
    obtain ⟨more, _⟩ := others (inOrder.tail.of_suffix taken)
    exact ⟨(more.trans taken).trans (List.suffix_cons _ _), True.intro⟩
  | noArmsInLine => exact ⟨List.suffix_cons _ _, fun _ member => absurd member List.not_mem_nil⟩
  | noArms => exact ⟨List.suffix_rfl, fun _ member => absurd member List.not_mem_nil⟩
  | armBlock _ _ inside =>
    obtain ⟨taken, starts⟩ := inside inOrder.tail
    exact ⟨taken.trans (List.suffix_cons _ _),
      fun arm member => (starts arm member).of_suffix (List.suffix_cons _ _)⟩
  | armsEnd => exact ⟨List.suffix_cons _ _, fun _ member => absurd member List.not_mem_nil⟩
  | armLine _ _ read =>
    obtain ⟨taken, starts⟩ := read inOrder.tail
    exact ⟨taken.trans (List.suffix_cons _ _),
      fun arm member => (starts arm member).of_suffix (List.suffix_cons _ _)⟩
  | arms _ _ first others =>
    obtain ⟨taken, begins⟩ := first inOrder
    obtain ⟨more, starts⟩ := others (inOrder.of_suffix taken)
    exact ⟨more.trans taken, List.forall_mem_cons.mpr
      ⟨begins.startsIn, fun arm member => (starts arm member).of_suffix taken⟩⟩
  | arm _ _ _ matched done =>
    obtain ⟨taken, begins⟩ := matched inOrder
    obtain ⟨more, starts⟩ := done (inOrder.of_suffix taken).tail
    exact (Begins.join_behind begins inOrder more starts.startsIn).taken
  | binding _ read => exact read inOrder
  | literalPattern _ read => exact read inOrder
  | block isIndent _ _ inside =>
    obtain ⟨taken, starts⟩ := inside inOrder.tail
    have further := (List.suffix_cons _ _).trans taken
    have head := Begins.head_join (by simp [isIndent]) inOrder List.suffix_rfl
      ((StartsIn.of_head _ _).of_suffix taken)
    exact ⟨further.trans (List.suffix_cons _ _), head.foldl_join inOrder further starts⟩
  | @expression _ _ _ _ last _ _ ends read =>
    obtain ⟨taken, begins⟩ := read inOrder
    refine ⟨ends.suffix.trans taken, ?_⟩
    cases last with
    | none => exact Begins.of_suffix begins ends.suffix
    | some last => exact Begins.join begins inOrder ends.suffix ends.startsIn
  | @throw _ _ _ _ _ last _ isThrow _ ends read =>
    obtain ⟨taken, begins⟩ := read inOrder.tail
    have further := ends.suffix.trans taken
    refine ⟨further.trans (List.suffix_cons _ _),
      Begins.head_join (by simp [isThrow]) inOrder further ?_⟩
    cases last with
    | none => exact begins.startsIn
    | some last => exact ends.startsIn.of_suffix taken
  | empty isSemicolon =>
    exact ⟨List.suffix_cons _ _, Begins.head (by simp [isSemicolon]) List.suffix_rfl⟩
  | statement _ read => exact read inOrder
  | noStatements => exact ⟨List.suffix_rfl, fun _ member => absurd member List.not_mem_nil⟩
  | line _ _ read =>
    obtain ⟨taken, starts⟩ := read inOrder.tail
    exact ⟨taken.trans (List.suffix_cons _ _),
      fun statement member => (starts statement member).of_suffix (List.suffix_cons _ _)⟩
  | statements _ _ first others =>
    obtain ⟨taken, begins⟩ := first inOrder
    obtain ⟨more, starts⟩ := others (inOrder.of_suffix taken)
    exact ⟨more.trans taken, List.forall_mem_cons.mpr
      ⟨begins.startsIn, fun statement member => (starts statement member).of_suffix taken⟩⟩
  | @skipped skipped middle _ _ _ _ _ _ others =>
    have skipped := List.suffix_append skipped middle
    obtain ⟨more, starts⟩ := others (inOrder.of_suffix skipped)
    exact ⟨more.trans skipped,
      fun statement member => (starts statement member).of_suffix skipped⟩

end Offside
