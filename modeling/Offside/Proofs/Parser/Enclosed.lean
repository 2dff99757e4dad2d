import Offside.Proofs.Parser.PhraseWalk

/-!
Where switches stand in expressions. The layout that ends a switch also ends what the switch is the
last part of, and there is no layout inside of brackets. So nothing comes behind a switch in an
expression, and no bracket is around one.
-/

namespace Offside

open LexStream

section Definitions

variable {α : Type}

/-- Switches are met twice, as expressions and as switches. -/
def Event.isSwitch : Event α → Bool
  | .expr (.switch _ _ _) | .switch _ _ => true
  | _ => false

/-- The operands that something of the expression comes behind, or that stand in its brackets. -/
def Expr.interior : Expr α → List (Expr α)
  | .literal _ | .identifier _ | .unary _ _ _ | .update _ true _ _ | .range none _ _
  | .switch _ _ _ => []
  | .assignment _ target _ _ => [target]
  | .binary _ left _ _ => [left]
  | .range (some lower) _ _ => [lower]
  | .update _ false operand _ => [operand]
  | .field object _ _ | .fieldGroup object _ _ | .optionalField object _ _ => [object]
  | .unwrap value _ => [value]
  | .unwrapWith value arguments _ | .extraction value arguments _ => value :: arguments
  | .element array indices _ => array :: indices
  | .newArray _ dimensions values _ => dimensions ++ values
  | .initializer _ values _ => values
  | .cast _ value _ => [value]
  | .call callee arguments _ => callee :: arguments

def StringPart.value? : StringPart α → Option (Expr α)
  | .fragment _ => none
  | .interpolation value => some value

/-- The expressions within a string. -/
def Literal.interpolated : Literal α → List (Expr α)
  | .string parts _ => parts.filterMap StringPart.value?
  | .integer _ _ | .float _ _ _ | .char _ _ | .boolean _ _ | .nothing _ | .placeholder _ => []

/-- The expressions of a node behind which something of the node comes. -/
def Event.interior : Event α → List (Expr α)
  | .expr value => value.interior
  | .literal value => value.interpolated
  | .file _ | .topLevel _ | .statement _ | .expressionStatement _ | .throwStatement _
  | .blockStart _ | .blockEnd | .identifier _ | .type _ | .switch _ _ | .arm _ | .pattern _
  | .armBody _ => []

def Event.isExpr : Event α → Bool
  | .expr _ => true
  | _ => false

/-- No switch is met. -/
def SwitchFree (events : List (Event α)) : Prop :=
  ∀ event ∈ events, event.isSwitch = false

/-- Nothing of the node comes behind a switch, and a switch within an expression ends it. -/
def Event.Guarded (event : Event α) : Prop :=
  (∀ part ∈ event.interior, SwitchFree part.walk) ∧
    ∀ value, event = .expr value → SwitchFree value.walk ∨ value.endsWithLayout = true

def Guarded (events : List (Event α)) : Prop :=
  ∀ event ∈ events, event.Guarded

end Definitions

section Walks

variable {event : Event Span} {left right : List (Event Span)}

@[simp] theorem switchFree_nil : SwitchFree ([] : List (Event Span)) :=
  fun _ member => absurd member List.not_mem_nil

@[simp] theorem switchFree_cons :
    SwitchFree (event :: right) ↔ event.isSwitch = false ∧ SwitchFree right :=
  List.forall_mem_cons

@[simp] theorem switchFree_append :
    SwitchFree (left ++ right) ↔ SwitchFree left ∧ SwitchFree right :=
  List.forall_mem_append

@[simp] theorem switchFree_identifiers (names : List (Identifier Span)) :
    SwitchFree (names.map .identifier) :=
  List.forall_mem_map.mpr fun _ _ => rfl

theorem switchFree_walkAll {values : List (Expr Span)} :
    SwitchFree (Expr.walkAll values) ↔ ∀ value ∈ values, SwitchFree value.walk := by
  induction values with
  | nil => simp [Expr.walkAll]
  | cons value values inductionHypothesis => simp [Expr.walkAll, inductionHypothesis]

theorem switchFree_parts {parts : List (StringPart Span)} :
    SwitchFree (StringPart.walkAll parts) ↔
      ∀ value ∈ parts.filterMap StringPart.value?, SwitchFree value.walk := by
  induction parts with
  | nil => simp [StringPart.walkAll]
  | cons part parts inductionHypothesis =>
    cases part <;> simp [StringPart.walkAll, StringPart.walk, StringPart.value?, inductionHypothesis]

@[simp] theorem guarded_nil : Guarded ([] : List (Event Span)) :=
  fun _ member => absurd member List.not_mem_nil

@[simp] theorem guarded_cons : Guarded (event :: right) ↔ event.Guarded ∧ Guarded right :=
  List.forall_mem_cons

@[simp] theorem guarded_append : Guarded (left ++ right) ↔ Guarded left ∧ Guarded right :=
  List.forall_mem_append

/-- A node that is no expression and no string has nothing to guard. -/
theorem Event.guarded_of_plain (noParts : event.interior = []) (noExpr : event.isExpr = false) :
    event.Guarded := by
  refine ⟨fun _ member => absurd (noParts ▸ member) List.not_mem_nil, fun value isExpr => ?_⟩
  rw [isExpr] at noExpr
  contradiction

theorem guarded_plain (noParts : event.interior = []) (noExpr : event.isExpr = false)
    (guarded : Guarded right) : Guarded (event :: right) :=
  guarded_cons.mpr ⟨Event.guarded_of_plain noParts noExpr, guarded⟩

@[simp] theorem Event.guarded_identifier (name : Identifier Span) :
    (Event.identifier name).Guarded :=
  guarded_of_plain rfl rfl

@[simp] theorem Event.guarded_type (name : Identifier Span) : (Event.type name).Guarded :=
  guarded_of_plain rfl rfl

@[simp] theorem guarded_identifiers (names : List (Identifier Span)) :
    Guarded (names.map .identifier) :=
  List.forall_mem_map.mpr fun _ _ => Event.guarded_identifier _

end Walks

/-! ## Text without layout -/

/-- The number of tokens that stand for layout. -/
def layoutOf (found : List Token) : Nat :=
  found.countP (·.kind.isStructural)

/-- The next token stands for layout. -/
def LayoutNext : List Token → Prop
  | token :: _ => token.kind.isStructural = true
  | [] => False

section Text

variable {before middle after found : List Token} {token : Token}

theorem layoutOf_le (suffix : after <:+ before) : layoutOf after ≤ layoutOf before :=
  suffix.sublist.countP_le

theorem layoutOf_cons (isLayout : token.kind.isStructural = true) :
    layoutOf (token :: found) = layoutOf found + 1 :=
  List.countP_cons_of_pos isLayout

theorem layoutOf_text (isText : token.kind.isStructural = false) :
    layoutOf (token :: found) = layoutOf found :=
  List.countP_cons_of_neg (Bool.eq_false_iff.mp isText)

theorem layoutOf_append (left right : List Token) :
    layoutOf (left ++ right) = layoutOf left + layoutOf right :=
  List.countP_append

/-- Tokens between two that stand for text. -/
theorem layoutOf_between {first last : Token} (starts : first.kind.isStructural = false)
    (ends : last.kind.isStructural = false) :
    layoutOf (first :: found ++ [last]) = layoutOf found := by
  rw [List.cons_append, layoutOf_text starts, layoutOf_append, layoutOf_text ends]
  rfl

/-- No layout in some tokens is no layout in their first ones and none in the others. -/
theorem layoutOf_split (first : middle <:+ before) (second : after <:+ middle)
    (same : layoutOf before = layoutOf after) :
    layoutOf before = layoutOf middle ∧ layoutOf middle = layoutOf after := by
  have more := layoutOf_le first
  have most := layoutOf_le second
  omega

/-- No layout in a token and some others is none in the others, and the token is text. -/
theorem layoutOf_tail (suffix : after <:+ before) (same : layoutOf (token :: before) = layoutOf after) :
    token.kind.isStructural = false ∧ layoutOf before = layoutOf after := by
  have le := layoutOf_le suffix
  cases isLayout : token.kind.isStructural with
  | false => exact ⟨rfl, layoutOf_text isLayout ▸ same⟩
  | true =>
    rw [layoutOf_cons isLayout] at same
    omega

theorem layoutOf_split_tail (first : token :: middle <:+ before) (second : after <:+ middle)
    (same : layoutOf before = layoutOf after) :
    layoutOf before = layoutOf (token :: middle) ∧ layoutOf middle = layoutOf after := by
  obtain ⟨before, behind⟩ := layoutOf_split first (second.trans (List.suffix_cons _ _)) same
  exact ⟨before, (layoutOf_tail second behind).2⟩

theorem layoutNext (found : List Token) (isLayout : token.kind.isStructural = true) :
    LayoutNext (token :: found) :=
  isLayout

theorem not_layoutNext (isText : token.kind.isStructural = false) : ¬LayoutNext (token :: found) :=
  fun isLayout => absurd (isText.symm.trans isLayout) Bool.false_ne_true

end Text

theorem Kind.Encloses.opensText {opening closing : Kind} (encloses : Encloses opening closing) :
    opening.isStructural = false := by
  cases encloses <;> rfl

/-! ## Brackets -/

section Brackets

variable {settings : Settings} {around : Surroundings} {failed : Nat} {before after : List Token}
  {acts : List Span}

/-- Where a bracket is open, and in a string, there is no layout, and no statement is wrong. -/
theorem Nests.noLayout (nests : Nests settings around failed before after acts)
    (notBlock : around ≠ .block) :
    ∃ taken, before = taken ++ after ∧ ∀ brackets, (around = .code → 0 < brackets) →
      Kind.LayoutOutside brackets (taken.map Token.kind) → layoutOf taken = 0 ∧ failed = 0 := by
  induction nests with
  | nil => exact ⟨[], rfl, fun _ _ _ => ⟨rfl, rfl⟩⟩
  | append nested _ first second =>
    obtain ⟨taken, rfl, nothing⟩ := first notBlock
    obtain ⟨more, rfl, nothingMore⟩ := second notBlock
    obtain ⟨_, same, plain⟩ := nested.plain notBlock
    obtain rfl := List.append_cancel_right same
    refine ⟨taken ++ more, (List.append_assoc _ _ _).symm, fun brackets positive outside => ?_⟩
    rw [List.map_append, Kind.layoutOutside_append] at outside
    have counted : Kind.bracketsOf brackets (taken.map Token.kind) = brackets :=
      (plain brackets positive outside.1).counted
    obtain ⟨noLayout, rfl⟩ := nothing brackets positive outside.1
    obtain ⟨noMore, rfl⟩ := nothingMore brackets positive (counted ▸ outside.2)
    rw [layoutOf_append, noLayout, noMore]
    exact ⟨rfl, rfl⟩
  | @single _ token _ isSingle =>
    exact ⟨[token], rfl, fun _ _ _ => ⟨layoutOf_text isSingle.structural, rfl⟩⟩
  | @line around token _ isLine outside =>
    refine ⟨[token], rfl, fun brackets positive layout => ?_⟩
    have isCode : around = .code := by cases around <;> first | rfl | contradiction
    exact absurd (layout.1 (isLine ▸ rfl)) (Nat.ne_of_gt (positive isCode))
  | @enclosed _ _ opening closing _ _ _ encloses _ inside =>
    obtain ⟨taken, rfl, nothing⟩ := inside Surroundings.noConfusion
    refine ⟨opening :: taken ++ [closing], by simp, fun brackets _ outside => ?_⟩
    rw [List.map_append, Kind.layoutOutside_append] at outside
    rw [layoutOf_between encloses.opensText encloses.isText]
    exact nothing (brackets + 1) (fun _ => Nat.succ_pos _) (encloses.opens brackets ▸ outside.1.2)
  | @string _ _ start last _ _ _ isStart _ isEnd inside =>
    obtain ⟨taken, rfl, nothing⟩ := inside Surroundings.noConfusion
    refine ⟨start :: taken ++ [last], by simp, fun brackets _ outside => ?_⟩
    rw [List.map_append, Kind.layoutOutside_append] at outside
    have same : start.kind.bracketsAfter brackets = brackets :=
      congrArg (·.bracketsAfter brackets) isStart
    rw [layoutOf_between (isStart ▸ rfl) (isEnd ▸ rfl)]
    exact nothing brackets Surroundings.noConfusion (same ▸ outside.1.2)
  | @block around _ first last _ _ _ isIndent inside _ outside =>
    obtain ⟨taken, rfl⟩ := inside.suffix
    refine ⟨first :: taken ++ [last], by simp, fun brackets positive layout => ?_⟩
    have isCode : around = .code := by cases around <;> first | rfl | contradiction
    exact absurd (layout.1 (isIndent ▸ rfl)) (Nat.ne_of_gt (positive isCode))
  | act => contradiction
  | skipped => contradiction

end Brackets

/-! ## Phrases without layout -/

/-- What is said of a phrase when there is no layout in the tokens that it is read from: a switch in
it is the last of it, in front of layout. -/
def Phrase.InText (after : List Token) : Phrase → Prop
  | .literal value => SwitchFree value.walk
  | .parts values _ => SwitchFree (StringPart.walkAll values)
  | .primary value => SwitchFree value.walk
  | .expr value => SwitchFree value.walk ∨ LayoutNext after
  | .upper value => SwitchFree (Expr.walkEnd value) ∨ LayoutNext after
  | .group _ _ values _ => SwitchFree (Expr.walkAll values)
  | .listed values => SwitchFree (Expr.walkAll values) ∨ LayoutNext after
  | .armBlock _ => LayoutNext after
  | _ => True

theorem switchFree_applyCall (settings : Settings) {callee : Expr Span}
    {arguments : List (Expr Span)} (span : Span) (free : SwitchFree callee.walk)
    (others : SwitchFree (Expr.walkAll arguments)) :
    SwitchFree (Grammar.applyCall settings callee arguments span).walk := by
  obtain ⟨type, value, rfl, rfl, isCast⟩ | ⟨type, rfl, isInitializer⟩ | isCall :=
    Grammar.applyCall_cases settings callee arguments span
  · rw [isCast]
    simpa [Expr.walk, Expr.walkAll, Identifier.walkType, Event.isSwitch] using others
  · rw [isInitializer]
    simpa [Expr.walk, Identifier.walkType, Event.isSwitch] using others
  · rw [isCall]
    simpa [Expr.walk, Event.isSwitch] using And.intro free others

theorem switchFree_applyPrefix {op : PrefixOp} {operand : Expr Span} {span : Span} :
    SwitchFree (Grammar.applyPrefix op operand span).walk ↔ SwitchFree operand.walk := by
  rw [Grammar.walk_applyPrefix, switchFree_cons]
  cases op <;> exact and_iff_right rfl

theorem endsWithLayout_applyPrefix (op : PrefixOp) (operand : Expr Span) (span : Span) :
    (Grammar.applyPrefix op operand span).endsWithLayout = operand.endsWithLayout := by
  cases op <;> rfl

theorem Kind.isText_of_infix {kind : Kind} {op : InfixOp} (isInfix : InfixOp.ofKind? kind = some op) :
    kind.isStructural = false :=
  (Kind.isSingle_of_infix isInfix).structural

/-- In front of text nothing is left open. -/
theorem switchFree_before {events : List (Event Span)} {token : Token} {rest : List Token}
    (free : SwitchFree events ∨ LayoutNext (token :: rest)) (isText : token.kind.isStructural = false) :
    SwitchFree events :=
  free.resolve_right (not_layoutNext isText)

theorem switchFree_of_literal? {token : Token} {literal : Literal Span}
    (isLiteral : token.literal? = some literal) : SwitchFree literal.walk := by
  obtain ⟨kind, text, span⟩ := token
  cases kind
  all_goals first | contradiction | obtain rfl := Option.some.inj isLiteral
  all_goals simp [Literal.walk, Event.isSwitch]

section InText

variable {settings : Settings} {failed : Nat} {before after : List Token} {phrase : Phrase}

theorem Derives.inText (derives : Derives settings failed before phrase after)
    (noLayout : layoutOf before = layoutOf after) : phrase.InText after := by
  induction derives with
  | simpleLiteral isLiteral => exact switchFree_of_literal? isLiteral
  | string _ inside read =>
    have free := read (layoutOf_tail inside.suffix noLayout).2
    simpa [Phrase.InText, Literal.walk, Event.isSwitch] using free
  | stringEnd => exact switchFree_nil
  | fragment _ others read => exact read (layoutOf_tail others.suffix noLayout).2
  | interpolation _ inside closes others read more =>
    obtain ⟨_, noLayout⟩ :=
      layoutOf_tail ((others.suffix.trans (List.suffix_cons _ _)).trans inside.suffix) noLayout
    obtain ⟨first, second⟩ := layoutOf_split_tail inside.suffix others.suffix noLayout
    have free := switchFree_before (read first) (closes ▸ rfl)
    exact switchFree_append.mpr ⟨free, more second⟩
  | name => simp [Phrase.InText, Expr.walk, Event.isSwitch]
  | literal _ read => simpa [Phrase.InText, Expr.walk, Event.isSwitch] using read noLayout
  | parenthesized _ inside closes read =>
    obtain ⟨_, noLayout⟩ := layoutOf_tail ((List.suffix_cons _ _).trans inside.suffix) noLayout
    obtain ⟨noLayout, _⟩ := layoutOf_split_tail inside.suffix List.suffix_rfl noLayout
    exact switchFree_before (read noLayout) (closes ▸ rfl)
  | updated derives _ read =>
    have free := read (layoutOf_split_tail derives.suffix List.suffix_rfl noLayout).1
    simpa [Phrase.InText, Expr.walk, Event.isSwitch] using free
  | unwrap derives _ read =>
    have free := read (layoutOf_split_tail derives.suffix List.suffix_rfl noLayout).1
    simpa [Phrase.InText, Expr.walk, Event.isSwitch] using free
  | unwrapWith derives _ group read others =>
    obtain ⟨first, second⟩ := layoutOf_split_tail derives.suffix group.suffix noLayout
    simpa [Phrase.InText, Expr.walk, Event.isSwitch] using And.intro (read first) (others second)
  | extraction derives _ group read others =>
    obtain ⟨first, second⟩ := layoutOf_split_tail derives.suffix group.suffix noLayout
    simpa [Phrase.InText, Expr.walk, Event.isSwitch] using And.intro (read first) (others second)
  | field derives _ named read =>
    have free := read (layoutOf_split_tail derives.suffix named.suffix noLayout).1
    simpa [Phrase.InText, Expr.walk, Event.isSwitch] using free
  | fieldGroup derives _ _ first others _ read =>
    have named := ((List.suffix_cons _ _).trans others.suffix).trans first.suffix
    have free := read
      (layoutOf_split_tail derives.suffix (named.trans (List.suffix_cons _ _)) noLayout).1
    simpa [Phrase.InText, Expr.walk, Event.isSwitch] using free
  | optionalField derives _ named read =>
    have free := read (layoutOf_split_tail derives.suffix named.suffix noLayout).1
    simpa [Phrase.InText, Expr.walk, Event.isSwitch] using free
  | element derives group _ read others =>
    obtain ⟨first, second⟩ := layoutOf_split derives.suffix group.suffix noLayout
    simpa [Phrase.InText, Expr.walk, Event.isSwitch] using And.intro (read first) (others second)
  | newArray derives _ group _ called _ others more =>
    obtain ⟨_, noLayout⟩ :=
      layoutOf_split derives.suffix (called.suffix.trans group.suffix) noLayout
    obtain ⟨first, second⟩ := layoutOf_split group.suffix called.suffix noLayout
    simpa [Phrase.InText, Expr.walk, Identifier.walkType, Event.isSwitch] using
      And.intro (others first) (more second)
  | called derives group read others =>
    obtain ⟨first, second⟩ := layoutOf_split derives.suffix group.suffix noLayout
    exact switchFree_applyCall _ _ (read first) (others second)
  | primary _ read => exact Or.inl (read noLayout)
  | prefixed _ derives read =>
    have free := read (layoutOf_tail derives.suffix noLayout).2
    simpa only [Phrase.InText, switchFree_applyPrefix] using free
  | assignment left isOp _ _ right target value =>
    obtain ⟨first, second⟩ := layoutOf_split_tail left.suffix right.suffix noLayout
    have free := switchFree_before (target first) (Kind.isText_of_infix isOp)
    simpa [Phrase.InText, Expr.walk, Event.isSwitch, free] using value second
  | binary left isOp _ right first second =>
    obtain ⟨before, behind⟩ := layoutOf_split_tail left.suffix right.suffix noLayout
    have free := switchFree_before (first before) (Kind.isText_of_infix isOp)
    simpa [Phrase.InText, Expr.walk, Event.isSwitch, free] using second behind
  | openEnd => exact Or.inl switchFree_nil
  | closedEnd _ read => exact read noLayout
  | rangeFrom left isOp _ right lower upper =>
    obtain ⟨first, second⟩ := layoutOf_split_tail left.suffix right.suffix noLayout
    have free := switchFree_before (lower first) (Kind.isText_of_infix isOp)
    simpa [Phrase.InText, Expr.walk, Expr.walkEnd, Event.isSwitch, free] using upper second
  | rangeTo _ right upper =>
    have free := upper (layoutOf_tail right.suffix noLayout).2
    simpa [Phrase.InText, Expr.walk, Expr.walkEnd, Event.isSwitch] using free
  | switch _ subject more _ block _ _ arms =>
    have colon := more.suffix.trans subject.suffix
    obtain ⟨_, noLayout⟩ :=
      layoutOf_tail ((block.suffix.trans (List.suffix_cons _ _)).trans colon) noLayout
    exact Or.inr (arms (layoutOf_split_tail colon block.suffix noLayout).2)
  | group _ inside closes read =>
    obtain ⟨_, noLayout⟩ := layoutOf_tail ((List.suffix_cons _ _).trans inside.suffix) noLayout
    obtain ⟨noLayout, _⟩ := layoutOf_split_tail inside.suffix List.suffix_rfl noLayout
    exact switchFree_before (read noLayout) (closes ▸ rfl)
  | noneListed => exact Or.inl switchFree_nil
  | lastListed _ read => simpa [Phrase.InText, Expr.walkAll] using read noLayout
  | listed derives isComma others read more =>
    obtain ⟨first, second⟩ := layoutOf_split_tail derives.suffix others.suffix noLayout
    have free := switchFree_before (read first) (isComma ▸ rfl)
    simpa [Phrase.InText, Expr.walkAll, free] using more second
  | noArmsInLine isLine =>
    have isText := (layoutOf_tail List.suffix_rfl noLayout).1
    rw [isLine] at isText
    contradiction
  | @noArms _ after isEnd => exact layoutNext after (isEnd.elim (· ▸ rfl) (· ▸ rfl))
  | armBlock isIndent inside =>
    have isText := (layoutOf_tail inside.suffix noLayout).1
    rw [isIndent] at isText
    contradiction
  | _ => exact True.intro

end InText

/-! ## Phrases of a text -/

/-- Tokens that come after others, with layout where no bracket is open. -/
def Situated (found : List Token) : Prop :=
  ∃ past, LayoutOutside (past ++ found)

section Situated

variable {settings : Settings} {failed : Nat} {before rest after : List Token}
  {opening closing token : Token} {acts : List Span}

theorem Situated.of_suffix (situated : Situated before) (suffix : after <:+ before) :
    Situated after := by
  obtain ⟨past, outside⟩ := situated
  obtain ⟨taken, rfl⟩ := suffix
  exact ⟨past ++ taken, (List.append_assoc past taken after).symm ▸ outside⟩

theorem Situated.tail (situated : Situated (token :: rest)) : Situated rest :=
  situated.of_suffix (List.suffix_cons _ _)

/-- In what is read between brackets there is no layout, no statement is wrong, and every string
that is opened is closed. -/
theorem Situated.between (situated : Situated (opening :: rest))
    (encloses : Kind.Encloses opening.kind closing.kind)
    (nests : Nests settings .code failed rest (closing :: after) acts) :
    ∃ taken, rest = taken ++ closing :: after ∧ layoutOf taken = 0 ∧ failed = 0 ∧
      Balanced taken := by
  obtain ⟨taken, rfl, nothing⟩ := nests.noLayout Surroundings.noConfusion
  obtain ⟨_, same, plain⟩ := nests.plain Surroundings.noConfusion
  obtain rfl := List.append_cancel_right same
  obtain ⟨past, outside⟩ := situated
  have opened : Kind.LayoutOutside (bracketsOf 0 past) ((opening :: taken).map Token.kind) :=
    outside.before encloses.isText
  have inside := encloses.opens (bracketsOf 0 past) ▸ opened.2
  obtain ⟨noLayout, noFailure⟩ := nothing _ (fun _ => Nat.succ_pos _) inside
  exact ⟨taken, rfl, noLayout, noFailure, (plain _ (fun _ => Nat.succ_pos _) inside).balanced⟩

theorem Situated.noLayout (situated : Situated (opening :: rest))
    (encloses : Kind.Encloses opening.kind closing.kind)
    (nests : Nests settings .code failed rest (closing :: after) acts) :
    layoutOf rest = layoutOf (closing :: after) := by
  obtain ⟨taken, rfl, nothing, _⟩ := situated.between encloses nests
  rw [layoutOf_append, nothing, Nat.zero_add]

end Situated

/-- What is said of a phrase that is read from the tokens of a text. -/
def Phrase.Guarded : Phrase → Prop
  | .literal value => Offside.Guarded value.walk ∧ SwitchFree value.walk
  | .parts values _ =>
    Offside.Guarded (StringPart.walkAll values) ∧ SwitchFree (StringPart.walkAll values)
  | .primary value => Offside.Guarded value.walk ∧ SwitchFree value.walk
  | .expr value =>
    Offside.Guarded value.walk ∧ (SwitchFree value.walk ∨ value.endsWithLayout = true)
  | .upper value => Offside.Guarded (Expr.walkEnd value) ∧
      (SwitchFree (Expr.walkEnd value) ∨ ∃ upper, value = some upper ∧ upper.endsWithLayout = true)
  | .group opening closing values _ => Kind.Encloses (.symbol opening) (.symbol closing) →
      Offside.Guarded (Expr.walkAll values) ∧ SwitchFree (Expr.walkAll values)
  | phrase => Offside.Guarded phrase.walk

/-- What something of an expression comes behind is met in the expression. -/
theorem Expr.interior_switchFree {value : Expr Span} (free : SwitchFree value.walk) :
    ∀ part ∈ value.interior, SwitchFree part.walk := by
  cases value
  case update before _ _ => cases before <;> simp_all [interior, walk]
  case range lower _ _ => cases lower <;> simp_all [interior, walk, walkEnd]
  all_goals simp_all [interior, walk, switchFree_walkAll, or_imp]

theorem Event.guarded_of_switchFree {value : Expr Span} (free : SwitchFree value.walk) :
    (Event.expr value).Guarded := by
  refine ⟨Expr.interior_switchFree free, fun _ same => Or.inl ?_⟩
  obtain rfl := Event.expr.inj same
  exact free

theorem Event.guarded_string {parts : List (StringPart Span)} {span : Span}
    (free : SwitchFree (StringPart.walkAll parts)) : (Event.literal (.string parts span)).Guarded :=
  ⟨switchFree_parts.mp free, fun _ => nofun⟩

/-- An expression whose last part is an operand behind an operator. -/
theorem Event.guarded_expr {value : Expr Span}
    (parts : ∀ part ∈ value.interior, SwitchFree part.walk)
    (free : SwitchFree value.walk ∨ value.endsWithLayout = true) : (Event.expr value).Guarded := by
  refine ⟨parts, fun _ same => ?_⟩
  obtain rfl := Event.expr.inj same
  exact free

theorem guarded_of_literal? {token : Token} {literal : Literal Span}
    (isLiteral : token.literal? = some literal) : Guarded literal.walk := by
  obtain ⟨kind, text, span⟩ := token
  cases kind
  all_goals first | contradiction | obtain rfl := Option.some.inj isLiteral
  all_goals
    exact List.forall_mem_singleton.mpr (Event.guarded_of_plain rfl rfl)

theorem guarded_applyCall {settings : Settings} {callee : Expr Span}
    {arguments : List (Expr Span)} {span : Span} (guarded : Guarded callee.walk)
    (others : Guarded (Expr.walkAll arguments)) (free : SwitchFree callee.walk)
    (freeOthers : SwitchFree (Expr.walkAll arguments)) :
    Guarded (Grammar.applyCall settings callee arguments span).walk := by
  have head := Event.guarded_of_switchFree
    (switchFree_applyCall settings span free freeOthers)
  obtain ⟨type, value, rfl, rfl, isCast⟩ | ⟨type, rfl, isInitializer⟩ | isCall :=
    Grammar.applyCall_cases settings callee arguments span
  · rw [isCast] at head ⊢
    simp_all [Expr.walk, Expr.walkAll, Identifier.walkType]
  · rw [isInitializer] at head ⊢
    simp_all [Expr.walk, Identifier.walkType]
  · rw [isCall] at head ⊢
    simp_all [Expr.walk]

section Guarded

variable {settings : Settings} {failed : Nat} {before after : List Token} {phrase : Phrase}

theorem Derives.guarded (derives : Derives settings failed before phrase after)
    (situated : Situated before) : phrase.Guarded := by
  have inCode : Surroundings.code ≠ .string := Surroundings.noConfusion
  -- Between brackets there is no layout, so that nothing there ends with a switch.
  have within {opening closing : Token} {rest after : List Token} {value : Expr Span} {n : Nat}
      (situated : Situated (opening :: rest))
      (encloses : Kind.Encloses opening.kind closing.kind)
      (inside : Derives settings n rest (.expr value) (closing :: after)) :
      SwitchFree value.walk :=
    switchFree_before (inside.inText (situated.noLayout encloses (inside.nested .code inCode)))
      encloses.isText
  have primary {value : Expr Span} (free : SwitchFree value.walk)
      (guarded : (Event.expr value).Guarded → Guarded value.walk) :
      (Phrase.primary value).Guarded :=
    ⟨guarded (Event.guarded_of_switchFree free), free⟩
  have expr {value : Expr Span} (parts : ∀ part ∈ value.interior, SwitchFree part.walk)
      (ends : SwitchFree value.walk ∨ value.endsWithLayout = true)
      (guarded : (Event.expr value).Guarded → Guarded value.walk) : (Phrase.expr value).Guarded :=
    ⟨guarded (Event.guarded_expr parts ends), ends⟩
  induction derives with
  | simpleLiteral isLiteral =>
    exact ⟨guarded_of_literal? isLiteral, switchFree_of_literal? isLiteral⟩
  | string _ _ read =>
    obtain ⟨guarded, free⟩ := read situated.tail
    exact ⟨guarded_cons.mpr ⟨Event.guarded_string free, guarded⟩, switchFree_cons.mpr ⟨rfl, free⟩⟩
  | stringEnd => exact ⟨guarded_nil, switchFree_nil⟩
  | fragment _ _ read => exact read situated.tail
  | interpolation opens inside closes _ read more =>
    have free := within situated (opens ▸ closes ▸ .interpolation) inside
    obtain ⟨guarded, _⟩ := read situated.tail
    obtain ⟨others, freeOthers⟩ := more (situated.tail.of_suffix inside.suffix).tail
    exact ⟨guarded_append.mpr ⟨guarded, others⟩, switchFree_append.mpr ⟨free, freeOthers⟩⟩
  | name =>
    refine primary (by simp [Expr.walk, Event.isSwitch]) fun head => ?_
    simpa [Expr.walk] using head
  | literal _ read =>
    obtain ⟨guarded, free⟩ := read situated
    refine primary (by simpa [Expr.walk, Event.isSwitch] using free) fun head => ?_
    simpa [Expr.walk] using And.intro head guarded
  | parenthesized opens inside closes read =>
    exact ⟨(read situated.tail).1, within situated (opens ▸ closes ▸ .parens) inside⟩
  | updated _ _ read =>
    obtain ⟨guarded, free⟩ := read situated
    refine primary (by simpa [Expr.walk, Event.isSwitch] using free) fun head => ?_
    simpa [Expr.walk] using And.intro head guarded
  | unwrap _ _ read =>
    obtain ⟨guarded, free⟩ := read situated
    refine primary (by simpa [Expr.walk, Event.isSwitch] using free) fun head => ?_
    simpa [Expr.walk] using And.intro head guarded
  | unwrapWith derives _ _ read group =>
    obtain ⟨guarded, free⟩ := read situated
    obtain ⟨others, freeOthers⟩ := group (situated.of_suffix derives.suffix).tail .parens
    refine primary (by simp [Expr.walk, Event.isSwitch, free, freeOthers]) fun head => ?_
    simp [Expr.walk, head, guarded, others]
  | extraction derives _ _ read group =>
    obtain ⟨guarded, free⟩ := read situated
    obtain ⟨others, freeOthers⟩ := group (situated.of_suffix derives.suffix).tail .parens
    refine primary (by simp [Expr.walk, Event.isSwitch, free, freeOthers]) fun head => ?_
    simp [Expr.walk, head, guarded, others]
  | field _ _ _ read =>
    obtain ⟨guarded, free⟩ := read situated
    refine primary (by simp [Expr.walk, Event.isSwitch, free]) fun head => ?_
    simp [Expr.walk, head, guarded]
  | fieldGroup _ _ _ _ _ _ read =>
    obtain ⟨guarded, free⟩ := read situated
    refine primary (by simp [Expr.walk, Event.isSwitch, free]) fun head => ?_
    simp [Expr.walk, head, guarded]
  | optionalField _ _ _ read =>
    obtain ⟨guarded, free⟩ := read situated
    refine primary (by simp [Expr.walk, Event.isSwitch, free]) fun head => ?_
    simp [Expr.walk, head, guarded]
  | element derives _ _ read group =>
    obtain ⟨guarded, free⟩ := read situated
    obtain ⟨others, freeOthers⟩ := group (situated.of_suffix derives.suffix) .brackets
    refine primary (by simp [Expr.walk, Event.isSwitch, free, freeOthers]) fun head => ?_
    simp [Expr.walk, head, guarded, others]
  | newArray derives _ sized _ _ _ group called =>
    have behind := situated.of_suffix derives.suffix
    obtain ⟨dimensions, freeDimensions⟩ := group behind .brackets
    obtain ⟨values, freeValues⟩ := called (behind.of_suffix sized.suffix) .parens
    refine primary (by simp [Expr.walk, Identifier.walkType, Event.isSwitch, freeDimensions,
      freeValues]) fun head => ?_
    simp [Expr.walk, Identifier.walkType, head, dimensions, values]
  | called derives _ read group =>
    obtain ⟨guarded, free⟩ := read situated
    obtain ⟨others, freeOthers⟩ := group (situated.of_suffix derives.suffix) .parens
    exact ⟨guarded_applyCall guarded others free freeOthers, switchFree_applyCall _ _ free freeOthers⟩
  | primary _ read => exact ⟨(read situated).1, Or.inl (read situated).2⟩
  | @prefixed _ _ _ op value _ _ _ read =>
    obtain ⟨guarded, ends⟩ := read situated.tail
    refine expr (by cases op <;> simp [Grammar.applyPrefix, Expr.interior]) ?_ fun head => ?_
    · rw [switchFree_applyPrefix, endsWithLayout_applyPrefix]
      exact ends
    · rw [Grammar.walk_applyPrefix]
      exact guarded_cons.mpr ⟨head, guarded⟩
  | assignment left _ goesOn _ _ target value =>
    obtain ⟨guarded, ends⟩ := target situated
    obtain ⟨others, last⟩ := value (situated.of_suffix left.suffix).tail
    have free := ends.resolve_right (Bool.eq_false_iff.mp goesOn)
    refine expr (by simp [Expr.interior, free]) ?_ fun head => ?_
    · simpa [Expr.walk, Event.isSwitch, Expr.endsWithLayout, free] using last
    · simp [Expr.walk, head, guarded, others]
  | binary left _ goesOn _ first second =>
    obtain ⟨guarded, ends⟩ := first situated
    obtain ⟨others, last⟩ := second (situated.of_suffix left.suffix).tail
    have free := ends.resolve_right (Bool.eq_false_iff.mp goesOn)
    refine expr (by simp [Expr.interior, free]) ?_ fun head => ?_
    · simpa [Expr.walk, Event.isSwitch, Expr.endsWithLayout, free] using last
    · simp [Expr.walk, head, guarded, others]
  | openEnd => exact ⟨guarded_nil, Or.inl switchFree_nil⟩
  | closedEnd _ read =>
    obtain ⟨guarded, ends⟩ := read situated
    exact ⟨guarded, ends.imp_right fun layout => ⟨_, rfl, layout⟩⟩
  | rangeFrom left _ goesOn _ lower upper =>
    obtain ⟨guarded, ends⟩ := lower situated
    obtain ⟨others, last⟩ := upper (situated.of_suffix left.suffix).tail
    have free := ends.resolve_right (Bool.eq_false_iff.mp goesOn)
    refine expr (by simp [Expr.interior, free]) ?_ fun head => ?_
    · refine last.imp (fun freeUpper => ?_) ?_
      · simp [Expr.walk, Expr.walkEnd, Event.isSwitch, free, freeUpper]
      · rintro ⟨upper, rfl, layout⟩
        exact layout
    · simp [Expr.walk, Expr.walkEnd, head, guarded, others]
  | rangeTo _ _ upper =>
    obtain ⟨others, last⟩ := upper situated.tail
    refine expr (by simp [Expr.interior]) ?_ fun head => ?_
    · refine last.imp (fun freeUpper => ?_) ?_
      · simp [Expr.walk, Expr.walkEnd, Event.isSwitch, freeUpper]
      · rintro ⟨upper, rfl, layout⟩
        exact layout
    · simp [Expr.walk, Expr.walkEnd, head, others]
  | switch _ subject more _ _ first others arms =>
    have behind := situated.tail.of_suffix subject.suffix
    obtain ⟨guarded, _⟩ := first situated.tail
    have guardedOthers := others behind
    have guardedArms := arms (behind.of_suffix more.suffix).tail
    refine expr (by simp [Expr.interior]) (Or.inr rfl) fun head => ?_
    have subjects := guarded_append.mpr ⟨guarded, guardedOthers⟩
    exact guarded_cons.mpr
      ⟨head, guarded_plain rfl rfl (guarded_append.mpr ⟨subjects, guardedArms⟩)⟩
  | group opens inside closes read =>
    intro isGroup
    have noLayout := situated.noLayout (opens ▸ closes ▸ isGroup) (inside.nested .code inCode)
    exact ⟨read situated.tail, switchFree_before (inside.inText noLayout) (closes ▸ rfl)⟩
  | noneListed => exact guarded_nil
  | lastListed _ read => simpa [Phrase.Guarded, Expr.walkAll] using (read situated).1
  | listed derives _ _ read others =>
    simpa [Phrase.Guarded, Expr.walkAll] using
      And.intro (read situated).1 (others (situated.of_suffix derives.suffix).tail)
  | noSubjects => exact guarded_nil
  | subjects _ derives _ read others =>
    simpa [Phrase.Guarded, Expr.walkAll] using
      And.intro (read situated.tail).1 (others (situated.tail.of_suffix derives.suffix))
  | noArmsInLine => exact guarded_nil
  | noArms => exact guarded_nil
  | armBlock _ _ inside => exact inside situated.tail
  | armsEnd => exact guarded_nil
  | armLine _ _ read => exact read situated.tail
  | arms derives _ first others =>
    simpa [Phrase.Guarded, Arm.walkAll] using
      And.intro (first situated) (others (situated.of_suffix derives.suffix))
  | arm derives _ _ matched done =>
    have body := done (situated.of_suffix derives.suffix).tail
    exact guarded_plain rfl rfl
      (guarded_append.mpr ⟨matched situated, guarded_plain rfl rfl body⟩)
  | binding _ read => exact guarded_plain rfl rfl (read situated)
  | literalPattern _ read => exact guarded_plain rfl rfl (read situated).1
  | block _ _ _ inside =>
    exact guarded_plain rfl rfl
      (guarded_append.mpr ⟨inside situated.tail, guarded_plain rfl rfl guarded_nil⟩)
  | expression _ _ read => exact guarded_plain rfl rfl (read situated).1
  | throw _ _ _ read => exact guarded_plain rfl rfl (read situated.tail).1
  | empty => exact guarded_plain rfl rfl guarded_nil
  | statement _ read => exact guarded_plain rfl rfl (read situated)
  | noStatements => exact guarded_nil
  | line _ _ read => exact read situated.tail
  | statements derives _ first others =>
    simpa [Phrase.Guarded, Statement.walkAll] using
      And.intro (first situated) (others (situated.of_suffix derives.suffix))
  | skipped _ _ others => exact others (situated.of_suffix (List.suffix_append _ _))
  | identifier => exact guarded_plain rfl rfl guarded_nil
  | noNames => exact guarded_nil
  | noNamesAfter => exact guarded_nil
  | names _ derives _ first others =>
    exact guarded_append.mpr
      ⟨first situated.tail, others (situated.tail.of_suffix derives.suffix)⟩

end Guarded

end Offside
