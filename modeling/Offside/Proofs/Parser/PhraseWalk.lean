import Offside.Proofs.Parser.StringInterior

/-!
What a walk meets in a phrase that is derived from some tokens. The nodes that are made out of
others by what is known of types, or by the operator in front, are told apart here once and for all.
-/

namespace Offside

/-- What a walk meets in a phrase. -/
@[simp]
def Phrase.walk : Phrase → List (Event Span)
  | .identifier name => [.identifier name]
  | .names others => others.map .identifier
  | .literal value => value.walk
  | .parts values _ => StringPart.walkAll values
  | .primary value | .expr value => value.walk
  | .upper value => Expr.walkEnd value
  | .group _ _ values _ | .listed values | .subjects values => Expr.walkAll values
  | .armBlock values | .arms values => Arm.walkAll values
  | .arm value => value.walk
  | .pattern value => value.walk
  | .action value => value.walk
  | .statement value => value.walk
  | .statements values => Statement.walkAll values

/-- A walk over a file meets the file, its statements as those at the top level, and what is met in
its statements. -/
theorem File.walk_cases {file : File Span} {event : Event Span} (met : event ∈ file.walk) :
    event = .file file ∨ (∃ statement ∈ file.statements, event = .topLevel statement) ∨
      event ∈ (Phrase.statements file.statements).walk := by
  rw [File.walk, List.mem_cons, List.mem_flatMap] at met
  obtain rfl | ⟨statement, member, met⟩ := met
  · exact Or.inl rfl
  · rcases List.mem_cons.mp met with rfl | met
    · exact Or.inr (Or.inl ⟨statement, member, rfl⟩)
    · exact Or.inr (Or.inr (Statement.mem_walkAll member met))

namespace Grammar

/-- A callee that is no known type is called, and a known type is applied to what it is given. -/
theorem applyCall_cases (settings : Settings) (callee : Expr Span) (arguments : List (Expr Span))
    (span : Span) :
    (∃ type value, callee = .identifier type ∧ arguments = [value] ∧
        applyCall settings callee arguments span = .cast type value span) ∨
      (∃ type, callee = .identifier type ∧
        applyCall settings callee arguments span = .initializer type arguments span) ∨
      applyCall settings callee arguments span = .call callee arguments span := by
  unfold applyCall
  split
  case h_1 isType =>
    exact Or.inl ⟨_, _, eq_identifier_of_knownType? isType, rfl, rfl⟩
  case h_2 isType _ =>
    exact Or.inr (Or.inl ⟨_, eq_identifier_of_knownType? isType, rfl⟩)
  case h_3 => exact Or.inr (Or.inr rfl)

theorem walk_applyPrefix (op : PrefixOp) (operand : Expr Span) (span : Span) :
    (applyPrefix op operand span).walk = .expr (applyPrefix op operand span) :: operand.walk := by
  cases op <;> rfl

end Grammar

variable {settings : Settings} {failed : Nat} {before after : List Token} {phrase : Phrase}

/-- A phrase is read from the tokens in front of those that are left. -/
theorem Derives.suffix (derives : Derives settings failed before phrase after) :
    after <:+ before := by
  induction derives with
  | expression _ ends read => exact ends.suffix.trans read
  | throw _ _ ends read => exact (ends.suffix.trans read).trans (List.suffix_cons _ _)
  | _ => grind [List.suffix_cons, List.IsSuffix.trans, List.suffix_append]

/-! ## Where the nodes of a tree are read -/

/-- The phrase that a node is, if it is met as one. -/
def Event.phrase? : Event Span → Option Phrase
  | .statement value => some (.statement value)
  | .expr value => some (.expr value)
  | .literal value => some (.literal value)
  | .identifier name => some (.identifier name)
  | .type name => some (.expr (.identifier name))
  | .arm value => some (.arm value)
  | .pattern value => some (.pattern value)
  | .armBody value => some (.action value)
  | .file _ | .topLevel _ | .expressionStatement _ | .throwStatement _ | .blockStart _ | .blockEnd
  | .switch _ _ => none

/-- The nodes that are met are read from some of the tokens. -/
def Rooted (settings : Settings) (found : List Token) (events : List (Event Span)) : Prop :=
  ∀ event ∈ events, ∀ root, event.phrase? = some root →
    ∃ failed before after, before <:+ found ∧ Derives settings failed before root after

namespace Rooted

variable {found : List Token} {events more : List (Event Span)} {event : Event Span} {root : Phrase}

theorem nil : Rooted settings found [] :=
  fun _ member => absurd member List.not_mem_nil

theorem append (rooted : Rooted settings found events) (others : Rooted settings found more) :
    Rooted settings found (events ++ more) :=
  List.forall_mem_append.mpr ⟨rooted, others⟩

theorem cons (isRoot : event.phrase? = some root) (derives : Derives settings failed found root after)
    (rooted : Rooted settings found events) : Rooted settings found (event :: events) := by
  refine List.forall_mem_cons.mpr ⟨fun other isOther => ?_, rooted⟩
  obtain rfl := Option.some.inj (isRoot.symm.trans isOther)
  exact ⟨failed, found, after, List.suffix_rfl, derives⟩

theorem cons_none (noRoot : event.phrase? = none) (rooted : Rooted settings found events) :
    Rooted settings found (event :: events) :=
  List.forall_mem_cons.mpr
    ⟨fun _ isRoot => absurd (noRoot.symm.trans isRoot) nofun, rooted⟩

theorem of_suffix (rooted : Rooted settings after events) (suffix : after <:+ before) :
    Rooted settings before events := by
  intro event member root isRoot
  obtain ⟨failed, first, rest, behind, derives⟩ := rooted event member root isRoot
  exact ⟨failed, first, rest, behind.trans suffix, derives⟩

theorem tail {token : Token} (rooted : Rooted settings after events) :
    Rooted settings (token :: after) events :=
  rooted.of_suffix (List.suffix_cons _ _)

/-- Where a name is read that is known to be a type, a type is read. -/
theorem type {name : Identifier Span}
    (rooted : Rooted settings found (Expr.identifier name : Expr Span).walk) :
    Rooted settings found name.walkType := by
  intro event member root isRoot
  rcases List.mem_cons.mp member with rfl | member
  · exact rooted (.expr (.identifier name)) List.mem_cons_self root isRoot
  · exact rooted event (List.mem_cons_of_mem _ member) root isRoot

theorem applyCall {callee : Expr Span} {arguments : List (Expr Span)} {span : Span}
    (derives : Derives settings failed found
      (.expr (Grammar.applyCall settings callee arguments span)) after)
    (rooted : Rooted settings found callee.walk)
    (others : Rooted settings found (Expr.walkAll arguments)) :
    Rooted settings found (Grammar.applyCall settings callee arguments span).walk := by
  obtain ⟨type, value, rfl, rfl, isCast⟩ | ⟨type, rfl, isInitializer⟩ | isCall :=
    Grammar.applyCall_cases settings callee arguments span
  · rw [isCast] at derives ⊢
    rw [Expr.walkAll, Expr.walkAll, List.append_nil] at others
    exact .cons rfl derives (rooted.type.append others)
  · rw [isInitializer] at derives ⊢
    exact .cons rfl derives (rooted.type.append others)
  · rw [isCall] at derives ⊢
    exact .cons rfl derives (rooted.append others)

end Rooted

theorem Rooted.of_literal? {token : Token} {literal : Literal Span}
    (isLiteral : token.literal? = some literal) :
    Rooted settings (token :: after) literal.walk := by
  have derives : Derives settings 0 (token :: after) (.literal literal) after :=
    .simpleLiteral isLiteral
  obtain ⟨kind, text, span⟩ := token
  cases kind
  all_goals first | contradiction | obtain rfl := Option.some.inj isLiteral
  all_goals exact .cons rfl derives .nil

theorem Derives.rooted (derives : Derives settings failed before phrase after) :
    Rooted settings before phrase.walk := by
  induction derives with
  | identifier isName => exact .cons rfl (.identifier isName) .nil
  | noNames => exact .nil
  | noNamesAfter => exact .nil
  | names _ first _ name others =>
    exact (name.append (others.of_suffix first.suffix)).tail
  | simpleLiteral isLiteral => exact .of_literal? isLiteral
  | string isStart inside parts => exact .cons rfl (.string isStart inside) parts.tail
  | stringEnd => exact .nil
  | fragment _ _ parts => exact parts.tail
  | interpolation _ inside _ _ value parts =>
    exact (value.append (parts.tail.of_suffix inside.suffix)).tail
  | name read name => exact .cons rfl (.primary (.name read)) name
  | literal read value => exact .cons rfl (.primary (.literal read)) value
  | parenthesized _ _ _ value => exact value.tail
  | updated read isUpdate value => exact .cons rfl (.primary (.updated read isUpdate)) value
  | unwrap read isBang value => exact .cons rfl (.primary (.unwrap read isBang)) value
  | unwrapWith read isBang group value arguments =>
    exact .cons rfl (.primary (.unwrapWith read isBang group))
      (value.append (arguments.tail.of_suffix read.suffix))
  | extraction read isQuestion group value arguments =>
    exact .cons rfl (.primary (.extraction read isQuestion group))
      (value.append (arguments.tail.of_suffix read.suffix))
  | field read isDot named value name =>
    exact .cons rfl (.primary (.field read isDot named))
      (value.append (name.tail.of_suffix read.suffix))
  | fieldGroup read isDot opens first others closes value name names =>
    have group := name.append (names.of_suffix first.suffix)
    exact .cons rfl (.primary (.fieldGroup read isDot opens first others closes))
      (value.append (group.tail.tail.of_suffix read.suffix))
  | optionalField read isMark named value name =>
    exact .cons rfl (.primary (.optionalField read isMark named))
      (value.append (name.tail.of_suffix read.suffix))
  | element read group nonempty value indices =>
    exact .cons rfl (.primary (.element read group nonempty))
      (value.append (indices.of_suffix read.suffix))
  | newArray read isType group nonempty called value dimensions values =>
    rw [Phrase.walk, Grammar.eq_identifier_of_knownType? isType] at value
    have sizes := dimensions.of_suffix read.suffix
    exact .cons rfl (.primary (.newArray read isType group nonempty called))
      ((value.type.append sizes).append (values.of_suffix (group.suffix.trans read.suffix)))
  | called read group callee arguments =>
    exact .applyCall (.primary (.called read group)) callee (arguments.of_suffix read.suffix)
  | primary _ value => exact value
  | @prefixed _ _ _ op value _ isPrefix read operand =>
    have derives := Derives.prefixed isPrefix read
    rw [Phrase.walk, Grammar.walk_applyPrefix]
    exact .cons rfl derives operand.tail
  | assignment left isOp goesOn isAssignable right target value =>
    exact .cons rfl (.assignment left isOp goesOn isAssignable right)
      (target.append (value.tail.of_suffix left.suffix))
  | binary left isOp goesOn right first second =>
    exact .cons rfl (.binary left isOp goesOn right)
      (first.append (second.tail.of_suffix left.suffix))
  | openEnd => exact .nil
  | closedEnd _ value => exact value
  | rangeFrom left isOp goesOn right lower upper =>
    exact .cons rfl (.rangeFrom left isOp goesOn right)
      (lower.append (upper.tail.of_suffix left.suffix))
  | rangeTo isOp right upper => exact .cons rfl (.rangeTo isOp right) upper.tail
  | switch isSwitch subject more isColon block first others arms =>
    have subjects := first.append (others.of_suffix subject.suffix)
    have inside := subjects.append (arms.tail.of_suffix (more.suffix.trans subject.suffix))
    exact .cons rfl (.switch isSwitch subject more isColon block) (.cons_none rfl inside.tail)
  | group _ _ _ values => exact values.tail
  | noneListed => exact .nil
  | lastListed _ value => exact value.append .nil
  | listed read _ _ value others => exact value.append (others.tail.of_suffix read.suffix)
  | noSubjects => exact .nil
  | subjects _ read _ value others => exact (value.append (others.of_suffix read.suffix)).tail
  | noArmsInLine => exact .nil
  | noArms => exact .nil
  | armBlock _ _ arms => exact arms.tail
  | armsEnd => exact .nil
  | armLine _ _ arms => exact arms.tail
  | arms first _ arm others => exact arm.append (others.of_suffix first.suffix)
  | arm matched isArrow done pattern body =>
    have acts : Rooted settings _ (.armBody _ :: _) := .cons rfl done body
    exact .cons rfl (.arm matched isArrow done)
      (pattern.append (acts.tail.of_suffix matched.suffix))
  | binding read name => exact .cons rfl (.binding read) name
  | literalPattern read value => exact .cons rfl (.literalPattern read) value
  | block _ _ _ statements =>
    exact .cons_none rfl (statements.tail.append (.cons_none rfl .nil))
  | expression _ _ value => exact .cons_none rfl value
  | throw _ _ _ value => exact .cons_none rfl value.tail
  | empty isSemicolon => exact .cons rfl (.empty isSemicolon) .nil
  | statement read action => exact .cons rfl (.statement read) action
  | noStatements => exact .nil
  | line _ _ statements => exact statements.tail
  | statements first _ statement others => exact statement.append (others.of_suffix first.suffix)
  | skipped _ _ others => exact others.of_suffix (List.suffix_append _ _)

end Offside
