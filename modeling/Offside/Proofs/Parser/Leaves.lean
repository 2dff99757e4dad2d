import Offside.Proofs.Parser.Enclosed

/-!
Names and literals. What is derived from some tokens has their names and literals in order, and all
of them unless some of the tokens were skipped behind a statement that was wrong.
-/

namespace Offside

/-- A name or a literal, whether it is written or met in a tree. A string stands for its start; what
is interpolated in it comes behind. -/
inductive Leaf
  | identifier (name : String)
  | integer (value : Int)
  | float (value : Binary64) (suffix : Option FloatSuffix)
  | char (value : Char)
  | string
  | boolean (value : Bool)
  | nothing
  | placeholder
deriving DecidableEq, Repr

section Definitions

variable {α : Type}

def Literal.leaf : Literal α → Leaf
  | .integer value _ => .integer value
  | .float value suffix _ => .float value suffix
  | .char value _ => .char value
  | .string _ _ => .string
  | .boolean value _ => .boolean value
  | .nothing _ => .nothing
  | .placeholder _ => .placeholder

def Event.leaf? : Event α → Option Leaf
  | .identifier name => some (.identifier name.name)
  | .literal value => some value.leaf
  | .file _ | .topLevel _ | .statement _ | .expressionStatement _ | .throwStatement _
  | .blockStart _ | .blockEnd | .expr _ | .type _ | .switch _ _ | .arm _ | .pattern _
  | .armBody _ => none

/-- The names and literals that are met. -/
def leaves (events : List (Event α)) : List Leaf :=
  events.filterMap Event.leaf?

end Definitions

def Kind.leaf? (text : String) : Kind → Option Leaf
  | .identifier => some (.identifier text)
  | .integer value => some (.integer value)
  | .float value suffix => some (.float value suffix)
  | .char value => some (.char value)
  | .stringStart => some .string
  | .boolean value => some (.boolean value)
  | .nothing => some .nothing
  | .placeholder => some .placeholder
  | _ => none

/-- The names and literals that are written. -/
def leavesOf (found : List Token) : List Leaf :=
  found.filterMap fun token => token.kind.leaf? token.text

section Leaves

variable {event : Event Span} {token : Token} {found : List Token}

@[simp] theorem leaves_nil : leaves ([] : List (Event Span)) = [] :=
  rfl

@[simp] theorem leaves_append (left right : List (Event Span)) :
    leaves (left ++ right) = leaves left ++ leaves right :=
  List.filterMap_append

@[simp] theorem leaves_cons (event : Event Span) (events : List (Event Span)) :
    leaves (event :: events) = event.leaf?.toList ++ leaves events := by
  unfold leaves
  rw [List.filterMap_cons]
  cases event.leaf? <;> rfl

theorem leavesOf_append (left right : List Token) :
    leavesOf (left ++ right) = leavesOf left ++ leavesOf right :=
  List.filterMap_append

theorem leavesOf_cons {leaf : Leaf} (isLeaf : token.kind.leaf? token.text = some leaf) :
    leavesOf (token :: found) = leaf :: leavesOf found :=
  List.filterMap_cons_some isLeaf

theorem leavesOf_skip (noLeaf : token.kind.leaf? token.text = none) :
    leavesOf (token :: found) = leavesOf found :=
  List.filterMap_cons_none noLeaf

theorem Kind.leaf?_of_prefix {kind : Kind} {op : PrefixOp}
    (isPrefix : PrefixOp.ofKind? kind = some op) (text : String) : kind.leaf? text = none := by
  unfold PrefixOp.ofKind? at isPrefix
  split at isPrefix
  case h_6 => contradiction
  all_goals rfl

theorem Kind.leaf?_of_infix {kind : Kind} {op : InfixOp}
    (isInfix : InfixOp.ofKind? kind = some op) (text : String) : kind.leaf? text = none := by
  unfold InfixOp.ofKind? at isInfix
  split at isInfix
  case h_23 => contradiction
  all_goals rfl

/-- A literal of a single token is met as it is written. -/
theorem Token.leaf?_of_literal? {literal : Literal Span}
    (isLiteral : token.literal? = some literal) :
    token.kind.leaf? token.text = some literal.leaf ∧ leaves literal.walk = [literal.leaf] := by
  obtain ⟨kind, text, span⟩ := token
  cases kind
  all_goals first | contradiction | obtain rfl := Option.some.inj isLiteral
  all_goals exact ⟨rfl, rfl⟩

end Leaves

/-! ## What is read and what is met -/

/-- The names and literals are in order among those of the tokens that are taken. They are all of
them unless an attempt at a statement failed. -/
def MetIn (failed : Nat) (before after : List Token) (met : List Leaf) : Prop :=
  ∃ taken, leavesOf before = taken ++ leavesOf after ∧ met.Sublist taken ∧
    (failed = 0 → met = taken)

namespace MetIn

variable {before middle after : List Token} {token : Token} {met more : List Leaf} {m n : Nat}

theorem nil : MetIn 0 after after [] :=
  ⟨[], rfl, .slnil, fun _ => rfl⟩

theorem append (metIn : MetIn m before middle met) (others : MetIn n middle after more) :
    MetIn (m + n) before after (met ++ more) := by
  obtain ⟨taken, whole, sublist, all⟩ := metIn
  obtain ⟨takenMore, wholeMore, sublistMore, allMore⟩ := others
  refine ⟨taken ++ takenMore, ?_, sublist.append sublistMore, fun none => ?_⟩
  · rw [whole, wholeMore, List.append_assoc]
  · rw [all (Nat.eq_zero_of_add_eq_zero_right none), allMore (Nat.eq_zero_of_add_eq_zero_left none)]

theorem leaf {leaf : Leaf} (isLeaf : token.kind.leaf? token.text = some leaf)
    (metIn : MetIn n before after met) : MetIn n (token :: before) after (leaf :: met) := by
  obtain ⟨taken, whole, sublist, all⟩ := metIn
  refine ⟨leaf :: taken, ?_, sublist.cons_cons leaf, fun none => ?_⟩
  · rw [leavesOf_cons isLeaf, whole, List.cons_append]
  · rw [all none]

theorem skip (noLeaf : token.kind.leaf? token.text = none) (metIn : MetIn n before after met) :
    MetIn n (token :: before) after met := by
  obtain ⟨taken, whole, others⟩ := metIn
  exact ⟨taken, (leavesOf_skip noLeaf).trans whole, others⟩

theorem skip_behind (metIn : MetIn n before (token :: after) met)
    (noLeaf : token.kind.leaf? token.text = none) : MetIn n before after met := by
  obtain ⟨taken, whole, others⟩ := metIn
  rw [leavesOf_skip noLeaf] at whole
  exact ⟨taken, whole, others⟩

/-- What is skipped is not met. -/
theorem skipped (skipped : List Token) (metIn : MetIn n before after met) :
    MetIn (m + 1 + n) (skipped ++ before) after met := by
  obtain ⟨taken, whole, sublist, _⟩ := metIn
  refine ⟨leavesOf skipped ++ taken, ?_, List.sublist_append_of_sublist_right sublist,
    fun none => absurd none (by omega)⟩
  rw [leavesOf_append, whole, List.append_assoc]

end MetIn

theorem Ends.metIn {value : Expr Span} {before after : List Token} {last : Option Span}
    (ends : Ends value before last after) : MetIn 0 before after [] := by
  cases ends with
  | semicolon isSemicolon => exact MetIn.nil.skip (isSemicolon ▸ rfl)
  | line isLine => exact MetIn.nil.skip (isLine ▸ rfl)
  | block => exact .nil
  | layout => exact .nil

theorem Grammar.leaves_applyCall (settings : Settings) (callee : Expr Span)
    (arguments : List (Expr Span)) (span : Span) :
    leaves (applyCall settings callee arguments span).walk =
      leaves callee.walk ++ leaves (Expr.walkAll arguments) := by
  obtain ⟨type, value, rfl, rfl, isCast⟩ | ⟨type, rfl, isInitializer⟩ | isCall :=
    applyCall_cases settings callee arguments span
  · simp [isCast, Expr.walk, Expr.walkAll, Identifier.walkType, Event.leaf?]
  · simp [isInitializer, Expr.walk, Identifier.walkType, Event.leaf?]
  · simp [isCall, Expr.walk, Event.leaf?]

variable {settings : Settings} {failed : Nat} {before after : List Token} {phrase : Phrase}

theorem Derives.metIn (derives : Derives settings failed before phrase after) :
    MetIn failed before after (leaves phrase.walk) := by
  induction derives with
  | identifier isName => exact MetIn.nil.leaf (isName ▸ rfl)
  | noNames => exact .nil
  | noNamesAfter isComma => exact MetIn.nil.skip (isComma ▸ rfl)
  | names isComma _ _ first others =>
    exact (first.append others).skip (isComma ▸ rfl)
  | simpleLiteral isLiteral =>
    obtain ⟨isLeaf, same⟩ := Token.leaf?_of_literal? isLiteral
    exact same ▸ MetIn.nil.leaf isLeaf
  | string isStart _ inside => exact inside.leaf (isStart ▸ rfl)
  | stringEnd isEnd => exact MetIn.nil.skip (isEnd ▸ rfl)
  | fragment isText _ others => exact others.skip (isText ▸ rfl)
  | interpolation opens _ closes _ inside others =>
    simpa [StringPart.walkAll, StringPart.walk] using
      ((inside.skip_behind (closes ▸ rfl)).append others).skip (opens ▸ rfl)
  | name _ read => simpa [Expr.walk, Event.leaf?] using read
  | literal _ read => simpa [Expr.walk, Event.leaf?] using read
  | parenthesized opens _ closes inside =>
    exact (inside.skip_behind (closes ▸ rfl)).skip (opens ▸ rfl)
  | updated _ isUpdate read =>
    simpa [Expr.walk, Event.leaf?] using read.skip_behind (Kind.leaf?_of_prefix isUpdate _)
  | unwrap _ isBang read =>
    simpa [Expr.walk, Event.leaf?] using read.skip_behind (isBang ▸ rfl)
  | unwrapWith _ isBang _ read group =>
    simpa [Expr.walk, Event.leaf?] using (read.skip_behind (isBang ▸ rfl)).append group
  | extraction _ isQuestion _ read group =>
    simpa [Expr.walk, Event.leaf?] using (read.skip_behind (isQuestion ▸ rfl)).append group
  | field _ isDot _ read named =>
    simpa [Expr.walk, Event.leaf?] using (read.skip_behind (isDot ▸ rfl)).append named
  | fieldGroup _ isDot opens _ _ closes read first others =>
    have object := (read.skip_behind (isDot ▸ rfl)).skip_behind (opens ▸ rfl)
    have both := (object.append first).append (others.skip_behind (closes ▸ rfl))
    simpa [Expr.walk, Event.leaf?] using both
  | optionalField _ isMark _ read named =>
    simpa [Expr.walk, Event.leaf?] using (read.skip_behind (isMark ▸ rfl)).append named
  | element _ _ _ read group => simpa [Expr.walk, Event.leaf?] using read.append group
  | newArray _ isType _ _ _ read group called =>
    have both := (read.append group).append called
    rw [Grammar.eq_identifier_of_knownType? isType] at both
    simpa [Expr.walk, Identifier.walkType, Event.leaf?] using both
  | called _ _ read group =>
    rw [Phrase.walk, Grammar.leaves_applyCall]
    exact read.append group
  | primary _ read => exact read
  | prefixed isPrefix _ read =>
    rw [Phrase.walk, Grammar.walk_applyPrefix]
    exact read.skip (Kind.leaf?_of_prefix isPrefix _)
  | assignment _ isOp _ _ _ left right =>
    simpa [Expr.walk, Event.leaf?] using
      (left.skip_behind (Kind.leaf?_of_infix isOp _)).append right
  | binary _ isOp _ _ left right =>
    simpa [Expr.walk, Event.leaf?] using
      (left.skip_behind (Kind.leaf?_of_infix isOp _)).append right
  | openEnd => exact .nil
  | closedEnd _ read => exact read
  | rangeFrom _ isOp _ _ left right =>
    simpa [Expr.walk, Expr.walkEnd, Event.leaf?] using
      (left.skip_behind (Kind.leaf?_of_infix isOp _)).append right
  | rangeTo isOp _ right =>
    simpa [Expr.walk, Expr.walkEnd, Event.leaf?] using right.skip (isOp ▸ rfl)
  | switch isSwitch _ _ isColon _ subject more block =>
    have subjects := subject.append (more.skip_behind (isColon ▸ rfl))
    simpa [Expr.walk, Expr.walkAll, Event.leaf?] using
      (subjects.append block).skip (isSwitch ▸ rfl)
  | group opens _ closes inside =>
    exact (inside.skip_behind (closes ▸ rfl)).skip (opens ▸ rfl)
  | noneListed => exact .nil
  | lastListed _ read => simpa [Expr.walkAll] using read
  | listed _ isComma _ read others =>
    simpa [Expr.walkAll] using (read.skip_behind (isComma ▸ rfl)).append others
  | noSubjects => exact .nil
  | subjects isComma _ _ read others =>
    simpa [Expr.walkAll] using (read.append others).skip (isComma ▸ rfl)
  | noArmsInLine isLine => exact MetIn.nil.skip (isLine ▸ rfl)
  | noArms => exact .nil
  | armBlock isIndent _ inside => exact inside.skip (isIndent ▸ rfl)
  | armsEnd isDedent => exact MetIn.nil.skip (isDedent ▸ rfl)
  | armLine isLine _ read => exact read.skip (isLine ▸ rfl)
  | arms _ _ first others => simpa [Arm.walkAll] using first.append others
  | arm _ isArrow _ matched done =>
    simpa [Arm.walk, Event.leaf?] using (matched.skip_behind (isArrow ▸ rfl)).append done
  | binding _ read => simpa [Pattern.walk, Event.leaf?] using read
  | literalPattern _ read => simpa [Pattern.walk, Event.leaf?] using read
  | block isIndent _ isDedent inside =>
    simpa [Action.walk, Event.leaf?] using
      (inside.skip_behind (isDedent ▸ rfl)).skip (isIndent ▸ rfl)
  | expression _ ends read =>
    simpa [Action.walk, Event.leaf?] using read.append ends.metIn
  | throw isThrow _ ends read =>
    simpa [Action.walk, Event.leaf?] using (read.append ends.metIn).skip (isThrow ▸ rfl)
  | empty isSemicolon => exact MetIn.nil.skip (isSemicolon ▸ rfl)
  | statement _ read => simpa [Statement.walk, Event.leaf?] using read
  | noStatements => exact .nil
  | line isLine _ read => exact read.skip (isLine ▸ rfl)
  | statements _ _ first others => simpa [Statement.walkAll] using first.append others
  | @skipped skipped _ _ _ _ _ _ _ others => exact others.skipped skipped

/-! ## The parts of strings -/

/-- The parts of a string are the fragments and interpolations of some tokens, in order. What is
interpolated is read from all tokens between the two ends. -/
inductive PartsOf (settings : Settings) : List (StringPart Span) → List Token → Prop
  | nil : PartsOf settings [] []
  | fragment {token : Token} {text : String} {rest : List Token} {parts : List (StringPart Span)}
    (isText : token.kind = .stringFragment text) (others : PartsOf settings parts rest) :
    PartsOf settings (.fragment text :: parts) (token :: rest)
  | interpolation {opening closing : Token} {inside rest behind : List Token} {value : Expr Span}
    {parts : List (StringPart Span)} (opens : opening.kind = .interpolationStart)
    (balanced : Balanced inside)
    (read : Derives settings 0 (inside ++ closing :: behind) (.expr value) (closing :: behind))
    (all : leaves value.walk = leavesOf inside) (closes : closing.kind = .interpolationEnd)
    (others : PartsOf settings parts rest) :
    PartsOf settings (.interpolation value :: parts) (opening :: (inside ++ closing :: rest))

/-- What the parts of a string are read from, and its end. -/
def Phrase.Parted (settings : Settings) (before after : List Token) : Phrase → Prop
  | .parts values span => ∃ inside last, before = inside ++ last :: after ∧
      last.kind = .stringEnd ∧ last.span = span ∧ PartsOf settings values inside
  | _ => True

theorem Derives.parted (derives : Derives settings failed before phrase after)
    (situated : Situated before) : phrase.Parted settings before after := by
  induction derives with
  | stringEnd isEnd => exact ⟨[], _, rfl, isEnd, rfl, .nil⟩
  | fragment isText _ others =>
    obtain ⟨inside, last, rfl, isEnd, span, parts⟩ := others situated.tail
    exact ⟨_ :: inside, last, rfl, isEnd, span, .fragment isText parts⟩
  | @interpolation opening closing rest middle _ value _ _ _ _ opens read closes _ _ others =>
    have inCode := read.nested .code Surroundings.noConfusion
    obtain ⟨taken, rfl, _, rfl, balanced⟩ :=
      situated.between (opens ▸ closes ▸ .interpolation) inCode
    obtain ⟨inside, last, rfl, isEnd, span, parts⟩ :=
      others (situated.tail.of_suffix read.suffix).tail
    obtain ⟨met, whole, _, all⟩ := read.metIn
    rw [leavesOf_append] at whole
    have same := (all rfl).trans (List.append_cancel_right whole).symm
    exact ⟨opening :: (taken ++ closing :: inside), last, by simp, isEnd, span,
      .interpolation opens balanced read same closes parts⟩
  | _ => exact True.intro

theorem Token.literal?_ne_string (token : Token) (parts : List (StringPart Span)) (span : Span) :
    token.literal? ≠ some (.string parts span) := by
  obtain ⟨kind, text, place⟩ := token
  cases kind <;> exact nofun

/-- A string is read from its start, from what its parts are read from, and from its end. -/
theorem Derives.parts {parts : List (StringPart Span)} {span : Span}
    (derives : Derives settings failed before (.literal (.string parts span)) after)
    (situated : Situated before) :
    ∃ start inside last, before = start :: (inside ++ last :: after) ∧
      start.kind = .stringStart ∧ last.kind = .stringEnd ∧ span = start.span.join last.span ∧
        PartsOf settings parts inside := by
  cases derives with
  | simpleLiteral isLiteral => exact absurd isLiteral (Token.literal?_ne_string _ _ _)
  | string isStart read =>
    obtain ⟨inside, last, rfl, isEnd, rfl, parts⟩ := read.parted situated.tail
    exact ⟨_, inside, last, rfl, isStart, isEnd, rfl, parts⟩

end Offside
