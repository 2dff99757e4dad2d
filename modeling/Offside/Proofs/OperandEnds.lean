import Offside.Proofs.Lexer.Signs
import Offside.Proofs.Parser.Operand
import Offside.Proofs.Parser.PhraseWalk
import Offside.Proofs.Parser.TopLevel

/-!
Where operands end. The lexer tells from the kind of the last token alone whether an operand ends
with it, and a sign or a point behind is an operator then. The parser knows what it has read.
Wherever it looks for what goes on with an operand the two agree, unless the operand ends with the
layout of a switch or with a range that has no upper end.
-/

namespace Offside

open ParserState Offside.Parser

/-- Whether the expression ends with a range that has no upper end, if it is not in parentheses. -/
def Expr.endsOpen {α : Type} : Expr α → Bool
  | .range _ none _ => true
  | .range _ (some upper) _ => upper.endsOpen
  | .assignment _ _ value _ => value.endsOpen
  | .binary _ _ right _ => right.endsOpen
  | .unary _ operand _ => operand.endsOpen
  | .update _ true operand _ => operand.endsOpen
  | _ => false

/-- The last token taken is one that an operand can end with. -/
def TakesOperand (before after : List Token) : Prop :=
  ∃ last, last :: after <:+ before ∧ last.kind.endsOperand = true

/-- The last token taken is the operator of a range. -/
def TakesRange (before after : List Token) : Prop :=
  ∃ last, last :: after <:+ before ∧ last.kind = .symbol .dotDot

/-- What an expression is read from ends with a range that has no upper end. -/
def TakesOpenRange (value : Expr Span) (before after : List Token) : Prop :=
  value.endsOpen = true ∧ TakesRange before after

variable {settings : Settings} {failed : Nat} {phrase : Phrase} {before middle after : List Token}
  {token : Token} {value part : Expr Span}

namespace TakesOperand

theorem of_last (suffix : token :: after <:+ before) (ends : token.kind.endsOperand = true) :
    TakesOperand before after :=
  ⟨token, suffix, ends⟩

theorem of_head (ends : token.kind.endsOperand = true) : TakesOperand (token :: after) after :=
  of_last List.suffix_rfl ends

theorem of_suffix (takes : TakesOperand middle after) (suffix : middle <:+ before) :
    TakesOperand before after := by
  obtain ⟨last, isLast, ends⟩ := takes
  exact ⟨last, isLast.trans suffix, ends⟩

theorem cons (takes : TakesOperand middle after) : TakesOperand (token :: middle) after :=
  takes.of_suffix (List.suffix_cons _ _)

end TakesOperand

theorem TakesOpenRange.of_suffix (takes : TakesOpenRange value middle after)
    (suffix : middle <:+ before) : TakesOpenRange value before after := by
  obtain ⟨isOpen, last, isLast, isRange⟩ := takes
  exact ⟨isOpen, last, isLast.trans suffix, isRange⟩

/-! ## Phrases -/

/-- The last token that a phrase is read from. -/
def Phrase.Ended (before after : List Token) : Phrase → Prop
  | .identifier _ | .literal _ | .parts _ _ | .primary _ => TakesOperand before after
  | .group _ closing _ _ =>
    (Kind.symbol closing).endsOperand = true → TakesOperand before after
  | .expr value | .upper (some value) => value.endsWithLayout = true ∨
    TakesOperand before after ∨ TakesOpenRange value before after
  | .upper none => after = before
  | _ => True

theorem Token.endsOperand_of_literal? {literal : Literal Span}
    (isLiteral : token.literal? = some literal) : token.kind.endsOperand = true := by
  obtain ⟨kind, text, span⟩ := token
  cases kind
  all_goals first | rfl | contradiction

theorem Kind.endsOperand_of_update {kind : Kind} {op : UpdateOp}
    (isUpdate : PrefixOp.ofKind? kind = some (.update op)) : kind.endsOperand = true := by
  unfold PrefixOp.ofKind? at isUpdate
  split at isUpdate
  all_goals first | rfl | contradiction | cases isUpdate

theorem Kind.eq_dotDot_of_range {kind : Kind} (isRange : InfixOp.ofKind? kind = some .range) :
    kind = .symbol .dotDot := by
  unfold InfixOp.ofKind? at isRange
  split at isRange
  all_goals first | rfl | contradiction

namespace Phrase.Ended

/-- An expression ends with its last part if it does so in the tree, too. -/
theorem of_part (ended : Phrase.Ended middle after (.expr part))
    (sameLayout : value.endsWithLayout = part.endsWithLayout)
    (sameOpen : value.endsOpen = part.endsOpen) (suffix : middle <:+ before) :
    Phrase.Ended before after (.expr value) := by
  rcases ended with layout | operand | openRange
  · exact Or.inl (sameLayout.trans layout)
  · exact Or.inr (Or.inl (operand.of_suffix suffix))
  · obtain ⟨isOpen, range⟩ := openRange.of_suffix suffix
    exact Or.inr (Or.inr ⟨sameOpen.trans isOpen, range⟩)

/-- A range ends with its upper end, or with the operator if there is none. -/
theorem of_upper {lower upper : Option (Expr Span)} {span : Span}
    (isRange : token.kind = .symbol .dotDot) (ended : Phrase.Ended middle after (.upper upper))
    (suffix : token :: middle <:+ before) :
    Phrase.Ended before after (.expr (.range lower upper span)) := by
  cases upper with
  | none =>
    obtain rfl : after = middle := ended
    exact Or.inr (Or.inr ⟨rfl, token, suffix, isRange⟩)
  | some upper => exact of_part ended rfl rfl ((List.suffix_cons _ _).trans suffix)

end Phrase.Ended

/-- Where an expression ends with no layout and no open range, it ends with a token that can end an
operand. Operands always do, whatever is in them. -/
theorem Derives.ended (derives : Derives settings failed before phrase after) :
    phrase.Ended before after := by
  induction derives with
  | identifier isName => exact .of_head (isName ▸ rfl)
  | simpleLiteral isLiteral => exact .of_head (Token.endsOperand_of_literal? isLiteral)
  | string _ _ inside => exact TakesOperand.cons inside
  | stringEnd isEnd => exact .of_head (isEnd ▸ rfl)
  | fragment _ _ others => exact TakesOperand.cons others
  | interpolation _ inside _ _ _ others =>
    exact (TakesOperand.of_suffix others ((List.suffix_cons _ _).trans inside.suffix)).cons
  | name _ read => exact read
  | literal _ read => exact read
  | parenthesized _ inside closes =>
    -- The tree does not tell of the parentheses, so what is in them may well end with a range.
    exact .of_last (inside.suffix.trans (List.suffix_cons _ _)) (closes ▸ rfl)
  | updated read isUpdate => exact .of_last read.suffix (Kind.endsOperand_of_update isUpdate)
  | unwrap read isBang => exact .of_last read.suffix (isBang ▸ rfl)
  | unwrapWith read _ _ _ group | extraction read _ _ _ group =>
    exact (TakesOperand.cons (group rfl)).of_suffix read.suffix
  | field read _ _ _ named | optionalField read _ _ _ named =>
    exact (TakesOperand.cons named).of_suffix read.suffix
  | fieldGroup read _ _ first others closes =>
    have names := others.suffix.trans first.suffix
    refine TakesOperand.of_suffix ?_ read.suffix
    exact (TakesOperand.of_last names (closes ▸ rfl)).cons.cons
  | element read _ _ _ group => exact TakesOperand.of_suffix (group rfl) read.suffix
  | newArray read _ group _ _ _ _ called =>
    exact TakesOperand.of_suffix (called rfl) (group.suffix.trans read.suffix)
  | called read _ _ group => exact TakesOperand.of_suffix (group rfl) read.suffix
  | primary _ read => exact Or.inr (Or.inl read)
  | @prefixed _ _ _ op _ _ _ _ read =>
    cases op with
    | unary => exact .of_part read rfl rfl (List.suffix_cons _ _)
    | update => exact .of_part read rfl rfl (List.suffix_cons _ _)
  | assignment left _ _ _ _ _ right | binary left _ _ _ _ right =>
    exact .of_part right rfl rfl ((List.suffix_cons _ _).trans left.suffix)
  | closedEnd _ read => exact read
  | openEnd => rfl
  | rangeFrom left isOp _ _ _ right =>
    exact .of_upper (Kind.eq_dotDot_of_range isOp) right left.suffix
  | rangeTo isOp _ right => exact .of_upper isOp right List.suffix_rfl
  | switch => exact Or.inl rfl
  | group _ inside closes =>
    exact fun ends => .of_last (inside.suffix.trans (List.suffix_cons _ _)) (closes ▸ ends)
  | _ => trivial

/-! ## Where the parser looks -/

/-- Behind an operand that was read, and behind all that it went on with so far, the parser looks
for what it can go on with. -/
inductive LooksForSuffix (input : Input) : Expr Span → ParserState → Prop
  | first {fuel : Nat} {state after : ParserState} {value : Expr Span}
    (visited : Visited input state) (read : Grammar.primary fuel state = .ok value after) :
    LooksForSuffix input value after
  | next {fuel : Nat} {state looked after : ParserState} {value longer : Expr Span} {kind : Kind}
    {rule : Nat → Expr Span → Parser (Expr Span)} (looks : LooksForSuffix input value state)
    (look : peekKind state = .ok kind looked) (isSuffix : kind.suffix? = some rule)
    (read : rule fuel value looked = .ok longer after) : LooksForSuffix input longer after

/-- Behind an expression that was read, and behind all operations that it was made a part of so
far, the parser looks for an operator that stands between operands, unless layout ends it. -/
inductive LooksForOperator (input : Input) : Expr Span → ParserState → Prop
  | first {fuel : Nat} {state after : ParserState} {value : Expr Span}
    (visited : Visited input state) (read : Grammar.operand fuel state = .ok value after) :
    LooksForOperator input value after
  | next {fuel : Nat} {state looked middle after : ParserState} {value longer : Expr Span}
    {kind : Kind} {op : InfixOp} {token : Token} (looks : LooksForOperator input value state)
    (goesOn : value.endsWithLayout = false) (look : peekKind state = .ok kind looked)
    (isOp : InfixOp.ofKind? kind = some op) (taken : consume looked = .ok token middle)
    (read : Grammar.applyInfix fuel op token.span value middle = .ok longer after) :
    LooksForOperator input longer after

variable {input : Input} {state : ParserState} {kind : Kind}

-- Rounds of the loops are told here by what they read. What they read it from is derived, from the
-- first look on, and that is all that has to be known of the rounds before.
/-- The state is behind tokens of the text from which a phrase is derived. -/
def ReadFrom (input : Input) (phrase : Phrase) (state : ParserState) : Prop :=
  ∃ origin failed, origin.ahead <:+ input.tokens ∧ Past input.settings failed origin state ∧
    Derives input.settings failed origin.ahead phrase state.ahead

theorem Extends.extendsAt {parser : Expr Span → Parser (Expr Span)}
    (goesOn : Extends settings parser .primary) : ExtendsAt settings kind parser :=
  fun _ _ _ _ _ _ _ _ past ahead _ derives => goesOn past (ahead ▸ derives)

theorem Kind.extendsAt_of_suffix? {rule : Nat → Expr Span → Parser (Expr Span)}
    (isSuffix : kind.suffix? = some rule) (fuel : Nat) :
    ExtendsAt settings kind (rule fuel) := by
  have sound := Grammar.sound settings fuel
  unfold Kind.suffix? at isSuffix
  split at isSuffix
  all_goals first | contradiction | obtain rfl := Option.some.inj isSuffix
  · exact extends_updated rfl
  · exact extends_updated rfl
  · exact sound.unwrapped
  · exact sound.extracted
  · exact extends_optionalField
  · exact sound.field
  · exact Extends.extendsAt sound.indexed
  · exact Extends.extendsAt sound.called

/-- What a rule reads from a state that can be met is derived from tokens of the text. -/
theorem Traces.readFrom {α : Type} {parser : Parser α} {phrase : α → Phrase} {value : α}
    {after : ParserState} (traces : Traces input.settings parser phrase)
    (visited : Visited input state) (read : parser state = .ok value after) :
    ReadFrom input (phrase value) after := by
  have sound := visited.sound
  have finds := traces (sound.settings ▸ Past.start sound.ready)
  rw [Finds, read] at finds
  obtain ⟨n, past, derives⟩ := finds
  exact ⟨state, n, sound.suffix, past.congr (Nat.zero_add n), derives⟩

theorem ReadFrom.look {looked : ParserState} (readFrom : ReadFrom input phrase state)
    (look : peekKind state = .ok kind looked) :
    ReadFrom input phrase looked ∧ ∃ token rest, looked.ahead = token :: rest ∧
      token.kind = kind := by
  obtain ⟨origin, failed, suffix, past, derives⟩ := readFrom
  have finds := finds_peekKind past
  rw [Finds, look] at finds
  obtain ⟨past, same, token, rest, ahead, isKind⟩ := finds
  exact ⟨⟨origin, failed, suffix, past, same ▸ derives⟩, token, rest, same.trans ahead, isKind⟩

theorem LooksForSuffix.readFrom (looks : LooksForSuffix input value state) :
    ReadFrom input (.primary value) state := by
  induction looks with
  | first visited read => exact Traces.readFrom (Grammar.sound _ _).primary visited read
  | @next fuel _ _ _ value _ _ _ _ look isSuffix read inductionHypothesis =>
    obtain ⟨⟨origin, failed, suffix, past, derives⟩, token, rest, ahead, isKind⟩ :=
      inductionHypothesis.look look
    rw [ahead] at derives
    have finds := Kind.extendsAt_of_suffix? isSuffix fuel (past.congr (Nat.zero_add _).symm) ahead
      isKind derives
    rw [Finds, read] at finds
    obtain ⟨n, past, derives⟩ := finds
    exact ⟨origin, n, suffix, past.congr (Nat.zero_add n), derives⟩

theorem LooksForOperator.readFrom (looks : LooksForOperator input value state) :
    ReadFrom input (.expr value) state := by
  induction looks with
  | first visited read => exact Traces.readFrom (Grammar.sound _ _).operand visited read
  | @next fuel _ _ _ _ value _ _ op token _ goesOn look isOp taken read inductionHypothesis =>
    obtain ⟨⟨origin, failed, suffix, past, derives⟩, next, rest, ahead, rfl⟩ :=
      inductionHypothesis.look look
    have notEnd : next.kind ≠ .endOfInput := by
      intro isEnd
      rw [isEnd] at isOp
      contradiction
    have takes := finds_consume_of_ahead past ahead notEnd
    rw [Finds, taken] at takes
    obtain ⟨rfl, past, shorter⟩ := takes
    rw [ahead, ← shorter] at derives
    have finds := (Grammar.sound input.settings fuel).applyInfix op
      (past.congr (Nat.zero_add _).symm) derives isOp goesOn
    rw [Finds, read] at finds
    obtain ⟨n, past, derives⟩ := finds
    exact ⟨origin, n, suffix, past.congr (Nat.zero_add n), derives⟩

/-- A run of the loop over what follows an operand ends where it looked last, at something that
nothing goes on with. -/
theorem LooksForSuffix.suffixes {fuel : Nat} {longer : Expr Span} {after : ParserState}
    (looks : LooksForSuffix input value state)
    (read : Grammar.suffixes fuel value state = .ok longer after) :
    ∃ last kind, LooksForSuffix input longer last ∧ peekKind last = .ok kind after ∧
      kind.suffix? = none := by
  induction fuel generalizing value state with
  | zero => contradiction
  | succ fuel inductionHypothesis =>
    rw [Grammar.suffixes_succ] at read
    obtain ⟨kind, looked, look, read⟩ := ok_of_bind read
    cases isSuffix : kind.suffix? with
    | none =>
      rw [isSuffix] at read
      cases read
      exact ⟨state, kind, looks, look, isSuffix⟩
    | some rule =>
      rw [isSuffix] at read
      obtain ⟨more, middle, ruled, later⟩ := ok_of_bind read
      exact inductionHypothesis (looks.next look isSuffix ruled) later

/-- A run of the loop over operators ends where it looked last, at something that is none or binds
too loosely, or where it does not look since layout ends the expression. -/
theorem LooksForOperator.climb {fuel minimum : Nat} {longer : Expr Span} {after : ParserState}
    (looks : LooksForOperator input value state)
    (read : Grammar.climb fuel minimum value state = .ok longer after) :
    ∃ last, LooksForOperator input longer last ∧ (longer.endsWithLayout = true ∧ after = last ∨
      longer.endsWithLayout = false ∧ ∃ kind, peekKind last = .ok kind after ∧
        kind.BindsBelow minimum) := by
  induction fuel generalizing value state with
  | zero => contradiction
  | succ fuel inductionHypothesis =>
    rw [Grammar.climb] at read
    by_cases layout : value.endsWithLayout = true
    · rw [if_pos layout] at read
      obtain ⟨rfl, rfl⟩ := EStateM.Result.ok.inj read
      exact ⟨state, looks, Or.inl ⟨layout, rfl⟩⟩
    · rw [if_neg layout] at read
      have goesOn : value.endsWithLayout = false := eq_false_of_ne_true layout
      obtain ⟨kind, looked, look, read⟩ := ok_of_bind read
      cases isOp : InfixOp.ofKind? kind with
      | none =>
        rw [isOp] at read
        obtain ⟨rfl, rfl⟩ := EStateM.Result.ok.inj read
        exact ⟨state, looks, Or.inr ⟨goesOn, kind, look, Kind.bindsBelow_of_none isOp⟩⟩
      | some op =>
        simp only [isOp] at read
        by_cases below : op.leftBinding < minimum
        · rw [if_pos below] at read
          obtain ⟨rfl, rfl⟩ := EStateM.Result.ok.inj read
          refine ⟨state, looks, Or.inr ⟨goesOn, kind, look, fun other isOther => ?_⟩⟩
          obtain rfl := Option.some.inj (isOp.symm.trans isOther)
          exact below
        · rw [if_neg below] at read
          obtain ⟨token, middle, taken, read⟩ := ok_of_bind read
          obtain ⟨more, later, applied, read⟩ := ok_of_bind read
          exact inductionHypothesis (looks.next goesOn look isOp taken applied) read

/-! ## Signs behind operands -/

theorem Input.keepsSigns (input : Input) :
    KeepsSigns (.ofSource input.source) none input.tokens :=
  LexState.keepsSigns_stream input.cancelled (tiled_ofSource _ input.source).located
    (LexState.fits_of_outside .code LexMode.not_inString_nil)
    fun inside => absurd inside LexMode.not_inString_nil

/-- The last token taken is one that the lexer knows an operand to end with. So no number starts
with a sign or a point behind it. -/
structure BehindOperand (input : Input) (state : ParserState) : Prop where
  takes : TakesOperand input.tokens state.ahead
  keepsSign : ∀ ⦃next looked⦄, peek state = .ok next looked →
    next.KeepsSign (.ofSource input.source)

theorem ReadFrom.behindOperand (readFrom : ReadFrom input phrase state)
    (takes : TakesOperand input.tokens state.ahead) : BehindOperand input state := by
  refine ⟨takes, fun next looked look => ?_⟩
  obtain ⟨origin, failed, _, past, _⟩ := readFrom
  have finds := finds_peek past
  rw [Finds, look] at finds
  obtain ⟨_, _, rest, ahead⟩ := finds
  obtain ⟨last, ⟨front, whole⟩, ends⟩ := takes
  have keeps := input.keepsSigns
  rw [← whole, ahead] at keeps
  exact keeps.of_adjacent ends

/-- Lexer and parser agree on where the operands of a text end. -/
structure OperandsAgree (input : Input) : Prop where
  /-- So they do behind an operand itself, whatever stands in it. -/
  suffix : ∀ ⦃value state⦄, LooksForSuffix input value state → BehindOperand input state
  /-- Behind an expression they do so unless it ends with a switch or with an open range. -/
  operator : ∀ ⦃value state⦄, LooksForOperator input value state →
    value.endsWithLayout = false → ¬ TakesOpenRange value input.tokens state.ahead →
      BehindOperand input state

/-- Wherever the parser looks for what goes on with an operand, the lexer was at the end of one. -/
theorem operandsAgree (input : Input) : OperandsAgree input where
  suffix value state looks := by
    obtain ⟨origin, failed, suffix, _, derives⟩ := looks.readFrom
    exact looks.readFrom.behindOperand (TakesOperand.of_suffix derives.ended suffix)
  operator value state looks noLayout noRange := by
    obtain ⟨origin, failed, suffix, _, derives⟩ := looks.readFrom
    rcases derives.ended with layout | operand | openRange
    · exact absurd (layout.symm.trans noLayout) Bool.noConfusion
    · exact looks.readFrom.behindOperand (operand.of_suffix suffix)
    · exact absurd (openRange.of_suffix suffix) noRange

end Offside
