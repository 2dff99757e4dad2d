import Offside.Proofs.Lexer.Interpolations
import Offside.Proofs.Parser.Derivation
import Offside.Syntax.Walk

/-!
How statements nest in tokens. What is derived from some tokens is made of single tokens, of
brackets and strings with what is between their ends, of blocks, and of statements and runs of
skipped tokens, which come only in blocks. So where a bracket is open, as it is inside of a string,
there is no statement.
-/

namespace Offside

open LexStream

namespace Event

/-- The span of a statement, or of what an arm does. -/
@[simp]
def act? : Event Span → Option Span
  | .statement value => some value.span
  | .armBody value => some value.span
  | _ => none

/-- The spans of what is done in a walk. -/
def acts (events : List (Event Span)) : List Span :=
  events.filterMap act?

@[simp] theorem acts_nil : acts [] = [] :=
  rfl

@[simp] theorem acts_append (left right : List (Event Span)) :
    acts (left ++ right) = acts left ++ acts right :=
  List.filterMap_append

@[simp] theorem acts_cons (event : Event Span) (events : List (Event Span)) :
    acts (event :: events) = event.act?.toList ++ acts events := by
  unfold acts
  rw [List.filterMap_cons]
  cases event.act? <;> rfl

theorem acts_identifiers (names : List (Identifier Span)) :
    acts (names.map .identifier) = [] := by
  induction names with
  | nil => rfl
  | cons name names inductionHypothesis => exact inductionHypothesis

end Event

namespace Phrase

/-- The spans of what is done in a phrase. -/
@[simp]
def acts : Phrase → List Span
  | .identifier _ | .names _ => []
  | .literal value => Event.acts value.walk
  | .parts values _ => Event.acts (StringPart.walkAll values)
  | .primary value | .expr value => Event.acts value.walk
  | .upper value => Event.acts (Expr.walkEnd value)
  | .group _ _ values _ | .listed values | .subjects values => Event.acts (Expr.walkAll values)
  | .armBlock values | .arms values => Event.acts (Arm.walkAll values)
  | .arm value => Event.acts value.walk
  | .pattern value => Event.acts value.walk
  | .action value => Event.acts value.walk
  | .statement value => Event.acts value.walk
  | .statements values => Event.acts (Statement.walkAll values)

/-- The span of a phrase that does something. -/
def act? : Phrase → Option Span
  | .action value => some value.span
  | .statement value => some value.span
  | _ => none

end Phrase

namespace Kind

/-- Kinds of tokens that open and close nothing. -/
structure IsSingle (kind : Kind) : Prop where
  structural : kind.isStructural = false
  brackets : ∀ brackets, kind.bracketsAfter brackets = brackets
  noStart : kind ≠ .stringStart
  noEnd : kind ≠ .stringEnd

/-- Kinds of tokens that open and close a bracket. -/
inductive Encloses : Kind → Kind → Prop
  | parens : Encloses (.symbol .leftParen) (.symbol .rightParen)
  | brackets : Encloses (.symbol .leftBracket) (.symbol .rightBracket)
  | interpolation : Encloses .interpolationStart .interpolationEnd

end Kind

/-- What the tokens are directly inside of. -/
inductive Surroundings
  | string
  | code
  | block

/-- What is derived from some tokens, by the tokens that enclose others, with the number of attempts
at statements that failed and the spans of what is done. That comes only in blocks, and layout does
not come directly inside of a string. -/
inductive Nests (settings : Settings) :
    Surroundings → Nat → List Token → List Token → List Span → Prop
  | nil {around : Surroundings} {after : List Token} : Nests settings around 0 after after []
  | append {around : Surroundings} {m n : Nat} {before middle after : List Token}
    {acts more : List Span} (first : Nests settings around m before middle acts)
    (second : Nests settings around n middle after more) :
    Nests settings around (m + n) before after (acts ++ more)
  | single {around : Surroundings} {token : Token} {after : List Token}
    (single : token.kind.IsSingle) : Nests settings around 0 (token :: after) after []
  | line {around : Surroundings} {token : Token} {after : List Token}
    (isLine : token.kind = .newline) (outside : around ≠ .string) :
    Nests settings around 0 (token :: after) after []
  | enclosed {around : Surroundings} {n : Nat} {opening closing : Token} {rest after : List Token}
    {acts : List Span} (encloses : Kind.Encloses opening.kind closing.kind)
    (inside : Nests settings .code n rest (closing :: after) acts) :
    Nests settings around n (opening :: rest) after acts
  | string {around : Surroundings} {n : Nat} {start last : Token} {rest after : List Token}
    {acts : List Span} (isStart : start.kind = .stringStart)
    (inside : Nests settings .string n rest (last :: after) acts) (isEnd : last.kind = .stringEnd) :
    Nests settings around n (start :: rest) after acts
  | block {around : Surroundings} {n : Nat} {first last : Token} {rest after : List Token}
    {acts : List Span} (isIndent : first.kind = .indent)
    (inside : Nests settings .block n rest (last :: after) acts) (isDedent : last.kind = .dedent)
    (outside : around ≠ .string) : Nests settings around n (first :: rest) after acts
  | act {n : Nat} {before after : List Token} {phrase : Phrase} {span : Span} {acts : List Span}
    (derives : Derives settings n before phrase after) (isAct : phrase.act? = some span)
    (inside : Nests settings .block n before after acts) :
    Nests settings .block n before after (span :: acts)
  | skipped {n : Nat} {skipped after : List Token} (resumes : ResumesAt skipped after) :
    Nests settings .block (n + 1) (skipped ++ after) after []

namespace Nests

variable {settings : Settings} {around : Surroundings} {n : Nat} {before middle after : List Token}
  {token : Token} {acts : List Span}

/-- A single token in front. -/
theorem cons (isSingle : token.kind.IsSingle) (nests : Nests settings around n before after acts) :
    Nests settings around n (token :: before) after acts := by
  have both := (single isSingle).append nests
  rwa [Nat.zero_add] at both

/-- A single token behind. -/
theorem concat (nests : Nests settings around n before (token :: after) acts)
    (isSingle : token.kind.IsSingle) : Nests settings around n before after acts := by
  have both := nests.append (single isSingle)
  rwa [List.append_nil] at both

/-- A line break in front. -/
theorem consLine (isLine : token.kind = .newline)
    (nests : Nests settings .block n before after acts) :
    Nests settings .block n (token :: before) after acts := by
  have both := (line isLine Surroundings.noConfusion).append nests
  rwa [Nat.zero_add] at both

/-- Tokens without anything that is done in front. -/
theorem behind {m : Nat} (first : Nests settings around m before middle [])
    (second : Nests settings around n middle after acts) :
    Nests settings around (m + n) before after acts :=
  first.append second

end Nests

/-- How a phrase nests in the tokens that it is derived from. The end of a string and of a block of
arms is left out. -/
def Phrase.Nested (settings : Settings) (n : Nat) (before after : List Token) : Phrase → Prop
  | .parts values last => ∃ closing, closing.kind = .stringEnd ∧
      Nests settings .string n before (closing :: after) (Phrase.parts values last).acts
  | .arms values => ∃ closing, closing.kind = .dedent ∧
      Nests settings .block n before (closing :: after) (Phrase.arms values).acts
  | .arm value => Nests settings .block n before after (Phrase.arm value).acts
  | .action value => Nests settings .block n before after (Phrase.action value).acts
  | .statement value => Nests settings .block n before after (Phrase.statement value).acts
  | .statements values => Nests settings .block n before after (Phrase.statements values).acts
  | .group opening closing values span =>
    Kind.Encloses (.symbol opening) (.symbol closing) → ∀ around ≠ .string,
      Nests settings around n before after (Phrase.group opening closing values span).acts
  | phrase => ∀ around ≠ .string, Nests settings around n before after phrase.acts

/-! ## Derivations -/

theorem Token.isSingle_of_literal? {token : Token} {literal : Literal Span}
    (isLiteral : token.literal? = some literal) :
    token.kind.IsSingle ∧ Event.acts literal.walk = [] := by
  obtain ⟨kind, text, span⟩ := token
  cases kind
  all_goals first | contradiction | obtain rfl := Option.some.inj isLiteral
  all_goals exact ⟨⟨rfl, fun _ => rfl, Kind.noConfusion, Kind.noConfusion⟩, rfl⟩

namespace Kind

theorem isSingle_identifier : IsSingle .identifier :=
  ⟨rfl, fun _ => rfl, Kind.noConfusion, Kind.noConfusion⟩

theorem isSingle_keyword (keyword : Keyword) : IsSingle (.keyword keyword) :=
  ⟨rfl, fun _ => rfl, Kind.noConfusion, Kind.noConfusion⟩

theorem isSingle_fragment (text : String) : IsSingle (.stringFragment text) :=
  ⟨rfl, fun _ => rfl, Kind.noConfusion, Kind.noConfusion⟩

/-- A symbol that is no bracket. -/
theorem isSingle_symbol {symbol : Symbol}
    (noBracket : ∀ brackets, (Kind.symbol symbol).bracketsAfter brackets = brackets) :
    IsSingle (.symbol symbol) :=
  ⟨rfl, noBracket, Kind.noConfusion, Kind.noConfusion⟩

theorem isSingle_of_prefix {kind : Kind} {op : PrefixOp}
    (isPrefix : PrefixOp.ofKind? kind = some op) : kind.IsSingle := by
  unfold PrefixOp.ofKind? at isPrefix
  split at isPrefix
  case h_6 => contradiction
  all_goals exact ⟨rfl, fun _ => rfl, Kind.noConfusion, Kind.noConfusion⟩

theorem isSingle_of_infix {kind : Kind} {op : InfixOp}
    (isInfix : InfixOp.ofKind? kind = some op) : kind.IsSingle := by
  unfold InfixOp.ofKind? at isInfix
  split at isInfix
  case h_23 => contradiction
  all_goals exact ⟨rfl, fun _ => rfl, Kind.noConfusion, Kind.noConfusion⟩

end Kind

/-- Only names are known to be types. -/
theorem Grammar.eq_identifier_of_knownType? {settings : Settings} {value : Expr Span}
    {type : Identifier Span} (isType : Grammar.knownType? settings value = some type) :
    value = .identifier type := by
  unfold Grammar.knownType? at isType
  split at isType
  next name =>
    split at isType
    next => rw [Option.some.inj isType]
    next => contradiction
  next => contradiction

/-- An expression that is called does what is done in it and in its arguments. -/
theorem Grammar.acts_applyCall (settings : Settings) (callee : Expr Span)
    (arguments : List (Expr Span)) (span : Span) :
    Event.acts (Grammar.applyCall settings callee arguments span).walk =
      Event.acts callee.walk ++ Event.acts (Expr.walkAll arguments) := by
  unfold Grammar.applyCall
  split
  case h_1 isType =>
    rw [eq_identifier_of_knownType? isType]
    simp [Expr.walk, Expr.walkAll, Identifier.walkType]
  case h_2 isType _ =>
    rw [eq_identifier_of_knownType? isType]
    simp [Expr.walk, Identifier.walkType]
  case h_3 => simp [Expr.walk]

theorem Grammar.acts_applyPrefix (op : PrefixOp) (operand : Expr Span) (span : Span) :
    Event.acts (Grammar.applyPrefix op operand span).walk = Event.acts operand.walk := by
  cases op <;> rfl

theorem Ends.nests {settings : Settings} {value : Expr Span} {before after : List Token}
    {last : Option Span} (ends : Ends value before last after) :
    Nests settings .block 0 before after [] := by
  cases ends with
  | semicolon isSemicolon => exact .single (isSemicolon ▸ Kind.isSingle_symbol fun _ => rfl)
  | line isLine => exact .line isLine Surroundings.noConfusion
  | block => exact .nil
  | layout => exact .nil

variable {settings : Settings} {failed : Nat} {before after : List Token} {phrase : Phrase}

theorem Derives.nested (derives : Derives settings failed before phrase after) :
    phrase.Nested settings failed before after := by
  have inCode : Surroundings.code ≠ .string := Surroundings.noConfusion
  have inBlock : Surroundings.block ≠ .string := Surroundings.noConfusion
  have symbol {token : Token} {symbol : Symbol} (isSymbol : token.kind = .symbol symbol)
      (noBracket : ∀ brackets, (Kind.symbol symbol).bracketsAfter brackets = brackets) :
      token.kind.IsSingle :=
    isSymbol ▸ Kind.isSingle_symbol noBracket
  have encloses {first last : Token} {opening closing : Kind} (opens : first.kind = opening)
      (closes : last.kind = closing) (encloses : Kind.Encloses opening closing) :
      Kind.Encloses first.kind last.kind :=
    opens ▸ closes ▸ encloses
  induction derives with
  | identifier isName => exact fun _ _ => .single (isName ▸ Kind.isSingle_identifier)
  | noNames => exact fun _ _ => .nil
  | noNamesAfter isComma => exact fun _ _ => .single (symbol isComma fun _ => rfl)
  | names isComma _ _ first others =>
    intro around outside
    exact .cons (symbol isComma fun _ => rfl)
      ((first around outside).append (others around outside))
  | simpleLiteral isLiteral =>
    intro around outside
    obtain ⟨single, nothing⟩ := Token.isSingle_of_literal? isLiteral
    rw [Phrase.acts, nothing]
    exact .single single
  | string isStart _ inside =>
    intro around outside
    obtain ⟨closing, isEnd, inside⟩ := inside
    simpa [Literal.walk] using Nests.string isStart inside isEnd
  | stringEnd isEnd => exact ⟨_, isEnd, .nil⟩
  | fragment isText _ others =>
    obtain ⟨closing, isEnd, others⟩ := others
    refine ⟨closing, isEnd, ?_⟩
    simpa [StringPart.walkAll, StringPart.walk] using
      others.cons (isText ▸ Kind.isSingle_fragment _)
  | interpolation opens _ closes _ inside others =>
    obtain ⟨closing, isEnd, others⟩ := others
    refine ⟨closing, isEnd, ?_⟩
    have code : Nests _ .string _ _ _ _ :=
      .enclosed (encloses opens closes .interpolation) (inside .code inCode)
    simpa [StringPart.walkAll, StringPart.walk] using code.append others
  | name _ read => simpa [Phrase.Nested, Expr.walk] using read
  | literal _ read => simpa [Phrase.Nested, Expr.walk] using read
  | parenthesized opens _ closes inside =>
    exact fun _ _ => .enclosed (encloses opens closes .parens) (inside .code inCode)
  | updated _ isUpdate read =>
    intro around outside
    simpa [Expr.walk] using (read around outside).concat (Kind.isSingle_of_prefix isUpdate)
  | unwrap _ isBang read =>
    intro around outside
    simpa [Expr.walk] using (read around outside).concat (symbol isBang fun _ => rfl)
  | unwrapWith _ isBang _ read group =>
    intro around outside
    have marked := (read around outside).concat (symbol isBang fun _ => rfl)
    simpa [Expr.walk] using marked.append (group .parens around outside)
  | extraction _ isQuestion _ read group =>
    intro around outside
    have marked := (read around outside).concat (symbol isQuestion fun _ => rfl)
    simpa [Expr.walk] using marked.append (group .parens around outside)
  | field _ isDot _ read named =>
    intro around outside
    have marked := (read around outside).concat (symbol isDot fun _ => rfl)
    simpa [Expr.walk] using marked.append (named around outside)
  | fieldGroup _ isDot opens _ _ closes read first others =>
    intro around outside
    have inside := (first .code inCode).append (others .code inCode)
    have group : Nests _ around _ _ _ _ := .enclosed (encloses opens closes .parens) inside
    have both := ((read around outside).concat (symbol isDot fun _ => rfl)).append group
    rw [← Nat.add_assoc] at both
    simpa [Expr.walk, Event.acts_identifiers] using both
  | optionalField _ isMark _ read named =>
    intro around outside
    have marked := (read around outside).concat (symbol isMark fun _ => rfl)
    simpa [Expr.walk] using marked.append (named around outside)
  | element _ _ _ read group =>
    intro around outside
    simpa [Expr.walk] using (read around outside).append (group .brackets around outside)
  | newArray _ isType _ _ _ read group called =>
    intro around outside
    have sized := (read around outside).append (group .brackets around outside)
    have both := sized.append (called .parens around outside)
    rw [Grammar.eq_identifier_of_knownType? isType] at both
    simpa [Expr.walk, Identifier.walkType] using both
  | called _ _ read group =>
    intro around outside
    simpa [Grammar.acts_applyCall] using (read around outside).append (group .parens around outside)
  | primary _ read => exact read
  | prefixed isPrefix _ read =>
    intro around outside
    rw [Phrase.acts, Grammar.acts_applyPrefix]
    exact (read around outside).cons (Kind.isSingle_of_prefix isPrefix)
  | assignment _ isOp _ _ _ left right =>
    intro around outside
    have marked := (left around outside).concat (Kind.isSingle_of_infix isOp)
    simpa [Expr.walk] using marked.append (right around outside)
  | binary _ isOp _ _ left right =>
    intro around outside
    have marked := (left around outside).concat (Kind.isSingle_of_infix isOp)
    simpa [Expr.walk] using marked.append (right around outside)
  | openEnd => exact fun _ _ => .nil
  | closedEnd _ read => exact read
  | rangeFrom _ isOp _ _ left right =>
    intro around outside
    have marked := (left around outside).concat (Kind.isSingle_of_infix isOp)
    simpa [Expr.walk, Expr.walkEnd] using marked.append (right around outside)
  | rangeTo isOp _ right =>
    intro around outside
    simpa [Expr.walk, Expr.walkEnd] using (right around outside).cons (symbol isOp fun _ => rfl)
  | switch isSwitch _ _ isColon _ subject more block =>
    intro around outside
    have subjects := (subject around outside).append
      ((more around outside).concat (symbol isColon fun _ => rfl))
    have both := (subjects.append (block around outside)).cons (isSwitch ▸ Kind.isSingle_keyword _)
    simpa [Expr.walk, Expr.walkAll] using both
  | group opens _ closes inside =>
    exact fun isGroup _ _ => .enclosed (encloses opens closes isGroup) (inside .code inCode)
  | noneListed => exact fun _ _ => .nil
  | lastListed _ read => simpa [Phrase.Nested, Expr.walkAll] using read
  | listed _ isComma _ read others =>
    intro around outside
    have marked := (read around outside).concat (symbol isComma fun _ => rfl)
    simpa [Expr.walkAll] using marked.append (others around outside)
  | noSubjects => exact fun _ _ => .nil
  | subjects isComma _ _ read others =>
    intro around outside
    have both := (read around outside).append (others around outside)
    simpa [Expr.walkAll] using both.cons (symbol isComma fun _ => rfl)
  | noArmsInLine isLine => exact fun _ outside => .line isLine outside
  | noArms => exact fun _ _ => .nil
  | armBlock isIndent _ inside =>
    intro around outside
    obtain ⟨closing, isDedent, inside⟩ := inside
    exact .block isIndent inside isDedent outside
  | armsEnd isDedent => exact ⟨_, isDedent, .nil⟩
  | armLine isLine _ read =>
    obtain ⟨closing, isDedent, read⟩ := read
    exact ⟨closing, isDedent, read.consLine isLine⟩
  | arms _ _ first others =>
    obtain ⟨closing, isDedent, others⟩ := others
    refine ⟨closing, isDedent, ?_⟩
    simpa [Arm.walkAll] using Nests.append first others
  | arm _ isArrow done matched acts =>
    have body := Nests.act done rfl acts
    have marked := (matched .block inBlock).concat (symbol isArrow fun _ => rfl)
    simpa [Phrase.Nested, Arm.walk] using marked.append body
  | binding _ read => simpa [Phrase.Nested, Pattern.walk] using read
  | literalPattern _ read => simpa [Phrase.Nested, Pattern.walk] using read
  | block isIndent _ isDedent inside =>
    simpa [Phrase.Nested, Action.walk] using
      Nests.block isIndent inside isDedent inBlock
  | expression _ ends read =>
    simpa [Phrase.Nested, Action.walk] using (read .block inBlock).append ends.nests
  | throw isThrow _ ends read =>
    have both := (read .block inBlock).append ends.nests
    simpa [Phrase.Nested, Action.walk] using both.cons (isThrow ▸ Kind.isSingle_keyword _)
  | empty isSemicolon =>
    exact .act (.empty isSemicolon) rfl (.single (symbol isSemicolon fun _ => rfl))
  | statement derives read => exact .act (.statement derives) rfl read
  | noStatements => exact .nil
  | line isLine _ read => exact Nests.consLine isLine read
  | statements _ _ first others =>
    simpa [Phrase.Nested, Statement.walkAll] using Nests.append first others
  | skipped resumes _ others => exact (Nests.skipped resumes).behind others

end Offside