import Offside.Proofs.Parser.Border
import Offside.Proofs.Parser.Foreseen
import Offside.Proofs.Parser.Spelled

/-!
Well-formed trees. What the rules of the parser see to in many places holds of every node of every
tree that is read from a text, whatever is wrong in the text besides: values are assigned to places,
lists that can not be empty are not, and known types are told apart from what is called.
-/

namespace Offside

section Definitions

variable {α : Type}

/-- What a value can be assigned to. -/
inductive Expr.IsPlace : Expr α → Prop
  | identifier (name : Identifier α) : IsPlace (.identifier name)
  | field (object : Expr α) (name : Identifier α) (span : α) : IsPlace (.field object name span)
  | element (array : Expr α) (indices : List (Expr α)) (span : α) :
      IsPlace (.element array indices span)

/-- The expression is well formed but for its parts. -/
def Expr.WellFormed (settings : Settings) : Expr α → Prop
  | .assignment _ target _ _ => target.IsPlace
  | .fieldGroup _ names _ => names ≠ []
  | .element _ indices _ => indices ≠ []
  | .newArray type dimensions _ _ => settings.isTypeName type.name = true ∧ dimensions ≠ []
  | .cast type _ _ => settings.isTypeName type.name = true
  | .initializer type values _ => settings.isTypeName type.name = true ∧ values.length ≠ 1
  | .call callee _ _ => ∀ name, callee = .identifier name → settings.isTypeName name.name = false
  | .switch subjects _ _ => subjects ≠ []
  | .literal _ | .identifier _ | .binary _ _ _ _ | .unary _ _ _ | .update _ _ _ _ | .field _ _ _
  | .optionalField _ _ _ | .unwrap _ _ | .unwrapWith _ _ _ | .extraction _ _ _
  | .range _ _ _ => True

/-- The text between two interpolations of a string is one fragment. -/
def Literal.WellFormed : Literal α → Prop
  | .string parts _ => StringPart.Apart parts
  | .integer _ _ | .float _ _ _ | .char _ _ | .boolean _ _ | .nothing _ | .placeholder _ => True

def Event.WellFormed (settings : Settings) : Event α → Prop
  | .expr value => value.WellFormed settings
  | .literal value => value.WellFormed
  | .file _ | .topLevel _ | .statement _ | .expressionStatement _ | .throwStatement _
  | .blockStart _ | .blockEnd | .identifier _ | .type _ | .switch _ _ | .arm _ | .pattern _
  | .armBody _ => True

theorem Expr.isPlace_of_isAssignable {target : Expr α} (isAssignable : target.isAssignable = true) :
    target.IsPlace := by
  cases target with
  | identifier name => exact .identifier name
  | field object name span => exact .field object name span
  | element array indices span => exact .element array indices span
  | _ => contradiction

end Definitions

variable {settings : Settings} {failed : Nat} {before after : List Token} {phrase : Phrase}

/-! ## Types -/

namespace Grammar

theorem isTypeName_of_knownType? {value : Expr Span} {type : Identifier Span}
    (isType : knownType? settings value = some type) : settings.isTypeName type.name = true := by
  unfold knownType? at isType
  split at isType
  next name =>
    split at isType
    next known => exact Option.some.inj isType ▸ known
    next => contradiction
  next => contradiction

theorem isTypeName_eq_false {name : Identifier Span}
    (noType : knownType? settings (.identifier name) = none) :
    settings.isTypeName name.name = false := by
  unfold knownType? at noType
  dsimp only at noType
  split at noType
  next => contradiction
  next unknown => exact eq_false_of_ne_true unknown

/-- Whatever is called, what is made of it is well formed. -/
theorem wellFormed_applyCall (callee : Expr Span) (arguments : List (Expr Span)) (span : Span) :
    (applyCall settings callee arguments span).WellFormed settings := by
  unfold applyCall
  split
  case h_1 isType => exact isTypeName_of_knownType? isType
  case h_2 isType several =>
    refine ⟨isTypeName_of_knownType? isType, fun single => ?_⟩
    obtain ⟨value, rfl⟩ := List.length_eq_one_iff.mp single
    exact several value rfl
  case h_3 noType =>
    rintro name rfl
    exact isTypeName_eq_false noType

end Grammar

/-! ## Phrases -/

/-- The expression that a phrase is, if it is one, is well formed but for its parts. -/
def Phrase.WellFormed (settings : Settings) : Phrase → Prop
  | .primary value | .expr value => value.WellFormed settings
  | _ => True

theorem Derives.wellFormed (derives : Derives settings failed before phrase after) :
    phrase.WellFormed settings := by
  induction derives with
  | parenthesized _ _ _ value => exact value
  | primary _ value => exact value
  | fieldGroup => exact List.cons_ne_nil _ _
  | element _ _ nonempty => exact nonempty
  | newArray _ isType _ nonempty _ => exact ⟨Grammar.isTypeName_of_knownType? isType, nonempty⟩
  | called => exact Grammar.wellFormed_applyCall _ _ _
  | @prefixed _ _ _ op =>
    cases op with
    | unary op => exact True.intro
    | update op => exact True.intro
  | assignment _ _ _ isAssignable => exact Expr.isPlace_of_isAssignable isAssignable
  | switch => exact List.cons_ne_nil _ _
  | _ => exact True.intro

/-- Every node of a tree that is read from a text, also if statements of the text are wrong, is
well formed. -/
theorem wellFormed_walk {cancelled : Bool} {source : List Char} {file : File Span}
    (read : (parse settings cancelled source).file? = some file) :
    ∀ event ∈ file.walk, event.WellFormed settings := by
  obtain ⟨_, _, _, derives⟩ := file_derived ⟨settings, cancelled, source⟩ read
  intro event met
  obtain rfl | ⟨_, _, rfl⟩ | met := File.walk_cases met
  · exact True.intro
  · exact True.intro
  · cases event with
    | expr value =>
      obtain ⟨_, _, _, _, derived⟩ := derives.rooted _ met _ rfl
      exact derived.wellFormed
    | literal value =>
      have spelled := @wellSpelled_walk ⟨settings, cancelled, source⟩ _ read _ met
      cases value with
      | string parts span => exact spelled
      | _ => exact True.intro
    | _ => exact True.intro

/-! ## A statement behind one that is wrong -/

namespace Input

def typing : Input :=
  .of ⟨8, ["T"], Nat.zero_lt_succ 7⟩ "]\nx[T(1), T()] = T[2](f(3)).(a, b)\n".toList

def typingTokens : List Token :=
  (typing.start.lexer.answers (List.replicate 31 false)).filterMap LexItem.token?

theorem answers_typing :
    typing.start.lexer.answers (List.replicate 31 false) = typingTokens.map .token := by
  decide +kernel

theorem length_typingTokens : typingTokens.length = 31 := by
  decide +kernel

theorem foreseen_typing :
    ((Grammar.file 60).run' (typing.foreseen typingTokens)).map
        (fun file => file.statements.map Statement.span) = some [⟨⟨2, 2, 1⟩, ⟨34, 2, 33⟩⟩] := by
  decide +kernel

/-- The first line is left out, and the second one is read. -/
theorem file_typing :
    ∃ file, (parse typing.settings typing.cancelled typing.source).file? = some file ∧
      file.statements.map Statement.span = [⟨⟨2, 2, 1⟩, ⟨34, 2, 33⟩⟩] := by
  obtain ⟨file, read, spans⟩ := Option.map_eq_some_iff.mp foreseen_typing
  have known : typing.start.lexer.answers
      (List.replicate typingTokens.length typing.cancelled) = typingTokens.map .token := by
    rw [length_typingTokens]
    exact answers_typing
  obtain ⟨found, isFile, _, same⟩ := file_of_foreseen known read
  exact ⟨found, isFile, same.trans spans⟩

end Input

theorem wellFormed_walk_typing :
    ∃ file, (parse Input.typing.settings Input.typing.cancelled
        Input.typing.source).file? = some file ∧
      file.statements.map Statement.span = [⟨⟨2, 2, 1⟩, ⟨34, 2, 33⟩⟩] ∧
      ∀ event ∈ file.walk, event.WellFormed Input.typing.settings := by
  obtain ⟨file, read, spans⟩ := Input.file_typing
  exact ⟨file, read, spans, wellFormed_walk read⟩

end Offside
