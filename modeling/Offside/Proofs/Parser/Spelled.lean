import Offside.Proofs.Lexer.Spelled
import Offside.Proofs.Parser.Leaves
import Offside.Proofs.Syntax.Legible

/-!
How trees of texts are spelled. Their names are those of tokens, and the fragments of their strings
are apart as those among the tokens are.
-/

namespace Offside

/-! ## Tokens -/

namespace Kind

def isFloat : Kind → Bool
  | .float _ _ => true
  | _ => false

/-- Text of a string with an opening brace in it. -/
def hasBrace : Kind → Bool
  | .stringFragment text => text.toList.contains '\x7b'
  | _ => false

end Kind

variable {settings : Settings} {input : Input} {file : File Span}

namespace Input

theorem named (input : Input) : ∀ token ∈ input.tokens, token.Named :=
  LexState.named_stream input.cancelled _

theorem apart (input : Input) : (input.tokens.map Token.kind).IsChain Kind.Apart :=
  LexState.isChain_stream input.cancelled
    (LexState.fits_of_outside .code LexMode.not_inString_nil) rfl

end Input

/-! ## Literals -/

theorem Token.isFloat_of_literal? {token : Token} {value : Binary64} {suffix : Option FloatSuffix}
    {span : Span} (isLiteral : token.literal? = some (.float value suffix span)) :
    token.kind.isFloat = true := by
  obtain ⟨kind, text, place⟩ := token
  cases kind <;> first | rfl | exact nomatch isLiteral

/-- Where a string starts with a fragment, so do its tokens. -/
theorem PartsOf.isFragment {parts : List (StringPart Span)} {inside : List Token}
    (partsOf : PartsOf settings parts inside) {part : StringPart Span} (isHead : part ∈ parts.head?)
    (isText : part.isInterpolation = false) :
    ∃ kind ∈ (inside.map Token.kind).head?, kind.isFragment = true := by
  cases partsOf with
  | nil => exact nomatch isHead
  | fragment isText _ => exact ⟨_, rfl, isText ▸ rfl⟩
  | interpolation =>
    obtain rfl := Option.some.inj isHead
    contradiction

/-- Parts are apart if their tokens are. -/
theorem PartsOf.apart {parts : List (StringPart Span)} {inside : List Token}
    (partsOf : PartsOf settings parts inside)
    (chain : (inside.map Token.kind).IsChain Kind.Apart) : StringPart.Apart parts := by
  induction partsOf with
  | nil => exact .nil
  | fragment isText others inductionHypothesis =>
    obtain ⟨next, chain⟩ := List.isChain_cons.mp chain
    refine List.isChain_cons.mpr ⟨fun part isNext => ?_, inductionHypothesis chain⟩
    by_contra bothText
    obtain ⟨_, isFragment⟩ := not_or.mp bothText
    obtain ⟨kind, isKind, isFragment⟩ := others.isFragment isNext (eq_false_of_ne_true isFragment)
    rcases next kind isKind with noFragment | noFragment
    · rw [isText] at noFragment
      contradiction
    · exact absurd (isFragment.symm.trans noFragment) Bool.noConfusion
  | interpolation _ _ _ _ _ others inductionHypothesis =>
    have behind := (List.isChain_cons.mp chain).2
    rw [List.map_append, List.map_cons] at behind
    exact List.isChain_cons.mpr ⟨fun _ _ => Or.inl rfl,
      inductionHypothesis (List.isChain_cons.mp behind.right_of_append).2⟩

/-- The text of the parts is that of tokens. -/
theorem PartsOf.noBrace {parts : List (StringPart Span)} {inside : List Token}
    (partsOf : PartsOf settings parts inside)
    (noBrace : ∀ token ∈ inside, token.kind.hasBrace = false) :
    parts.any StringPart.hasBrace = false := by
  induction partsOf with
  | nil => rfl
  | @fragment token text _ parts isText _ inductionHypothesis =>
    obtain ⟨first, others⟩ := List.forall_mem_cons.mp noBrace
    rw [isText] at first
    rw [List.any_cons, inductionHypothesis others, Bool.or_false]
    exact first
  | interpolation _ _ _ _ _ _ inductionHypothesis =>
    refine inductionHypothesis fun token member => noBrace token ?_
    exact List.mem_cons_of_mem _ (List.mem_append_right _ (List.mem_cons_of_mem _ member))

/-! ## Whole texts -/

/-- A string that is met is read from tokens between its ends. -/
theorem exists_partsOf
    (read : (parse input.settings input.cancelled input.source).file? = some file)
    {parts : List (StringPart Span)} {span : Span}
    (met : .literal (.string parts span) ∈ Statement.walkAll file.statements) :
    ∃ inside, inside <:+: input.tokens ∧ PartsOf input.settings parts inside := by
  obtain ⟨_, _, _, derives⟩ := file_derived input read
  have situated : Situated input.tokens := ⟨[], layoutOutside_tokens input⟩
  obtain ⟨_, _, after, suffix, string⟩ := derives.rooted _ met _ rfl
  obtain ⟨start, inside, last, rfl, _, _, _, partsOf⟩ := string.parts (situated.of_suffix suffix)
  exact ⟨inside, List.IsInfix.trans ⟨[start], last :: after, by simp⟩ suffix.isInfix, partsOf⟩

/-- All that is met in the tree of a text is spelled as its tokens are. -/
theorem wellSpelled_walk
    (read : (parse input.settings input.cancelled input.source).file? = some file) :
    ∀ event ∈ Statement.walkAll file.statements, event.WellSpelled := by
  obtain ⟨_, _, _, derives⟩ := file_derived input read
  intro event met
  cases event with
  | identifier name =>
    obtain ⟨_, first, _, suffix, derived⟩ := derives.rooted _ met _ rfl
    cases derived with
    | identifier isName => exact input.named _ (suffix.mem List.mem_cons_self) isName
  | literal value =>
    cases value with
    | string parts span =>
      obtain ⟨inside, isInside, partsOf⟩ := exists_partsOf read met
      have chain := List.IsChain.infix input.apart (isInside.map Token.kind)
      exact partsOf.apart chain
    | _ => exact True.intro
  | _ => exact True.intro

/-- Where no token is a floating point number, the tree has none. -/
theorem noFloat_walk
    (read : (parse input.settings input.cancelled input.source).file? = some file)
    (noFloat : ∀ token ∈ input.tokens, token.kind.isFloat = false) :
    ∀ event ∈ file.walk, event.isFloat = false := by
  obtain ⟨_, _, _, derives⟩ := file_derived input read
  intro event met
  by_contra isFloat
  obtain rfl | ⟨_, _, rfl⟩ | met := File.walk_cases met
  · contradiction
  · contradiction
  · unfold Event.isFloat at isFloat
    split at isFloat
    next =>
      obtain ⟨_, _, _, suffix, derived⟩ := derives.rooted _ met _ rfl
      cases derived with
      | simpleLiteral isLiteral =>
        have without := noFloat _ (suffix.mem List.mem_cons_self)
        rw [Token.isFloat_of_literal? isLiteral] at without
        contradiction
    next => contradiction

/-- Where no token is text of a string with an opening brace, the tree has no such text. -/
theorem noBrace_walk
    (read : (parse input.settings input.cancelled input.source).file? = some file)
    (noBrace : ∀ token ∈ input.tokens, token.kind.hasBrace = false) :
    ∀ event ∈ file.walk, event.hasBrace = false := by
  intro event met
  by_contra hasBrace
  obtain rfl | ⟨_, _, rfl⟩ | met := File.walk_cases met
  · contradiction
  · contradiction
  · unfold Event.hasBrace at hasBrace
    split at hasBrace
    next =>
      obtain ⟨inside, isInside, partsOf⟩ := exists_partsOf read met
      exact hasBrace (partsOf.noBrace fun token member => noBrace token (isInside.mem member))
    next => contradiction

end Offside
