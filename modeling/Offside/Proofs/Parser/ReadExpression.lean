import Offside.Proofs.Parser.ReadAtom

/-!
Reading expressions as they are written: every form is read back if what it is made of is, and so
are all expressions without types and switches.
-/

namespace Offside

open Lexeme

/-! ## Lists of expressions -/

/-- Expressions between commas are read back up to a delimiter. -/
def Expr.ReadableAll (settings : Settings) (exprs : List (Expr Unit)) : Prop :=
  ∀ ⦃state closing rest⦄, (Kind.symbol closing).endsExpression = true → closing ≠ .comma →
    Sees settings (Expr.lexemesAll exprs ++ symbol closing :: rest) state →
      Delivers settings (fun fuel => Grammar.listed fuel closing) state
        (fun read => Expr.eraseAll read = exprs) (symbol closing :: rest)

namespace Expr

variable {settings : Settings} {exprs : List (Expr Unit)}

theorem readableAll_nil : ReadableAll settings [] := by
  intro state closing rest ends noComma sees
  apply Delivers.succ
  simp only [Grammar.listed]
  refine (sees.check _).bind fun closes _ same sees => ?_
  simp only [same, decide_eq_true (show (symbol closing).kind = .symbol closing from rfl)]
  exact Delivers.pure sees rfl

theorem readableAll_cons {expr : Expr Unit} (readable : expr.Readable settings)
    (later : ReadableAll settings exprs) : ReadableAll settings (expr :: exprs) := by
  intro state closing rest ends noComma sees
  obtain ⟨first, more, lexemes, starts⟩ := readable.starts
  have goesOn : first.kind ≠ .symbol closing := by
    rintro same
    rw [same, Kind.startsExpression_of_endsExpression ends] at starts
    contradiction
  have another : (symbol closing).kind ≠ .symbol .comma := by
    rintro same
    exact noComma (Kind.symbol.inj same)
  apply Delivers.succ
  simp only [Grammar.listed]
  rw [lexemesAll, List.append_assoc, lexemes, List.cons_append] at sees
  refine (sees.check _).bind fun closes _ same sees => ?_
  simp only [same, decide_eq_false goesOn]
  rw [← List.cons_append, ← lexemes] at sees
  cases exprs with
  | nil =>
    refine (Delivers.within sees fun named sees => readable.whole ends sees).bind
      fun read _ sameValue sees => ?_
    refine (sees.consumeOther another).bind fun comma _ missing sees => ?_
    rw [missing]
    exact Delivers.pure sees (by rw [eraseAll, sameValue]; rfl)
  | cons second exprs =>
    refine (Delivers.within sees fun named sees => readable.whole rfl sees).bind
      fun read _ sameValue sees => ?_
    refine (sees.consumeKind Kind.noConfusion).bind fun comma _ found sees => ?_
    simp only [if_pos found]
    refine (later ends noComma sees).bind fun others _ same sees => ?_
    exact Delivers.pure sees (by rw [eraseAll, sameValue, same])

end Expr

theorem Sees.delimited {settings : Settings} {exprs : List (Expr Unit)} {state : ParserState}
    {opening closing : Symbol} {rest : List Lexeme} (readable : Expr.ReadableAll settings exprs)
    (ends : (Kind.symbol closing).endsExpression = true) (noComma : closing ≠ .comma)
    (sees : Sees settings (bracketed opening closing (Expr.lexemesAll exprs) ++ rest) state) :
    Delivers settings (fun fuel => Grammar.delimited fuel opening closing) state
      (fun read => Expr.eraseAll read.1 = exprs) rest := by
  rw [bracketed, List.cons_append, List.append_assoc] at sees
  apply Delivers.succ
  simp only [Grammar.delimited]
  refine (sees.expect Kind.noConfusion).bind fun first _ _ sees => ?_
  refine (readable ends noComma sees).bind fun values _ same sees => ?_
  refine (sees.expect Kind.noConfusion).bind fun last _ _ sees => ?_
  exact Delivers.pure sees same

/-! ## Operators -/

namespace Expr

variable {settings : Settings}

theorem starts_append {operand : Expr Unit} (readable : operand.Readable settings)
    (more : List Lexeme) :
    ∃ first others, operand.enclosed operand.lexemes ++ more = first :: others ∧
      first.kind.startsExpression = true := by
  obtain ⟨first, others, lexemes, starts⟩ := readable.startsEnclosed
  rw [lexemes]
  exact ⟨first, others ++ more, rfl, Kind.startsExpression_of_startsPrimary starts⟩

theorem ofKind?_assignOp (op : AssignOp) :
    InfixOp.ofKind? (assignOp op).kind = some (.assign op) := by
  cases op <;> rfl

theorem ofKind?_binaryOp (op : BinaryOp) :
    InfixOp.ofKind? (binaryOp op).kind = some (.binary op) := by
  cases op <;> rfl

theorem readable_assignment (op : AssignOp) {target value : Expr Unit}
    (readableTarget : target.Readable settings) (assignable : target.isAssignable = true)
    (readableValue : value.Readable settings) :
    (Expr.assignment op target value ()).Readable settings := by
  refine .of_compound rfl (starts_append readableTarget _) readableValue.noLayout ?_
  intro state next others ends sees
  rw [lexemes, List.append_assoc] at sees
  have isInfix := ofKind?_assignOp op
  have stops := Kind.suffix?_of_ofKind? isInfix
  refine sees.expression_infix readableTarget.noLayout
    (fun after sees => readableTarget.operand sees stops) isInfix ends ?_
  intro left span after same sees
  have assignableLeft : left.isAssignable = true := by
    rw [← left.isAssignable_erase, same, assignable]
  apply Delivers.succ
  simp only [Grammar.applyInfix, if_pos assignableLeft]
  refine (readableValue.expression sees ends _).bind fun right _ sameRight sees => ?_
  exact Delivers.pure sees (by rw [erase, same, sameRight])

theorem readable_binary (op : BinaryOp) {left right : Expr Unit}
    (readableLeft : left.Readable settings) (readableRight : right.Readable settings) :
    (Expr.binary op left right ()).Readable settings := by
  refine .of_compound rfl (starts_append readableLeft _) readableRight.noLayout ?_
  intro state next others ends sees
  rw [lexemes, List.append_assoc] at sees
  have isInfix := ofKind?_binaryOp op
  have stops := Kind.suffix?_of_ofKind? isInfix
  refine sees.expression_infix readableLeft.noLayout
    (fun after sees => readableLeft.operand sees stops) isInfix ends ?_
  intro value span after same sees
  apply Delivers.succ
  simp only [Grammar.applyInfix]
  refine (readableRight.expression sees ends _).bind fun upper _ sameRight sees => ?_
  exact Delivers.pure sees (by rw [erase, same, sameRight])

/-- An end of a range is read back, if there is one. -/
theorem reads_rangeEnd {upper : Option (Expr Unit)} {state : ParserState} {next : Lexeme}
    {others : List Lexeme} (readable : ∀ expr ∈ upper, expr.Readable settings)
    (ends : next.kind.endsExpression = true)
    (sees : Sees settings (lexemesEnd upper ++ next :: others) state) :
    Delivers settings Grammar.rangeEnd state (fun read => eraseEnd read = upper)
      (next :: others) := by
  apply Delivers.succ
  simp only [Grammar.rangeEnd]
  cases upper with
  | none =>
    refine sees.peekKind.bind fun kind _ same sees => ?_
    simp only [same, Kind.startsExpression_of_endsExpression ends]
    exact Delivers.pure sees rfl
  | some upper =>
    have readableUpper := readable upper rfl
    obtain ⟨first, more, lexemes, starts⟩ := readableUpper.startsEnclosed
    rw [lexemesEnd, lexemes, List.cons_append] at sees
    refine sees.peekKind.bind fun kind _ same sees => ?_
    simp only [same, if_pos (Kind.startsExpression_of_startsPrimary starts)]
    rw [← List.cons_append, ← lexemes] at sees
    refine (readableUpper.expression sees ends _).bind fun read _ sameUpper sees => ?_
    exact Delivers.pure sees (by rw [eraseEnd, sameUpper])

theorem readable_rangeFrom {lower : Expr Unit} {upper : Option (Expr Unit)}
    (readableLower : lower.Readable settings) (readable : ∀ expr ∈ upper, expr.Readable settings) :
    (Expr.range (some lower) upper ()).Readable settings := by
  have noLayout : (Expr.range (some lower) upper ()).endsWithLayout = false := by
    cases upper with
    | none => rfl
    | some upper => exact (readable upper rfl).noLayout
  refine .of_compound rfl (starts_append readableLower _) noLayout ?_
  intro state next others ends sees
  rw [lexemes, lexemesEnd, List.append_assoc] at sees
  have isInfix : InfixOp.ofKind? (symbol .dotDot).kind = some .range := rfl
  refine sees.expression_infix readableLower.noLayout
    (fun after sees => readableLower.operand sees rfl) isInfix ends ?_
  intro value span after same sees
  apply Delivers.succ
  simp only [Grammar.applyInfix]
  refine (reads_rangeEnd readable ends sees).bind fun read _ sameUpper sees => ?_
  exact Delivers.pure sees (by rw [erase, eraseEnd, same, sameUpper])

theorem readable_rangeTo {upper : Option (Expr Unit)}
    (readable : ∀ expr ∈ upper, expr.Readable settings) :
    (Expr.range none upper ()).Readable settings := by
  have noLayout : (Expr.range none upper ()).endsWithLayout = false := by
    cases upper with
    | none => rfl
    | some upper => exact (readable upper rfl).noLayout
  refine .of_compound rfl ⟨_, _, rfl, rfl⟩ noLayout ?_
  intro state next others ends sees
  refine sees.expression_stop (fun after sees => ?_) (Kind.ofKind?_of_endsExpression ends) 0
  apply Delivers.succ
  simp only [Grammar.operand]
  refine sees.peekKind.bind fun kind _ same sees => ?_
  have isRange : kind = .symbol .dotDot := same
  simp only [isRange, PrefixOp.ofKind?]
  refine (sees.consume Kind.noConfusion).bind fun token _ _ sees => ?_
  refine (reads_rangeEnd readable ends sees).bind fun read _ sameUpper sees => ?_
  exact Delivers.pure sees (by rw [erase, sameUpper]; rfl)

/-- A prefix operator is applied to an operand. -/
theorem reads_prefixed {operand : Expr Unit} (readable : operand.Readable settings)
    {state : ParserState} {lexeme next : Lexeme} {others : List Lexeme} {op : PrefixOp}
    (isPrefix : PrefixOp.ofKind? lexeme.kind = some op)
    (ends : next.kind.endsExpression = true)
    (sees : Sees settings (lexeme :: (operand.enclosed operand.lexemes ++ next :: others)) state) :
    Delivers settings (fun fuel => Grammar.expression fuel 0) state
      (fun read => ∃ value span, value.erase = operand ∧ read = Grammar.applyPrefix op value span)
      (next :: others) := by
  refine sees.expression_stop (fun after sees => ?_) (Kind.ofKind?_of_endsExpression ends) 0
  have notEnd : lexeme.kind ≠ .endOfInput := by
    rintro isEnd
    rw [isEnd] at isPrefix
    exact nomatch isPrefix
  apply Delivers.succ
  simp only [Grammar.operand]
  refine sees.peekKind.bind fun kind _ same sees => ?_
  simp only [same, isPrefix]
  refine (sees.consume notEnd).bind fun token _ _ sees => ?_
  refine (readable.expression sees ends _).bind fun value _ sameValue sees => ?_
  exact Delivers.pure sees ⟨value, _, sameValue, rfl⟩

theorem readable_unary (op : UnaryOp) {operand : Expr Unit}
    (readable : operand.Readable settings) : (Expr.unary op operand ()).Readable settings := by
  have isPrefix : PrefixOp.ofKind? (unaryOp op).kind = some (.unary op) := by
    cases op <;> rfl
  refine .of_compound rfl ⟨_, _, rfl, by cases op <;> rfl⟩ readable.noLayout ?_
  intro state next others ends sees
  refine (reads_prefixed readable isPrefix ends sees).mono ?_
  rintro read ⟨value, span, same, rfl⟩
  rw [Grammar.applyPrefix, erase, same]

theorem readable_updateBefore (op : UpdateOp) {operand : Expr Unit}
    (readable : operand.Readable settings) :
    (Expr.update op true operand ()).Readable settings := by
  have isPrefix : PrefixOp.ofKind? (updateOp op).kind = some (.update op) := by
    cases op <;> rfl
  refine .of_compound rfl ⟨_, _, rfl, by cases op <;> rfl⟩ readable.noLayout ?_
  intro state next others ends sees
  refine (reads_prefixed readable isPrefix ends sees).mono ?_
  rintro read ⟨value, span, same, rfl⟩
  rw [Grammar.applyPrefix, erase, same]

/-! ## Suffixes -/

/-- An operand with one suffix is read back if the suffix is. -/
theorem readable_suffix {object expr : Expr Unit} (readable : object.Readable settings)
    {first : Lexeme} {suffix : List Lexeme} {rule : Nat → Expr Span → Parser (Expr Span)}
    (lexemes : expr.lexemes = object.enclosed object.lexemes ++ first :: suffix)
    (isSuffix : first.kind.suffix? = some rule)
    (compound : expr.isAtomic = false) (noLayout : expr.endsWithLayout = false)
    (reads : ∀ {value : Expr Span} {state next others}, value.erase = object →
      next.kind.endsExpression = true →
        Sees settings (first :: (suffix ++ next :: others)) state →
          Delivers settings (fun fuel => rule fuel value) state (fun read => read.erase = expr)
            (next :: others)) :
    expr.Readable settings := by
  refine .of_compound compound (lexemes ▸ starts_append readable _) noLayout ?_
  intro state next others ends sees
  rw [lexemes, List.append_assoc] at sees
  refine sees.expression_stop (fun after sees => ?_) (Kind.ofKind?_of_endsExpression ends) 0
  refine readable.suffixed sees fun value after same sees => ?_
  apply Delivers.succ
  simp only [Grammar.suffixes_succ]
  refine sees.peekKind.bind fun kind _ sameKind sees => ?_
  rw [sameKind, isSuffix]
  refine (reads same ends sees).bind fun longer _ sameLonger sees => ?_
  refine (sees.suffixes_stop (Kind.suffix?_of_endsExpression ends) longer).mono ?_
  rintro read rfl
  exact sameLonger

theorem readable_updateAfter (op : UpdateOp) {operand : Expr Unit}
    (readable : operand.Readable settings) :
    (Expr.update op false operand ()).Readable settings := by
  have isSuffix : (updateOp op).kind.suffix? = some fun _ => Grammar.updated op := by
    cases op <;> rfl
  refine readable_suffix readable rfl isSuffix rfl rfl ?_
  intro value state next others same ends sees
  refine (sees.consume (by cases op <;> exact Kind.noConfusion)).bind fun token _ _ sees => ?_
  exact Delivers.pure sees (by rw [erase, same])

theorem readable_field {object : Expr Unit} {name : Identifier Unit}
    (readable : object.Readable settings) (isIdentifier : IsIdentifier name.name) :
    (Expr.field object name ()).Readable settings := by
  refine readable_suffix readable rfl rfl rfl rfl ?_
  intro value state next others same ends sees
  have noParen : (word name.name).kind ≠ .symbol .leftParen := by
    rw [show (word name.name).kind = .identifier from isIdentifier.isUnreserved]
    exact Kind.noConfusion
  apply Delivers.succ
  simp only [Grammar.field]
  refine (sees.consume Kind.noConfusion).discard.bind fun _ _ _ sees => ?_
  refine (sees.consumeOther noParen).bind fun opens _ missing sees => ?_
  rw [missing]
  refine (sees.identifier isIdentifier).bind fun read _ sameName sees => ?_
  exact Delivers.pure sees (by rw [erase, same, sameName])

theorem readable_fieldGroup {object : Expr Unit} {names : List (Identifier Unit)}
    (readable : object.Readable settings) (nonempty : names ≠ [])
    (identifiers : ∀ name ∈ names, IsIdentifier name.name) :
    (Expr.fieldGroup object names ()).Readable settings := by
  obtain ⟨first, names, rfl⟩ := List.exists_cons_of_ne_nil nonempty
  have firstIdentifier := identifiers first List.mem_cons_self
  have otherIdentifiers : ∀ name ∈ names, IsIdentifier name.name := fun name member =>
    identifiers name (List.mem_cons_of_mem first member)
  refine readable_suffix readable rfl rfl rfl rfl ?_
  intro value state next others same ends sees
  apply Delivers.succ
  simp only [Grammar.field]
  refine (sees.consume Kind.noConfusion).discard.bind fun _ _ _ sees => ?_
  refine (sees.consumeKind Kind.noConfusion).bind fun opens _ found sees => ?_
  simp only [if_pos found]
  rw [List.append_eq, List.append_assoc] at sees
  refine (sees.identifier firstIdentifier).bind fun read _ sameName sees => ?_
  refine (sees.fieldNames otherIdentifiers).bind fun more _ sameNames sees => ?_
  refine (sees.expect Kind.noConfusion).bind fun close _ _ sees => ?_
  exact Delivers.pure sees (by rw [erase, same, List.map_cons, sameName, sameNames])

theorem readable_optionalField {object : Expr Unit} {name : Identifier Unit}
    (readable : object.Readable settings) (isIdentifier : IsIdentifier name.name) :
    (Expr.optionalField object name ()).Readable settings := by
  refine readable_suffix readable rfl rfl rfl rfl ?_
  intro value state next others same ends sees
  refine (sees.consume Kind.noConfusion).discard.bind fun _ _ _ sees => ?_
  refine (sees.identifier isIdentifier).bind fun read _ sameName sees => ?_
  exact Delivers.pure sees (by rw [erase, same, sameName])

theorem readable_unwrap {value : Expr Unit} (readable : value.Readable settings) :
    (Expr.unwrap value ()).Readable settings := by
  refine readable_suffix readable rfl rfl rfl rfl ?_
  intro read state next others same ends sees
  have noParen : next.kind ≠ .symbol .leftParen := by
    rintro isParen
    rw [isParen] at ends
    contradiction
  apply Delivers.succ
  simp only [Grammar.unwrapped]
  refine (sees.consume Kind.noConfusion).bind fun bang _ _ sees => ?_
  refine (sees.check _).bind fun opens _ found sees => ?_
  simp only [found, decide_eq_false noParen]
  exact Delivers.pure sees (by rw [erase, same])

theorem readable_unwrapWith {value : Expr Unit} {arguments : List (Expr Unit)}
    (readable : value.Readable settings) (readableAll : ReadableAll settings arguments) :
    (Expr.unwrapWith value arguments ()).Readable settings := by
  refine readable_suffix readable rfl rfl rfl rfl ?_
  intro read state next others same ends sees
  apply Delivers.succ
  simp only [Grammar.unwrapped]
  refine (sees.consume Kind.noConfusion).bind fun bang _ _ sees => ?_
  refine (sees.check (.symbol .leftParen)).bind fun opens _ found sees => ?_
  have isParen : opens = true := found
  simp only [if_pos isParen]
  refine (sees.delimited readableAll rfl Symbol.noConfusion).bind fun values _ sameAll sees => ?_
  exact Delivers.pure sees (by rw [erase, same, sameAll])

theorem readable_extraction {value : Expr Unit} {arguments : List (Expr Unit)}
    (readable : value.Readable settings) (readableAll : ReadableAll settings arguments) :
    (Expr.extraction value arguments ()).Readable settings := by
  refine readable_suffix readable rfl rfl rfl rfl ?_
  intro read state next others same ends sees
  apply Delivers.succ
  simp only [Grammar.extracted]
  refine (sees.consume Kind.noConfusion).discard.bind fun _ _ _ sees => ?_
  refine (sees.delimited readableAll rfl Symbol.noConfusion).bind fun values _ sameAll sees => ?_
  exact Delivers.pure sees (by rw [erase, same, sameAll])

theorem knownType?_of_untyped (untyped : settings.typeNames = []) (value : Expr Span) :
    Grammar.knownType? settings value = none := by
  unfold Grammar.knownType?
  split
  · rw [Settings.isTypeName, untyped]
    rfl
  · rfl

theorem readable_element (untyped : settings.typeNames = []) {array : Expr Unit}
    {indices : List (Expr Unit)} (readable : array.Readable settings) (nonempty : indices ≠ [])
    (readableAll : ReadableAll settings indices) :
    (Expr.element array indices ()).Readable settings := by
  refine readable_suffix readable rfl rfl rfl rfl ?_
  intro value state next others same ends sees
  apply Delivers.succ
  simp only [Grammar.indexed]
  refine (sees.delimited readableAll rfl Symbol.noConfusion).bind
    fun values after sameAll sees => ?_
  have someIndex : ¬ values.1.isEmpty = true := by
    rw [← eraseAll_isEmpty, sameAll]
    simpa using nonempty
  simp only [if_neg someIndex]
  refine (sees.check _).bind fun hasValues after _ sees => Delivers.get ?_
  simp only [sees.configured, knownType?_of_untyped untyped]
  exact Delivers.pure sees (by rw [erase, same, sameAll])

theorem readable_call (untyped : settings.typeNames = []) {callee : Expr Unit}
    {arguments : List (Expr Unit)} (readable : callee.Readable settings)
    (readableAll : ReadableAll settings arguments) :
    (Expr.call callee arguments ()).Readable settings := by
  refine readable_suffix readable rfl rfl rfl rfl ?_
  intro value state next others same ends sees
  apply Delivers.succ
  simp only [Grammar.called]
  refine (sees.delimited readableAll rfl Symbol.noConfusion).bind
    fun values after sameAll sees => Delivers.get ?_
  simp only [sees.configured, Grammar.applyCall, knownType?_of_untyped untyped]
  exact Delivers.pure sees (by rw [erase, same, sameAll])

end Expr

/-! ## All plain expressions are read back -/

variable {settings : Settings}

mutual

theorem Expr.readable (untyped : settings.typeNames = []) (expr : Expr Unit)
    (plain : expr.Plain) : expr.Readable settings := by
  match expr with
  | .literal value => exact Expr.readable_literal (value.readable untyped plain)
  | .identifier name => exact Expr.readable_identifier plain
  | .assignment op target value _ =>
    obtain ⟨assignable, plainTarget, plainValue⟩ := plain
    exact Expr.readable_assignment op (target.readable untyped plainTarget) assignable
      (value.readable untyped plainValue)
  | .binary op left right _ =>
    obtain ⟨plainLeft, plainRight⟩ := plain
    exact Expr.readable_binary op (left.readable untyped plainLeft)
      (right.readable untyped plainRight)
  | .unary op operand _ => exact Expr.readable_unary op (operand.readable untyped plain)
  | .update op true operand _ =>
    exact Expr.readable_updateBefore op (operand.readable untyped plain)
  | .update op false operand _ =>
    exact Expr.readable_updateAfter op (operand.readable untyped plain)
  | .field object name _ =>
    obtain ⟨plainObject, isIdentifier⟩ := plain
    exact Expr.readable_field (object.readable untyped plainObject) isIdentifier
  | .fieldGroup object names _ =>
    obtain ⟨plainObject, nonempty, identifiers⟩ := plain
    exact Expr.readable_fieldGroup (object.readable untyped plainObject) nonempty identifiers
  | .optionalField object name _ =>
    obtain ⟨plainObject, isIdentifier⟩ := plain
    exact Expr.readable_optionalField (object.readable untyped plainObject) isIdentifier
  | .unwrap value _ => exact Expr.readable_unwrap (value.readable untyped plain)
  | .unwrapWith value arguments _ =>
    obtain ⟨plainValue, plainArguments⟩ := plain
    exact Expr.readable_unwrapWith (value.readable untyped plainValue)
      (Expr.readableAll untyped arguments plainArguments)
  | .extraction value arguments _ =>
    obtain ⟨plainValue, plainArguments⟩ := plain
    exact Expr.readable_extraction (value.readable untyped plainValue)
      (Expr.readableAll untyped arguments plainArguments)
  | .element array indices _ =>
    obtain ⟨plainArray, nonempty, plainIndices⟩ := plain
    exact Expr.readable_element untyped (array.readable untyped plainArray) nonempty
      (Expr.readableAll untyped indices plainIndices)
  | .call callee arguments _ =>
    obtain ⟨plainCallee, plainArguments⟩ := plain
    exact Expr.readable_call untyped (callee.readable untyped plainCallee)
      (Expr.readableAll untyped arguments plainArguments)
  | .range none upper _ => exact Expr.readable_rangeTo (Expr.readableEnd untyped upper plain.2)
  | .range (some lower) upper _ =>
    obtain ⟨plainLower, plainUpper⟩ := plain
    exact Expr.readable_rangeFrom (lower.readable untyped plainLower)
      (Expr.readableEnd untyped upper plainUpper)

theorem Expr.readableAll (untyped : settings.typeNames = []) (exprs : List (Expr Unit))
    (plain : Expr.PlainAll exprs) : Expr.ReadableAll settings exprs := by
  match exprs with
  | [] => exact Expr.readableAll_nil
  | expr :: exprs =>
    obtain ⟨plainFirst, plainOthers⟩ := plain
    exact Expr.readableAll_cons (expr.readable untyped plainFirst)
      (Expr.readableAll untyped exprs plainOthers)

theorem Expr.readableEnd (untyped : settings.typeNames = []) (operand? : Option (Expr Unit))
    (plain : Expr.PlainEnd operand?) : ∀ operand ∈ operand?, operand.Readable settings := by
  match operand? with
  | none => exact nofun
  | some operand =>
    intro other member
    obtain rfl := Option.mem_some_iff.mp member
    exact operand.readable untyped plain

theorem Literal.readable (untyped : settings.typeNames = []) (literal : Literal Unit)
    (plain : literal.Plain) : literal.Readable settings := by
  match literal with
  | .integer value _ =>
    obtain ⟨nonnegative, _⟩ := plain
    refine Literal.readable_of_literal? rfl ?_
    rw [Lexeme.integer, Int.toNat_of_nonneg nonnegative]
    rfl
  | .char value _ => exact Literal.readable_of_literal? rfl rfl
  | .string parts _ =>
    exact Literal.readable_string (StringPart.readableAll untyped false parts plain)
  | .boolean true _ => exact Literal.readable_of_literal? rfl rfl
  | .boolean false _ => exact Literal.readable_of_literal? rfl rfl
  | .nothing _ => exact Literal.readable_of_literal? rfl rfl
  | .placeholder _ => exact Literal.readable_of_literal? rfl rfl

theorem StringPart.readableAll (untyped : settings.typeNames = []) (afterFragment : Bool)
    (parts : List (StringPart Unit)) (plain : StringPart.PlainAll afterFragment parts) :
    StringPart.ReadableAll settings parts := by
  match parts with
  | [] => exact StringPart.readableAll_nil
  | .fragment text :: parts =>
    exact StringPart.readableAll_fragment (StringPart.readableAll untyped true parts plain.2.2)
  | .interpolation value :: parts =>
    exact StringPart.readableAll_interpolation (value.readable untyped plain.1)
      (StringPart.readableAll untyped false parts plain.2)

end

end Offside
