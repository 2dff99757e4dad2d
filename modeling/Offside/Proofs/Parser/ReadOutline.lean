import Offside.Proofs.Parser.ReadAtom
import Offside.Proofs.Parser.ReadStatement
import Offside.Proofs.Syntax.Outline

/-!
Reading outlines: a statement takes the line break after it, if one comes, and a switch or a block
takes the end of its level.
-/

namespace Offside

open Lexeme

variable {settings : Settings} {state : ParserState} {next closer : Lexeme}
  {others rest last : List Lexeme}

/-- The lexeme ends a block or the text. -/
def ClosesLevel (closer : Lexeme) : Prop :=
  closer.kind = .dedent ∨ closer.kind = .endOfInput

theorem ClosesLevel.isStructural (closes : ClosesLevel closer) : closer.kind.isStructural = true := by
  rcases closes with isDedent | isEnd
  · rw [isDedent]
    rfl
  · rw [isEnd]
    rfl

theorem ClosesLevel.kind_ne (closes : ClosesLevel closer) {kind : Kind}
    (others : kind ≠ .dedent ∧ kind ≠ .endOfInput) : closer.kind ≠ kind := by
  rintro rfl
  exact closes.elim others.1 others.2

theorem lineBreak_eq_replicate (apart : Bool) :
    lineBreak apart = List.replicate apart.toNat (layout .newline) := by
  cases apart <;> rfl

namespace Name

variable (name : Name)

theorem readable : name.expr.Readable settings :=
  Expr.readable_identifier name.isIdentifier

theorem lexeme_kind : name.lexeme.kind = .identifier :=
  name.isIdentifier.isUnreserved

end Name

/-! ## What comes after a statement -/

namespace Outline

/-- The kind of the first token of a statement. -/
def firstKind : Outline → Kind
  | name _ => .identifier
  | throw _ => .keyword .throw
  | empty => .symbol .semicolon
  | block _ _ => .indent
  | switch _ _ _ _ => .keyword .switch

theorem tokens_eq_cons (outline : Outline) :
    ∃ first more, outline.tokens = first :: more ∧ first.kind = outline.firstKind := by
  cases outline with
  | name name => exact ⟨_, _, rfl, name.lexeme_kind⟩
  | throw name => exact ⟨_, _, rfl, rfl⟩
  | empty => exact ⟨_, _, rfl, rfl⟩
  | block width inner => exact ⟨_, _, rfl, rfl⟩
  | switch subject others width arms => exact ⟨_, _, rfl, rfl⟩

theorem firstKind_ne (outline : Outline) {kind : Kind}
    (ends : kind = .newline ∨ kind = .dedent ∨ kind = .endOfInput) :
    outline.firstKind ≠ kind := by
  rcases ends with rfl | rfl | rfl
  · cases outline <;> exact Kind.noConfusion
  · cases outline <;> exact Kind.noConfusion
  · cases outline <;> exact Kind.noConfusion

/-- After a line comes a line break, a level or the end of one. -/
theorem tokensAll_after (outlines : List Outline) (closes : ClosesLevel closer) (rest : List Lexeme) :
    ∃ next others, tokensAll true outlines ++ closer :: rest = next :: others ∧
      next.kind.isStructural = true ∧
      afterLine (next :: others) = tokensAll false outlines ++ closer :: rest := by
  cases outlines with
  | nil =>
    have notNewline : closer.kind ≠ .newline :=
      closes.kind_ne ⟨Kind.noConfusion, Kind.noConfusion⟩
    exact ⟨closer, rest, rfl, closes.isStructural, if_neg notNewline⟩
  | cons outline outlines =>
    cases outline with
    | block width inner => exact ⟨layout .indent, _, rfl, rfl, rfl⟩
    | name name => exact ⟨layout .newline, _, rfl, rfl, rfl⟩
    | throw name => exact ⟨layout .newline, _, rfl, rfl, rfl⟩
    | empty => exact ⟨layout .newline, _, rfl, rfl, rfl⟩
    | switch subject subjects width arms => exact ⟨layout .newline, _, rfl, rfl, rfl⟩

end Outline

theorem OutlineArm.tokens_eq_cons (arm : OutlineArm) :
    ∃ (pattern : Name) (more : List Lexeme), arm.tokens = pattern.lexeme :: more := by
  cases arm with
  | name pattern value => exact ⟨pattern, _, rfl⟩
  | throw pattern value => exact ⟨pattern, _, rfl⟩
  | block pattern width inner => exact ⟨pattern, _, rfl⟩

theorem OutlineArm.tokensAll_after (arms : List OutlineArm) (rest : List Lexeme) :
    ∃ next others, tokensAll true arms ++ layout .dedent :: rest = next :: others ∧
      next.kind.isStructural = true ∧
      afterLine (next :: others) = tokensAll false arms ++ layout .dedent :: rest := by
  cases arms with
  | nil => exact ⟨_, _, rfl, rfl, rfl⟩
  | cons arm arms => exact ⟨_, _, rfl, rfl, rfl⟩

/-! ## Switches -/

namespace Sees

theorem subjects {subjects : List Name}
    (sees : Sees settings (subjects.flatMap (fun other => [symbol .comma, other.lexeme]) ++
      symbol .colon :: rest) state) :
    Delivers settings Grammar.subjects state
      (fun read => Expr.eraseAll read = subjects.map Name.expr) (symbol .colon :: rest) := by
  induction subjects generalizing state with
  | nil =>
    apply Delivers.succ
    simp only [Grammar.subjects]
    refine (sees.consumeOther (by decide)).bind fun comma _ missing sees => ?_
    rw [missing]
    exact Delivers.pure sees rfl
  | cons subject subjects inductionHypothesis =>
    have goesOn : ∃ next others, subjects.flatMap (fun other => [symbol .comma, other.lexeme]) ++
        symbol .colon :: rest = next :: others ∧ next.kind.endsExpression = true := by
      cases subjects with
      | nil => exact ⟨_, _, rfl, rfl⟩
      | cons other subjects => exact ⟨_, _, rfl, rfl⟩
    obtain ⟨next, others, split, ends⟩ := goesOn
    rw [List.flatMap_cons, List.append_assoc, split] at sees
    apply Delivers.succ
    simp only [Grammar.subjects]
    refine (sees.consumeKind Kind.noConfusion).bind fun comma _ found sees => ?_
    simp only [if_pos found]
    refine (Delivers.within sees fun named sees => subject.readable.whole ends sees).bind
      fun first _ same sees => ?_
    rw [← split] at sees
    refine (inductionHypothesis sees).bind fun more _ sameMore sees => ?_
    exact Delivers.pure sees (by rw [Expr.eraseAll, same, sameMore, List.map_cons])

/-- The arms of a switch are a level, or there are none and the line ends. -/
theorem switch {subject : Name} {subjects : List Name} {arms : List (Arm Unit)}
    {body : List Lexeme}
    (reads : (∃ next others, body = next :: others ∧ next.kind.isStructural = true ∧
        next.kind ≠ .indent ∧ arms = [] ∧ afterLine (next :: others) = last) ∨
      ∃ inner, body = layout .indent :: inner ∧ ∀ {after}, Sees settings inner after →
        Delivers settings Grammar.arms after (fun read => Arm.eraseAll read = arms) last)
    (sees : Sees settings (Outline.switchHead subject subjects ++ body) state) :
    Delivers settings Grammar.switch state
      (fun read => read.erase = .switch (subject.expr :: subjects.map Name.expr) arms ()) last := by
  have keyword : (word "switch").kind = .keyword .switch := rfl
  have goesOn : ∃ next others, subjects.flatMap (fun other => [symbol .comma, other.lexeme]) ++
      symbol .colon :: body = next :: others ∧ next.kind.endsExpression = true := by
    cases subjects with
    | nil => exact ⟨_, _, rfl, rfl⟩
    | cons other subjects => exact ⟨_, _, rfl, rfl⟩
  obtain ⟨next, others, split, ends⟩ := goesOn
  rw [Outline.switchHead, List.cons_append, List.cons_append, List.append_assoc,
    List.cons_append, List.nil_append, split] at sees
  apply Delivers.succ
  simp only [Grammar.switch]
  refine (keyword ▸ sees.expect Kind.noConfusion).bind fun keyword _ _ sees => ?_
  refine (Delivers.within sees fun named sees => subject.readable.whole ends sees).bind
    fun first _ sameFirst sees => ?_
  rw [← split] at sees
  refine sees.subjects.bind fun more _ sameMore sees => ?_
  refine (sees.expect Kind.noConfusion).bind fun colon _ _ sees => ?_
  have erased (arms : List (Arm Span)) (span : Span) :
      (Expr.switch (first :: more) arms span).erase =
        .switch (subject.expr :: subjects.map Name.expr) (Arm.eraseAll arms) () := by
    rw [Expr.erase, Expr.eraseAll, sameFirst, sameMore]
  rcases reads with ⟨next, others, rfl, structural, noIndent, rfl, rfl⟩ | ⟨inner, rfl, reads⟩
  · refine sees.peek.bind fun token _ same sees => ?_
    obtain ⟨kind, text⟩ := next
    have tokenKind : token.kind = kind := congrArg Lexeme.kind same
    rw [tokenKind]
    change kind.isStructural = true at structural
    unfold Kind.isStructural at structural
    split at structural
    next =>
      refine (sees.consume Kind.noConfusion).discard.bind fun _ _ _ sees => ?_
      exact Delivers.pure sees (erased [] _)
    next => exact absurd rfl noIndent
    next => exact Delivers.pure sees (erased [] _)
    next => exact Delivers.pure sees (erased [] _)
    next => contradiction
  · refine sees.peek.bind fun token _ same sees => ?_
    have tokenKind : token.kind = .indent := congrArg Lexeme.kind same
    simp only [tokenKind]
    refine (sees.consume Kind.noConfusion).discard.bind fun _ _ _ sees => ?_
    refine (reads sees).bind fun arms _ sameArms sees => ?_
    exact Delivers.pure sees (by rw [erased, sameArms])

/-- A switch is a whole expression. -/
theorem expression_switch {expr : Expr Unit} (hasLayout : expr.endsWithLayout = true)
    (reads : ∀ {named}, Sees settings (word "switch" :: rest) named →
      Delivers settings Grammar.switch named (fun read => read.erase = expr) last)
    (sees : Sees settings (word "switch" :: rest) state) :
    Delivers settings (fun fuel => Grammar.expression fuel 0) state
      (fun read => read.erase = expr) last := by
  have operand : Delivers settings Grammar.operand state (fun read => read.erase = expr) last := by
    apply Delivers.succ
    simp only [Grammar.operand]
    refine sees.peekKind.bind fun kind _ same sees => ?_
    have isSwitch : kind = .keyword .switch := same
    simp only [isSwitch, PrefixOp.ofKind?]
    exact Delivers.within sees fun named sees => reads sees
  apply Delivers.succ
  simp only [Grammar.expression]
  refine operand.bind fun value _ same sees => ?_
  have layoutLast : value.endsWithLayout = true := by
    rw [← value.endsWithLayout_erase, same, hasLayout]
  apply Delivers.succ
  simp only [Grammar.climb, if_pos layoutLast]
  exact Delivers.pure sees same

/-- After a switch nothing has to end the statement. -/
theorem terminator_layout (sees : Sees settings (next :: rest) state) {value : Expr Span}
    (layoutLast : value.endsWithLayout = true) (notNewline : next.kind ≠ .newline)
    (notSemicolon : next.kind ≠ .symbol .semicolon) :
    Delivers settings (fun _ => Grammar.terminator value) state (fun last => last = none)
      (next :: rest) := by
  refine sees.peek.bind fun token after same sees => ?_
  have tokenKind : token.kind = next.kind := congrArg Lexeme.kind same
  rw [← tokenKind] at notNewline notSemicolon
  split
  next isSemicolon => exact absurd isSemicolon notSemicolon
  next isNewline => exact absurd isNewline notNewline
  next => exact Delivers.pure sees rfl
  next => exact Delivers.pure sees rfl
  next => exact Delivers.pure sees rfl
  next =>
    rw [if_pos layoutLast]
    exact Delivers.pure sees rfl

/-- A semicolon ends a statement, also on a line of its own behind a switch. -/
theorem terminator_semicolon (sees : Sees settings (symbol .semicolon :: rest) state)
    (value : Expr Span) :
    Delivers settings (fun _ => Grammar.terminator value) state (fun _ => True) rest := by
  refine sees.peek.bind fun token after same sees => ?_
  have tokenKind : token.kind = .symbol .semicolon := congrArg Lexeme.kind same
  simp only [tokenKind]
  exact (sees.consume Kind.noConfusion).bind fun _ _ _ sees => Delivers.pure sees trivial

/-- A switch is a statement, with whatever ends it. -/
theorem statement_switch_until {expr : Expr Unit} (hasLayout : expr.endsWithLayout = true)
    (reads : ∀ {named}, Sees settings (word "switch" :: rest) named →
      Delivers settings Grammar.switch named (fun read => read.erase = expr) others)
    (ends : ∀ {after} {value : Expr Span}, value.endsWithLayout = true → Sees settings others after →
      Delivers settings (fun _ => Grammar.terminator value) after (fun _ => True) last)
    (sees : Sees settings (word "switch" :: rest) state) :
    Delivers settings Grammar.statement state
      (fun statement => statement.erase = .action (.expression expr ())) last := by
  refine sees.statement_expression rfl fun sees => ?_
  apply Delivers.succ
  simp only [Grammar.expressionStatement]
  refine (Delivers.within sees fun named sees => sees.expression_switch hasLayout reads).bind
    fun value _ same sees => ?_
  have layoutLast : value.endsWithLayout = true := by
    rw [← value.endsWithLayout_erase, same, hasLayout]
  refine (ends layoutLast sees).bind fun last _ _ sees => ?_
  cases last <;> exact Delivers.pure sees (by rw [Action.erase, same])

theorem statement_switch {expr : Expr Unit} (hasLayout : expr.endsWithLayout = true)
    (notNewline : next.kind ≠ .newline) (notSemicolon : next.kind ≠ .symbol .semicolon)
    (reads : ∀ {named}, Sees settings (word "switch" :: rest) named →
      Delivers settings Grammar.switch named (fun read => read.erase = expr) (next :: others))
    (sees : Sees settings (word "switch" :: rest) state) :
    Delivers settings Grammar.statement state
      (fun statement => statement.erase = .action (.expression expr ())) (next :: others) := by
  refine sees.statement_switch_until hasLayout reads fun layoutLast sees => ?_
  exact (sees.terminator_layout layoutLast notNewline notSemicolon).mono fun _ _ => trivial

/-! ## Arms -/

theorem arms_nil (sees : Sees settings (layout .dedent :: rest) state) :
    Delivers settings Grammar.arms state (fun read => Arm.eraseAll read = []) rest := by
  apply Delivers.succ
  simp only [Grammar.arms]
  refine (sees.removeNewlines 0 Kind.noConfusion).bind fun _ _ _ sees => ?_
  refine (sees.consumeKind Kind.noConfusion).bind fun close _ found sees => ?_
  simp only [if_pos found]
  exact Delivers.pure sees rfl

theorem arms_cons (count : Nat) {pattern : Name} {first : Arm Unit} {arms : List (Arm Unit)}
    (reads : ∀ {named}, Sees settings (pattern.lexeme :: others) named →
      Delivers settings Grammar.arm named (fun arm => arm.erase = first) rest)
    (later : ∀ {after}, Sees settings rest after →
      Delivers settings Grammar.arms after (fun read => Arm.eraseAll read = arms) last)
    (sees : Sees settings
      (List.replicate count (layout .newline) ++ pattern.lexeme :: others) state) :
    Delivers settings Grammar.arms state (fun read => Arm.eraseAll read = first :: arms) last := by
  have notNewline : pattern.lexeme.kind ≠ .newline := by
    rw [pattern.lexeme_kind]
    exact Kind.noConfusion
  have notDedent : pattern.lexeme.kind ≠ .dedent := by
    rw [pattern.lexeme_kind]
    exact Kind.noConfusion
  apply Delivers.succ
  simp only [Grammar.arms]
  refine (sees.removeNewlines count notNewline).bind fun _ _ _ sees => ?_
  refine (sees.consumeOther notDedent).bind fun close _ missing sees => ?_
  rw [missing]
  refine (Delivers.within sees fun named sees => reads sees).bind fun arm _ same sees => ?_
  refine (later sees).bind fun more _ sameMore sees => ?_
  exact Delivers.pure sees (by rw [Arm.eraseAll, same, sameMore])

theorem arm {pattern : Name} {body : Action Unit}
    (reads : ∀ {named}, Sees settings others named →
      Delivers settings Grammar.armBody named (fun action => action.erase = body) rest)
    (sees : Sees settings (pattern.lexeme :: symbol .arrow :: others) state) :
    Delivers settings Grammar.arm state
      (fun arm => arm.erase = .mk (.binding pattern.identifier) body ()) rest := by
  have binds : ∀ {named}, Sees settings (pattern.lexeme :: symbol .arrow :: others) named →
      Delivers settings Grammar.pattern named
        (fun read => read.erase = .binding pattern.identifier) (symbol .arrow :: others) := by
    intro named sees
    apply Delivers.succ
    simp only [Grammar.pattern]
    refine sees.peek.bind fun token _ same sees => ?_
    have tokenKind : token.kind = .identifier :=
      (congrArg Lexeme.kind same).trans pattern.lexeme_kind
    simp only [tokenKind]
    have isIdentifier : IsIdentifier pattern.identifier.name := pattern.isIdentifier
    refine (Sees.identifier isIdentifier sees).bind fun name _ sameName sees => ?_
    exact Delivers.pure sees (by rw [Pattern.erase, sameName])
  apply Delivers.succ
  simp only [Grammar.arm]
  refine (Delivers.within sees fun named sees => binds sees).bind fun read _ sameRead sees => ?_
  refine (sees.expect Kind.noConfusion).discard.bind fun _ _ _ sees => ?_
  refine (Delivers.within sees fun named sees => reads sees).bind fun action _ same sees => ?_
  exact Delivers.pure sees (by rw [Arm.erase, sameRead, same])

theorem armBody_name (value : Name) (ends : next.kind.isStructural = true)
    (sees : Sees settings (value.lexeme :: next :: rest) state) :
    Delivers settings Grammar.armBody state
      (fun action => action.erase = .expression value.expr ()) (afterLine (next :: rest)) := by
  apply Delivers.succ
  simp only [Grammar.armBody]
  refine sees.peekKind.bind fun kind _ same sees => ?_
  simp only [same.trans value.lexeme_kind]
  exact Delivers.within sees fun named sees => expressionStatement value.readable ends sees

theorem armBody_throw (value : Name) (ends : next.kind.isStructural = true)
    (sees : Sees settings (word "throw" :: value.lexeme :: next :: rest) state) :
    Delivers settings Grammar.armBody state
      (fun action => action.erase = .throw value.expr ()) (afterLine (next :: rest)) := by
  apply Delivers.succ
  simp only [Grammar.armBody]
  refine sees.peekKind.bind fun kind _ same sees => ?_
  have isThrow : kind = .keyword .throw := same
  simp only [isThrow]
  exact Delivers.within sees fun named sees => throwStatement value.readable ends sees

theorem armBody_block {statements : List (Statement Unit)} {inner : List Lexeme}
    (reads : ∀ {after}, Sees settings inner after →
      Delivers settings (fun fuel => Grammar.statementsUntil fuel .dedent) after
        (fun read => Statement.eraseAll read = statements) (layout .dedent :: rest))
    (sees : Sees settings (layout .indent :: inner) state) :
    Delivers settings Grammar.armBody state (fun action => action.erase = .block statements ())
      rest := by
  apply Delivers.succ
  simp only [Grammar.armBody]
  refine sees.peekKind.bind fun kind _ same sees => ?_
  have isIndent : kind = .indent := same
  simp only [isIndent]
  exact Delivers.within sees fun named sees => sees.block reads

end Sees

/-! ## Outlines -/

/-- What comes after a switch is neither the end of a line nor a semicolon. -/
theorem Outline.tokensAll_afterSwitch {subject : Name} {subjects : List Name} {width : Nat}
    {arms : List OutlineArm} {outlines : List Outline}
    (allows : ∀ next ∈ outlines.head?,
      (Outline.switch subject subjects width arms).allows next = true)
    (closes : ClosesLevel closer) (rest : List Lexeme) :
    ∃ next others, tokensAll false outlines ++ closer :: rest = next :: others ∧
      next.kind ≠ .newline ∧ next.kind ≠ .symbol .semicolon ∧ next.kind ≠ .indent := by
  cases outlines with
  | nil =>
    exact ⟨closer, rest, rfl, closes.kind_ne ⟨Kind.noConfusion, Kind.noConfusion⟩,
      closes.kind_ne ⟨Kind.noConfusion, Kind.noConfusion⟩,
      closes.kind_ne ⟨Kind.noConfusion, Kind.noConfusion⟩⟩
  | cons outline outlines =>
    have allowed := allows outline rfl
    obtain ⟨first, more, split, kind⟩ := outline.tokens_eq_cons
    refine ⟨first, more ++ (tokensAll outline.endsInLine outlines ++ closer :: rest), ?_, ?_⟩
    · rw [tokensAll, split, Bool.false_and, lineBreak, List.append_assoc, List.append_assoc]
      rfl
    · rw [kind]
      cases outline with
      | name name => exact ⟨Kind.noConfusion, Kind.noConfusion, Kind.noConfusion⟩
      | throw name => exact ⟨Kind.noConfusion, Kind.noConfusion, Kind.noConfusion⟩
      | empty => exact absurd allowed Bool.false_ne_true
      | block width inner => exact absurd allowed Bool.false_ne_true
      | switch subject subjects width arms =>
        exact ⟨Kind.noConfusion, Kind.noConfusion, Kind.noConfusion⟩

mutual

/-- A statement is read back, and what comes after it is left, but for a line break. -/
theorem Outline.reads (outline : Outline) {width : Nat} (fits : outline.Fits width)
    {outlines : List Outline} (allows : ∀ next ∈ outlines.head?, outline.allows next = true)
    {closer : Lexeme} (closes : ClosesLevel closer) (rest : List Lexeme) :
    ∃ apart, ∀ {state}, Sees settings (outline.tokens ++
        (Outline.tokensAll outline.endsInLine outlines ++ closer :: rest)) state →
      Delivers settings Grammar.statement state (fun read => read.erase = outline.statement)
        (Outline.tokensAll apart outlines ++ closer :: rest) := by
  obtain ⟨next, others, split, ends, after⟩ := Outline.tokensAll_after outlines closes rest
  match outline with
  | .name name =>
    refine ⟨false, fun {state} sees => ?_⟩
    change Sees settings
      (name.lexeme :: (Outline.tokensAll true outlines ++ closer :: rest)) state at sees
    rw [split] at sees
    rw [← after]
    refine sees.statement_expression (by rw [name.lexeme_kind]; rfl) fun sees => ?_
    exact Sees.expressionStatement name.readable ends sees
  | .throw name =>
    refine ⟨false, fun {state} sees => ?_⟩
    change Sees settings (word "throw" :: name.lexeme ::
      (Outline.tokensAll true outlines ++ closer :: rest)) state at sees
    rw [split] at sees
    rw [← after]
    exact Sees.statement_throw name.readable ends sees
  | .empty => exact ⟨true, fun sees => Sees.statement_empty sees⟩
  | .block inside inner =>
    obtain ⟨_, _, fitsInner⟩ := fits
    refine ⟨false, fun sees => ?_⟩
    rw [Outline.tokens, inLevel_append] at sees
    exact sees.statement_block fun sees => Outline.readsAll inner fitsInner (Or.inl rfl) sees
  | .switch subject subjects inside [] =>
    obtain ⟨final, more, splitFinal, notNewline, notSemicolon, notIndent⟩ :=
      Outline.tokensAll_afterSwitch allows closes rest
    have noIndent : next.kind ≠ .indent := by
      rintro isIndent
      have stays : next :: others = final :: more := by
        rw [← splitFinal, ← after, afterLine, if_neg (by rw [isIndent]; exact Kind.noConfusion)]
      exact notIndent (List.head_eq_of_cons_eq stays ▸ isIndent)
    refine ⟨false, fun {state} sees => ?_⟩
    rw [Outline.tokens, List.append_assoc] at sees
    change Sees settings (Outline.switchHead subject subjects ++
      (Outline.tokensAll true outlines ++ closer :: rest)) state at sees
    rw [split] at sees
    rw [splitFinal]
    refine Sees.statement_switch rfl notNewline notSemicolon (fun sees => ?_) sees
    exact Sees.switch (Or.inl ⟨next, others, rfl, ends, noIndent, rfl, after.trans splitFinal⟩) sees
  | .switch subject subjects inside (arm :: arms) =>
    obtain ⟨_, fitsArms⟩ := fits
    obtain ⟨final, more, splitFinal, notNewline, notSemicolon, notIndent⟩ :=
      Outline.tokensAll_afterSwitch allows closes rest
    refine ⟨false, fun {state} sees => ?_⟩
    rw [Outline.tokens, List.append_assoc] at sees
    change Sees settings (Outline.switchHead subject subjects ++
      (inLevel (OutlineArm.tokensAll false (arm :: arms)) ++
        (Outline.tokensAll false outlines ++ closer :: rest))) state at sees
    rw [inLevel_append, splitFinal] at sees
    rw [splitFinal]
    refine Sees.statement_switch rfl notNewline notSemicolon (fun sees => ?_) sees
    exact Sees.switch (Or.inr ⟨_, rfl, fun sees =>
      OutlineArm.readsAll (arm :: arms) fitsArms sees⟩) sees

theorem Outline.readsAll (outlines : List Outline) {width : Nat}
    (fits : Outline.FitAll width outlines) {closer : Lexeme} (closes : ClosesLevel closer)
    {rest : List Lexeme} {apart : Bool} {state : ParserState}
    (sees : Sees settings (Outline.tokensAll apart outlines ++ closer :: rest) state) :
    Delivers settings (fun fuel => Grammar.statementsUntil fuel closer.kind) state
      (fun read => Statement.eraseAll read = Outline.statements outlines) (closer :: rest) := by
  match outlines with
  | [] =>
    have notNewline : closer.kind ≠ .newline :=
      closes.kind_ne ⟨Kind.noConfusion, Kind.noConfusion⟩
    exact Sees.statementsUntil_nil 0 notNewline (Or.inl rfl) sees
  | outline :: outlines =>
    obtain ⟨fitsFirst, allows, fitsOthers⟩ := fits
    obtain ⟨afterApart, reads⟩ := outline.reads fitsFirst allows closes rest
    obtain ⟨first, more, split, kind⟩ := outline.tokens_eq_cons
    have notNewline : first.kind ≠ .newline := kind ▸ outline.firstKind_ne (Or.inl rfl)
    have notDedent : first.kind ≠ .dedent := kind ▸ outline.firstKind_ne (Or.inr (Or.inl rfl))
    have notEnd : first.kind ≠ .endOfInput := kind ▸ outline.firstKind_ne (Or.inr (Or.inr rfl))
    have goesOn : ¬ (first.kind = closer.kind ∨ first.kind = .endOfInput) := by
      rintro (same | isEnd)
      · rcases closes with isDedent | isEnd
        · exact notDedent (same.trans isDedent)
        · exact notEnd (same.trans isEnd)
      · exact notEnd isEnd
    rw [Outline.tokensAll, lineBreak_eq_replicate, List.append_assoc, List.append_assoc, split,
      List.cons_append] at sees
    rw [split, List.cons_append] at reads
    exact Sees.statementsUntil_cons _ notNewline goesOn reads
      (fun sees => Outline.readsAll outlines fitsOthers closes sees) sees

theorem OutlineArm.reads (arm : OutlineArm) {width : Nat} (fits : arm.Fits width)
    (arms : List OutlineArm) (rest : List Lexeme) :
    ∀ ⦃state⦄, Sees settings (arm.tokens ++
        (OutlineArm.tokensAll arm.endsInLine arms ++ layout .dedent :: rest)) state →
      Delivers settings Grammar.arm state (fun read => read.erase = arm.toArm)
        (OutlineArm.tokensAll false arms ++ layout .dedent :: rest) := by
  intro state sees
  obtain ⟨next, others, split, ends, after⟩ := OutlineArm.tokensAll_after arms rest
  match arm with
  | .name pattern value =>
    change Sees settings (pattern.lexeme :: symbol .arrow :: value.lexeme ::
      (OutlineArm.tokensAll true arms ++ layout .dedent :: rest)) state at sees
    rw [split] at sees
    rw [← after]
    exact sees.arm fun sees => sees.armBody_name value ends
  | .throw pattern value =>
    change Sees settings (pattern.lexeme :: symbol .arrow :: word "throw" :: value.lexeme ::
      (OutlineArm.tokensAll true arms ++ layout .dedent :: rest)) state at sees
    rw [split] at sees
    rw [← after]
    exact sees.arm fun sees => sees.armBody_throw value ends
  | .block pattern inside inner =>
    obtain ⟨_, _, fitsInner⟩ := fits
    rw [OutlineArm.tokens, List.cons_append, List.cons_append, inLevel_append] at sees
    exact sees.arm fun sees => sees.armBody_block fun sees =>
      Outline.readsAll inner fitsInner (Or.inl rfl) sees

theorem OutlineArm.readsAll (arms : List OutlineArm) {width : Nat}
    (fits : OutlineArm.FitAll width arms) {rest : List Lexeme} {apart : Bool}
    {state : ParserState}
    (sees : Sees settings (OutlineArm.tokensAll apart arms ++ layout .dedent :: rest) state) :
    Delivers settings Grammar.arms state
      (fun read => Arm.eraseAll read = OutlineArm.toArms arms) rest := by
  match arms with
  | [] => exact Sees.arms_nil sees
  | arm :: arms =>
    obtain ⟨fitsFirst, fitsOthers⟩ := fits
    obtain ⟨pattern, more, split⟩ := arm.tokens_eq_cons
    rw [OutlineArm.tokensAll, lineBreak_eq_replicate, List.append_assoc, List.append_assoc, split,
      List.cons_append] at sees
    have reads := arm.reads fitsFirst arms rest
    rw [split, List.cons_append] at reads
    exact Sees.arms_cons _ (fun sees => reads sees)
      (fun sees => OutlineArm.readsAll arms fitsOthers sees) sees

end

end Offside
