import Offside.Parse
import Offside.Proofs.Parser.Operand
import Offside.Proofs.Parser.Walk

/-!
Reading statements and whole texts. A statement leaves the token after it, unless that is the line
break that ends it.
-/

namespace Offside

open Lexeme

/-- What is left once a line break before it is taken. -/
def afterLine : List Lexeme → List Lexeme
  | [] => []
  | lexeme :: lexemes => if lexeme.kind = .newline then lexemes else lexeme :: lexemes

namespace Sees

variable {settings : Settings} {state : ParserState} {next : Lexeme} {others rest : List Lexeme}

/-! ## Line breaks -/

theorem skipNewlines (notNewline : next.kind ≠ .newline) {count fuel : Nat} (enough : count < fuel)
    (sees : Sees settings (List.replicate count (layout .newline) ++ next :: rest) state) :
    Delivers settings (fun _ => Parser.skipNewlines fuel) state (fun _ => True)
      (next :: rest) := by
  induction count generalizing fuel state with
  | zero =>
    obtain ⟨fuel, rfl⟩ := Nat.exists_eq_succ_of_ne_zero (Nat.ne_of_gt enough)
    simp only [Parser.skipNewlines]
    refine (sees.consumeOther notNewline).bind fun _ _ missing sees => ?_
    rw [missing]
    exact Delivers.pure sees trivial
  | succ count inductionHypothesis =>
    obtain ⟨fuel, rfl⟩ := Nat.exists_eq_succ_of_ne_zero (Nat.ne_of_gt (Nat.zero_lt_of_lt enough))
    simp only [Parser.skipNewlines]
    refine (sees.consumeKind Kind.noConfusion).bind fun _ _ found sees => ?_
    rw [if_pos found]
    exact inductionHypothesis (Nat.lt_of_succ_lt_succ enough) sees

theorem removeNewlines (count : Nat) (notNewline : next.kind ≠ .newline)
    (sees : Sees settings (List.replicate count (layout .newline) ++ next :: rest) state) :
    Delivers settings (fun _ => Parser.removeNewlines) state (fun _ => True) (next :: rest) := by
  have bound := state.length_ahead_le_fuel
  have length := congrArg List.length sees.ahead
  rw [List.length_map, List.length_append, List.length_replicate] at length
  have enough : count < state.fuel := by omega
  rw [Parser.removeNewlines]
  exact Delivers.fueled (sees.skipNewlines notNewline enough)

/-! ## Statements -/

/-- The end of a line, or of a block, ends a statement. -/
theorem terminator (sees : Sees settings (next :: rest) state)
    (ends : next.kind.isStructural = true) (value : Expr Span) :
    Delivers settings (fun _ => Grammar.terminator value) state (fun last => last = none)
      (afterLine (next :: rest)) := by
  refine sees.peek.bind fun token after same sees => ?_
  obtain ⟨kind, text⟩ := next
  have tokenKind : token.kind = kind := congrArg Lexeme.kind same
  rw [tokenKind]
  change kind.isStructural = true at ends
  unfold Kind.isStructural at ends
  split at ends
  next =>
    refine (sees.consume Kind.noConfusion).discard.bind fun _ _ _ sees => ?_
    exact Delivers.pure sees rfl
  next => exact Delivers.pure sees rfl
  next => exact Delivers.pure sees rfl
  next => exact Delivers.pure sees rfl
  next => contradiction

/-- An expression up to the end of a line is a statement. -/
theorem expressionStatement {expr : Expr Unit} (readable : expr.Readable settings)
    (ends : next.kind.isStructural = true)
    (sees : Sees settings (expr.lexemes ++ next :: rest) state) :
    Delivers settings Grammar.expressionStatement state
      (fun action => action.erase = .expression expr ()) (afterLine (next :: rest)) := by
  apply Delivers.succ
  simp only [Grammar.expressionStatement]
  refine (Delivers.within sees fun named sees =>
    readable.whole (Kind.endsExpression_of_isStructural ends) sees).bind fun value _ same sees => ?_
  refine (sees.terminator ends value).bind fun last _ noLast sees => ?_
  rw [noLast]
  exact Delivers.pure sees (by rw [Action.erase, same])

theorem throwStatement {expr : Expr Unit} (readable : expr.Readable settings)
    (ends : next.kind.isStructural = true)
    (sees : Sees settings (word "throw" :: (expr.lexemes ++ next :: rest)) state) :
    Delivers settings Grammar.throwStatement state
      (fun action => action.erase = .throw expr ()) (afterLine (next :: rest)) := by
  have kind : (word "throw").kind = .keyword .throw := rfl
  apply Delivers.succ
  simp only [Grammar.throwStatement]
  refine (kind ▸ sees.expect Kind.noConfusion).bind fun keyword _ _ sees => ?_
  refine (Delivers.within sees fun named sees =>
    readable.whole (Kind.endsExpression_of_isStructural ends) sees).bind fun value _ same sees => ?_
  refine (sees.terminator ends value).bind fun last _ noLast sees => ?_
  rw [noLast]
  exact Delivers.pure sees (by rw [Action.erase, same])

/-- What starts like an expression is a statement of one. -/
theorem statement_expression (starts : next.kind.startsExpression = true) {erased : Action Unit}
    (reads : ∀ {named}, Sees settings (next :: rest) named →
      Delivers settings Grammar.expressionStatement named (fun action => action.erase = erased)
        others)
    (sees : Sees settings (next :: rest) state) :
    Delivers settings Grammar.statement state (fun statement => statement.erase = .action erased)
      others := by
  apply Delivers.succ
  simp only [Grammar.statement]
  refine sees.peek.bind fun token after same sees => ?_
  have expressed : Delivers settings (fun fuel => do
      return Statement.action
        (← Parser.within .expressionStatement (Grammar.expressionStatement fuel))) after
      (fun statement => statement.erase = .action erased) others := by
    refine (Delivers.within sees fun named sees => reads sees).bind fun action _ same sees => ?_
    exact Delivers.pure sees (by rw [Statement.erase, same])
  refine expressed.congr fun fuel => ?_
  have tokenKind : token.kind = next.kind := congrArg Lexeme.kind same
  rw [← tokenKind] at starts
  generalize token.kind = kind at starts
  split
  next => exact absurd starts Bool.false_ne_true
  next => exact absurd starts Bool.false_ne_true
  next => exact absurd starts Bool.false_ne_true
  next =>
    rw [Kind.isDeclaration_of_startsExpression starts]
    rfl

theorem statement_throw {expr : Expr Unit} (readable : expr.Readable settings)
    (ends : next.kind.isStructural = true)
    (sees : Sees settings (word "throw" :: (expr.lexemes ++ next :: rest)) state) :
    Delivers settings Grammar.statement state
      (fun statement => statement.erase = .action (.throw expr ())) (afterLine (next :: rest)) := by
  apply Delivers.succ
  simp only [Grammar.statement]
  refine sees.peek.bind fun token after same sees => ?_
  have tokenKind : token.kind = .keyword .throw := congrArg Lexeme.kind same
  simp only [tokenKind]
  refine (Delivers.within sees fun named sees => sees.throwStatement readable ends).bind
    fun action _ same sees => ?_
  exact Delivers.pure sees (by rw [Statement.erase, same])

theorem statement_empty (sees : Sees settings (symbol .semicolon :: rest) state) :
    Delivers settings Grammar.statement state (fun statement => statement.erase = .empty ())
      rest := by
  apply Delivers.succ
  simp only [Grammar.statement]
  refine sees.peek.bind fun token after same sees => ?_
  have tokenKind : token.kind = .symbol .semicolon := congrArg Lexeme.kind same
  simp only [tokenKind]
  exact (sees.consume Kind.noConfusion).bind fun _ _ _ sees => Delivers.pure sees rfl

/-! ## Lists of statements -/

variable {last : Kind} (count : Nat)

theorem statementsUntil_nil (notNewline : next.kind ≠ .newline)
    (closes : next.kind = last ∨ next.kind = .endOfInput)
    (sees : Sees settings (List.replicate count (layout .newline) ++ next :: rest) state) :
    Delivers settings (fun fuel => Grammar.statementsUntil fuel last) state
      (fun statements => Statement.eraseAll statements = []) (next :: rest) := by
  apply Delivers.succ
  simp only [Grammar.statementsUntil]
  refine (sees.removeNewlines count notNewline).bind fun _ _ _ sees => ?_
  refine sees.peek.bind fun token _ same sees => ?_
  have tokenKind : token.kind = next.kind := congrArg Lexeme.kind same
  simp only [tokenKind, decide_eq_true_eq, Bool.or_eq_true, if_pos closes]
  exact Delivers.pure sees rfl

theorem statementsUntil_cons (notNewline : next.kind ≠ .newline)
    (goesOn : ¬ (next.kind = last ∨ next.kind = .endOfInput))
    {first : Statement Unit} {statements : List (Statement Unit)} {final : List Lexeme}
    (reads : ∀ {named}, Sees settings (next :: others) named →
      Delivers settings Grammar.statement named (fun statement => statement.erase = first) rest)
    (later : ∀ {after}, Sees settings rest after →
      Delivers settings (fun fuel => Grammar.statementsUntil fuel last) after
        (fun read => Statement.eraseAll read = statements) final)
    (sees : Sees settings (List.replicate count (layout .newline) ++ next :: others) state) :
    Delivers settings (fun fuel => Grammar.statementsUntil fuel last) state
      (fun read => Statement.eraseAll read = first :: statements) final := by
  apply Delivers.succ
  simp only [Grammar.statementsUntil]
  refine (sees.removeNewlines count notNewline).bind fun _ _ _ sees => ?_
  refine sees.peek.bind fun token _ same sees => ?_
  have tokenKind : token.kind = next.kind := congrArg Lexeme.kind same
  simp only [tokenKind, decide_eq_true_eq, Bool.or_eq_true, if_neg goesOn]
  refine Delivers.get ?_
  refine (Delivers.within sees fun named sees => reads sees).attempt.bind
    fun result _ read sees => ?_
  obtain ⟨statement, rfl, sameFirst⟩ := read
  refine (later sees).bind fun more _ sameMore sees => ?_
  exact Delivers.pure sees (by rw [Statement.eraseAll, sameFirst, sameMore])

/-- Statements between the tokens of a level are a block. -/
theorem block {statements : List (Statement Unit)} {inner : List Lexeme}
    (reads : ∀ {after}, Sees settings inner after →
      Delivers settings (fun fuel => Grammar.statementsUntil fuel .dedent) after
        (fun read => Statement.eraseAll read = statements) (layout .dedent :: rest))
    (sees : Sees settings (layout .indent :: inner) state) :
    Delivers settings Grammar.block state
      (fun action => action.erase = .block statements ()) rest := by
  apply Delivers.succ
  simp only [Grammar.block]
  refine (sees.expect Kind.noConfusion).bind fun first _ _ sees => ?_
  refine (reads sees).bind fun read _ same sees => ?_
  refine (sees.expect Kind.noConfusion).bind fun last _ _ sees => ?_
  exact Delivers.pure sees (by rw [Action.erase, same])

theorem statement_block {statements : List (Statement Unit)} {inner : List Lexeme}
    (reads : ∀ {after}, Sees settings inner after →
      Delivers settings (fun fuel => Grammar.statementsUntil fuel .dedent) after
        (fun read => Statement.eraseAll read = statements) (layout .dedent :: rest))
    (sees : Sees settings (layout .indent :: inner) state) :
    Delivers settings Grammar.statement state
      (fun statement => statement.erase = .action (.block statements ())) rest := by
  apply Delivers.succ
  simp only [Grammar.statement]
  refine sees.peek.bind fun token after same sees => ?_
  have tokenKind : token.kind = .indent := congrArg Lexeme.kind same
  simp only [tokenKind]
  refine (Delivers.within sees fun named sees => sees.block reads).bind fun action _ same sees => ?_
  exact Delivers.pure sees (by rw [Statement.erase, same])

/-! ## Texts -/

theorem file {statements : List (Statement Unit)} {lexemes : List Lexeme}
    (reads : ∀ {after}, Sees settings lexemes after →
      Delivers settings (fun fuel => Grammar.statementsUntil fuel .endOfInput) after
        (fun read => Statement.eraseAll read = statements) [layout .endOfInput])
    (sees : Sees settings lexemes state) :
    Delivers settings Grammar.file state (fun file => file.erase = ⟨statements, ()⟩)
      [layout .endOfInput] := by
  unfold Grammar.file
  refine (reads sees).bind fun read _ same sees => ?_
  refine sees.expectAny.bind fun last _ _ sees => ?_
  exact Delivers.pure sees (by rw [File.erase, same])

theorem ofSource {source : List Char} {tokens : List Token}
    (items : (Lexer.ofSource settings.tabWidth source).items false = tokens.map .token) :
    Sees settings (tokens.map Token.lexeme) (.ofSource settings false source) := by
  refine ⟨ParserState.ready_ofSource settings false source, rfl, rfl, ?_, ?_⟩
  · intro error member
    change LexItem.error error ∈ (Lexer.ofSource settings.tabWidth source).items false at member
    rw [items] at member
    obtain ⟨_, _, impossible⟩ := List.mem_map.mp member
    contradiction
  · change (((Lexer.ofSource settings.tabWidth source).items false).filterMap
      LexItem.token?).map Token.lexeme = _
    rw [items, List.filterMap_map, show LexItem.token? ∘ LexItem.token = some from rfl,
      List.filterMap_some]

end Sees

/-- The discipline that asks for nothing. -/
def Discipline.none : Discipline where
  Holds _ _ := True
  Fails _ _ := True
  draws _ _ := trivial
  takes _ _ := trivial
  names _ _ := trivial
  namesFailed _ _ := trivial
  faults _ _ := trivial
  endsFatally _ _ _ := trivial
  abandons _ := trivial
  reports _ := trivial
  gaveUp _ _ _ := trivial

/-- The fuel that a state brings is enough for a text. -/
theorem Delivers.enough {settings : Settings} {state : ParserState} {right : File Span → Prop}
    {rest : List Lexeme} (ready : state.Ready)
    (reads : Delivers settings Grammar.file state right rest) :
    Delivers settings (fun _ => Grammar.file state.fuel) state right rest := by
  have reach : Discipline.none.Reach 0 state state := .start ready trivial
  have bound := state.length_ahead_le_fuel
  refine reads.settled fun more enough => ?_
  have both : Discipline.Enough 7 0 state state.fuel more := ⟨by omega, by omega⟩
  have agrees : Discipline.none.Agrees true state (Grammar.file state.fuel) (Grammar.file more)
      state _ := Discipline.agrees_grammar_file reach both
  exact agrees.1

/-- It is enough for an expression. -/
theorem Delivers.enough_expression {settings : Settings} {state : ParserState}
    {right : Expr Span → Prop} {rest : List Lexeme} {minimum : Nat} (ready : state.Ready)
    (reads : Delivers settings (fun fuel => Grammar.expression fuel minimum) state right rest) :
    Delivers settings (fun _ => Grammar.expression state.fuel minimum) state right rest := by
  have reach : Discipline.none.Reach 0 state state := .start ready trivial
  have bound := state.length_ahead_le_fuel
  refine reads.settled fun more enough => ?_
  have both : Discipline.Enough 4 0 state state.fuel more := ⟨by omega, by omega⟩
  exact ((Discipline.none.walk _ _).expression minimum reach both).1

/-- A text is read as the statements that its tokens are read as. -/
theorem parse_of_reads {settings : Settings} {source : List Char} {tokens : List Token}
    (items : (Lexer.ofSource settings.tabWidth source).items false = tokens.map .token)
    {statements : List (Statement Unit)}
    (reads : ∀ {state}, Sees settings (tokens.map Token.lexeme) state →
      Delivers settings (fun fuel => Grammar.statementsUntil fuel .endOfInput) state
        (fun read => Statement.eraseAll read = statements) [layout .endOfInput]) :
    ∃ file, parse settings false source = ⟨some file, []⟩ ∧ file.erase = ⟨statements, ()⟩ := by
  have whole : Delivers settings (fun _ => Parser.file) (.ofSource settings false source)
      (fun file => file.erase = ⟨statements, ()⟩) [layout .endOfInput] :=
    Delivers.within (Sees.ofSource items) fun named sees =>
      Delivers.fueled ((sees.file reads).enough sees.ready)
  obtain ⟨enough, file, after, reads, same, sees⟩ := whole
  have result : Parser.file (.ofSource settings false source) = .ok file after :=
    reads enough (Nat.le_refl enough)
  refine ⟨file, ?_, same⟩
  rw [parse, result, Parsed.ofResult, sees.unreported, Diagnostic.sorted, List.mergeSort_nil]

end Offside
