import Offside.Proofs.Lexer.OutlineLines
import Offside.Proofs.Lexer.Requests
import Offside.Proofs.Parser.Ending
import Offside.Proofs.Parser.ReadOutline
import Offside.Proofs.Parser.Sequel

/-!
Texts behind each other. Where a text ends its last line, another text at the margin can stand
behind it, and is read as it is read alone, whatever is wrong in the one before. The end of the
first text is not there to be seen in both together: a statement that has come to its layout there
may take a semicolon behind it, and an error that was found at the end is found further on.
-/

namespace Offside

open LexStream Offside.Parser

variable {settings : Settings} {first second : List Char}

/-- A text whose last line is ended, and one that may stand behind it: its first line of code is
not indented, and it has no mark of its byte order, which only belongs at the start of a text. -/
structure Text.Joins (settings : Settings) (first second : List Char) : Prop where
  line : Text.EndsLine first
  ended : (Input.of settings first).endsInLineBreak = true
  noMark : second.head? ≠ some '\ufeff'
  margin : Text.AtMargin settings.tabWidth second

/-- A statement fails where the text ends, behind the colon of a switch or behind a level. -/
def Input.Stranded (input : Input) : Prop :=
  Strands input (ParserState.ended input.settings input.cancelled input.source)

/-- The statements of a text and those of one behind it. A semicolon in front of the latter ends
the last statement of the former, if that comes to its layout where the text ends. -/
inductive Appends (input : Input) (ahead behind whole : List (Statement Span)) : Prop
  | apart (same : Statement.eraseAll whole = Statement.eraseAll (ahead ++ behind))
  | shared {last : Statement Span} {span : Span} {others : List (Statement Span)}
    (opens : input.EndsOpen) (isLast : last ∈ ahead.getLast?)
    (layout : last.endsWithLayout = true) (semicolon : behind = .empty span :: others)
    (same : Statement.eraseAll whole = Statement.eraseAll (ahead ++ others))

/-- How a text behind another one is read, of which the file is read. -/
structure Concatenates (settings : Settings) (first second : List Char) (ahead : File Span) :
    Prop where
  tree : (parse settings false (first ++ second)).file?.isSome =
    (parse settings false second).file?.isSome
  statements : ∀ behind ∈ (parse settings false second).file?,
    ∀ whole ∈ (parse settings false (first ++ second)).file?,
      Appends (.of settings first) ahead.statements behind.statements whole.statements
  diagnostics : (parse settings false (first ++ second)).diagnostics.length =
    (parse settings false first).diagnostics.length +
      (parse settings false second).diagnostics.length

theorem Statement.eraseAll_append {α : Type} (ahead behind : List (Statement α)) :
    Statement.eraseAll (ahead ++ behind) =
      Statement.eraseAll ahead ++ Statement.eraseAll behind := by
  induction ahead with
  | nil => rfl
  | cons statement ahead inductionHypothesis =>
    rw [List.cons_append, eraseAll, eraseAll, inductionHypothesis, List.cons_append]

namespace Text.Joins

variable (joins : Text.Joins settings first second)

include joins

theorem endsInEof : EndsInEof (Lexed.ofSource settings false first).items := by
  obtain ⟨items, last, endedLine, leadsTo⟩ :=
    LexState.leadsTo_ofSource settings.tabWidth joins.line joins.ended
  have alone := leadsTo.stream []
  rw [LexState.append_nil, (endedLine.stream_of_blank
    (congrArg Scan.Split.rest Scan.blankLines_nil)).1, List.map_append] at alone
  have isLast : (last.append []).pastBlank.structural .endOfInput ∈
      (LexState.ofSource settings.tabWidth first).stream false := by
    rw [alone]
    exact List.mem_append_right _ (List.mem_append_right _ (List.mem_singleton_self _))
  exact ⟨_, isLast, rfl⟩

/-- The text in front is read as a tree, whatever is wrong in it. -/
theorem isSome_file : (parse settings false first).file?.isSome = true := by
  rcases endsInEof_or_givesUp settings false first with ⟨isTree, _⟩ | ⟨error, _, _, givesUp⟩
  · exact isTree
  · have terminated : Terminated (Lexed.ofSource settings false first).items :=
      LexState.terminated_stream false rfl
    cases givesUp with
    | fatal _ isFatal member =>
      exact absurd joins.endsInEof (terminated.not_both ⟨_, member, isFatal⟩)
    | inLine _ _ _ noLineBreak =>
      exact absurd (noLineBreak.symm.trans joins.ended) Bool.false_ne_true

end Text.Joins

/-! ## The statements of both texts -/

/-- The statements of a second text, and those of both texts together where the first one alone
has some statements, and as many attempts failed in it as are extra. -/
inductive Joint (input : Input) (ahead : List (Statement Span)) (extra : Nat) :
    EStateM.Result Abort ParserState (List (Statement Span)) →
      EStateM.Result Abort ParserState (List (Statement Span)) → Prop
  | ok {behind whole : List (Statement Span)} {second together : ParserState}
    (appends : Appends input ahead behind whole)
    (failures : together.failures.length = second.failures.length + extra) :
    Joint input ahead extra (.ok behind second) (.ok whole together)
  | failure {error other : SyntaxError} {second together : ParserState}
    (failures : together.failures.length = second.failures.length + extra) :
    Joint input ahead extra (.error (.failure error) second) (.error (.failure other) together)

section

variable {seam : Seam} {second : Input} {ahead others : List (Statement Span)}
  {left right : ParserState} {n extra : Nat}

theorem SameBy.append {behind later : List (Statement Span)}
    (same : SameBy Statement.eraseAll ahead others)
    (sameLater : SameBy Statement.eraseAll behind later) :
    SameBy Statement.eraseAll (ahead ++ behind) (others ++ later) := by
  rw [SameBy, Statement.eraseAll_append, Statement.eraseAll_append, same.eq, sameLater.eq]

/-- Behind the statements of the first text come those of the second one. -/
theorem Joint.of_repeats {input : Input} {parser : Parser (List (Statement Span))}
    {result : EStateM.Result Abort ParserState (List (Statement Span))}
    (same : SameBy Statement.eraseAll ahead others)
    (repeats : Repeats extra result (parser right)) :
    Joint input ahead extra result (((others ++ ·) <$> parser) right) := by
  generalize read : parser right = whole at repeats
  cases repeats with
  | ok sameLater failures =>
    rw [map_ok _ read]
    exact .ok (.apart (same.append sameLater)) failures
  | failure failures =>
    rw [map_error _ read]
    exact .failure failures

/-- A semicolon in front of the second text is no statement any more. -/
theorem Joint.of_semicolon {input : Input} {last : Statement Span} {span : Span}
    {parser parser' : Parser (List (Statement Span))} (opens : input.EndsOpen)
    (isLast : last ∈ ahead.getLast?) (layout : last.endsWithLayout = true)
    (same : SameBy Statement.eraseAll ahead others)
    (repeats : Repeats extra (parser left) (parser' right)) :
    Joint input ahead extra ((do return Statement.empty span :: (← parser)) left)
      (((others ++ ·) <$> parser') right) := by
  generalize read : parser left = behind at repeats
  generalize read' : parser' right = whole at repeats
  cases repeats with
  | ok sameLater failures =>
    rw [bind_ok read, map_ok _ read']
    exact .ok (.shared opens isLast layout rfl (same.append sameLater)) failures
  | failure failures =>
    rw [bind_error read, map_error _ read']
    exact .failure failures

/-- Behind the seam both texts together are read as the second one. -/
theorem Continues.joint (sameSettings : seam.right.settings = second.settings)
    (noExtra : seam.extra = 0) (resumes : Resumes second seam.right seam.after)
    {result : EStateM.Result Abort ParserState (List (Statement Span))}
    (continues : Continues seam ahead left result)
    (enough : 16 * second.tokens.length + 9 ≤ n) :
    Joint seam.left ahead left.failures.length
      (Grammar.statementsUntil n .endOfInput second.front) result := by
  obtain ⟨n, rfl⟩ : ∃ fuel, n = fuel + 2 := Nat.exists_eq_add_of_le' (by omega)
  have visited := second.visited_front
  have unfailed {after right : ParserState} (same : after.failures = second.front.failures)
      (failures : right.failures.length = left.failures.length + seam.extra) :
      right.failures.length = after.failures.length + left.failures.length := by
    rw [failures, noExtra, same]
    exact (Nat.zero_add _).symm
  cases continues with
  | @together others right isTogether same failures =>
    rw [isTogether] at resumes
    cases resumes with
    | @blank last tokens isEnd =>
      obtain ⟨after, nothing, sameFailures⟩ :=
        @statementsUntil_of_end second.front (n + 1) .endOfInput last second visited tokens isEnd
      rw [nothing]
      refine .ok (.apart ?_) (unfailed sameFailures failures)
      rw [List.append_nil, same.eq]
  | @across others taken right fuel same visitedRight goesOn shares depth failures enoughFuel =>
    generalize seam.after = found at resumes goesOn
    cases resumes with
    | blank => contradiction
    | code displacement ended =>
      have split := Option.some.inj goesOn
      have fewer : taken.length + right.ahead.length = second.tokens.length := by
        rw [← List.length_append, ← split, List.length_map]
      rcases shares with areLines | ⟨opens, last, isLast, layout, token, rfl, isSemicolon⟩
      · have frontEnough : 16 * second.front.ahead.length + 7 ≤ n + 2 := by
          change 16 * second.tokens.length + 7 ≤ n + 2
          omega
        refine Joint.of_repeats same ?_
        rw [statementsUntil_fuel visitedRight.ready .endOfInput enoughFuel
          (show 16 * right.ahead.length + 7 ≤ n + 2 by omega)]
        exact repeats_of_lines sameSettings ended visited visitedRight split areLines rfl depth
          (unfailed rfl failures) frontEnough
      · cases tokens : second.tokens with
        | nil =>
          rw [tokens] at split
          contradiction
        | cons next rest =>
          rw [tokens] at split fewer
          obtain ⟨rfl, later⟩ := List.cons.inj split
          obtain ⟨after, visitedAfter, aheadAfter, depthAfter, sameFailures, empty⟩ :=
            @statementsUntil_of_semicolon second.front n second next rest visited tokens isSemicolon
          have enoughAfter : 16 * after.ahead.length + 7 ≤ n + 1 := by
            rw [tokens, List.length_cons] at enough
            rw [aheadAfter]
            omega
          have enoughRight : 16 * right.ahead.length + 7 ≤ n + 1 := by
            rw [List.length_singleton, List.length_cons] at fewer
            rw [tokens, List.length_cons] at enough
            omega
          have displaced : Displaced displacement second seam.right left.failures.length after
              right :=
            ⟨sameSettings, ended, visitedAfter, visitedRight, aheadAfter ▸ later.symm, depthAfter,
              depth, unfailed sameFailures failures⟩
          rw [empty]
          refine Joint.of_semicolon opens isLast layout same ?_
          rw [statementsUntil_fuel visitedRight.ready .endOfInput enoughFuel enoughRight]
          exact displaced.repeats enoughAfter
  | @lost error right lines goesOn areLines failures =>
    generalize seam.after = found at resumes goesOn
    cases resumes with
    | blank => contradiction
    | code displacement ended =>
      obtain rfl := Option.some.inj goesOn
      obtain ⟨error, after, failed, sameFailures⟩ :=
        @statementsUntil_of_lines second.front (n + 1) .endOfInput visited.ready
          fun token member => areLines (displacement.token token) (List.mem_map_of_mem member)
      rw [failed]
      exact .failure (unfailed sameFailures failures)

end

/-! ## Both texts -/

/-- What the statements of both texts come to, and the errors of the lexer. -/
theorem Joint.concatenates {ahead : File Span}
    {result result' : EStateM.Result Abort ParserState (List (Statement Span))}
    (joint : Joint (.of settings first) ahead.statements
      (ParserState.ended settings false first).failures.length result result')
    (readsSecond : ReadsAs (.of settings second) result)
    (readsWhole : ReadsAs (.of settings (first ++ second)) result')
    (lexical : (ParserState.lexical settings false (first ++ second)).length =
      (ParserState.lexical settings false first).length +
        (ParserState.lexical settings false second).length) :
    Concatenates settings first second ahead := by
  have diagnostics {after after' : ParserState}
      (isAfter : (ParserState.ended settings false second).failures = after.failures)
      (isAfter' : (ParserState.ended settings false (first ++ second)).failures = after'.failures)
      (failures : after'.failures.length =
        after.failures.length + (ParserState.ended settings false first).failures.length) :
      (parse settings false (first ++ second)).diagnostics.length =
        (parse settings false first).diagnostics.length +
          (parse settings false second).diagnostics.length := by
    rw [length_diagnostics, length_diagnostics, length_diagnostics, lexical, isAfter, isAfter',
      failures]
    omega
  cases joint with
  | ok appends failures =>
    cases readsSecond with
    | tree isBehind failuresSecond =>
      cases readsWhole with
      | tree isWhole failuresWhole =>
        refine ⟨?_, fun behind found whole foundWhole => ?_,
          diagnostics failuresSecond failuresWhole failures⟩
        · exact (congrArg Option.isSome isWhole).trans (congrArg Option.isSome isBehind).symm
        · obtain rfl := Option.some.inj (isBehind.symm.trans found)
          obtain rfl := Option.some.inj (isWhole.symm.trans foundWhole)
          exact appends
  | failure failures =>
    cases readsSecond with
    | nothing noTree failuresSecond =>
      cases readsWhole with
      | nothing noTreeWhole failuresWhole =>
        refine ⟨?_, fun behind found => ?_, diagnostics failuresSecond failuresWhole failures⟩
        · exact (congrArg Option.isSome noTreeWhole).trans (congrArg Option.isSome noTree).symm
        · exact absurd (noTree.symm.trans found) (Option.some_ne_none behind).symm

/-- Where no statement is stranded at the end of a text, it does not matter what is wrong in it. -/
theorem Text.Joins.concatenates (joins : Text.Joins settings first second)
    (sound : ¬ (Input.of settings first).Stranded) :
    ∃ ahead ∈ (parse settings false first).file?, Concatenates settings first second ahead := by
  obtain ⟨border, after, together, tokens, resumes, lexical⟩ :=
    exists_border settings joins.line joins.ended joins.noMark joins.margin
  let input := Input.of settings first
  let other := Input.of settings second
  let whole := Input.of settings (first ++ second)
  let seam := border.seam settings after joins.ended together
  let n := 16 * (input.tokens.length + other.tokens.length + whole.tokens.length) + 9
  have readsFirst := @readsAs n input (by omega)
  have readsSecond := @readsAs n other (by omega)
  have readsWhole := @readsAs n whole (by omega)
  have abreast : Abreast seam 0 input.front input.front whole.front :=
    .start input.visited_front whole.visited_front tokens rfl rfl
  generalize read : Grammar.statementsUntil n .endOfInput input.front = result at readsFirst
  cases readsFirst with
  | nothing noTree =>
    have isTree := joins.isSome_file
    rw [show (parse settings false first).file? = none from noTree] at isTree
    contradiction
  | @tree ahead middle isAhead failures =>
    have notStranded : ¬ Strands seam.left middle := by
      rwa [Strands, ← failures]
    have enough : 16 * input.front.ahead.length + 7 ≤ n := by
      change 16 * input.tokens.length + 7 ≤ n
      omega
    have enough' : 16 * whole.front.ahead.length + 7 ≤ n := by
      change 16 * whole.tokens.length + 7 ≤ n
      omega
    have continues := (follows seam n abreast rfl enough enough' read).resolve_left notStranded
    have joint := @Continues.joint seam other ahead.statements middle n rfl rfl resumes _ continues
      (by omega)
    rw [← failures] at joint
    exact ⟨ahead, isAhead, joint.concatenates readsSecond readsWhole lexical⟩

/-- Behind a text without diagnostics another text is read as it is read alone. The semicolon it may
start with ends the last statement before it, if that comes to its layout where that text ends. -/
theorem parse_append (joins : Text.Joins settings first second)
    (clean : (parse settings false first).diagnostics = []) :
    ∃ ahead ∈ (parse settings false first).file?,
      (parse settings false (first ++ second)).file?.isSome =
        (parse settings false second).file?.isSome ∧
      (∀ behind ∈ (parse settings false second).file?,
        ∀ whole ∈ (parse settings false (first ++ second)).file?,
          Appends (.of settings first) ahead.statements behind.statements whole.statements) ∧
      (parse settings false (first ++ second)).diagnostics.length =
        (parse settings false second).diagnostics.length := by
  have count := length_diagnostics settings false first
  rw [clean, List.length_nil] at count
  have unfailed : (ParserState.ended settings false first).failures = [] :=
    List.eq_nil_of_length_eq_zero (by omega)
  have sound : ¬ (Input.of settings first).Stranded := by
    rintro ⟨_, error, failed, _⟩
    exact absurd (unfailed ▸ failed) List.not_mem_nil
  obtain ⟨ahead, isAhead, concatenates⟩ := joins.concatenates sound
  refine ⟨ahead, isAhead, concatenates.tree, concatenates.statements, ?_⟩
  rw [concatenates.diagnostics, clean, List.length_nil, Nat.zero_add]

/-- A text that is read as a tree is read as one behind another text too, whatever is wrong in
that, unless a statement is stranded at its end. -/
theorem parse_append_of_tree (joins : Text.Joins settings first second)
    (sound : ¬ (Input.of settings first).Stranded) {behind : File Span}
    (tree : (parse settings false second).file? = some behind) :
    ∃ ahead whole, (parse settings false first).file? = some ahead ∧
      (parse settings false (first ++ second)).file? = some whole ∧
        Appends (.of settings first) ahead.statements behind.statements whole.statements := by
  obtain ⟨ahead, isAhead, concatenates⟩ := joins.concatenates sound
  have isTree := concatenates.tree
  rw [tree] at isTree
  obtain ⟨whole, isWhole⟩ := Option.isSome_iff_exists.mp isTree
  exact ⟨ahead, whole, isAhead, isWhole, concatenates.statements behind tree whole isWhole⟩

/-! ## Texts that are run -/

/-- A lexer is drained by enough requests. -/
theorem Lexer.drained_eq_afterRequests {lexer : Lexer} {cancelled : Bool} {count : Nat}
    (done : (lexer.afterRequests (List.replicate count cancelled)).next? cancelled = none) :
    lexer.drained cancelled = lexer.afterRequests (List.replicate count cancelled) := by
  induction count generalizing lexer with
  | zero => exact Lexer.drained_of_next?_eq_none done
  | succ count inductionHypothesis =>
    rw [List.replicate_succ, Lexer.afterRequests, List.foldl_cons, ← Lexer.afterRequests] at done ⊢
    rw [← inductionHypothesis done]
    cases found : lexer.next? cancelled with
    | none => rw [Lexer.advance, found]
    | some next => rw [Lexer.advance, found, Lexer.drained_of_next? found]

/-- The last line of a text is seen to be ended when its lexer has nothing left. -/
theorem Input.endsInLineBreak_of_requests {source : List Char} {count : Nat}
    (done : ((Lexer.ofSource settings.tabWidth source).afterRequests
      (List.replicate count false)).next? false = none)
    (ended : ((Lexer.ofSource settings.tabWidth source).afterRequests
      (List.replicate count false)).endedAtLineBreak = true) :
    (Input.of settings source).endsInLineBreak = true := by
  change (Lexer.drained false (Lexer.ofSource settings.tabWidth source)).endedAtLineBreak = true
  rw [Lexer.drained_eq_afterRequests done]
  exact ended

/-- The token before the end of input is the one that a text ends open with. -/
theorem Input.EndsOpen.last {input : Input} (opens : input.EndsOpen) :
    ∃ last ∈ input.tokens.dropLast.getLast?,
      last.kind = .symbol .colon ∨ last.kind = .dedent := by
  obtain ⟨last, eof, ⟨before, whole⟩, _, kind⟩ := opens
  refine ⟨last, ?_, kind⟩
  rw [← whole, List.append_cons, List.dropLast_concat, List.getLast?_concat]
  rfl

/-- A text is read as the tokens that its lexer yields. -/
theorem parse_of_requests {source : List Char} {count : Nat} {lexemes : List Lexeme}
    {statements : List (Statement Unit)}
    (done : ((Lexer.ofSource settings.tabWidth source).afterRequests
      (List.replicate count false)).next? false = none)
    (clean : (Lexer.ofSource settings.tabWidth source).answers (List.replicate count false) =
      (tokens ((Lexer.ofSource settings.tabWidth source).answers
        (List.replicate count false))).map .token)
    (yields : (tokens ((Lexer.ofSource settings.tabWidth source).answers
      (List.replicate count false))).map Token.lexeme = lexemes)
    (reads : ∀ {state}, Sees settings lexemes state →
      Delivers settings (fun fuel => Grammar.statementsUntil fuel .endOfInput) state
        (fun read => Statement.eraseAll read = statements) [Lexeme.layout .endOfInput]) :
    ∃ file, parse settings false source = ⟨some file, []⟩ ∧
      Statement.eraseAll file.statements = statements := by
  have items := (Lexer.items_eq_answers done).trans clean
  obtain ⟨file, read, erased⟩ := parse_of_reads items fun sees => reads (yields ▸ sees)
  exact ⟨file, read, congrArg File.statements erased⟩

namespace Outline

/-- A switch without arms. -/
def bare : Outline :=
  .switch ⟨"x", ⟨by decide +kernel, by decide⟩⟩ [] 1 []

open Lexeme in
/-- A switch without arms is a statement by itself. -/
theorem parse_bare : ∃ file, parse {} false "switch x :\n".toList = ⟨some file, []⟩ ∧
    Statement.eraseAll file.statements = [bare.statement] := by
  have fits : FitAll 0 [bare] := by simp [bare, FitAll, Fits, OutlineArm.FitAll]
  refine @parse_of_requests {} _ 4 (tokensAll false [bare] ++ [layout .endOfInput]) _
    (by decide +kernel) (by decide +kernel) (by decide +kernel) fun sees => ?_
  exact readsAll [bare] fits (Or.inr rfl) sees

open Lexeme in
theorem parse_semicolon : ∃ file, parse {} false ";\n".toList = ⟨some file, []⟩ ∧
    Statement.eraseAll file.statements = [.empty ()] := by
  have fits : FitAll 0 [.empty] := by simp [FitAll, Fits]
  refine @parse_of_requests {} _ 2 (tokensAll false [.empty] ++ [layout .endOfInput]) _
    (by decide +kernel) (by decide +kernel) (by decide +kernel) fun sees => ?_
  exact readsAll [.empty] fits (Or.inr rfl) sees

open Lexeme in
/-- A semicolon on the line behind a switch ends it. -/
theorem parse_bare_semicolon : ∃ file, parse {} false "switch x :\n;\n".toList = ⟨some file, []⟩ ∧
    Statement.eraseAll file.statements = [bare.statement] := by
  refine @parse_of_requests {} _ 6 [word "switch", word "x", symbol .colon, layout .newline,
    symbol .semicolon, layout .endOfInput] _
    (by decide +kernel) (by decide +kernel) (by decide +kernel) fun sees => ?_
  have switch {state : ParserState} (sees : Sees {} (word "switch" :: [word "x", symbol .colon,
      layout .newline, symbol .semicolon, layout .endOfInput]) state) :
      Delivers {} Grammar.switch state
        (fun read => read.erase = .switch [.identifier ⟨"x", ()⟩] [] ())
        [symbol .semicolon, layout .endOfInput] :=
    @Sees.switch {} _ _ ⟨"x", ⟨by decide +kernel, by decide⟩⟩ [] [] _
      (Or.inl ⟨layout .newline, _, rfl, rfl, Kind.noConfusion, rfl, rfl⟩) sees
  have reads {state : ParserState} (sees : Sees {} [word "switch", word "x", symbol .colon,
      layout .newline, symbol .semicolon, layout .endOfInput] state) :
      Delivers {} Grammar.statement state (fun read => read.erase = bare.statement)
        [layout .endOfInput] :=
    sees.statement_switch_until rfl switch fun _ sees => sees.terminator_semicolon _
  exact Sees.statementsUntil_cons 0 Kind.noConfusion (by decide) reads
    (fun sees => sees.statementsUntil_nil 0 Kind.noConfusion (Or.inl rfl)) sees

end Outline

theorem joins_bare : Text.Joins {} "switch x :\n".toList ";\n".toList where
  line := ⟨"switch x :".toList, by decide, by decide, by decide⟩
  ended := @Input.endsInLineBreak_of_requests {} _ 4 (by decide +kernel) (by decide +kernel)
  noMark := by decide
  margin _ := by decide +kernel

/-- A switch without arms, and a semicolon behind it. -/
theorem parse_append_bare :
    Text.Joins {} "switch x :\n".toList ";\n".toList ∧
      (parse {} false "switch x :\n".toList).diagnostics = [] ∧
      ∃ ahead ∈ (parse {} false "switch x :\n".toList).file?,
        (parse {} false ("switch x :\n".toList ++ ";\n".toList)).file?.isSome =
          (parse {} false ";\n".toList).file?.isSome ∧
        (∀ behind ∈ (parse {} false ";\n".toList).file?,
          ∀ whole ∈ (parse {} false ("switch x :\n".toList ++ ";\n".toList)).file?,
            Appends (.of {} "switch x :\n".toList) ahead.statements behind.statements
              whole.statements) ∧
        (parse {} false ("switch x :\n".toList ++ ";\n".toList)).diagnostics.length =
          (parse {} false ";\n".toList).diagnostics.length := by
  obtain ⟨file, read, _⟩ := Outline.parse_bare
  have clean : (parse {} false "switch x :\n".toList).diagnostics = [] := by rw [read]
  exact ⟨joins_bare, clean, parse_append joins_bare clean⟩

/-- A statement behind one that has an operator too many. -/
theorem parse_append_of_tree_garbled :
    Text.Joins {} "x + * x\n".toList ";\n".toList ∧ ¬ (Input.of {} "x + * x\n".toList).Stranded ∧
      ∃ behind, (parse {} false ";\n".toList).file? = some behind ∧
        ∃ ahead whole, (parse {} false "x + * x\n".toList).file? = some ahead ∧
          (parse {} false ("x + * x\n".toList ++ ";\n".toList)).file? = some whole ∧
            Appends (.of {} "x + * x\n".toList) ahead.statements behind.statements
              whole.statements := by
  have joins : Text.Joins {} "x + * x\n".toList ";\n".toList :=
    { line := ⟨"x + * x".toList, by decide, by decide, by decide⟩
      ended := @Input.endsInLineBreak_of_requests {} _ 5 (by decide +kernel) (by decide +kernel)
      noMark := by decide
      margin := fun _ => by decide +kernel }
  have sound : ¬ (Input.of {} "x + * x\n".toList).Stranded := by
    rintro ⟨opens, _⟩
    obtain ⟨last, isLast, kind⟩ := opens.last
    have yields : (Input.of {} "x + * x\n".toList).tokens =
        tokens ((Lexer.ofSource 8 "x + * x\n".toList).answers (List.replicate 5 false)) :=
      congrArg tokens (Lexer.items_eq_answers (by decide +kernel))
    have isIdentifier : (Input.of {} "x + * x\n".toList).tokens.dropLast.getLast?.map Token.kind =
        some .identifier := by
      rw [yields]
      decide +kernel
    rw [isLast] at isIdentifier
    have same : last.kind = .identifier := Option.some.inj isIdentifier
    rw [same] at kind
    exact kind.elim Kind.noConfusion Kind.noConfusion
  obtain ⟨behind, read, _⟩ := Outline.parse_semicolon
  have tree : (parse {} false ";\n".toList).file? = some behind := by rw [read]
  exact ⟨joins, sound, behind, tree, parse_append_of_tree joins sound tree⟩

/-- The statements are not always those of both texts: a semicolon behind a switch is not one by
itself. -/
theorem semicolon_ends_switch :
    Text.Joins {} "switch x :\n".toList ";\n".toList ∧
      (parse {} false "switch x :\n".toList).diagnostics = [] ∧
      ∃ ahead behind whole,
        (parse {} false "switch x :\n".toList).file? = some ahead ∧
        (parse {} false ";\n".toList).file? = some behind ∧
        (parse {} false ("switch x :\n".toList ++ ";\n".toList)).file? = some whole ∧
        Statement.eraseAll whole.statements ≠
          Statement.eraseAll (ahead.statements ++ behind.statements) := by
  obtain ⟨ahead, read, isBare⟩ := Outline.parse_bare
  obtain ⟨behind, readBehind, isEmpty⟩ := Outline.parse_semicolon
  obtain ⟨whole, readWhole, isWhole⟩ := Outline.parse_bare_semicolon
  refine ⟨joins_bare, by rw [read], ahead, behind, whole, by rw [read], by rw [readBehind], ?_, ?_⟩
  · exact congrArg Parsed.file? readWhole
  · rw [Statement.eraseAll_append, isBare, isEmpty, isWhole]
    exact fun same => absurd (congrArg List.length same) (by decide)

/-- Nor are the last statements always those of the text behind. -/
theorem semicolon_not_last :
    Text.Joins {} "switch x :\n".toList ";\n".toList ∧
      ∃ behind whole, (parse {} false ";\n".toList).file? = some behind ∧
        (parse {} false ("switch x :\n".toList ++ ";\n".toList)).file? = some whole ∧
        ¬ Statement.eraseAll behind.statements <:+ Statement.eraseAll whole.statements := by
  obtain ⟨behind, readBehind, isEmpty⟩ := Outline.parse_semicolon
  obtain ⟨whole, readWhole, isWhole⟩ := Outline.parse_bare_semicolon
  refine ⟨joins_bare, behind, whole, by rw [readBehind], congrArg Parsed.file? readWhole, ?_⟩
  rw [isEmpty, isWhole]
  rintro ⟨before, same⟩
  obtain ⟨_, same⟩ := List.append_inj' (same.trans (List.nil_append _).symm) rfl
  have isAction : Statement.empty () = .action _ := (List.cons.inj same).1
  contradiction

end Offside
