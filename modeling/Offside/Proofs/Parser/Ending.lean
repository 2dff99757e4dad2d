import Offside.Proofs.Parser.Accounting

/-!
When there is a tree. A reading gives up only for two reasons: the tokens ended in a fatal error,
or a statement failed in a last line that no line break ends. The first is seen in the items of
the lexer alone, and of the second it is seen in them that it can not be.
-/

namespace Offside

open LexStream

namespace LexStream

def EndsInError (items : List LexItem) : Prop :=
  ∃ error, .error error ∈ items ∧ error.isFatal = true

def EndsInEof (items : List LexItem) : Prop :=
  ∃ token, .token token ∈ items ∧ token.kind = .endOfInput

/-- A terminal item is the last of a terminated stream. -/
theorem Terminated.getLast?_eq {items : List LexItem} (terminated : Terminated items)
    {item : LexItem} (member : item ∈ items) (isTerminal : item.isTerminal = true) :
    items.getLast? = some item := by
  obtain ⟨before, last, rfl, _, endless⟩ := terminated
  rcases List.mem_append.mp member with earlier | isLast
  · rw [endless item earlier] at isTerminal
    contradiction
  · rw [List.mem_singleton.mp isLast, List.getLast?_concat]

/-- The one terminal item is either the end of input or an error. -/
theorem Terminated.not_both {items : List LexItem} (terminated : Terminated items)
    (inError : EndsInError items) : ¬ EndsInEof items := by
  rintro ⟨token, tokenMember, isEnd⟩
  obtain ⟨error, errorMember, isFatal⟩ := inError
  have lastError := terminated.getLast?_eq errorMember isFatal
  have lastToken := terminated.getLast?_eq tokenMember (by simp [LexItem.isTerminal, isEnd])
  rw [lastError] at lastToken
  exact LexItem.noConfusion (Option.some.inj lastToken)

end LexStream

namespace Lexer

variable {cancelled : Bool} {lexer after : Lexer} {item : LexItem}

theorem afterCalls_succ (cancelled : Bool) (lexer : Lexer) (count : Nat) :
    lexer.afterCalls cancelled (count + 1) =
      (lexer.advance cancelled).afterCalls cancelled count := by
  induction count with
  | zero => rfl
  | succ count inductionHypothesis => rw [afterCalls, inductionHypothesis, afterCalls]

/-- A lexer after all its items were yielded. -/
def drained (cancelled : Bool) (lexer : Lexer) : Lexer :=
  lexer.afterCalls cancelled (lexer.items cancelled).length

theorem drained_of_next? (found : lexer.next? cancelled = some (item, after)) :
    lexer.drained cancelled = after.drained cancelled := by
  have advanced : lexer.advance cancelled = after := by
    rw [advance, found]
  rw [drained, items_of_next? found, List.length_cons, afterCalls_succ, advanced, drained]

theorem drained_of_next?_eq_none (missing : lexer.next? cancelled = none) :
    lexer.drained cancelled = lexer := by
  rw [drained, items_of_next?_eq_none missing]
  rfl

end Lexer

/-- What a text comes to for the lexer: all items, and the lexer after them. -/
structure Lexed where
  items : List LexItem
  final : Lexer

def Lexed.ofSource (settings : Settings) (cancelled : Bool) (source : List Char) : Lexed :=
  let lexer := Lexer.ofSource settings.tabWidth source
  ⟨lexer.items cancelled, lexer.drained cancelled⟩

/-! ## Readings -/

/-- The lexer of a parser ends as `lexed` says, what is still to come from it is part of that, and
an error that is owed is one of an attempt that failed. -/
structure Foresees (lexed : Lexed) (owed : Option SyntaxError) (state : ParserState) : Prop where
  final : state.lexer.drained state.cancelled = lexed.final
  coming : state.coming ⊆ lexed.items
  owed : ∀ error, owed = some error → error ∈ state.failures ∧ error.lexError? = none

/-- Why there is no tree: the tokens end in a fatal error, or an attempt failed in a last line
that no line break ends. -/
inductive GivesUp (lexed : Lexed) (failures : List SyntaxError) (error : SyntaxError) : Prop
  | fatal {cause : LexError} (isCause : error = .ofLexError cause) (isFatal : cause.isFatal = true)
      (member : .error cause ∈ lexed.items)
  | inLine (failed : error ∈ failures) (syntactic : error.lexError? = none)
      (ends : EndsInEof lexed.items) (noLineBreak : lexed.final.endedAtLineBreak = false)

namespace Foresees

variable {lexed : Lexed} {owed : Option SyntaxError} {state : ParserState}

theorem draws {after : ParserState} (draws : ParserState.Draws state after)
    (foresees : Foresees lexed owed state) : Foresees lexed owed after := by
  obtain ⟨final, coming, isOwed⟩ := foresees
  cases draws with
  | token noFatal found =>
    refine ⟨Lexer.drained_of_next? found ▸ final, ?_, isOwed⟩
    simpa [ParserState.coming, Lexer.items_of_next? found, noFatal] using coming
  | fatal noFatal found isFatal =>
    refine ⟨Lexer.drained_of_next? found ▸ final, ?_, isOwed⟩
    simpa [ParserState.coming, Lexer.items_of_next? found, noFatal] using coming
  | report noFatal found harmless =>
    refine ⟨Lexer.drained_of_next? found ▸ final, ?_, isOwed⟩
    simp only [ParserState.coming, Lexer.items_of_next? found, noFatal, Option.toList_none,
      List.map_nil, List.nil_append, List.append_subset, List.cons_subset] at coming ⊢
    exact ⟨coming.1, coming.2.2⟩

theorem takes {token : Token} {others : List Token} (buffer : state.buffer = token :: others)
    (foresees : Foresees lexed owed state) : Foresees lexed owed (state.afterToken token others) := by
  obtain ⟨final, coming, isOwed⟩ := foresees
  refine ⟨final, ?_, isOwed⟩
  unfold ParserState.afterToken
  split
  next => exact coming
  next =>
    rw [ParserState.coming, buffer, List.map_cons, List.cons_append, List.cons_subset] at coming
    exact coming.2

/-- At the end of input the lexer has nothing left to yield. -/
theorem of_atEnd (ready : state.Ready) (atEnd : state.AtEnd)
    (foresees : Foresees lexed owed state) :
    EndsInEof lexed.items ∧ lexed.final = state.lexer := by
  have missing := (ready.nothing_of_atEnd atEnd).2
  obtain ⟨token, others, buffer, isEnd⟩ := atEnd
  refine ⟨⟨token, foresees.coming ?_, isEnd⟩, ?_⟩
  · rw [ParserState.coming, buffer, List.map_cons, List.cons_append]
    exact List.mem_cons_self
  · rw [← foresees.final, Lexer.drained_of_next?_eq_none missing]

end Foresees

theorem LexError.isError_toDiagnostic {error : LexError} (isFatal : error.isFatal = true) :
    error.toDiagnostic.isError = true := by
  obtain ⟨fault, span⟩ := error
  cases fault with
  | mixedIndentation => exact absurd isFatal Bool.false_ne_true
  | _ => rfl

theorem SyntaxError.toDiagnostic_eq {error : SyntaxError} (syntactic : error.lexError? = none) :
    error.toDiagnostic = ⟨.syntactic, .error, error.message, error.span⟩ := by
  rw [toDiagnostic, syntactic]

theorem GivesUp.isError {lexed : Lexed} {failures : List SyntaxError} {error : SyntaxError}
    (givesUp : GivesUp lexed failures error) : error.toDiagnostic.isError = true := by
  cases givesUp with
  | fatal isCause isFatal member =>
    subst isCause
    exact LexError.isError_toDiagnostic isFatal
  | inLine failed syntactic ends noLineBreak =>
    rw [SyntaxError.toDiagnostic_eq syntactic]
    rfl

/-- What all readings foresee of the end. -/
def foresight (lexed : Lexed) : Discipline where
  Holds := Foresees lexed
  Fails abort state :=
    match abort with
    | .recoverable error => Foresees lexed none state ∧ error.lexError? = none
    | .failure error => GivesUp lexed state.failures error
    | .exhausted => False
  draws drawn foresees := foresees.draws drawn
  takes buffer foresees := foresees.takes buffer
  names _ := fun ⟨final, coming, isOwed⟩ => ⟨final, coming, isOwed⟩
  namesFailed {abort _} _ fails := by
    cases abort with
    | recoverable error => exact ⟨⟨fails.1.final, fails.1.coming, fails.1.owed⟩, fails.2⟩
    | failure error => exact fails
    | exhausted => exact fails
  faults {_ fault _} isSyntactic foresees := by
    refine ⟨foresees, ?_⟩
    cases fault with
    | lexical error => exact absurd rfl (isSyntactic error)
    | _ => rfl
  endsFatally {state error} ready ends foresees := by
    refine .fatal rfl (ready.isFatal error ends.fatal) (foresees.coming ?_)
    simp [ParserState.coming, ends.fatal]
  abandons {state error} := fun ⟨foresees, syntactic⟩ =>
    ⟨foresees.final, foresees.coming, fun _ isOwed => by
      obtain rfl := Option.some.inj isOwed
      exact ⟨List.mem_append_right _ (List.mem_singleton_self _), syntactic⟩⟩
  reports := fun ⟨final, coming, _⟩ =>
    ⟨final, coming, fun _ isOwed => absurd isOwed (Option.some_ne_none _).symm⟩
  gaveUp {state error} ready ends foresees := by
    obtain ⟨endsInEof, final⟩ := foresees.of_atEnd ready ends.1
    obtain ⟨failed, syntactic⟩ := foresees.owed error rfl
    exact .inLine failed syntactic endsInEof (final ▸ ends.2)

/-! ## Whole texts -/

section

variable (settings : Settings) (cancelled : Bool) (source : List Char)

theorem foresees_ofSource :
    Foresees (.ofSource settings cancelled source) none (.ofSource settings cancelled source) :=
  ⟨rfl, fun _ member => member, fun _ isOwed => absurd isOwed (Option.some_ne_none _).symm⟩

/-- A text is read as a tree and its tokens end in the end of input, or the reading gave up. -/
theorem endsInEof_or_givesUp :
    ((parse settings cancelled source).file?.isSome = true ∧
      EndsInEof (Lexed.ofSource settings cancelled source).items) ∨
    ∃ error, (parse settings cancelled source).file? = none ∧
      error.toDiagnostic ∈ (parse settings cancelled source).diagnostics ∧
      GivesUp (.ofSource settings cancelled source)
        (ParserState.ended settings cancelled source).failures error := by
  have ready := ParserState.ready_ofSource settings cancelled source
  obtain ⟨_, outcome⟩ : (foresight _).Agrees true _ Parser.file Parser.file _ _ :=
    Discipline.agrees_file ready (foresees_ofSource settings cancelled source)
  split at outcome
  next tree after result =>
    obtain ⟨reach, atEnd⟩ := outcome
    refine Or.inl ⟨?_, (reach.holds.of_atEnd reach.ready atEnd).1⟩
    rw [parse, result]
    rfl
  next abort after result =>
    cases abort with
    | recoverable error => exact absurd outcome.permitted Bool.noConfusion
    | exhausted => exact absurd outcome.permitted id
    | failure error =>
      have ended : ParserState.ended settings cancelled source = after := by
        rw [ParserState.ended, result]
      refine Or.inr ⟨error, ?_, ?_, ended ▸ outcome.fails⟩
      · rw [parse, result]
        rfl
      · rw [parse, result]
        refine (Diagnostic.sorted_perm _).mem_iff.mpr (List.mem_append_right _ ?_)
        exact List.mem_singleton_self _

/-- When a text is read as a tree. -/
structure TreeExists : Prop where
  /-- No tree comes of tokens that end in a fatal error, which being cancelled is one of. -/
  none_of_error : EndsInError (Lexed.ofSource settings cancelled source).items →
    (parse settings cancelled source).file? = none
  /-- A text whose last line of code is ended is read as a tree whatever is wrong in it. -/
  of_lineBreak : EndsInEof (Lexed.ofSource settings cancelled source).items →
    (Lexed.ofSource settings cancelled source).final.endedAtLineBreak = true →
    (parse settings cancelled source).file?.isSome = true
  /-- So is a text for which no error of an attempt that failed is reported. -/
  of_noFailure : EndsInEof (Lexed.ofSource settings cancelled source).items →
    (∀ diagnostic ∈ (parse settings cancelled source).diagnostics,
      diagnostic.kind = .syntactic → diagnostic.severity = .error →
        diagnostic ∉ (ParserState.ended settings cancelled source).failed) →
    (parse settings cancelled source).file?.isSome = true
  hasErrors_of_none : (parse settings cancelled source).file? = none →
    (parse settings cancelled source).hasErrors = true

theorem tree_exists : TreeExists settings cancelled source := by
  have terminated : Terminated (Lexed.ofSource settings cancelled source).items :=
    LexState.terminated_stream cancelled rfl
  rcases endsInEof_or_givesUp settings cancelled source with
    ⟨isTree, ends⟩ | ⟨error, noTree, reported, givesUp⟩
  · refine ⟨fun inError => absurd ends (terminated.not_both inError), fun _ _ => isTree,
      fun _ _ => isTree, fun noTree => ?_⟩
    rw [noTree] at isTree
    contradiction
  · refine ⟨fun _ => noTree, fun ends ended => ?_, fun ends noFailure => ?_, fun _ => ?_⟩
    · cases givesUp with
      | fatal isCause isFatal member =>
        exact absurd ends (terminated.not_both ⟨_, member, isFatal⟩)
      | inLine failed syntactic _ noLineBreak =>
        rw [ended] at noLineBreak
        contradiction
    · cases givesUp with
      | fatal isCause isFatal member =>
        exact absurd ends (terminated.not_both ⟨_, member, isFatal⟩)
      | inLine failed syntactic _ noLineBreak =>
        have isDiagnostic := SyntaxError.toDiagnostic_eq syntactic
        have unseen := noFailure _ reported (by rw [isDiagnostic]) (by rw [isDiagnostic])
        exact absurd (List.mem_map_of_mem failed) unseen
    · exact List.any_eq_true.mpr ⟨_, reported, givesUp.isError⟩

end

end Offside
