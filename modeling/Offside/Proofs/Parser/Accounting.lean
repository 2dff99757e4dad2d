import Offside.Parse
import Offside.Tokenize
import Offside.Proofs.Parser.Walk

/-!
What becomes of errors. While a text is read, every error of its lexer waits in one place, and once
it is drawn it is reported at most once more; the error of an attempt that failed is owed until it
is reported. In the end the diagnostics are those of the lexer, in their order, and one for each
attempt that failed.
-/

namespace Offside

/-! ## Sorting -/

namespace Diagnostic

/-- Among sorted diagnostics, a first one stands between those that it does not come before and
the others. -/
theorem sorted_cons (first : Diagnostic) (others : List Diagnostic) :
    ∃ before after, sorted (first :: others) = before ++ first :: after ∧
      sorted others = before ++ after ∧
      (before ++ after).filter (fun other => !decide (first.span.first ≤ other.span.first)) =
        before ∧
      (before ++ after).filter (fun other => first.span.first ≤ other.span.first) = after := by
  have trans : ∀ left middle right : Diagnostic,
      decide (left.span.first ≤ middle.span.first) = true →
        decide (middle.span.first ≤ right.span.first) = true →
          decide (left.span.first ≤ right.span.first) = true := by
    intro left middle right lower upper
    simp only [decide_eq_true_eq] at lower upper ⊢
    exact Position.le_trans lower upper
  have total : ∀ left right : Diagnostic,
      (decide (left.span.first ≤ right.span.first) ||
        decide (right.span.first ≤ left.span.first)) = true := by
    intro left right
    simpa using Position.le_total left.span.first right.span.first
  obtain ⟨before, after, whole, rest, behind⟩ := List.mergeSort_cons trans total first others
  have inOrder := List.pairwise_mergeSort trans total (first :: others)
  rw [whole] at inOrder
  have ahead : ∀ other ∈ after, decide (first.span.first ≤ other.span.first) = true :=
    (List.pairwise_cons.mp (List.pairwise_append.mp inOrder).2.1).1
  refine ⟨before, after, whole, rest, ?_, ?_⟩
  · rw [List.filter_append, List.filter_eq_self.mpr behind, List.filter_eq_nil_iff.mpr,
      List.append_nil]
    intro other member
    simpa using ahead other member
  · rw [List.filter_append, List.filter_eq_self.mpr ahead, List.filter_eq_nil_iff.mpr,
      List.nil_append]
    intro other member
    simpa using behind other member

/-- Diagnostics in pairs stay in pairs, if those that come first in both of two pairs may stay in
front in both or in neither. -/
theorem exists_sorted_pairs (pairs : List (Diagnostic × Diagnostic))
    (agree : pairs.Pairwise fun first later =>
      first.1.span.first ≤ later.1.span.first ↔ first.2.span.first ≤ later.2.span.first) :
    ∃ ordered : List (Diagnostic × Diagnostic), ordered.Perm pairs ∧
      sorted (pairs.map Prod.fst) = ordered.map Prod.fst ∧
      sorted (pairs.map Prod.snd) = ordered.map Prod.snd := by
  induction pairs with
  | nil => exact ⟨[], .refl _, List.mergeSort_nil, List.mergeSort_nil⟩
  | cons first pairs inductionHypothesis =>
    obtain ⟨agreeFirst, agreeOthers⟩ := List.pairwise_cons.mp agree
    obtain ⟨ordered, perm, lefts, rights⟩ := inductionHypothesis agreeOthers
    obtain ⟨before, after, whole, rest, isBefore, isAfter⟩ := sorted_cons first.1 (pairs.map Prod.fst)
    obtain ⟨before', after', whole', rest', isBefore', isAfter'⟩ :=
      sorted_cons first.2 (pairs.map Prod.snd)
    rw [← rest, lefts, List.filter_map] at isBefore isAfter
    rw [← rest', rights, List.filter_map] at isBefore' isAfter'
    -- The pairs are split where the first ones are, which is where the second ones are split.
    have agrees : ∀ pair ∈ ordered, first.1.span.first ≤ pair.1.span.first ↔
        first.2.span.first ≤ pair.2.span.first :=
      fun pair member => agreeFirst pair (perm.mem_iff.mp member)
    let stays := fun pair : Diagnostic × Diagnostic =>
      decide (first.1.span.first ≤ pair.1.span.first)
    refine ⟨ordered.filter (fun pair => !stays pair) ++ first :: ordered.filter stays, ?_, ?_, ?_⟩
    · refine List.perm_middle.trans (.cons first (.trans ?_ perm))
      exact List.perm_append_comm.trans (List.filter_append_perm stays ordered)
    · rw [List.map_cons, whole, List.map_append, List.map_cons, ← isBefore, ← isAfter]
      rfl
    · have befores : ordered.filter (fun pair => !stays pair) = ordered.filter
          ((fun other => !decide (first.2.span.first ≤ other.span.first)) ∘ Prod.snd) := by
        refine List.filter_congr fun pair member => ?_
        simp only [stays, Function.comp_apply, agrees pair member]
      have afters : ordered.filter stays = ordered.filter
          ((fun other => decide (first.2.span.first ≤ other.span.first)) ∘ Prod.snd) := by
        refine List.filter_congr fun pair member => ?_
        simp only [stays, Function.comp_apply, agrees pair member]
      rw [List.map_cons, whole', List.map_append, List.map_cons, befores, afters, isBefore', isAfter']

/-- Diagnostics that are left out before sorting are left out after it. -/
theorem sorted_sublist {fewer all : List Diagnostic} (sublist : fewer.Sublist all) :
    (sorted fewer).Sublist (sorted all) := by
  induction sublist with
  | slnil => exact .refl _
  | @cons fewer all first _ inductionHypothesis =>
    obtain ⟨before, after, whole, rest, _⟩ := sorted_cons first all
    rw [rest] at inductionHypothesis
    rw [whole]
    exact inductionHypothesis.middle first
  | @cons_cons fewer all first _ inductionHypothesis =>
    obtain ⟨beforeFewer, afterFewer, wholeFewer, restFewer, splitFewer⟩ := sorted_cons first fewer
    obtain ⟨beforeAll, afterAll, wholeAll, restAll, splitAll⟩ := sorted_cons first all
    rw [restFewer, restAll] at inductionHypothesis
    -- What comes before the first one is found by a test that it does not pass itself.
    have befores := inductionHypothesis.filter
      fun other => !decide (first.span.first ≤ other.span.first)
    have afters := inductionHypothesis.filter fun other => first.span.first ≤ other.span.first
    rw [splitFewer.1, splitAll.1] at befores
    rw [splitFewer.2, splitAll.2] at afters
    rw [wholeFewer, wholeAll]
    exact befores.append (afters.cons_cons first)

end Diagnostic

/-! ## Errors of the lexer -/

namespace LexItem

theorem mem_errors {items : List LexItem} {error : LexError} :
    error ∈ items.filterMap error? ↔ .error error ∈ items := by
  rw [List.mem_filterMap]
  constructor
  · rintro ⟨item, member, isError⟩
    cases item with
    | token token => contradiction
    | error other => exact Option.some.inj isError ▸ member
  · exact fun member => ⟨_, member, rfl⟩

/-- The diagnostics of the errors between tokens. -/
def diagnostics (items : List LexItem) : List Diagnostic :=
  (items.filterMap error?).map LexError.toDiagnostic

theorem diagnostics_token (token : Token) (items : List LexItem) :
    diagnostics (.token token :: items) = diagnostics items :=
  rfl

theorem diagnostics_error (error : LexError) (items : List LexItem) :
    diagnostics (.error error :: items) = error.toDiagnostic :: diagnostics items :=
  rfl

end LexItem

namespace ParserState

/-- The diagnostics that are still to come from the lexer. -/
def unreported (state : ParserState) : List Diagnostic :=
  state.fatal.toList.map LexError.toDiagnostic ++
    LexItem.diagnostics (state.lexer.items state.cancelled)

def failed (state : ParserState) : List Diagnostic :=
  state.failures.map SyntaxError.toDiagnostic

end ParserState

/-- The books of a reading: of the diagnostics of the lexer, those taken so far were reported in
their order, and all other reports are of attempts that failed. -/
structure Books (lexical taken : List Diagnostic) (owed : Option SyntaxError)
    (state : ParserState) : Prop where
  complete : taken ++ state.unreported = lexical
  ordered : taken.Sublist state.reported
  balanced : (state.reported ++ owed.toList.map SyntaxError.toDiagnostic).Perm
    (taken ++ state.failed)
  syntactic : ∀ error ∈ state.failures, error.lexError? = none

/-- The books at the end of a reading, with everything that was reported. -/
structure Settled (lexical reported : List Diagnostic) (state : ParserState) : Prop where
  ended : state.lexer.next? state.cancelled = none
  ordered : lexical.Sublist reported
  balanced : reported.Perm (lexical ++ state.failed)
  syntactic : ∀ error ∈ state.failures, error.lexError? = none

namespace Books

variable {lexical taken : List Diagnostic} {owed : Option SyntaxError} {state : ParserState}

theorem draws {after : ParserState} (draws : ParserState.Draws state after)
    (books : Books lexical taken owed state) : ∃ taken, Books lexical taken owed after := by
  obtain ⟨complete, ordered, balanced, syntactic⟩ := books
  cases draws with
  | token noFatal found =>
    refine ⟨taken, ?_, ordered, balanced, syntactic⟩
    rw [ParserState.unreported, Lexer.items_of_next? found, LexItem.diagnostics_token] at complete
    exact complete
  | fatal noFatal found isFatal =>
    refine ⟨taken, ?_, ordered, balanced, syntactic⟩
    rw [ParserState.unreported, Lexer.items_of_next? found, LexItem.diagnostics_error,
      noFatal] at complete
    exact complete
  | @report error lexer noFatal found harmless =>
    refine ⟨taken ++ [error.toDiagnostic], ?_, ordered.append (.refl _), ?_, syntactic⟩
    · rw [ParserState.unreported, Lexer.items_of_next? found, LexItem.diagnostics_error,
        noFatal] at complete
      rw [List.append_assoc, ParserState.unreported, noFatal]
      exact complete
    · rw [List.append_assoc, List.append_assoc]
      exact (List.perm_middle.trans (balanced.cons _)).trans List.perm_middle.symm

/-- The error of an attempt that failed is owed. -/
theorem abandons {error : SyntaxError} (isSyntactic : error.lexError? = none)
    (books : Books lexical taken none state) :
    Books lexical taken (some error) { state with failures := state.failures ++ [error] } := by
  obtain ⟨complete, ordered, balanced, syntactic⟩ := books
  refine ⟨complete, ordered, ?_, ?_⟩
  · rw [Option.toList_none, List.map_nil, List.append_nil] at balanced
    rw [ParserState.failed, List.map_append, ← List.append_assoc]
    exact balanced.append_right _
  · intro other member
    rcases List.mem_append.mp member with earlier | last
    · exact syntactic other earlier
    · rwa [List.mem_singleton.mp last]

/-- An error that is owed is reported. -/
theorem reports {error : SyntaxError} (books : Books lexical taken (some error) state) :
    Books lexical taken none
      { state with reported := state.reported ++ [error.toDiagnostic] } := by
  obtain ⟨complete, ordered, balanced, syntactic⟩ := books
  refine ⟨complete, ordered.trans (List.sublist_append_left _ _), ?_, syntactic⟩
  rw [Option.toList_none, List.map_nil, List.append_nil]
  exact balanced

/-- At the end of input everything was taken. What is owed is the last report. -/
theorem settled_of_atEnd (ready : state.Ready) (atEnd : state.AtEnd)
    (books : Books lexical taken owed state) :
    Settled lexical (state.reported ++ owed.toList.map SyntaxError.toDiagnostic) state := by
  obtain ⟨complete, ordered, balanced, syntactic⟩ := books
  obtain ⟨noFatal, ended⟩ := ready.nothing_of_atEnd atEnd
  have everything : taken = lexical := by
    rw [ParserState.unreported, noFatal, Lexer.items_of_next?_eq_none ended] at complete
    simpa [LexItem.diagnostics] using complete
  subst everything
  exact ⟨ended, ordered.trans (List.sublist_append_left _ _), balanced, syntactic⟩

/-- A fatal error is the last that is taken, and the last report. -/
theorem settled_of_fatal {error : LexError} (ready : state.Ready)
    (ends : ParserState.EndsFatally 1 error state) (books : Books lexical taken none state) :
    Settled lexical (state.reported ++ [error.toDiagnostic]) state := by
  obtain ⟨complete, ordered, balanced, syntactic⟩ := books
  have noItems := ready.items_eq_nil_of_fatal ends.fatal
  have everything : taken ++ [error.toDiagnostic] = lexical := by
    rw [ParserState.unreported, ends.fatal, noItems] at complete
    exact complete
  subst everything
  rw [Option.toList_none, List.map_nil, List.append_nil] at balanced
  refine ⟨Lexer.next?_eq_none_of_items noItems, ordered.append (.refl _), ?_, syntactic⟩
  rw [List.append_assoc]
  refine (balanced.append_right _).trans ?_
  rw [List.append_assoc]
  exact List.perm_append_comm.append_left taken

end Books

/-! ## Readings -/

/-- What the books come to if a reading gives up. -/
def Closes (lexical : List Diagnostic) : Abort → ParserState → Prop
  | .recoverable error, state =>
    error.lexError? = none ∧ ∃ taken, Books lexical taken none state
  | .failure error, state => Settled lexical (state.reported ++ [error.toDiagnostic]) state
  | .exhausted, _ => False

/-- All readings keep the books. -/
def bookkeeping (lexical : List Diagnostic) : Discipline where
  Holds owed state := ∃ taken, Books lexical taken owed state
  Fails := Closes lexical
  draws drawn := fun ⟨_, books⟩ => books.draws drawn
  takes _ := fun ⟨taken, complete, ordered, balanced, syntactic⟩ =>
    ⟨taken, complete, ordered, balanced, syntactic⟩
  names _ := fun ⟨taken, complete, ordered, balanced, syntactic⟩ =>
    ⟨taken, complete, ordered, balanced, syntactic⟩
  namesFailed {abort _} _ closes := by
    cases abort with
    | recoverable error =>
      obtain ⟨isSyntactic, taken, complete, ordered, balanced, syntactic⟩ := closes
      exact ⟨isSyntactic, taken, complete, ordered, balanced, syntactic⟩
    | failure error =>
      obtain ⟨ended, ordered, balanced, syntactic⟩ := closes
      exact ⟨ended, ordered, balanced, syntactic⟩
    | exhausted => exact closes
  faults {_ fault _} isSyntactic books := by
    refine ⟨?_, books⟩
    cases fault with
    | lexical error => exact absurd rfl (isSyntactic error)
    | _ => rfl
  endsFatally ready ends := fun ⟨_, books⟩ => books.settled_of_fatal ready ends
  abandons := fun ⟨isSyntactic, taken, books⟩ => ⟨taken, books.abandons isSyntactic⟩
  reports := fun ⟨taken, books⟩ => ⟨taken, books.reports⟩
  gaveUp ready ends := fun ⟨_, books⟩ => books.settled_of_atEnd ready ends.1

namespace ParserState

variable (settings : Settings) (cancelled : Bool) (source : List Char)

/-- The state in which the reading of a whole text ends. -/
def ended : ParserState :=
  match Parser.file (ofSource settings cancelled source) with
  | .ok _ after => after
  | .error _ after => after

def lexical : List Diagnostic :=
  LexItem.diagnostics ((Lexer.ofSource settings.tabWidth source).items cancelled)

/-- The books of a whole text are settled, whether it is read as a tree or not. -/
theorem settled_file :
    match Parser.file (ofSource settings cancelled source) with
    | .ok _ after => Settled (lexical settings cancelled source) after.reported after
    | .error abort after => ∃ error, abort = .failure error ∧
        Settled (lexical settings cancelled source) (after.reported ++ [error.toDiagnostic])
          after := by
  have ready := ready_ofSource settings cancelled source
  have opens : (bookkeeping (lexical settings cancelled source)).Holds none
      (ofSource settings cancelled source) :=
    ⟨[], rfl, .refl _, .refl _, fun _ member => nomatch member⟩
  obtain ⟨_, outcome⟩ := Discipline.agrees_file ready opens
  split at outcome
  next after result =>
    obtain ⟨reach, atEnd⟩ := outcome
    obtain ⟨taken, books⟩ := reach.holds
    rw [result]
    simpa using books.settled_of_atEnd reach.ready atEnd
  next abort after result =>
    rw [result]
    cases abort with
    | recoverable error => exact absurd outcome.permitted Bool.noConfusion
    | failure error => exact ⟨error, rfl, outcome.fails⟩
    | exhausted => exact absurd outcome.permitted id

end ParserState

/-- The diagnostics of a whole text are those of its lexer, in their order, and one for each
attempt at a statement that failed. The lexer was driven to its end. -/
structure Accounted (settings : Settings) (cancelled : Bool) (source : List Char) : Prop where
  ended : (ParserState.ended settings cancelled source).lexer.next? cancelled = none
  ordered : (tokenize settings cancelled source).diagnostics.Sublist
    (parse settings cancelled source).diagnostics
  balanced : (parse settings cancelled source).diagnostics.Perm
    ((tokenize settings cancelled source).diagnostics ++
      (ParserState.ended settings cancelled source).failed)
  syntactic : ∀ diagnostic ∈ (ParserState.ended settings cancelled source).failed,
    diagnostic.kind = .syntactic ∧ diagnostic.severity = .error

theorem Settled.accounted {settings : Settings} {cancelled : Bool} {source : List Char}
    {reported : List Diagnostic}
    (settled : Settled (ParserState.lexical settings cancelled source) reported
      (ParserState.ended settings cancelled source))
    (result : (parse settings cancelled source).diagnostics = Diagnostic.sorted reported) :
    Accounted settings cancelled source := by
  obtain ⟨ended, ordered, balanced, syntactic⟩ := settled
  refine ⟨Lexer.next?_eq_none_of_next?_eq_none ended cancelled, ?_, ?_, ?_⟩
  · rw [result]
    exact Diagnostic.sorted_sublist ordered
  · rw [result]
    refine ((Diagnostic.sorted_perm reported).trans balanced).trans ?_
    exact (Diagnostic.sorted_perm _).symm.append_right _
  · intro diagnostic member
    obtain ⟨error, failed, rfl⟩ := List.mem_map.mp member
    rw [SyntaxError.toDiagnostic, syntactic error failed]
    exact ⟨rfl, rfl⟩

/-- What a text is answered by is in the books of the state that the reading of it ends in. -/
theorem ParserState.settled_ended (settings : Settings) (cancelled : Bool) (source : List Char) :
    ∃ reported, (parse settings cancelled source).diagnostics = Diagnostic.sorted reported ∧
      Settled (lexical settings cancelled source) reported (ended settings cancelled source) := by
  have settled := settled_file settings cancelled source
  cases result : Parser.file (.ofSource settings cancelled source) with
  | ok tree after =>
    rw [result] at settled
    have ended : ParserState.ended settings cancelled source = after := by
      rw [ParserState.ended, result]
    rw [← ended] at settled
    refine ⟨_, ?_, settled⟩
    rw [parse, result, ended, Parsed.ofResult]
  | error abort after =>
    rw [result] at settled
    obtain ⟨error, rfl, settled⟩ := settled
    have ended : ParserState.ended settings cancelled source = after := by
      rw [ParserState.ended, result]
    rw [← ended] at settled
    refine ⟨_, ?_, settled⟩
    rw [parse, result, ended, Parsed.ofResult]
    rfl

theorem diagnostics_accounted (settings : Settings) (cancelled : Bool) (source : List Char) :
    Accounted settings cancelled source := by
  obtain ⟨reported, result, settled⟩ := ParserState.settled_ended settings cancelled source
  exact settled.accounted result

end Offside
