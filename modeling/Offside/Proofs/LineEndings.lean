import Offside.Proofs.Lexer.Returns
import Offside.Proofs.LinesWithoutCode
import Offside.Proofs.Parser.TandemText

/-!
Line breaks are line feeds, with or without a carriage return before them. A text in which every
line feed follows a carriage return is read as the text without the carriage returns: there is the
same tree up to spans, or none, and the same is wrong at the same lines and columns.
-/

namespace Offside

open LexStream
open Text (WithReturns)

/-! ## Places in two texts -/

namespace Position

/-- On an earlier line, or in the same line and further left. -/
def Ahead (first last : Position) : Prop :=
  first.line < last.line ∨ first.line = last.line ∧ first.column < last.column

variable {first second : Position}

theorem ahead_past (position : Position) (c : Char) : position.Ahead (position.past c) := by
  unfold past
  split
  next => exact Or.inl (Nat.lt_succ_self _)
  next => exact Or.inr ⟨rfl, Nat.lt_succ_self _⟩

theorem Ahead.trans {third : Position} (ahead : first.Ahead second) (later : second.Ahead third) :
    first.Ahead third := by
  unfold Ahead at *
  omega

theorem Ahead.asymm (ahead : first.Ahead second) : ¬ second.Ahead first := by
  unfold Ahead at *
  omega

theorem ahead_advance (position : Position) {text : List Char} (nonempty : text ≠ []) :
    position.Ahead (position.advance text) := by
  induction text generalizing position with
  | nil => contradiction
  | cons c text inductionHypothesis =>
    have first := position.ahead_past c
    cases text with
    | nil => exact first
    | cons other text => exact first.trans (inductionHypothesis _ (List.cons_ne_nil _ _))

end Position

namespace Place

variable {origin origin' : Place} {first second first' second' : Position}

/-- Of two places in one text either is reached from the other. -/
theorem Reaches.total (reaches : origin.Reaches first) (reaches' : origin.Reaches second) :
    ∃ text, second = first.advance text ∨ first = second.advance text := by
  obtain ⟨rest, text, isText, rfl⟩ := reaches
  obtain ⟨rest', text', isText', rfl⟩ := reaches'
  have whole : text ++ rest = text' ++ rest' := isText.symm.trans isText'
  rcases List.append_eq_append_iff.mp whole with ⟨more, rfl, _⟩ | ⟨more, rfl, _⟩
  · exact ⟨more, Or.inl (Position.advance_append _ _ _)⟩
  · exact ⟨more, Or.inr (Position.advance_append _ _ _)⟩

/-- Places in one text are in the order of their lines and columns. -/
theorem Reaches.le_iff (reaches : origin.Reaches first) (reaches' : origin.Reaches second) :
    first ≤ second ↔ ¬ second.Ahead first := by
  obtain ⟨text, rfl | rfl⟩ := reaches.total reaches'
  · refine iff_of_true (Position.le_advance _ _) fun ahead => ?_
    cases text with
    | nil => exact ahead.asymm ahead
    | cons c text => exact ahead.asymm (first.ahead_advance (List.cons_ne_nil c text))
  · cases text with
    | nil => exact iff_of_true (Position.le_refl _) fun ahead => ahead.asymm ahead
    | cons c text =>
      have nonempty := List.cons_ne_nil c text
      exact iff_of_false (second.lt_advance nonempty) fun notAhead =>
        notAhead (second.ahead_advance nonempty)

/-- Places at one line and column in two texts. -/
structure Matches (origin origin' : Place) (first first' : Position) : Prop where
  alike : Position.Alike first first'
  reaches : origin.Reaches first
  reaches' : origin'.Reaches first'

namespace Matches

variable (left : Matches origin origin' first first') (right : Matches origin origin' second second')

include left right

/-- Places are in the same order in both texts. -/
theorem le_iff : first' ≤ second' ↔ first ≤ second := by
  have same : second'.Ahead first' ↔ second.Ahead first := by
    unfold Position.Ahead
    rw [left.alike.line, left.alike.column, right.alike.line, right.alike.column]
  rw [left.reaches'.le_iff right.reaches', left.reaches.le_iff right.reaches, same]

theorem min : Matches origin origin' (min first second) (min first' second') := by
  change Matches origin origin' (if first ≤ second then first else second)
    (if first' ≤ second' then first' else second')
  rw [if_congr (left.le_iff right) rfl rfl]
  split
  next => exact left
  next => exact right

theorem max : Matches origin origin' (max first second) (max first' second') := by
  change Matches origin origin' (if first ≤ second then second else first)
    (if first' ≤ second' then second' else first')
  rw [if_congr (left.le_iff right) rfl rfl]
  split
  next => exact right
  next => exact left

end Matches

end Place

/-- Spans of two texts between places at the same lines and columns. -/
structure Span.Matches (origin origin' : Place) (span span' : Span) : Prop where
  first : origin.Matches origin' span.first span'.first
  last : origin.Matches origin' span.last span'.last

namespace Diagnostic

/-- Diagnostics of one kind that start at the same line and column. -/
structure Matches (origin origin' : Place) (diagnostic diagnostic' : Diagnostic) : Prop where
  kind : diagnostic'.kind = diagnostic.kind
  severity : diagnostic'.severity = diagnostic.severity
  first : origin.Matches origin' diagnostic.span.first diagnostic'.span.first

/-- What is wrong, but for the wording, and where it starts. -/
def outset (diagnostic : Diagnostic) : DiagnosticKind × Severity × Nat × Nat :=
  (diagnostic.kind, diagnostic.severity, diagnostic.span.first.line, diagnostic.span.first.column)

variable {origin origin' : Place} {diagnostics diagnostics' : List Diagnostic}

theorem Matches.outset {diagnostic diagnostic' : Diagnostic}
    (same : Matches origin origin' diagnostic diagnostic') :
    diagnostic'.outset = diagnostic.outset := by
  obtain ⟨kind, severity, ⟨line, column⟩, _⟩ := same
  rw [Diagnostic.outset, Diagnostic.outset, kind, severity, line, column]

/-- Diagnostics that match in the order they were reported in match in the order of the text. -/
theorem outsets_sorted (all : List.Forall₂ (Matches origin origin') diagnostics diagnostics') :
    (sorted diagnostics').map outset = (sorted diagnostics).map outset := by
  have length := all.length_eq
  have paired : ∀ pair ∈ diagnostics.zip diagnostics', Matches origin origin' pair.1 pair.2 :=
    fun _ member => (List.forall₂_iff_zip.mp all).2 member
  obtain ⟨ordered, perm, lefts, rights⟩ := exists_sorted_pairs (diagnostics.zip diagnostics')
    (List.pairwise_of_forall_mem_list fun first isFirst second isSecond =>
      ((paired first isFirst).first.le_iff (paired second isSecond).first).symm)
  rw [List.map_fst_zip length.le] at lefts
  rw [List.map_snd_zip length.ge] at rights
  rw [lefts, rights, List.map_map, List.map_map]
  exact List.map_congr_left fun pair member => (paired pair (perm.mem_iff.mp member)).outset

end Diagnostic

/-! ## Texts in tandem -/

theorem Input.lineBreaks_of_returns (settings : Settings) (cancelled : Bool)
    {source source' : List Char} (returns : WithReturns source source') :
    (Input.mk settings cancelled source').endsInLineBreak =
      (Input.mk settings cancelled source).endsInLineBreak := by
  have alike := LexState.alike_ofSource settings.tabWidth returns
  change ((LexState.ofSource settings.tabWidth source').final cancelled).state.endedAtLineBreak =
    ((LexState.ofSource settings.tabWidth source).final cancelled).state.endedAtLineBreak
  cases cancelled with
  | false => exact alike.endedAtLineBreak_final
  | true =>
    have running : (LexState.ofSource settings.tabWidth source).finished = false := rfl
    rw [LexState.final_of_running true running,
      LexState.final_of_running true (alike.finished.trans running),
      LexState.final_of_finished true rfl, LexState.final_of_finished true rfl]
    exact alike.endedAtLineBreak

theorem LexItem.Alike.exists_last {before items : List LexItem} {token : Token}
    (all : List.Forall₂ LexItem.Alike (before ++ [.token token]) items) :
    ∃ others other, items = others ++ [.token other] ∧
      List.Forall₂ LexItem.Alike before others ∧ Token.Alike token other := by
  induction before generalizing items with
  | nil =>
    obtain ⟨item, nothing, alike, none, rfl⟩ := List.forall₂_cons_left_iff.mp all
    obtain rfl := List.forall₂_nil_left_iff.mp none
    cases alike with
    | token alike => exact ⟨[], _, rfl, .nil, alike⟩
  | cons first before inductionHypothesis =>
    obtain ⟨item, others, alike, more, rfl⟩ := List.forall₂_cons_left_iff.mp all
    obtain ⟨others, other, rfl, all, last⟩ := inductionHypothesis more
    exact ⟨item :: others, other, rfl, .cons alike all, last⟩

namespace Tandem

/-- A text and the same with carriage returns. -/
def ofReturns (settings : Settings) (cancelled : Bool) {source source' : List Char}
    (returns : WithReturns source source') : Tandem where
  left := ⟨settings, cancelled, source⟩
  right := ⟨settings, cancelled, source'⟩
  spans := Span.Matches (.ofSource source) (.ofSource source')
  tells := Diagnostic.Matches (.ofSource source) (.ofSource source')
  spelled := False
  inStep := True
  hinted := false
  join same same' := ⟨same.first.min same'.first, same.last.max same'.last⟩
  syntactic _ same := ⟨rfl, rfl, same.first⟩
  types _ := rfl
  lineBreaks := Input.lineBreaks_of_returns settings cancelled returns

section

variable {settings : Settings} {cancelled : Bool} {source source' : List Char}
  {returns : WithReturns source source'} {items items' lefts rights : List LexItem}

/-- All places of an item are in the text. -/
def Covered (source : List Char) (items : List LexItem) : Prop :=
  ∀ item ∈ items, (Place.ofSource source).Covers item.span

theorem counterparts_of_alike {token token' : Token} (alike : Token.Alike token token')
    (covers : (Place.ofSource source).Covers token.span)
    (covers' : (Place.ofSource source').Covers token'.span) :
    (ofReturns settings cancelled returns).Counterparts token token' :=
  ⟨alike.kind, alike.name, False.elim, ⟨alike.span.first, covers.1, covers'.1⟩,
    ⟨alike.span.last, covers.2, covers'.2⟩⟩

theorem tells_of_alike {error error' : LexError} (alike : LexError.Alike error error')
    (covers : (Place.ofSource source).Covers error.span)
    (covers' : (Place.ofSource source').Covers error'.span) :
    (ofReturns settings cancelled returns).tells error.toDiagnostic error'.toDiagnostic :=
  ⟨alike.kind, alike.severity, alike.first, covers.1, covers'.1⟩

theorem Items.append_alike (covered : Covered source items) (covered' : Covered source' items')
    (all : List.Forall₂ LexItem.Alike items items')
    (later : (ofReturns settings cancelled returns).Items lefts rights) :
    (ofReturns settings cancelled returns).Items (items ++ lefts) (items' ++ rights) := by
  induction all with
  | nil => exact later
  | cons alike _ inductionHypothesis =>
    have behind := inductionHypothesis (fun item member => covered item (.tail _ member))
      (fun item member => covered' item (.tail _ member))
    have covers := covered _ List.mem_cons_self
    have covers' := covered' _ List.mem_cons_self
    cases alike with
    | token alike => exact .token (counterparts_of_alike alike covers covers') behind
    | error alike => exact .error (tells_of_alike alike covers covers') alike.isFatal behind

theorem tells_of_errors (covered : Covered source items) (covered' : Covered source' items')
    (all : List.Forall₂ LexError.Alike (items.filterMap LexItem.error?)
      (items'.filterMap LexItem.error?)) :
    List.Forall₂ (ofReturns settings cancelled returns).tells (LexItem.diagnostics items)
      (LexItem.diagnostics items') := by
  obtain ⟨length, alike⟩ := List.forall₂_iff_zip.mp all
  refine List.forall₂_map_left_iff.mpr (List.forall₂_map_right_iff.mpr
    (List.forall₂_iff_zip.mpr ⟨length, fun {error error'} member => ?_⟩))
  obtain ⟨inItems, inItems'⟩ := List.of_mem_zip member
  exact tells_of_alike (alike member) (covered _ (LexItem.mem_errors.mp inItems))
    (covered' _ (LexItem.mem_errors.mp inItems'))

variable {left right : LexState}

/-- Both texts end within a string that comes to the end of its line. -/
theorem doomed_of_cut (alike : LexState.Alike left right) (running : left.finished = false)
    (cut : left.Cut) (covered : Covered source (left.stream false))
    (covered' : Covered source' (right.stream false)) :
    (ofReturns settings cancelled returns).Doomed (left.stream false) (right.stream false) := by
  obtain ⟨start, start', first, breaks, breaks'⟩ := alike.breaks running cut
  refine ⟨breaks.onlyText, breaks'.onlyText, tells_of_errors covered covered' ?_⟩
  obtain ⟨last, errors⟩ := breaks.errors
  obtain ⟨last', errors'⟩ := breaks'.errors
  have decoded := LexState.decode_faults alike.position (Scan.stringBody_alike alike.rest).faults
  rw [errors, errors']
  exact List.rel_append decoded (.cons (.of_fault first) .nil)

/-- The items to come of states that are in front of the two texts. -/
theorem items_of_alike (alike : LexState.Alike left right) (fits : left.Fits)
    (calm : ¬ left.Cut) (covered : Covered source (left.stream false))
    (covered' : Covered source' (right.stream false)) :
    (ofReturns settings cancelled returns).Items (left.stream false) (right.stream false) := by
  induction alike using LexState.Alike.run_induction with
  | finished alike ended =>
    rw [LexState.stream_of_finished false ended,
      LexState.stream_of_finished false (alike.finished.trans ended)]
    exact .nil
  | cut _ _ cut => exact absurd cut calm
  | @step left right alike running calm inductionHypothesis =>
    have running' := alike.finished.trans running
    obtain ⟨items, after⟩ := alike.step calm
    have stream : left.stream false = left.step.1 ++ left.step.2.stream false :=
      LexState.stream_of_running false running
    have stream' : right.stream false = right.step.1 ++ right.step.2.stream false :=
      LexState.stream_of_running false running'
    rw [stream] at covered ⊢
    rw [stream'] at covered' ⊢
    obtain ⟨inStep, later⟩ := List.forall_mem_append.mp covered
    obtain ⟨inStep', later'⟩ := List.forall_mem_append.mp covered'
    have fitsStep : left.step.2.Fits := (LexState.fitsInto_proceed false fits running).fits
    by_cases cut : left.step.2.Cut
    · cases ended : left.step.2.finished with
      | true =>
        rw [LexState.stream_of_finished false ended,
          LexState.stream_of_finished false (after.finished.trans ended)]
        exact Items.nil.append_alike inStep inStep' items
      | false =>
        -- The step ends with the token that opens the text at the end of the line.
        have doomed := @doomed_of_cut settings cancelled _ _ returns _ _ after ended cut later later'
        obtain ⟨before, token, isStep, opens⟩ := LexState.opens_step fits calm ended cut
        rw [isStep] at items inStep ⊢
        obtain ⟨before', token', isStep', first, last⟩ := LexItem.Alike.exists_last items
        rw [isStep'] at inStep' ⊢
        obtain ⟨covered, coveredLast⟩ := List.forall_mem_append.mp inStep
        obtain ⟨covered', coveredLast'⟩ := List.forall_mem_append.mp inStep'
        have counterparts := @counterparts_of_alike settings cancelled _ _ returns _ _ last
          (coveredLast _ List.mem_cons_self) (coveredLast' _ List.mem_cons_self)
        rw [List.append_assoc, List.append_assoc]
        exact (Items.doomed counterparts opens doomed).append_alike covered covered' first
    · exact (inductionHypothesis fitsStep cut later later').append_alike inStep inStep' items

theorem covered_stream (settings : Settings) (cancelled : Bool) (source : List Char) :
    Covered source ((LexState.ofSource settings.tabWidth source).stream cancelled) := by
  have located : LexState.Located (.ofSource source) (.ofSource settings.tabWidth source) :=
    LexState.place_ofSource settings.tabWidth source ▸
      LexState.located_of_atLine (LexState.atLine_ofSource settings.tabWidth source)
  exact (LexState.located_final cancelled located).1

theorem items_of_returns (settings : Settings) (cancelled : Bool)
    (returns : WithReturns source source') :
    (ofReturns settings cancelled returns).Items
      ((LexState.ofSource settings.tabWidth source).stream cancelled)
      ((LexState.ofSource settings.tabWidth source').stream cancelled) := by
  have alike := LexState.alike_ofSource settings.tabWidth returns
  have covered := covered_stream settings cancelled source
  have covered' := covered_stream settings cancelled source'
  cases cancelled with
  | true =>
    have running : (LexState.ofSource settings.tabWidth source).finished = false := rfl
    rw [LexState.stream_cancelled running] at covered ⊢
    rw [LexState.stream_cancelled (alike.finished.trans running)] at covered' ⊢
    exact Items.nil.append_alike covered covered' (.cons (.error (.of_fault alike.position)) .nil)
  | false =>
    have outside : ¬ LexMode.InString (LexState.ofSource settings.tabWidth source).modes :=
      LexMode.not_inString_nil
    exact items_of_alike alike ⟨.code, fun _ inside => absurd inside outside⟩
      (fun cut => outside cut.inside) covered covered'

end

end Tandem

/-! ## Whole texts -/

/-- Carriage returns before line feeds make no difference to the tree of a text, but for its spans,
nor to what is wrong with it and where that starts. -/
theorem parse_of_returns (settings : Settings) (cancelled : Bool) {source source' : List Char}
    (returns : WithReturns source source') :
    (parse settings cancelled source').file?.map File.erase =
        (parse settings cancelled source).file?.map File.erase ∧
      (parse settings cancelled source').diagnostics.map Diagnostic.outset =
        (parse settings cancelled source).diagnostics.map Diagnostic.outset := by
  let pair := Tandem.ofReturns settings cancelled returns
  have answers : pair.Answers := Tandem.answers (Tandem.items_of_returns settings cancelled returns)
  refine ⟨answers.erased rfl, ?_⟩
  obtain ⟨reported, reported', same, same', all⟩ := answers.diagnostics trivial
  change pair.right.parsed.diagnostics.map _ = pair.left.parsed.diagnostics.map _
  rw [same, same']
  exact Diagnostic.outsets_sorted all

namespace Text

/-- The text with a carriage return before every line feed. -/
def returned (text : List Char) : List Char :=
  text.flatMap fun c => if c = '\n' then ['\r', '\n'] else [c]

theorem withReturns_returned {text : List Char} (noReturn : '\r' ∉ text) :
    WithReturns text (returned text) := by
  unfold returned
  induction text with
  | nil => exact .nil
  | cons c text inductionHypothesis =>
    obtain ⟨different, noReturns⟩ := List.ne_and_not_mem_of_not_mem_cons noReturn
    have later := inductionHypothesis noReturns
    rw [List.flatMap_cons]
    by_cases feed : c = '\n'
    · subst feed
      exact .returned later
    · rw [if_neg feed]
      exact .plain feed (Ne.symm different) later

end Text

/-- Whether lines end in line feeds alone or in carriage returns and line feeds, a text has the same
tree up to spans, or none, and the same is wrong with it at the same lines and columns. -/
theorem parse_returned (settings : Settings) (cancelled : Bool) {source : List Char}
    (noReturn : '\r' ∉ source) :
    (parse settings cancelled (Text.returned source)).file?.isSome =
        (parse settings cancelled source).file?.isSome ∧
      (parse settings cancelled (Text.returned source)).file?.map File.erase =
        (parse settings cancelled source).file?.map File.erase ∧
      (parse settings cancelled (Text.returned source)).diagnostics.map Diagnostic.outset =
        (parse settings cancelled source).diagnostics.map Diagnostic.outset := by
  obtain ⟨trees, diagnostics⟩ :=
    parse_of_returns settings cancelled (Text.withReturns_returned noReturn)
  refine ⟨?_, trees, diagnostics⟩
  have isSome := congrArg Option.isSome trees
  rwa [Option.isSome_map, Option.isSome_map] at isSome

/-- A line that is joined to the next, a string over two lines, a comment, an indented line with a
character that starts no token, and a string that is never closed. -/
def Text.joined : List Char :=
  "x \\\n + \"a\\\n b\" // c\n\t @ y\n\"z\n".toList

theorem parse_returned_joined :
    '\r' ∉ Text.joined ∧
      Text.returned Text.joined =
        "x \\\r\n + \"a\\\r\n b\" // c\r\n\t @ y\r\n\"z\r\n".toList ∧
      (parse {} false (Text.returned Text.joined)).file?.isSome =
        (parse {} false Text.joined).file?.isSome ∧
      (parse {} false (Text.returned Text.joined)).file?.map File.erase =
        (parse {} false Text.joined).file?.map File.erase ∧
      (parse {} false (Text.returned Text.joined)).diagnostics.map Diagnostic.outset =
        (parse {} false Text.joined).diagnostics.map Diagnostic.outset := by
  have noReturn : '\r' ∉ Text.joined := by decide
  exact ⟨noReturn, by decide, parse_returned {} false noReturn⟩

end Offside
