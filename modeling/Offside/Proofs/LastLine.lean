import Offside.Proofs.LayoutTokens
import Offside.Proofs.Lexer.Tiling

/-!
The end of the last line. Whether the last line of code was ended is told by a mark that the lexer
sets at line breaks and takes back at the next line of code. What it comes to is said here of the text
behind the last code alone: there is a line feed in it that stands in no block comment and behind no
backslash that joins lines.
-/

namespace Offside

open LexStream LexMode

/-! ## Line feeds that end a line -/

/-- There is a line feed that neither stands in a block comment nor is joined to what follows by a
backslash, where the text may start in a block comment. -/
def Text.hasFreeLineFeed : Bool → List Char → Bool
  | _, [] => false
  | true, '*' :: '/' :: rest => hasFreeLineFeed false rest
  | true, _ :: rest => hasFreeLineFeed true rest
  | false, '\n' :: _ => true
  | false, '\\' :: '\n' :: rest => hasFreeLineFeed false rest
  | false, '\\' :: '\r' :: '\n' :: rest => hasFreeLineFeed false rest
  | false, '/' :: '*' :: rest => hasFreeLineFeed true rest
  | false, '/' :: '/' :: rest => rest.contains '\n'
  | false, _ :: rest => hasFreeLineFeed false rest

namespace Scan

open Text

variable {input : List Char} {split : Split}

theorem hasFreeLineFeed_blockEnd? (found : blockEnd? input = some split) :
    hasFreeLineFeed true input = hasFreeLineFeed false split.rest := by
  fun_induction blockEnd? input generalizing split with
  | case1 rest =>
    obtain rfl := Option.some.inj found
    rfl
  | case2 c rest notEnd inductionHypothesis =>
    obtain ⟨inner, innerFound, rfl⟩ := Option.map_eq_some_iff.mp found
    rw [hasFreeLineFeed]
    · exact (inductionHypothesis innerFound).trans rfl
    · exact notEnd
  | case3 => contradiction

theorem hasFreeLineFeed_lineComment (rest : List Char) :
    rest.contains '\n' = hasFreeLineFeed false (run (· ≠ '\n') rest).rest := by
  induction rest with
  | nil => rfl
  | cons c rest inductionHypothesis =>
    unfold run at inductionHypothesis ⊢
    by_cases isBreak : c = '\n'
    · subst isBreak
      rfl
    · rw [List.dropWhile_cons_of_pos (by simpa using isBreak), ← inductionHypothesis]
      simp [Ne.symm isBreak]

theorem hasFreeLineFeed_lineBreak? (found : lineBreak? input = some split) :
    hasFreeLineFeed false input = true := by
  unfold lineBreak? at found
  split at found
  · rfl
  · rfl
  · contradiction

theorem hasFreeLineFeed_joined (found : lineBreak? input = some split) :
    hasFreeLineFeed false ('\\' :: input) = hasFreeLineFeed false split.rest := by
  unfold lineBreak? at found
  split at found
  · obtain rfl := Option.some.inj found
    rfl
  · obtain rfl := Option.some.inj found
    rfl
  · contradiction

theorem hasFreeLineFeed_blank {c : Char} (isBlank : isBlank c = true) (rest : List Char) :
    hasFreeLineFeed false (c :: rest) = hasFreeLineFeed false rest := by
  have apart : c ≠ '\n' ∧ c ≠ '\\' ∧ c ≠ '/' := by
    refine ⟨?_, ?_, ?_⟩
    · rintro rfl
      contradiction
    · rintro rfl
      contradiction
    · rintro rfl
      contradiction
  rw [hasFreeLineFeed]
  · exact apart.1
  · exact fun _ isBackslash => absurd isBackslash apart.2.1
  · exact fun _ isBackslash => absurd isBackslash apart.2.1
  · exact fun _ isSlash => absurd isSlash apart.2.2
  · exact fun _ isSlash => absurd isSlash apart.2.2

theorem hasFreeLineFeed_gap? (found : gap? input = some split) :
    hasFreeLineFeed false input = hasFreeLineFeed false split.rest := by
  unfold gap? at found
  split at found
  next rest =>
    obtain rfl := Option.some.inj found
    exact hasFreeLineFeed_lineComment rest
  next rest =>
    obtain ⟨inner, innerFound, rfl⟩ := Option.map_eq_some_iff.mp found
    exact (hasFreeLineFeed_blockEnd? innerFound).trans rfl
  next rest =>
    obtain ⟨inner, innerFound, rfl⟩ := Option.map_eq_some_iff.mp found
    exact (hasFreeLineFeed_joined innerFound).trans rfl
  next c rest _ _ _ =>
    split at found
    next isBlank =>
      obtain rfl := Option.some.inj found
      exact hasFreeLineFeed_blank isBlank rest
    next => contradiction
  next => contradiction

/-- What stands between tokens on one line has no line feed that ends the line. -/
theorem hasFreeLineFeed_trivia (input : List Char) :
    hasFreeLineFeed false input = hasFreeLineFeed false (trivia input).rest := by
  fun_induction trivia input with
  | case1 input _ => rfl
  | case2 input gap found inductionHypothesis =>
    exact (hasFreeLineFeed_gap? found).trans inductionHypothesis

end Scan

/-! ## The last code -/

namespace LexItem

/-- Tokens that stand for text, and characters that start no token. -/
def isCode : LexItem → Bool
  | token found => !found.kind.isStructural
  | error found => (error found).isUnexpected

def lastCode? (items : List LexItem) : Option LexItem :=
  (items.filter isCode).getLast?

theorem lastCode?_append (left right : List LexItem) :
    lastCode? (left ++ right) = (lastCode? right).or (lastCode? left) := by
  rw [lastCode?, List.filter_append, List.getLast?_append]
  rfl

theorem lastCode?_eq_none {items : List LexItem}
    (noCode : ∀ item ∈ items, item.isCode = false) : lastCode? items = none := by
  rw [lastCode?, List.filter_eq_nil_iff.mpr fun item member => by simp [noCode item member]]
  rfl

end LexItem

namespace LexState

open LexItem

variable {state line after : LexState} {step : LexStep} {kind : Kind} {split : Scan.Split}
  {errors : List LexError} {items : List LexItem}

theorem isCode_eq_false_of_errors (other : ∀ error ∈ errors, ∀ c, error.fault ≠ .unexpectedCharacter c) :
    ∀ item ∈ errors.map LexItem.error, item.isCode = false := by
  intro item member
  obtain ⟨⟨fault, span⟩, isError, rfl⟩ := List.mem_map.mp member
  have isOther := other _ isError
  cases fault with
  | unexpectedCharacter c => exact absurd rfl (isOther c)
  | _ => rfl

/-- What reading a piece of the text comes to if the tokens go on behind it. -/
inductive Lands (state : LexState) : LexStep → Prop
  | token {kind : Kind} {split : Scan.Split} {errors : List LexError} {after : LexState}
    (piece : IsPiece state kind split after) (within : ErrorsWithin state.place errors) :
    Lands state (after.yield kind split errors)
  | unexpected (c : Char) (rest : List Char) :
    Lands state ([.error ⟨.unexpectedCharacter c, state.spanOf ⟨[c], rest⟩⟩], state.take ⟨[c], rest⟩)

theorem lands_of_reads (reads : Reads state step) (running : step.2.finished = false) :
    Lands state step := by
  cases reads with
  | code _ takes => exact .token takes.isPiece takes.errorsWithin
  | part _ takes => exact .token takes.isPiece takes.errorsWithin
  | unexpected _ _ => exact .unexpected _ _
  | ends _ _ => exact absurd (running.symm.trans (finished_finish state)) Bool.false_ne_true
  | fails _ => exact absurd running.symm Bool.false_ne_true

theorem Lands.lastCode? (lands : Lands state step) :
    ∃ item, lastCode? step.1 = some item ∧ item.span.last = step.2.position := by
  cases lands with
  | @token kind split errors after piece within =>
    refine ⟨after.tokenOf kind split, ?_, rfl⟩
    have noCode := lastCode?_eq_none
      (isCode_eq_false_of_errors fun error member => (within error member).2)
    have isCode : (after.tokenOf kind split).isCode = true := by
      rw [tokenOf, LexItem.isCode, piece.structural]
      rfl
    rw [yield, ← List.singleton_append, lastCode?_append, noCode, Option.none_or, LexItem.lastCode?,
      List.filter_cons, if_pos isCode]
    rfl
  | unexpected c rest => exact ⟨_, rfl, rfl⟩

theorem Lands.atLineStart (lands : Lands state step) : step.2.atLineStart = state.atLineStart := by
  cases lands with
  | token piece _ =>
    rw [piece.frame]
    rfl
  | unexpected c rest => rfl

/-- A step that goes on ends behind the last code, and takes back the mark of a line start. -/
theorem landed_stepped (stepped : Stepped state step) (running : step.2.finished = false)
    (outside : state.atLineStart = true → ¬ InString state.modes ∧ state.layout.inBrackets = false) :
    step.2.atLineStart = false ∧
      ∃ item, lastCode? step.1 = some item ∧ item.span.last = step.2.position := by
  cases stepped with
  | inString inside reads =>
    have lands := lands_of_reads reads running
    refine ⟨lands.atLineStart.trans ?_, lands.lastCode?⟩
    exact eq_false_of_ne_true fun atStart => (outside atStart).1 inside
  | inBrackets _ brackets reads =>
    have lands := lands_of_reads reads running
    refine ⟨lands.atLineStart.trans ?_, lands.lastCode?⟩
    refine eq_false_of_ne_true fun atStart => ?_
    exact absurd ((outside atStart).2.symm.trans brackets) Bool.false_ne_true
  | inLine _ _ notAtStart _ reads =>
    have lands := lands_of_reads reads running
    exact ⟨lands.atLineStart.trans notAtStart, lands.lastCode?⟩
  | blank => exact absurd (running.symm.trans (finished_finish _)) Bool.false_ne_true
  | line _ _ _ _ reads =>
    have lands := lands_of_reads reads running
    obtain ⟨item, isLast, landed⟩ := lands.lastCode?
    refine ⟨lands.atLineStart, item, ?_, landed⟩
    rw [lastCode?_append, isLast, Option.some_or]

/-! ## Tokens so far -/

/-- The lexer knows whether it yielded a token that is neither a dedent nor the end. Before the first
there is no token at all, and no level is open. -/
def Told (found : List Kind) (state : LexState) : Prop :=
  ((∃ kind ∈ found, kind ≠ .dedent ∧ kind ≠ .endOfInput) ∧ state.lastKind.isSome = true) ∨
    (found = [] ∧ state.lastKind = none ∧ state.layout.levels = [])

variable {found : List Kind}

theorem told_append_singleton (text : kind ≠ .dedent ∧ kind ≠ .endOfInput)
    (isSome : after.lastKind.isSome = true) : Told (found ++ [kind]) after :=
  Or.inl ⟨⟨kind, List.mem_append_right _ List.mem_cons_self, text⟩, isSome⟩

theorem told_indentation (told : Told found state) :
    Told (found ++ kinds state.indentation.1) state.indentation.2 := by
  rw [kinds_indentation_eq]
  rcases told with ⟨⟨kind, member, text⟩, isSome⟩ | ⟨rfl, isNone, noLevels⟩
  · refine Or.inl ⟨⟨kind, List.mem_append_left _ member, text⟩, ?_⟩
    change (Option.or _ state.lastKind).isSome = true
    rw [Option.isSome_or, isSome, Bool.or_true]
  · generalize measured : (state.layout.measure (Scan.leading state.rest).text).width = width
    have top : state.layout.top = 0 := by rw [Layout.top, noLevels]; rfl
    have lastKind : state.indentation.2.lastKind =
        (lineKinds (state.layout.line width).1).getLast? := by
      rw [← measured]
      exact (congrArg (Option.or _) isNone).trans Option.or_none
    have levels : state.indentation.2.layout.levels = (state.layout.line width).2.levels := by
      rw [← measured]
      rfl
    rcases Nat.eq_zero_or_pos width with zero | positive
    · rw [Layout.line_of_eq (zero.trans top.symm)] at lastKind levels ⊢
      cases started : state.layout.started with
      | false =>
        rw [started] at lastKind
        exact Or.inr ⟨rfl, lastKind, levels.trans noLevels⟩
      | true =>
        rw [started] at lastKind
        exact told_append_singleton ⟨Kind.noConfusion, Kind.noConfusion⟩ (lastKind ▸ rfl)
    · rw [Layout.line_of_gt (top ▸ positive)] at lastKind ⊢
      exact told_append_singleton ⟨Kind.noConfusion, Kind.noConfusion⟩ (lastKind ▸ rfl)

theorem Lands.told (lands : Lands state step) (told : Told found state) :
    Told (found ++ kinds step.1) step.2 := by
  cases lands with
  | token piece _ =>
    rw [kinds_yield]
    refine told_append_singleton ⟨?_, ?_⟩ rfl
    · rintro rfl
      exact absurd piece.structural Bool.noConfusion
    · rintro rfl
      exact absurd piece.structural Bool.noConfusion
  | unexpected c rest => exact (List.append_nil found).symm ▸ told

theorem LineStarts.told (starts : LineStarts state line) (told : Told found state) :
    Told found line := by
  unfold Told at told ⊢
  rwa [starts.layout.1, starts.layout.2]

theorem told_stepped (told : Told found state) (stepped : Stepped state step)
    (running : step.2.finished = false) : Told (found ++ kinds step.1) step.2 := by
  cases stepped with
  | inString _ reads => exact (lands_of_reads reads running).told told
  | inBrackets _ _ reads => exact (lands_of_reads reads running).told (by exact told)
  | inLine _ _ _ _ reads => exact (lands_of_reads reads running).told (by exact told)
  | blank => exact absurd (running.symm.trans (finished_finish _)) Bool.false_ne_true
  | @line line _ _ _ starts _ reads =>
    have past : Told found line.pastBlank := starts.told told
    rw [kinds_append, ← List.append_assoc]
    exact (lands_of_reads reads running).told (by exact told_indentation past)

/-! ## The end -/

/-- Only the end of a text yields the end of input. -/
theorem eq_finish_of_reads (reads : Reads state step) (isEnd : .endOfInput ∈ kinds step.1) :
    step = state.finish ∧ state.rest = [] ∧ state.openString? = none := by
  have yields {kind : Kind} {split : Scan.Split} {after : LexState} (errors : List LexError)
      (piece : IsPiece state kind split after) :
      .endOfInput ∉ kinds (after.yield kind split errors).1 := by
    rw [kinds_yield, List.mem_singleton]
    rintro rfl
    exact absurd piece.structural Bool.noConfusion
  cases reads with
  | code _ takes => exact absurd isEnd (yields _ takes.isPiece)
  | part _ takes => exact absurd isEnd (yields _ takes.isPiece)
  | unexpected _ _ => exact absurd isEnd List.not_mem_nil
  | ends nothing closed => exact ⟨rfl, nothing, closed⟩
  | fails _ => exact absurd isEnd List.not_mem_nil

theorem endedAtLineBreak_finish (closed : state.openString? = none) :
    state.finish.2.endedAtLineBreak = (state.atLineStart && state.lastKind.isSome) := by
  unfold finish
  rw [closed]

/-- What the end of a text tells of its last line: the mark is set, or there is a line feed behind the
last code that sets it. -/
theorem endedAtLineBreak_stepped (stepped : Stepped state step) (isEnd : .endOfInput ∈ kinds step.1)
    (outside : state.atLineStart = true → state.layout.inBrackets = false) :
    step.2.endedAtLineBreak = (state.lastKind.isSome && (!state.layout.inBrackets &&
        (state.atLineStart || Text.hasFreeLineFeed false state.rest))) ∧
      ∃ final : LexState, step.1 =
        (List.replicate state.layout.depth Kind.dedent ++ [Kind.endOfInput]).map final.structural := by
  have ends {final : LexState} {step : LexStep} (reads : Reads final step)
      (isEnd : .endOfInput ∈ kinds step.1) (levels : final.layout.depth = state.layout.depth) :
      step.2.endedAtLineBreak = (final.atLineStart && final.lastKind.isSome) ∧
        (∃ final : LexState, step.1 =
          (List.replicate state.layout.depth Kind.dedent ++ [Kind.endOfInput]).map final.structural) ∧
        final.rest = [] ∧ final.openString? = none := by
    obtain ⟨rfl, nothing, closed⟩ := eq_finish_of_reads reads isEnd
    exact ⟨endedAtLineBreak_finish closed, ⟨final, levels ▸ finish_of_closed closed⟩, nothing, closed⟩
  cases stepped with
  | inString inside reads =>
    obtain ⟨_, _, _, closed⟩ := ends reads isEnd rfl
    obtain ⟨start, outer, modes⟩ := inside
    rw [openString?, modes] at closed
    exact absurd closed (Option.some_ne_none start)
  | inBrackets _ brackets reads =>
    obtain ⟨ended, found, _⟩ := ends reads isEnd rfl
    have noMark : state.atLineStart = false := eq_false_of_ne_true fun atStart =>
      absurd ((outside atStart).symm.trans brackets) Bool.false_ne_true
    refine ⟨ended.trans ?_, found⟩
    rw [brackets]
    change (state.atLineStart && _) = _
    rw [noMark, Bool.false_and, Bool.not_true, Bool.false_and, Bool.and_false]
  | inLine _ noBrackets noMark _ reads =>
    obtain ⟨ended, found, nothing, _⟩ := ends reads isEnd rfl
    have noneFree : Text.hasFreeLineFeed false state.rest = false := by
      rw [Scan.hasFreeLineFeed_trivia]
      exact congrArg (Text.hasFreeLineFeed false) nothing
    refine ⟨ended.trans ?_, found⟩
    rw [noneFree]
    change (state.atLineStart && _) = _
    rw [noMark, Bool.false_and, Bool.or_false, Bool.and_false, Bool.and_false]
  | @blank line _ noBrackets starts reads =>
    obtain ⟨ended, found, _⟩ := ends reads isEnd (congrArg Layout.depth starts.layout.1)
    refine ⟨ended.trans ?_, found⟩
    change (line.atLineStart && line.lastKind.isSome) = _
    rw [starts.layout.2, noBrackets]
    cases starts with
    | here atStart => rw [atStart]; simp
    | next noMark lineBreak =>
      have free : Text.hasFreeLineFeed false state.rest = true := by
        rw [Scan.hasFreeLineFeed_trivia]
        exact Scan.hasFreeLineFeed_lineBreak? lineBreak
      rw [free, nextLine]
      simp
  | @line line step _ _ _ something reads =>
    have inCode : .endOfInput ∈ kinds step.1 := by
      rw [kinds_append] at isEnd
      exact (List.mem_append.mp isEnd).resolve_left (not_mem_kinds_indentation _)
    obtain ⟨_, nothing, _⟩ := eq_finish_of_reads reads inCode
    exact absurd nothing (code_of_blankLines _ something)

end LexState

/-! ## Requests -/

open LexState

/-- The last line of code was ended: there is a token besides the dedents at the end, no bracket is
open, and behind the last code there is a line feed that neither stands in a block comment nor is
joined to what follows. -/
structure LastLineEnded (source : List Char) (items : List LexItem) : Prop where
  anyToken : ∀ levels, kinds items ≠ List.replicate levels .dedent ++ [.endOfInput]
  noBracket : Kind.bracketsOf 0 (kinds items) = 0
  free : ∃ item trailing, LexItem.lastCode? items = some item ∧
    Text.dropBytes? item.span.last.offset source = some trailing ∧
    Text.hasFreeLineFeed false trailing = true

/-- Where a lexer is between two steps: in front of all code, or right behind the last. -/
inductive Stands (items : List LexItem) (state : LexState) : Prop
  | first (atStart : state.atLineStart = true) (outside : ¬ InString state.modes)
    (noBrackets : state.layout.inBrackets = false) (noToken : state.lastKind = none)
  | behind {item : LexItem} (notAtStart : state.atLineStart = false)
    (isLast : LexItem.lastCode? items = some item) (here : item.span.last = state.position)

variable {items : List LexItem} {state : LexState} {step : LexStep} {source : List Char}

theorem Stands.append (stands : Stands items state) (stepped : Stepped state step)
    (running : step.2.finished = false) : Stands (items ++ step.1) step.2 := by
  obtain ⟨notAtStart, item, isLast, here⟩ := landed_stepped stepped running fun atStart => by
    cases stands with
    | first _ outside noBrackets _ => exact ⟨outside, noBrackets⟩
    | behind notAtStart _ _ => exact absurd (notAtStart.symm.trans atStart) Bool.false_ne_true
  refine .behind notAtStart ?_ here
  rw [LexItem.lastCode?_append, isLast, Option.some_or]

theorem dropBytes?_of_leads {place : Place} (leads : (Place.ofSource source).Leads place) :
    Text.dropBytes? place.position.offset source = some place.rest := by
  obtain ⟨mark, whole, offset⟩ := Place.ofSource_cases source
  obtain ⟨text, split, moved⟩ := leads
  rw [split, ← List.append_assoc] at whole
  rw [moved, Position.offset_advance, offset, ← Text.byteLength_append]
  exact whole ▸ Text.dropBytes?_byteLength_append _ _

theorem isSome_iff_of_told (told : Told (kinds items) state) (levels : Nat) :
    state.lastKind.isSome = true ↔ ∀ others,
      kinds items ++ (List.replicate levels .dedent ++ [.endOfInput]) ≠
        List.replicate others .dedent ++ [.endOfInput] := by
  rcases told with ⟨⟨kind, member, notDedent, notEnd⟩, isSome⟩ | ⟨nothing, isNone, _⟩
  · refine ⟨fun _ others same => ?_, fun _ => isSome⟩
    have inAll := List.mem_append_left (List.replicate levels .dedent ++ [.endOfInput]) member
    rw [same] at inAll
    rcases List.mem_append.mp inAll with isDedent | isEnd
    · exact notDedent (List.eq_of_mem_replicate isDedent)
    · exact notEnd (List.mem_singleton.mp isEnd)
  · rw [nothing, isNone]
    exact ⟨fun isSome => absurd isSome Bool.false_ne_true, fun other => absurd rfl (other levels)⟩

/-- What is left of a text behind its last code decides whether the last line was ended. -/
theorem free_iff_of_behind {item : LexItem} (leads : (Place.ofSource source).Leads state.place)
    (isLast : LexItem.lastCode? items = some item) (here : item.span.last = state.position) :
    (∃ item trailing, LexItem.lastCode? items = some item ∧
        Text.dropBytes? item.span.last.offset source = some trailing ∧
        Text.hasFreeLineFeed false trailing = true) ↔
      Text.hasFreeLineFeed false state.rest = true := by
  have dropped : Text.dropBytes? item.span.last.offset source = some state.rest :=
    here ▸ dropBytes?_of_leads leads
  constructor
  · rintro ⟨other, trailing, isOther, found, free⟩
    obtain rfl := Option.some.inj (isLast.symm.trans isOther)
    obtain rfl := Option.some.inj (dropped.symm.trans found)
    exact free
  · exact fun free => ⟨item, state.rest, isLast, dropped, free⟩

/-- The mark at the end of a text tells whether its last line was ended. -/
theorem endedAtLineBreak_of_stands (told : Told (kinds items) state) (stands : Stands items state)
    (counted : state.layout.brackets = Kind.bracketsOf 0 (kinds items))
    (leads : (Place.ofSource source).Leads state.place) (stepped : Stepped state step)
    (isEnd : .endOfInput ∈ kinds step.1) :
    step.2.endedAtLineBreak = true ↔ LastLineEnded source (items ++ step.1) := by
  obtain ⟨ended, found⟩ := endedAtLineBreak_stepped stepped isEnd fun atStart => by
    cases stands with
    | first _ _ noBrackets _ => exact noBrackets
    | behind notAtStart _ _ => exact absurd (notAtStart.symm.trans atStart) Bool.false_ne_true
  obtain ⟨final, yielded⟩ := found
  have structural (kind : Kind) := @isStructural_of_mem_ending state.layout.depth kind
  have noCode : LexItem.lastCode? step.1 = none := LexItem.lastCode?_eq_none fun item member => by
    rw [yielded] at member
    obtain ⟨kind, inKinds, rfl⟩ := List.mem_map.mp member
    rw [LexState.structural, LexItem.isCode]
    exact congrArg (! ·) (structural kind inKinds)
  have shown : kinds (items ++ step.1) =
      kinds items ++ (List.replicate state.layout.depth .dedent ++ [.endOfInput]) := by
    rw [kinds_append, yielded, kinds_map_structural]
  have sameCode : LexItem.lastCode? (items ++ step.1) = LexItem.lastCode? items := by
    rw [LexItem.lastCode?_append, noCode, Option.none_or]
  have brackets : Kind.bracketsOf 0 (kinds (items ++ step.1)) = state.layout.brackets := by
    rw [shown, Kind.bracketsOf_append, Kind.bracketsOf_of_structural structural, counted]
  have anyToken := isSome_iff_of_told told state.layout.depth
  rw [← shown] at anyToken
  have noBrackets : (!state.layout.inBrackets) = true ↔ state.layout.brackets = 0 := by
    simp [Layout.inBrackets]
  rw [ended, Bool.and_eq_true, Bool.and_eq_true, noBrackets]
  cases stands with
  | first _ _ _ noToken =>
    have unset : ¬ state.lastKind.isSome = true := by
      rw [noToken]
      exact Bool.false_ne_true
    exact ⟨fun flagged => absurd flagged.1 unset,
      fun lineEnded => absurd (anyToken.mpr lineEnded.anyToken) unset⟩
  | behind notAtStart isLast here =>
    rw [notAtStart, Bool.false_or, anyToken, ← brackets, ← free_iff_of_behind leads isLast here,
      ← sameCode]
    exact ⟨fun flagged => ⟨flagged.1, flagged.2.1, flagged.2.2⟩,
      fun lineEnded => ⟨lineEnded.anyToken, lineEnded.noBracket, lineEnded.free⟩⟩

/-- Where the lexer stands behind some items, and what it told of the last line once it came to the
end. -/
structure LastLine (source : List Char) (items : List LexItem) (state : LexState) : Prop where
  told : state.finished = false → Told (kinds items) state
  stands : state.finished = false → Stands items state
  ended : .endOfInput ∈ kinds items →
    (state.endedAtLineBreak = true ↔ LastLineEnded source items)

theorem lastLine_proceed (cancelled : Bool) (running : state.finished = false)
    (tiled : Tiled source items state) (brackets : Brackets items state)
    (lastLine : LastLine source items state) :
    LastLine source (items ++ (state.proceed cancelled).1) (state.proceed cancelled).2 := by
  have told := lastLine.told running
  have stands := lastLine.stands running
  have inStep (step : LexStep) (isEnd : .endOfInput ∈ kinds (items ++ step.1)) :
      .endOfInput ∈ kinds step.1 := by
    rw [kinds_append] at isEnd
    exact (List.mem_append.mp isEnd).resolve_left (not_mem_kinds_of_endless (tiled.endless running))
  cases cancelled with
  | true =>
    exact ⟨fun goesOn => absurd goesOn.symm Bool.false_ne_true,
      fun goesOn => absurd goesOn.symm Bool.false_ne_true,
      fun isEnd => absurd (inStep _ isEnd) List.not_mem_nil⟩
  | false =>
    have step := stepped state
    refine ⟨fun goesOn => ?_, fun goesOn => stands.append step goesOn, fun isEnd => ?_⟩
    · rw [kinds_append]
      exact told_stepped told step goesOn
    · exact endedAtLineBreak_of_stands told stands brackets.counted tiled.located.leads step
        (inStep _ isEnd)

theorem lastLine_ofSource (tabWidth : Nat) (source : List Char) :
    LastLine source [] (.ofSource tabWidth source) := by
  unfold LexState.ofSource
  refine ⟨fun _ => Or.inr ⟨rfl, rfl, rfl⟩, fun _ => .first rfl ?_ rfl rfl,
    fun isEnd => absurd isEnd List.not_mem_nil⟩
  rintro ⟨start, outer, isString⟩
  exact absurd isString (List.cons_ne_nil _ _).symm

/-- The flag of the last line is right. Once the end of input was yielded, it tells that there is a
token besides the dedents at the end, that no bracket is open, and that behind the last code there is
a line feed that neither stands in a block comment nor is joined to what follows. -/
theorem endedAtLineBreak_iff (settings : Settings) (source : List Char) (requests : List Bool)
    (isEnd : .endOfInput ∈ kinds ((Lexer.ofSource settings.tabWidth source).answers requests)) :
    ((Lexer.ofSource settings.tabWidth source).afterRequests requests).endedAtLineBreak = true ↔
      LastLineEnded source ((Lexer.ofSource settings.tabWidth source).answers requests) := by
  have all := Lexer.drawn_induction
    (motive := fun items state =>
      Tiled source items state ∧ Brackets items state ∧ LastLine source items state)
    (fun cancelled items state running ⟨tiled, brackets, lastLine⟩ =>
      ⟨tiled_proceed cancelled running tiled, brackets_proceed cancelled running brackets,
        lastLine_proceed cancelled running tiled brackets lastLine⟩) requests
    ⟨tiled_ofSource settings.tabWidth source, brackets_ofSource settings.tabWidth source,
      lastLine_ofSource settings.tabWidth source⟩
  have ended := all.2.2.ended
  rw [Lexer.drawn, Lexer.pending_eq_nil_of_end rfl isEnd, List.append_nil] at ended
  exact ended isEnd

/-- Behind the last code a block comment with a line feed, a line feed that a backslash joins, and a
line comment with a backslash at its end that joins nothing. -/
theorem endedAtLineBreak_iff_remarked :
    let source := "a /* b\n */ \\\n // c \\\n".toList
    let requests := List.replicate 2 false
    .endOfInput ∈ kinds ((Lexer.ofSource 8 source).answers requests) ∧
      (((Lexer.ofSource 8 source).afterRequests requests).endedAtLineBreak = true ↔
        LastLineEnded source ((Lexer.ofSource 8 source).answers requests)) ∧
      ((Lexer.ofSource 8 source).afterRequests requests).endedAtLineBreak = true := by
  intro source requests
  have isEnd : .endOfInput ∈ kinds ((Lexer.ofSource 8 source).answers requests) := by
    decide +kernel
  exact ⟨isEnd, endedAtLineBreak_iff {} source requests isEnd, by decide +kernel⟩

end Offside
