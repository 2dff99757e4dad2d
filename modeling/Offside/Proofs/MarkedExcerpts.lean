import Mathlib.Data.List.Intervals
import Offside.Excerpt
import Offside.Proofs.Lexer.Tiling

/-!
Excerpts show the lines around a span as they stand in the source, and mark the right characters.
The numbers, offsets and columns of lines come from splitting the source at its line feeds, those of
a span from moving over the text before it. Both tell the same about the line that a span starts on,
so that the marks below that line stand under what the span covers of it.
-/

namespace Offside

/-! ## Moving within a line -/

namespace Position

theorem line_advance (position : Position) (text : List Char) :
    (position.advance text).line = position.line + text.count '\n' := by
  induction text generalizing position with
  | nil => rfl
  | cons c text inductionHypothesis =>
    rw [advance_cons, inductionHypothesis, past]
    by_cases isFeed : c = '\n'
    · rw [if_pos isFeed, isFeed, List.count_cons_self, Nat.add_assoc, Nat.add_comm 1]
    · rw [if_neg isFeed, List.count_cons_of_ne isFeed]

/-- Within a line every character is one column. -/
theorem advance_of_noFeed (position : Position) {text : List Char} (noFeed : '\n' ∉ text) :
    position.advance text =
      ⟨position.offset + Text.byteLength text, position.line, position.column + text.length⟩ := by
  induction text generalizing position with
  | nil => rfl
  | cons c text inductionHypothesis =>
    obtain ⟨notFirst, notLater⟩ := List.ne_and_not_mem_of_not_mem_cons noFeed
    rw [advance_cons, inductionHypothesis _ notLater, past, if_neg (Ne.symm notFirst),
      Text.byteLength, List.length_cons, Nat.add_assoc, Nat.add_assoc, Nat.add_comm 1]

/-- Behind the end of a line the next one starts. -/
theorem advance_line (offset number : Nat) {line : List Char} (noFeed : '\n' ∉ line) :
    (⟨offset, number, 1⟩ : Position).advance (line ++ ['\n']) =
      ⟨offset + Text.byteLength line + 1, number + 1, 1⟩ := by
  rw [advance_append, advance_of_noFeed _ noFeed]
  rfl

theorem column_pos (text : List Char) : 0 < (start.advance text).column := by
  have behind (position : Position) (positive : 0 < position.column) :
      0 < (position.advance text).column := by
    induction text generalizing position with
    | nil => exact positive
    | cons c text inductionHypothesis =>
      refine inductionHypothesis (position.past c) ?_
      unfold past
      split
      · exact Nat.one_pos
      · exact Nat.succ_pos _
  exact behind start Nat.one_pos

end Position

/-! ## Lines of a text -/

/-- A text is one line, or a line, a line feed and more lines. -/
theorem Text.lines_induction {motive : List Char → Prop}
    (last : ∀ line, '\n' ∉ line → motive line)
    (more : ∀ line text, '\n' ∉ line → motive text → motive (line ++ '\n' :: text))
    (text : List Char) : motive text := by
  by_cases feed : '\n' ∈ text
  · obtain ⟨line, rest, same, noFeed⟩ := List.eq_append_cons_of_mem feed
    have shorter : rest.length < text.length := by
      rw [same, List.length_append, List.length_cons]
      omega
    exact same ▸ more line rest noFeed (lines_induction last more rest)
  · exact last text feed
termination_by text.length

/-- A line of a text, from behind the text above it to a line feed or the end of the text. -/
structure IsLine (source above line below : List Char) : Prop where
  whole : source = above ++ (line ++ below)
  noFeed : '\n' ∉ line
  ends : below = [] ∨ ∃ more, below = '\n' :: more

namespace IsLine

variable {source above line below : List Char}

theorem behind {front : List Char} (isLine : IsLine source above line below) :
    IsLine (front ++ source) (front ++ above) line below :=
  ⟨by rw [isLine.whole, List.append_assoc], isLine.noFeed, isLine.ends⟩

/-- What is left of a line at a place on it comes to an end with the line. -/
theorem tail_of_append {first rest : List Char} (isLine : IsLine source above line below)
    (same : first ++ rest = line ++ below) (noFeed : '\n' ∉ first) :
    ∃ tail, line = first ++ tail ∧ rest = tail ++ below := by
  rcases List.append_eq_append_iff.mp same with ⟨tail, isLine', isRest⟩ | ⟨more, isFirst, isBelow⟩
  · exact ⟨tail, isLine', isRest⟩
  · rcases isLine.ends with isNil | ⟨others, isFeed⟩
    · obtain ⟨rfl, rfl⟩ := List.append_eq_nil_iff.mp (isBelow.symm.trans isNil)
      exact ⟨[], by rw [isFirst, List.append_nil, List.append_nil], isNil.symm⟩
    · cases more with
      | nil => exact ⟨[], by rw [isFirst, List.append_nil, List.append_nil], isBelow.symm⟩
      | cons c more =>
        obtain rfl := List.head_eq_of_cons_eq (isBelow.symm.trans isFeed)
        exact absurd (isFirst ▸ List.mem_append_right _ List.mem_cons_self) noFeed

/-- A place with the number of a line stands on that line. -/
theorem exists_skipped {first rest : List Char} {offset number : Nat}
    (isLine : IsLine source above line below)
    (starts : Position.start.advance above = ⟨offset, number, 1⟩) (whole : source = first ++ rest)
    (onLine : (Position.start.advance first).line = number) :
    ∃ skipped tail, line = skipped ++ tail ∧ first = above ++ skipped ∧ rest = tail ++ below := by
  have same : first ++ rest = above ++ (line ++ below) := whole.symm.trans isLine.whole
  rcases List.append_eq_append_iff.mp same with ⟨more, isAbove, isRest⟩ | ⟨more, isFirst, isRest⟩
  · -- The place is not above the line, where the column would be past the first.
    rw [isAbove, Position.advance_append] at starts
    have noFeed : '\n' ∉ more := by
      have lines := congrArg Position.line starts
      rw [Position.line_advance, onLine] at lines
      exact List.count_eq_zero.mp (Nat.add_eq_left.mp lines)
    have columns := congrArg Position.column starts
    rw [Position.advance_of_noFeed _ noFeed] at columns
    have positive := Position.column_pos first
    have isNil : more = [] := List.length_eq_zero_iff.mp (by dsimp only at columns; omega)
    rw [isNil, List.append_nil] at isAbove
    rw [isNil, List.nil_append] at isRest
    exact ⟨[], line, rfl, by rw [isAbove, List.append_nil], isRest⟩
  · rw [isFirst, Position.advance_append, starts, Position.line_advance] at onLine
    have noFeed : '\n' ∉ more := List.count_eq_zero.mp (Nat.add_eq_left.mp onLine)
    obtain ⟨tail, isTail, isRest⟩ := isLine.tail_of_append isRest.symm noFeed
    exact ⟨more, tail, isTail, isFirst, isRest⟩

/-- Up to its first line feed a text on a line is some of that line, and all that is left of the
line if there is a line feed. -/
theorem exists_marked {tail covered rest : List Char} (isLine : IsLine source above line below)
    (noFeed : '\n' ∉ tail) (same : covered ++ rest = tail ++ below) :
    ∃ unmarked, tail = covered.takeWhile (· ≠ '\n') ++ unmarked ∧
      ('\n' ∈ covered → unmarked = []) := by
  have passes (text : List Char) (free : '\n' ∉ text) : ∀ c ∈ text, decide (c ≠ '\n') = true :=
    fun c member => decide_eq_true (fun isFeed => free (isFeed ▸ member))
  rcases List.append_eq_append_iff.mp same with ⟨unmarked, isTail, _⟩ | ⟨more, isCovered, isBelow⟩
  · have free : '\n' ∉ covered := fun member => noFeed (isTail ▸ List.mem_append_left _ member)
    refine ⟨unmarked, ?_, fun member => absurd member free⟩
    rw [List.takeWhile_eq_self_iff.mpr (passes covered free), isTail]
  · have stops : more.takeWhile (· ≠ '\n') = [] := by
      rcases isLine.ends with isNil | ⟨others, isFeed⟩
      · rw [(List.append_eq_nil_iff.mp (isBelow.symm.trans isNil)).1]
        rfl
      · cases more with
        | nil => rfl
        | cons c more =>
          obtain rfl := List.head_eq_of_cons_eq (isBelow.symm.trans isFeed)
          rfl
    refine ⟨[], ?_, fun _ => rfl⟩
    rw [isCovered, List.takeWhile_append_of_pos (passes tail noFeed), stops, List.append_nil,
      List.append_nil]

end IsLine

namespace Excerpt

theorem splitLines_of_noFeed {line : List Char} (noFeed : '\n' ∉ line) :
    splitLines line = [line] := by
  induction line with
  | nil => rfl
  | cons c line inductionHypothesis =>
    obtain ⟨notFirst, notLater⟩ := List.ne_and_not_mem_of_not_mem_cons noFeed
    rw [splitLines, if_neg (Ne.symm notFirst), inductionHypothesis notLater]

theorem splitLines_append {line : List Char} (noFeed : '\n' ∉ line) (text : List Char) :
    splitLines (line ++ '\n' :: text) = line :: splitLines text := by
  induction line with
  | nil => rw [List.nil_append, splitLines, if_pos rfl]
  | cons c line inductionHypothesis =>
    obtain ⟨notFirst, notLater⟩ := List.ne_and_not_mem_of_not_mem_cons noFeed
    rw [List.cons_append, splitLines, if_neg (Ne.symm notFirst), inductionHypothesis notLater]

theorem length_splitLines (text : List Char) : (splitLines text).length = text.count '\n' + 1 := by
  induction text using Text.lines_induction with
  | last line noFeed =>
    rw [splitLines_of_noFeed noFeed, List.count_eq_zero_of_not_mem noFeed]
    rfl
  | more line text noFeed inductionHypothesis =>
    rw [splitLines_append noFeed, List.length_cons, inductionHypothesis, List.count_append,
      List.count_eq_zero_of_not_mem noFeed, List.count_cons_self, Nat.zero_add]

/-- Lines are numbered one after the other. -/
theorem map_fst_numbered (number offset : Nat) (lines : List (List Char)) :
    (numbered number offset lines).map Prod.fst = List.Ico number (number + lines.length) := by
  induction lines generalizing number offset with
  | nil => rw [numbered, List.map_nil, List.length_nil, Nat.add_zero, List.Ico.self_empty]
  | cons line lines inductionHypothesis =>
    rw [numbered, List.map_cons, inductionHypothesis, List.length_cons,
      List.Ico.eq_cons (Nat.lt_add_of_pos_right (Nat.succ_pos _)), Nat.add_assoc, Nat.add_comm 1]

/-- A numbered line stands in the text where its offset and number say. -/
theorem isLine_of_mem_numbered {text : List Char} {number offset : Nat}
    {entry : Nat × Nat × List Char} (member : entry ∈ numbered number offset (splitLines text)) :
    ∃ above below, IsLine text above entry.2.2 below ∧
      (⟨offset, number, 1⟩ : Position).advance above = ⟨entry.2.1, entry.1, 1⟩ := by
  induction text using Text.lines_induction generalizing number offset with
  | last line noFeed =>
    rw [splitLines_of_noFeed noFeed, numbered, numbered] at member
    obtain rfl := List.mem_singleton.mp member
    exact ⟨[], [], ⟨(List.append_nil line).symm, noFeed, Or.inl rfl⟩, rfl⟩
  | more line text noFeed inductionHypothesis =>
    rw [splitLines_append noFeed, numbered] at member
    rcases List.mem_cons.mp member with rfl | inRest
    · exact ⟨[], '\n' :: text, ⟨rfl, noFeed, Or.inr ⟨text, rfl⟩⟩, rfl⟩
    · obtain ⟨above, below, isLine, starts⟩ := inductionHypothesis inRest
      refine ⟨line ++ ['\n'] ++ above, below, ?_, ?_⟩
      · have whole : line ++ '\n' :: text = line ++ ['\n'] ++ text := by
          rw [List.append_assoc, List.singleton_append]
        exact whole ▸ isLine.behind
      · rw [Position.advance_append, Position.advance_line _ _ noFeed, starts]

/-! ## Shown lines -/

theorem stripReturn_of_not_mem {line : List Char} (noReturn : '\r' ∉ line) :
    stripReturn line = line :=
  if_neg fun isLast => noReturn (List.mem_of_getLast? isLast)

section Shown

variable (before after : Nat) (source : List Char) (span : Span)

/-- Whether the line of some number is near enough to a span. -/
def isNear (number : Nat) : Bool :=
  max 1 (span.first.line - before) ≤ number ∧ number ≤ span.first.line + after

/-- A numbered line as it is shown for a span. -/
def shown (entry : Nat × Nat × List Char) : SourceLine :=
  { number := entry.1, offset := entry.2.1
    column := if entry.1 = span.first.line then span.first.column else 1
    text := stripReturn entry.2.2 }

theorem lines_eq : lines before after source span =
    ((numbered 1 0 (splitLines source)).filter (isNear before after span ∘ Prod.fst)).map
      (shown span) := by
  unfold lines
  induction numbered 1 0 (splitLines source) with
  | nil => rfl
  | cons entry entries inductionHypothesis =>
    rw [List.filter_cons]
    by_cases near : (isNear before after span ∘ Prod.fst) entry = true
    · rw [if_pos near, List.map_cons, ← inductionHypothesis]
      exact List.filterMap_cons_some (if_pos (of_decide_eq_true near))
    · rw [if_neg near, ← inductionHypothesis]
      exact List.filterMap_cons_none (if_neg fun within => near (decide_eq_true within))

/-- The lines that are shown are those from some lines before the first of a span to some lines
behind it, as far as there are any. -/
theorem map_number_lines : (lines before after source span).map SourceLine.number =
    List.Ico (max 1 (span.first.line - before))
      (min (span.first.line + after) (source.count '\n' + 1) + 1) := by
  have near : isNear before after span = fun number =>
      decide (number < span.first.line + after + 1) &&
        decide (max 1 (span.first.line - before) ≤ number) := by
    funext number
    rw [isNear, Bool.decide_and, Bool.and_comm]
    simp only [Nat.lt_add_one_iff]
  have numbers : SourceLine.number ∘ shown span = Prod.fst := rfl
  rw [lines_eq, List.map_map, numbers, ← List.filter_map, map_fst_numbered, length_splitLines, near,
    ← List.filter_filter, List.Ico.filter_le, List.Ico.filter_lt]
  congr 1
  · omega
  · omega

variable {before after : Nat} {source : List Char} {span : Span}

/-- Without carriage returns lines are shown as they stand. -/
theorem isLine_of_mem_lines (noReturn : '\r' ∉ source) {line : SourceLine}
    (member : line ∈ lines before after source span) :
    ∃ above below, IsLine source above line.text below ∧
      Position.start.advance above = ⟨line.offset, line.number, 1⟩ ∧
      line.column = if line.number = span.first.line then span.first.column else 1 := by
  rw [lines_eq] at member
  obtain ⟨entry, inEntries, rfl⟩ := List.mem_map.mp member
  obtain ⟨above, below, isLine, starts⟩ := isLine_of_mem_numbered (List.mem_of_mem_filter inEntries)
  have inLine : '\r' ∉ entry.2.2 := fun isReturn => noReturn (by
    rw [isLine.whole]
    exact List.mem_append_right _ (List.mem_append_left _ isReturn))
  refine ⟨above, below, ?_, starts, rfl⟩
  rw [shown, stripReturn_of_not_mem inLine]
  exact isLine

end Shown

/-! ## The line that a span starts on -/

/-- A span of some text, with the text before it and behind it. -/
structure Spans (source first covered rest : List Char) (span : Span) : Prop where
  whole : source = first ++ (covered ++ rest)
  starts : span.first = Position.start.advance first
  ends : span.last = span.first.advance covered

namespace Spans

variable {source first covered rest : List Char} {span : Span} {before after : Nat}
  {line : SourceLine}

theorem text? (spans : Spans source first covered rest span) : span.text? source = some covered := by
  have offset : span.first.offset = Text.byteLength first := by
    rw [spans.starts, Position.offset_advance]
    exact Nat.zero_add _
  rw [Span.text?, spans.ends, Position.offset_advance, offset, spans.whole]
  exact Text.slice?_append first covered rest

/-- A span starts on one of the lines of its text. -/
theorem line_first (spans : Spans source first covered rest span) :
    1 ≤ span.first.line ∧ span.first.line ≤ source.count '\n' + 1 := by
  have line : span.first.line = 1 + first.count '\n' := by
    rw [spans.starts, Position.line_advance]
    rfl
  rw [line, spans.whole, List.count_append]
  omega

/-- How the line that a span starts on is made up: of what is in front of the span, what is marked
because the span covers it, and what is left of the line. -/
structure MadeUp (span : Span) (covered : List Char) (line : SourceLine)
    (skipped unmarked : List Char) : Prop where
  text : line.text = skipped ++ (covered.takeWhile (· ≠ '\n') ++ unmarked)
  column : line.column = skipped.length + 1
  first : span.first = ⟨line.offset + Text.byteLength skipped, line.number, line.column⟩
  width : markWidth span line = (covered.takeWhile (· ≠ '\n')).length

theorem exists_madeUp (spans : Spans source first covered rest span) (noReturn : '\r' ∉ source)
    (member : line ∈ lines before after source span) (base : line.number = span.first.line) :
    ∃ skipped unmarked, MadeUp span covered line skipped unmarked := by
  obtain ⟨above, below, isLine, starts, column⟩ := isLine_of_mem_lines noReturn member
  rw [if_pos base] at column
  have onLine : (Position.start.advance first).line = line.number := by
    rw [← spans.starts, base]
  obtain ⟨skipped, tail, isText, isFirst, isRest⟩ :=
    isLine.exists_skipped starts spans.whole onLine
  have inLine : '\n' ∉ skipped ∧ '\n' ∉ tail := by
    have noFeed := isLine.noFeed
    rw [isText, List.mem_append, not_or] at noFeed
    exact noFeed
  obtain ⟨unmarked, isTail, allMarked⟩ := isLine.exists_marked inLine.2 isRest
  have place : span.first =
      ⟨line.offset + Text.byteLength skipped, line.number, 1 + skipped.length⟩ := by
    rw [spans.starts, isFirst, Position.advance_append, starts,
      Position.advance_of_noFeed _ inLine.1]
  have columns : line.column = skipped.length + 1 := by
    rw [column, place]
    exact Nat.add_comm 1 _
  refine ⟨skipped, unmarked, by rw [isText, isTail], columns, ?_, ?_⟩
  · rw [column, place]
  · unfold markWidth
    split
    next endsHere =>
      have noFeed : '\n' ∉ covered := by
        rw [spans.ends, Position.line_advance, base] at endsHere
        exact List.count_eq_zero.mp (Nat.add_eq_left.mp endsHere)
      have whole : covered.takeWhile (· ≠ '\n') = covered :=
        List.takeWhile_eq_self_iff.mpr fun c isCovered =>
          decide_eq_true fun isFeed => noFeed (isFeed ▸ isCovered)
      rw [whole, spans.ends, Position.advance_of_noFeed _ noFeed, Nat.add_sub_cancel_left]
    next endsLater =>
      have feed : '\n' ∈ covered := by
        by_contra noFeed
        refine endsLater ?_
        rw [spans.ends, Position.line_advance, List.count_eq_zero_of_not_mem noFeed, base]
        rfl
      rw [isText, isTail, allMarked feed, columns, List.append_nil, List.length_append,
        Nat.add_sub_cancel, Nat.add_sub_cancel_left]

end Spans

/-! ## Rows and marks -/

/-- A line of an excerpt with its number in front. -/
def row (width : Nat) (line : SourceLine) : List Char :=
  gutter width line.number ++ [' ', '|', ' '] ++ trimEnd line.text ++ ['\n']

/-- A line of an excerpt, with the marks below it if the span starts there. -/
def markedRow (width : Nat) (span : Span) (line : SourceLine) : List Char :=
  if line.number = span.first.line then row width line ++ marker width span line ++ ['\n']
  else row width line

/-- A number stands in a column of its own width without padding. -/
theorem length_gutter (number : Nat) :
    (gutter (toString number).length number).length = (toString number).length := by
  rw [gutter, String.length_toList, Nat.sub_self]
  exact String.length_toList

theorem foldl_max_le {numbers : List Nat} {start bound : Nat} (atStart : start ≤ bound)
    (all : ∀ number ∈ numbers, number ≤ bound) : numbers.foldl max start ≤ bound := by
  induction numbers generalizing start with
  | nil => exact atStart
  | cons number numbers inductionHypothesis =>
    obtain ⟨first, others⟩ := List.forall_mem_cons.mp all
    exact inductionHypothesis (Nat.max_le.mpr ⟨atStart, first⟩) others

section Rendered

variable {source first covered rest : List Char} {span : Span} {before : Nat}

/-- An excerpt without lines behind its span ends with the line that the span starts on. -/
theorem exists_lines_eq (spans : Spans source first covered rest span) (before : Nat) :
    ∃ above line, lines before 0 source span = above ++ [line] ∧ line.number = span.first.line ∧
      ∀ other ∈ above, other.number < span.first.line := by
  obtain ⟨positive, within⟩ := spans.line_first
  have numbers := map_number_lines before 0 source span
  rw [Nat.add_zero span.first.line, Nat.min_eq_left within, List.Ico.succ_top (by omega)] at numbers
  obtain ⟨above, last, whole, isAbove, isLast⟩ := List.map_eq_append_iff.mp numbers
  obtain ⟨line, rfl, isNumber⟩ := List.map_eq_singleton_iff.mp isLast
  refine ⟨above, line, whole, isNumber, fun other member => ?_⟩
  have inRange : other.number ∈ List.Ico (max 1 (span.first.line - before)) span.first.line :=
    isAbove ▸ List.mem_map_of_mem member
  exact (List.Ico.mem.mp inRange).2

/-- A message with an excerpt is its heading, the rows of the lines, and the marks below the last
of them, which is the line that the span starts on. -/
theorem render_eq (message name : String) (spans : Spans source first covered rest span) :
    ∃ line, (lines 2 0 source span).getLast? = some line ∧ line.number = span.first.line ∧
      render message source name (some span) =
        message ++ "\n  -> " ++ name ++ ":" ++ span.first.lineColumn ++ "\n" ++
          String.ofList ((lines 2 0 source span).flatMap (row (toString line.number).length) ++
            marker (toString line.number).length span line ++ ['\n']) := by
  obtain ⟨above, line, isShown, isNumber, earlier⟩ := exists_lines_eq spans 2
  have widest : ((lines 2 0 source span).map SourceLine.number).foldl max 0 = line.number := by
    rw [isShown, List.map_append, List.foldl_append]
    refine Nat.max_eq_right (foldl_max_le (Nat.zero_le _) fun number member => ?_)
    obtain ⟨other, inAbove, rfl⟩ := List.mem_map.mp member
    exact isNumber ▸ Nat.le_of_lt (earlier other inAbove)
  have rows (width : Nat) : above.flatMap (markedRow width span) = above.flatMap (row width) :=
    List.flatMap_congr fun other member => if_neg (Nat.ne_of_lt (earlier other member))
  refine ⟨line, ?_, isNumber, ?_⟩
  · rw [isShown, List.getLast?_append]
    rfl
  · change message ++ "\n  -> " ++ name ++ ":" ++ span.first.lineColumn ++ "\n" ++
      String.ofList ((lines 2 0 source span).flatMap (markedRow (toString
        (((lines 2 0 source span).map SourceLine.number).foldl max 0)).length span)) = _
    rw [widest, isShown, List.flatMap_append, List.flatMap_append, rows, List.flatMap_singleton,
      List.flatMap_singleton, markedRow, if_pos isNumber]
    simp only [List.append_assoc]

end Rendered

/-! ## Excerpts -/

/-- The lines around a span as they are to be shown. -/
structure ShowsLines (before after : Nat) (source : List Char) (span : Span) : Prop where
  /-- These are all the lines that there are within reach of the first one of the span. -/
  numbers : (lines before after source span).map SourceLine.number =
    List.Ico (max 1 (span.first.line - before))
      (min (span.first.line + after) (source.count '\n' + 1) + 1)
  /-- Each stands in the source behind the text above it, which leads to its offset and number. -/
  places : ∀ line ∈ lines before after source span, ∃ above below,
    IsLine source above line.text below ∧ line.offset = Text.byteLength above ∧
      Position.start.advance above = ⟨line.offset, line.number, 1⟩
  /-- Counted from the offset of the first line, the column of the span is its offset. -/
  base : ∀ line ∈ lines before after source span, line.number = span.first.line →
    line.column = span.first.column ∧
      line.offset + Text.byteLength (line.text.take (span.first.column - 1)) = span.first.offset

/-- An excerpt with the text that a span covers of its first line marked: below the row of that
line, and as far from the left as the gutter and the text in front of the span, there is one mark
for each character of it. -/
def MarksText (message : String) (source : List Char) (name : String) (span : Span)
    (marked : List Char) : Prop :=
  ∃ line skipped unmarked, (lines 2 0 source span).getLast? = some line ∧
    line.number = span.first.line ∧ line.text = skipped ++ (marked ++ unmarked) ∧
    skipped.length + 1 = span.first.column ∧
    let width := (toString line.number).length
    let front := gutter width line.number ++ [' ', '|', ' '] ++ skipped
    render message source name (some span) =
      message ++ "\n  -> " ++ name ++ ":" ++ span.first.lineColumn ++ "\n" ++
        String.ofList ((lines 2 0 source span).flatMap (row width) ++
          List.replicate front.length ' ' ++ List.replicate marked.length '~' ++ ['\n'])

section Excerpts

variable {source first covered rest : List Char} {span : Span}

theorem showsLines (before after : Nat) (spans : Spans source first covered rest span)
    (noReturn : '\r' ∉ source) : ShowsLines before after source span where
  numbers := map_number_lines before after source span
  places line member := by
    obtain ⟨above, below, isLine, starts, _⟩ := isLine_of_mem_lines noReturn member
    refine ⟨above, below, isLine, ?_, starts⟩
    have offset := congrArg Position.offset starts
    rw [Position.offset_advance] at offset
    exact offset.symm.trans (Nat.zero_add _)
  base line member base := by
    obtain ⟨skipped, unmarked, madeUp⟩ := spans.exists_madeUp noReturn member base
    have column : span.first.column = line.column := congrArg Position.column madeUp.first
    refine ⟨column.symm, ?_⟩
    rw [column, madeUp.column, Nat.add_sub_cancel, madeUp.text, List.take_left, madeUp.first]

theorem marksText (message name : String) (spans : Spans source first covered rest span)
    (noReturn : '\r' ∉ source) (nonempty : covered.takeWhile (· ≠ '\n') ≠ []) :
    MarksText message source name span (covered.takeWhile (· ≠ '\n')) := by
  obtain ⟨line, isLast, isNumber, rendered⟩ := render_eq message name spans
  obtain ⟨skipped, unmarked, madeUp⟩ :=
    spans.exists_madeUp noReturn (List.mem_of_getLast? isLast) isNumber
  have column : span.first.column = line.column := congrArg Position.column madeUp.first
  have positive : 0 < markWidth span line := madeUp.width ▸ List.length_pos_iff.mpr nonempty
  refine ⟨line, skipped, unmarked, isLast, isNumber, madeUp.text, ?_, ?_⟩
  · rw [column, madeUp.column]
  · have front : (gutter (toString line.number).length line.number ++ [' ', '|', ' '] ++
        skipped).length = (toString line.number).length + 3 + skipped.length := by
      rw [List.length_append, List.length_append, length_gutter]
      rfl
    have margin := List.replicate_append_replicate (a := ' ')
      (n := (toString line.number).length + 3) (m := skipped.length)
    dsimp only
    rw [rendered, marker, if_pos positive, madeUp.width, madeUp.column, Nat.add_sub_cancel, front,
      ← margin]
    simp only [List.append_assoc]

end Excerpts

end Excerpt

/-- A span between the ends of two beginnings of one text. -/
def Span.between (first last : List Char) : Span :=
  ⟨Position.start.advance first, Position.start.advance last⟩

/-- Of a text without carriage returns, an excerpt around any stretch of it shows the lines that it
is to show, at their places, and marks on the first of the lines what the stretch covers of it. -/
theorem excerpts_mark (before after : Nat) (message name : String) {source first last : List Char}
    (noReturn : '\r' ∉ source) (firstIn : first <+: source) (lastIn : last <+: source)
    (shorter : first.length ≤ last.length) :
    Excerpt.ShowsLines before after source (.between first last) ∧
      ∃ covered, (Span.between first last).text? source = some covered ∧
        (covered.takeWhile (· ≠ '\n') ≠ [] →
          Excerpt.MarksText message source name (.between first last)
            (covered.takeWhile (· ≠ '\n'))) := by
  obtain ⟨covered, rfl⟩ := List.prefix_of_prefix_length_le firstIn lastIn shorter
  obtain ⟨rest, rfl⟩ := lastIn
  have spans : Excerpt.Spans (first ++ covered ++ rest) first covered rest
      (.between first (first ++ covered)) :=
    ⟨List.append_assoc _ _ _, rfl, Position.advance_append _ _ _⟩
  exact ⟨Excerpt.showsLines before after spans noReturn, covered, spans.text?,
    fun nonempty => Excerpt.marksText message name spans noReturn nonempty⟩

/-- A bracket that is opened on one line and not closed on it is marked up to the end of that
line. -/
theorem excerpts_mark_bracket :
    Excerpt.ShowsLines 1 1 ['é', '=', '[', '\n', '1', ']']
        (.between ['é', '='] ['é', '=', '[', '\n', '1']) ∧
      Excerpt.MarksText "unclosed" ['é', '=', '[', '\n', '1', ']'] "main"
        (.between ['é', '='] ['é', '=', '[', '\n', '1']) ['['] := by
  obtain ⟨shows, covered, isText, marks⟩ := excerpts_mark 1 1 "unclosed" "main"
    (show '\r' ∉ ['é', '=', '[', '\n', '1', ']'] by decide)
    (show ['é', '='] <+: _ from ⟨['[', '\n', '1', ']'], rfl⟩)
    (show ['é', '=', '[', '\n', '1'] <+: _ from ⟨[']'], rfl⟩) (by decide)
  have same : covered = ['[', '\n', '1'] := Option.some.inj (isText.symm.trans (by decide))
  subst same
  exact ⟨shows, marks (by decide)⟩

end Offside
