import Offside.Scan.Split
import Offside.Text.Class

/-!
What stands between tokens: blanks, comments, continued line ends, and line breaks.
-/

namespace Offside.Scan

/-- The blanks that a line starts with. -/
def leading (input : List Char) : Split :=
  run Text.isBlank input

/-- A line feed, with the carriage return before it if there is one. -/
def lineBreak? : List Char → Option Split
  | '\n' :: rest => some ⟨['\n'], rest⟩
  | '\r' :: '\n' :: rest => some ⟨['\r', '\n'], rest⟩
  | _ => none

/-- The rest of a block comment, up to and with the first mark that closes it. -/
def blockEnd? : List Char → Option Split
  | '*' :: '/' :: rest => some ⟨['*', '/'], rest⟩
  | c :: rest => (blockEnd? rest).map (Split.after [c])
  | [] => none

/-- One thing to pass over: a blank, a comment up to the end of its line, a closed block comment
or a backslash that joins a line to the next. -/
def gap? : List Char → Option Split
  | '/' :: '/' :: rest => some ((run (· ≠ '\n') rest).after ['/', '/'])
  | '/' :: '*' :: rest => (blockEnd? rest).map (Split.after ['/', '*'])
  | '\\' :: rest => (lineBreak? rest).map (Split.after ['\\'])
  | c :: rest => if Text.isBlank c then some ⟨[c], rest⟩ else none
  | [] => none

theorem of_leading (input : List Char) : (leading input).Of input :=
  of_run _ input

theorem takes_of_lineBreak? {input : List Char} {split : Split}
    (found : lineBreak? input = some split) : split.Takes input := by
  unfold lineBreak? at found
  split at found <;> simp at found <;> subst found <;> simp [Split.Takes, Split.Of]

theorem of_blockEnd? {input : List Char} {split : Split} (found : blockEnd? input = some split) :
    split.Of input := by
  fun_induction blockEnd? input generalizing split with
  | case1 rest => simp at found; subst found; rfl
  | case2 c rest _ inductionHypothesis =>
    obtain ⟨inner, innerFound, rfl⟩ := Option.map_eq_some_iff.mp found
    exact Split.of_after _ (inductionHypothesis innerFound)
  | case3 => simp at found

private theorem takes_after (text : List Char) {input : List Char} {split : Split}
    (nonempty : text ≠ []) (splitOf : split.Of input) : (split.after text).Takes (text ++ input) :=
  ⟨by simp [Split.after, nonempty], Split.of_after text splitOf⟩

theorem takes_of_gap? {input : List Char} {split : Split} (found : gap? input = some split) :
    split.Takes input := by
  unfold gap? at found
  split at found
  · simp at found; subst found
    exact takes_after ['/', '/'] (by simp) (of_run _ _)
  · obtain ⟨inner, innerFound, rfl⟩ := Option.map_eq_some_iff.mp found
    exact takes_after ['/', '*'] (by simp) (of_blockEnd? innerFound)
  · obtain ⟨inner, innerFound, rfl⟩ := Option.map_eq_some_iff.mp found
    exact takes_after ['\\'] (by simp) (takes_of_lineBreak? innerFound).2
  · split at found
    · simp at found; subst found; simp [Split.Takes, Split.Of]
    · simp at found
  · simp at found

/-- Everything to pass over before the next token. It never holds the line break that ends a
line of code, and it stops before a block comment that is never closed. -/
def trivia (input : List Char) : Split :=
  match _found : gap? input with
  | none => .nothing input
  | some gap => (trivia gap.rest).after gap.text
termination_by input.length
decreasing_by exact (takes_of_gap? _found).length_lt

theorem of_trivia (input : List Char) : (trivia input).Of input := by
  fun_induction trivia input with
  | case1 input _ => exact Split.of_nothing input
  | case2 input gap found inductionHypothesis =>
    have covers := Split.of_after gap.text inductionHypothesis
    rwa [(takes_of_gap? found).2] at covers

/-- Everything to pass over inside brackets, where line breaks end nothing. -/
def wrapped (input : List Char) : Split :=
  let gap := trivia input
  match _found : lineBreak? gap.rest with
  | none => gap
  | some lineBreak => (wrapped lineBreak.rest).after (gap.text ++ lineBreak.text)
termination_by input.length
decreasing_by
  exact Nat.lt_of_lt_of_le (takes_of_lineBreak? _found).length_lt (of_trivia input).length_le

/-- The lines without code at the start of a text. If no code follows at all, everything. -/
def blankLines (input : List Char) : Split :=
  let lead := leading input
  let gap := trivia lead.rest
  if gap.rest = [] then ⟨input, []⟩
  else
    match _found : lineBreak? gap.rest with
    | none => .nothing input
    | some lineBreak => (blankLines lineBreak.rest).after (lead.text ++ gap.text ++ lineBreak.text)
termination_by input.length
decreasing_by
  exact Nat.lt_of_lt_of_le (takes_of_lineBreak? _found).length_lt
    (Nat.le_trans (of_trivia _).length_le (of_leading input).length_le)

theorem of_wrapped (input : List Char) : (wrapped input).Of input := by
  fun_induction wrapped input with
  | case1 input gap _ => exact of_trivia input
  | case2 input gap lineBreak found inductionHypothesis =>
    have covers := Split.of_after (gap.text ++ lineBreak.text) inductionHypothesis
    rwa [List.append_assoc, (takes_of_lineBreak? found).2, of_trivia input] at covers

theorem of_blankLines (input : List Char) : (blankLines input).Of input := by
  fun_induction blankLines input with
  | case1 input _ _ _ => exact List.append_nil input
  | case2 input _ _ _ _ => exact Split.of_nothing input
  | case3 input lead gap _ lineBreak found inductionHypothesis =>
    have covers := Split.of_after (lead.text ++ gap.text ++ lineBreak.text) inductionHypothesis
    have total : lead.text ++ gap.text ++ lineBreak.text ++ lineBreak.rest = input := by
      rw [List.append_assoc (lead.text ++ gap.text), (takes_of_lineBreak? found).2,
        List.append_assoc, of_trivia lead.rest, of_leading input]
    rwa [total] at covers

end Offside.Scan
