import Mathlib.Data.List.Infix
import Offside.Proofs.Scan.Literals
import Offside.Scan.Word

/-!
Scanning a text that more text follows. What a scanner takes of a text that ends with a line break
does not depend on what follows, unless the line break itself is taken. A backslash before it would
join the last line to the next, so there must be none.
-/

namespace Offside

/-- The text ends with a line break, which no backslash before it takes away. -/
def Text.EndsLine (text : List Char) : Prop :=
  ∃ line, text = line ++ ['\n'] ∧ ¬ ['\\'] <:+ line ∧ ¬ ['\\', '\r'] <:+ line

namespace Text.EndsLine

variable {text rest : List Char} {c : Char}

theorem ne_nil (ends : EndsLine text) : text ≠ [] := by
  obtain ⟨line, rfl, _⟩ := ends
  exact List.append_ne_nil_of_right_ne_nil _ (List.cons_ne_nil _ _)

theorem of_suffix (ends : EndsLine text) (suffix : rest <:+ text) (more : rest ≠ []) :
    EndsLine rest := by
  obtain ⟨line, rfl, single, double⟩ := ends
  obtain ⟨taken, whole⟩ := suffix
  obtain ⟨others, last, rfl⟩ := (List.eq_nil_or_concat' rest).resolve_left more
  rw [← List.append_assoc] at whole
  obtain ⟨rfl, same⟩ := List.append_inj' whole rfl
  obtain rfl := (List.cons.inj same).1
  exact ⟨others, rfl, fun joined => single (joined.trans (List.suffix_append _ _)),
    fun joined => double (joined.trans (List.suffix_append _ _))⟩

/-- Behind a character that is no line feed the text goes on. -/
theorem tail (ends : EndsLine (c :: rest)) (notBreak : c ≠ '\n') : EndsLine rest := by
  refine ends.of_suffix (List.suffix_cons c rest) ?_
  rintro rfl
  obtain ⟨line, whole, _⟩ := ends
  have last := congrArg List.getLast? whole
  rw [List.getLast?_concat, List.getLast?_singleton] at last
  exact notBreak (Option.some.inj last)

theorem exists_cons (ends : EndsLine text) : ∃ c rest, text = c :: rest :=
  List.exists_cons_of_ne_nil ends.ne_nil

theorem not_backslash : ¬ EndsLine ['\\', '\n'] := by
  rintro ⟨line, whole, single, _⟩
  obtain ⟨rfl, _⟩ := @List.append_inj' _ ['\\'] ['\n'] line ['\n'] whole rfl
  exact single List.suffix_rfl

theorem not_backslash_return : ¬ EndsLine ['\\', '\r', '\n'] := by
  rintro ⟨line, whole, _, double⟩
  obtain ⟨rfl, _⟩ := @List.append_inj' _ ['\\', '\r'] ['\n'] line ['\n'] whole rfl
  exact double List.suffix_rfl

end Text.EndsLine

open Text (EndsLine)

namespace Scan

/-- The split of a text that more text follows. -/
def Split.extend (more : List Char) (split : Split) : Split :=
  { split with rest := split.rest ++ more }

def Scanned.extend {α : Type} (more : List Char) (scanned : Scanned α) : Scanned α :=
  { scanned with rest := scanned.rest ++ more }

variable {text : List Char} (more : List Char)

/-! ## Runs -/

theorem run_extend {test : Char → Bool} (stops : test '\n' = false) (ends : EndsLine text) :
    run test (text ++ more) = (run test text).extend more ∧ EndsLine (run test text).rest := by
  induction text with
  | nil => exact absurd rfl ends.ne_nil
  | cons c rest inductionHypothesis =>
    by_cases passes : test c = true
    · have notBreak : c ≠ '\n' := by
        rintro rfl
        rw [stops] at passes
        contradiction
      obtain ⟨same, endsRest⟩ := inductionHypothesis (ends.tail notBreak)
      simp only [run, Split.extend, Split.mk.injEq] at same endsRest ⊢
      rw [List.cons_append, List.takeWhile_cons_of_pos passes, List.dropWhile_cons_of_pos passes,
        List.takeWhile_cons_of_pos passes, List.dropWhile_cons_of_pos passes]
      exact ⟨⟨congrArg _ same.1, same.2⟩, endsRest⟩
    · simp only [run, Split.extend, Split.mk.injEq]
      rw [List.cons_append, List.takeWhile_cons_of_neg passes, List.dropWhile_cons_of_neg passes,
        List.takeWhile_cons_of_neg passes, List.dropWhile_cons_of_neg passes]
      exact ⟨⟨rfl, rfl⟩, ends⟩

theorem upTo_extend {test : Char → Bool} (stops : test '\n' = false) (count : Nat)
    (ends : EndsLine text) :
    upTo test count (text ++ more) = (upTo test count text).extend more ∧
      EndsLine (upTo test count text).rest := by
  induction count generalizing text with
  | zero => exact ⟨rfl, ends⟩
  | succ count inductionHypothesis =>
    obtain ⟨c, rest, rfl⟩ := ends.exists_cons
    rw [List.cons_append, upTo, upTo]
    by_cases passes : test c = true
    · have notBreak : c ≠ '\n' := by
        rintro rfl
        rw [stops] at passes
        contradiction
      obtain ⟨same, endsRest⟩ := inductionHypothesis (ends.tail notBreak)
      rw [if_pos passes, if_pos passes, same]
      exact ⟨rfl, endsRest⟩
    · rw [if_neg passes, if_neg passes]
      exact ⟨rfl, ends⟩

/-! ## Blanks -/

theorem leading_extend (ends : EndsLine text) :
    leading (text ++ more) = (leading text).extend more ∧ EndsLine (leading text).rest :=
  run_extend more rfl ends

theorem lineBreak?_extend (ends : EndsLine text) :
    lineBreak? (text ++ more) = (lineBreak? text).map (Split.extend more) := by
  obtain ⟨c, rest, rfl⟩ := ends.exists_cons
  by_cases feed : c = '\n'
  · subst feed
    rfl
  · by_cases isReturn : c = '\r'
    · subst isReturn
      obtain ⟨next, others, rfl⟩ := (ends.tail feed).exists_cons
      by_cases nextFeed : next = '\n'
      · subst nextFeed
        rfl
      · simp [lineBreak?, nextFeed]
    · simp [lineBreak?, feed, isReturn]

/-- A line break that a backslash takes away is not the last one. -/
theorem endsLine_of_joined {lineBreak : Split} (ends : EndsLine ('\\' :: text))
    (found : lineBreak? text = some lineBreak) : EndsLine lineBreak.rest := by
  have suffix : lineBreak.rest <:+ '\\' :: text :=
    List.IsSuffix.trans ⟨_, (takes_of_lineBreak? found).2⟩ (List.suffix_cons _ _)
  refine ends.of_suffix suffix fun nothing => ?_
  unfold lineBreak? at found
  split at found
  next rest =>
    obtain rfl := Option.some.inj found
    obtain rfl : rest = [] := nothing
    exact Text.EndsLine.not_backslash ends
  next rest =>
    obtain rfl := Option.some.inj found
    obtain rfl : rest = [] := nothing
    exact Text.EndsLine.not_backslash_return ends
  next => contradiction

theorem blockEnd?_extend {split : Split} (ends : EndsLine text) (found : blockEnd? text = some split) :
    blockEnd? (text ++ more) = some (split.extend more) ∧ EndsLine split.rest := by
  fun_induction blockEnd? text generalizing split with
  | case1 rest =>
    obtain rfl := Option.some.inj found
    exact ⟨rfl, (ends.tail (by decide)).tail (by decide)⟩
  | case2 c rest notEnd inductionHypothesis =>
    obtain ⟨inner, innerFound, rfl⟩ := Option.map_eq_some_iff.mp found
    have endsRest : EndsLine rest := by
      refine ends.of_suffix (List.suffix_cons c rest) ?_
      rintro rfl
      contradiction
    obtain ⟨same, endsInner⟩ := inductionHypothesis endsRest innerFound
    refine ⟨?_, endsInner⟩
    rw [List.cons_append, blockEnd?, same]
    · rfl
    · rintro others isStar isSlash
      obtain ⟨next, others, rfl⟩ := endsRest.exists_cons
      obtain ⟨rfl, rfl⟩ := List.cons.inj isSlash
      exact notEnd _ isStar rfl
  | case3 => contradiction

/-- The text does not start with a block comment. -/
def NoBlock (text : List Char) : Prop :=
  ∀ rest, text ≠ '/' :: '*' :: rest

/-- What starts neither a comment nor a joined line is a blank, or nothing to pass over. -/
theorem gap?_of_other {c : Char} {rest : List Char} (noJoin : c ≠ '\\')
    (noComment : c = '/' → rest.head? ≠ some '/' ∧ rest.head? ≠ some '*') :
    gap? (c :: rest) = if Text.isBlank c then some ⟨[c], rest⟩ else none := by
  unfold gap?
  split
  next same =>
    obtain ⟨rfl, rfl⟩ := List.cons.inj same
    exact absurd rfl (noComment rfl).1
  next same =>
    obtain ⟨rfl, rfl⟩ := List.cons.inj same
    exact absurd rfl (noComment rfl).2
  next same => exact absurd (List.cons.inj same).1 noJoin
  next same =>
    obtain ⟨rfl, rfl⟩ := List.cons.inj same
    rfl
  next => contradiction

theorem gap?_extend_of_other {c : Char} (ends : EndsLine (c :: text)) (noJoin : c ≠ '\\')
    (noComment : c = '/' → text.head? ≠ some '/' ∧ text.head? ≠ some '*') :
    gap? (c :: text ++ more) = (gap? (c :: text)).map (Split.extend more) ∧
      ∀ gap, gap? (c :: text) = some gap → EndsLine gap.rest := by
  have noCommentLonger : c = '/' →
      (text ++ more).head? ≠ some '/' ∧ (text ++ more).head? ≠ some '*' := by
    intro isSlash
    obtain ⟨next, others, rfl⟩ := (ends.tail (by rw [isSlash]; decide)).exists_cons
    exact noComment isSlash
  rw [List.cons_append, gap?_of_other noJoin noComment, gap?_of_other noJoin noCommentLonger]
  split
  next isBlank =>
    refine ⟨rfl, fun gap found => ?_⟩
    obtain rfl := Option.some.inj found
    refine ends.tail ?_
    rintro rfl
    contradiction
  next => exact ⟨rfl, by simp⟩

theorem gap?_extend (ends : EndsLine text) (closed : gap? text = none → NoBlock text) :
    gap? (text ++ more) = (gap? text).map (Split.extend more) ∧
      ∀ gap, gap? text = some gap → EndsLine gap.rest := by
  obtain ⟨c, rest, rfl⟩ := ends.exists_cons
  by_cases joins : c = '\\'
  · subst joins
    have endsRest := ends.tail (by decide)
    rw [List.cons_append, gap?, gap?, lineBreak?_extend more endsRest, Option.map_map, Option.map_map]
    refine ⟨rfl, fun gap found => ?_⟩
    obtain ⟨inner, innerFound, rfl⟩ := Option.map_eq_some_iff.mp found
    exact (endsLine_of_joined ends innerFound : EndsLine inner.rest)
  · by_cases slash : c = '/'
    · subst slash
      have endsRest := ends.tail (by decide)
      obtain ⟨next, others, rfl⟩ := endsRest.exists_cons
      by_cases line : next = '/'
      · subst line
        obtain ⟨same, endsOthers⟩ := @run_extend others more (· ≠ '\n') rfl (endsRest.tail (by decide))
        rw [List.cons_append, List.cons_append, gap?, gap?, same]
        refine ⟨rfl, fun gap found => ?_⟩
        obtain rfl := Option.some.inj found
        exact endsOthers
      · by_cases block : next = '*'
        · subst block
          have endsOthers := endsRest.tail (by decide)
          rw [List.cons_append, List.cons_append, gap?, gap?]
          rw [gap?] at closed
          cases found : blockEnd? others with
          | none =>
            rw [found] at closed
            exact absurd rfl (closed rfl others)
          | some split =>
            obtain ⟨same, endsSplit⟩ := blockEnd?_extend more endsOthers found
            rw [same]
            refine ⟨rfl, fun gap isGap => ?_⟩
            obtain rfl := Option.some.inj isGap
            exact endsSplit
        · exact gap?_extend_of_other more ends joins fun _ =>
            ⟨fun same => line (Option.some.inj same), fun same => block (Option.some.inj same)⟩
    · exact gap?_extend_of_other more ends joins fun isSlash => absurd isSlash slash

/-! ## What stands between tokens -/

theorem trivia_of_none {input : List Char} (missing : gap? input = none) :
    trivia input = .nothing input := by
  rw [trivia]
  split
  next => rfl
  next found =>
    rw [missing] at found
    contradiction

theorem trivia_of_some {input : List Char} {gap : Split} (found : gap? input = some gap) :
    trivia input = (trivia gap.rest).after gap.text := by
  rw [trivia]
  split
  next missing =>
    rw [missing] at found
    contradiction
  next other otherFound =>
    obtain rfl := Option.some.inj (otherFound.symm.trans found)
    rfl

theorem trivia_extend (ends : EndsLine text) (closed : NoBlock (trivia text).rest) :
    trivia (text ++ more) = (trivia text).extend more ∧ EndsLine (trivia text).rest := by
  fun_induction trivia text with
  | case1 text missing =>
    obtain ⟨same, _⟩ := gap?_extend more ends fun _ => closed
    rw [missing] at same
    exact ⟨trivia_of_none same, ends⟩
  | case2 text gap found inductionHypothesis =>
    have goesOn : gap? text ≠ none := by
      rw [found]
      exact Option.some_ne_none gap
    obtain ⟨same, endsGap⟩ := gap?_extend more ends fun missing => absurd missing goesOn
    rw [found] at same
    obtain ⟨sameRest, endsRest⟩ := inductionHypothesis (endsGap gap found) closed
    refine ⟨?_, endsRest⟩
    rw [trivia_of_some same]
    exact congrArg (Split.after gap.text) sameRest

theorem trivia_nil : trivia [] = .nothing [] :=
  trivia_of_none rfl

/-- A line break starts no comment. -/
theorem noBlock_of_lineBreak? {lineBreak : Split} (found : lineBreak? text = some lineBreak) :
    NoBlock text := by
  rintro rest rfl
  contradiction

theorem wrapped_of_none {input : List Char} (missing : lineBreak? (trivia input).rest = none) :
    wrapped input = trivia input := by
  rw [wrapped]
  split
  next => rfl
  next found =>
    rw [missing] at found
    contradiction

theorem wrapped_nil : wrapped [] = .nothing [] := by
  rw [wrapped_of_none, trivia_nil]
  rw [trivia_nil]
  rfl

theorem wrapped_of_some {input : List Char} {lineBreak : Split}
    (found : lineBreak? (trivia input).rest = some lineBreak) :
    wrapped input = (wrapped lineBreak.rest).after ((trivia input).text ++ lineBreak.text) := by
  rw [wrapped]
  split
  next missing =>
    rw [missing] at found
    contradiction
  next other otherFound =>
    obtain rfl := Option.some.inj (otherFound.symm.trans found)
    rfl

/-- Behind a line break there is nothing, or the rest of the text. -/
theorem endsLine_of_lineBreak? {lineBreak : Split} (ends : EndsLine text)
    (found : lineBreak? text = some lineBreak) (goesOn : lineBreak.rest ≠ []) :
    EndsLine lineBreak.rest :=
  ends.of_suffix ⟨_, (takes_of_lineBreak? found).2⟩ goesOn

theorem wrapped_extend (ends : EndsLine text) (goesOn : (wrapped text).rest ≠ [])
    (closed : NoBlock (wrapped text).rest) :
    wrapped (text ++ more) = (wrapped text).extend more ∧ EndsLine (wrapped text).rest := by
  fun_induction wrapped text with
  | case1 text gap missing =>
    obtain ⟨same, endsGap⟩ := trivia_extend more ends closed
    refine ⟨?_, endsGap⟩
    rw [wrapped_of_none, same]
    rw [same, Split.extend, lineBreak?_extend more endsGap, missing, Option.map_none]
  | case2 text gap lineBreak found inductionHypothesis =>
    obtain ⟨same, endsGap⟩ := trivia_extend more ends (noBlock_of_lineBreak? found)
    have endsRest : EndsLine lineBreak.rest := by
      refine endsLine_of_lineBreak? endsGap found fun nothing => goesOn ?_
      rw [nothing, wrapped_nil]
      rfl
    obtain ⟨sameRest, endsWrapped⟩ := inductionHypothesis endsRest goesOn closed
    refine ⟨?_, endsWrapped⟩
    have foundLonger : lineBreak? (trivia (text ++ more)).rest = some (lineBreak.extend more) := by
      rw [same, Split.extend, lineBreak?_extend more endsGap, found, Option.map_some]
    rw [wrapped_of_some foundLonger, same]
    exact congrArg (Split.after _) sameRest

theorem blankLines_of_nil {input : List Char} (nothing : (trivia (leading input).rest).rest = []) :
    blankLines input = ⟨input, []⟩ := by
  rw [blankLines, if_pos nothing]

theorem blankLines_of_none {input : List Char} (something : (trivia (leading input).rest).rest ≠ [])
    (missing : lineBreak? (trivia (leading input).rest).rest = none) :
    blankLines input = .nothing input := by
  rw [blankLines, if_neg something]
  split
  next => rfl
  next found =>
    rw [missing] at found
    contradiction

theorem blankLines_of_some {input : List Char} {lineBreak : Split}
    (found : lineBreak? (trivia (leading input).rest).rest = some lineBreak) :
    blankLines input = (blankLines lineBreak.rest).after
      ((leading input).text ++ (trivia (leading input).rest).text ++ lineBreak.text) := by
  have something : (trivia (leading input).rest).rest ≠ [] := by
    intro nothing
    rw [nothing] at found
    contradiction
  rw [blankLines, if_neg something]
  split
  next missing =>
    rw [missing] at found
    contradiction
  next other otherFound =>
    obtain rfl := Option.some.inj (otherFound.symm.trans found)
    rfl

/-- What stands before the code of a line, if there is any, is the same whatever follows. -/
theorem line_extend (ends : EndsLine text) (closed : NoBlock (trivia (leading text).rest).rest) :
    leading (text ++ more) = (leading text).extend more ∧
      trivia (leading (text ++ more)).rest = (trivia (leading text).rest).extend more ∧
        EndsLine (trivia (leading text).rest).rest := by
  obtain ⟨same, endsLead⟩ := leading_extend more ends
  obtain ⟨sameGap, endsGap⟩ := trivia_extend more endsLead closed
  refine ⟨same, ?_, endsGap⟩
  rw [same]
  exact sameGap

theorem blankLines_extend (ends : EndsLine text) (goesOn : (blankLines text).rest ≠ [])
    (closed : NoBlock (trivia (leading (blankLines text).rest).rest).rest) :
    blankLines (text ++ more) = (blankLines text).extend more ∧
      EndsLine (blankLines text).rest := by
  fun_induction blankLines text with
  | case1 text lead gap nothing => exact absurd rfl goesOn
  | case2 text lead gap something missing =>
    obtain ⟨_, same, endsGap⟩ := line_extend more ends closed
    refine ⟨?_, ends⟩
    rw [blankLines_of_none]
    · rfl
    · rw [same]
      exact List.append_ne_nil_of_left_ne_nil endsGap.ne_nil more
    · rw [same, Split.extend, lineBreak?_extend more endsGap, missing, Option.map_none]
  | case3 text lead gap something lineBreak found inductionHypothesis =>
    obtain ⟨sameLead, same, endsGap⟩ := line_extend more ends (noBlock_of_lineBreak? found)
    have endsRest : EndsLine lineBreak.rest := by
      refine endsLine_of_lineBreak? endsGap found fun nothing => goesOn ?_
      rw [nothing, @blankLines_of_nil [] (congrArg Split.rest trivia_nil)]
      rfl
    obtain ⟨sameRest, endsBlank⟩ := inductionHypothesis endsRest goesOn closed
    refine ⟨?_, endsBlank⟩
    have foundLonger : lineBreak? (trivia (leading (text ++ more)).rest).rest =
        some (lineBreak.extend more) := by
      rw [same, Split.extend, lineBreak?_extend more endsGap, found, Option.map_some]
    rw [blankLines_of_some foundLonger, same, sameLead]
    exact congrArg (Split.after _) sameRest

/-- Behind a text without code the blank lines go on. -/
theorem blankLines_extend_blank (ends : EndsLine text) (nothing : (blankLines text).rest = []) :
    blankLines (text ++ more) = (blankLines more).after text := by
  fun_induction blankLines text with
  | case1 text lead gap noCode =>
    have closed : NoBlock (trivia (leading text).rest).rest := by
      rintro rest same
      rw [noCode] at same
      contradiction
    exact absurd noCode (line_extend more ends closed).2.2.ne_nil
  | case2 text lead gap something missing => exact absurd nothing ends.ne_nil
  | case3 text lead gap something lineBreak found inductionHypothesis =>
    obtain ⟨sameLead, same, endsGap⟩ := line_extend more ends (noBlock_of_lineBreak? found)
    have foundLonger : lineBreak? (trivia (leading (text ++ more)).rest).rest =
        some (lineBreak.extend more) := by
      rw [same, Split.extend, lineBreak?_extend more endsGap, found, Option.map_some]
    have later : blankLines (lineBreak.rest ++ more) = (blankLines more).after lineBreak.rest := by
      by_cases goesOn : lineBreak.rest = []
      · rw [goesOn]
        rfl
      · exact inductionHypothesis (endsLine_of_lineBreak? endsGap found goesOn) nothing
    have whole : lead.text ++ gap.text ++ lineBreak.text ++ lineBreak.rest = text := by
      rw [List.append_assoc (lead.text ++ gap.text), (takes_of_lineBreak? found).2,
        List.append_assoc, of_trivia lead.rest, of_leading text]
    rw [blankLines_of_some foundLonger, same, sameLead]
    refine (congrArg (Split.after (lead.text ++ gap.text ++ lineBreak.text)) later).trans ?_
    rw [Split.after, Split.after, ← List.append_assoc, whole]
    rfl

/-! ## Words, symbols and numbers -/

theorem word?_extend (ends : EndsLine text) :
    word? (text ++ more) = (word? text).map (Scanned.extend more) := by
  obtain ⟨c, rest, rfl⟩ := ends.exists_cons
  rw [List.cons_append, word?, word?, name?, name?]
  split
  next starts =>
    have notBreak : c ≠ '\n' := by
      rintro rfl
      contradiction
    rw [(run_extend more (by decide) (ends.tail notBreak)).1]
    rfl
  next => rfl

theorem strip?_extend {characters : List Char} (noBreak : '\n' ∉ characters) (ends : EndsLine text) :
    strip? characters (text ++ more) = (strip? characters text).map (· ++ more) := by
  induction characters generalizing text with
  | nil => rfl
  | cons c characters inductionHypothesis =>
    obtain ⟨first, rest, rfl⟩ := ends.exists_cons
    rw [List.cons_append, strip?, strip?]
    split
    next same =>
      subst same
      rw [List.mem_cons, not_or] at noBreak
      exact inductionHypothesis noBreak.2 (ends.tail (Ne.symm noBreak.1))
    next => rfl

theorem lineFeed_not_mem_characters (symbol : Symbol) : '\n' ∉ symbol.characters := by
  cases symbol <;> decide

theorem symbol?_extend (ends : EndsLine text) :
    symbol? (text ++ more) = (symbol? text).map (Scanned.extend more) := by
  unfold symbol?
  rw [List.map_findSome?]
  refine congrArg (fun found => Symbol.all.findSome? found) (funext fun symbol => ?_)
  rw [strip?_extend more (lineFeed_not_mem_characters symbol) ends, Function.comp_apply,
    Option.map_map, Option.map_map]
  rfl

theorem digitRun?_extend (ends : EndsLine text) :
    digitRun? (text ++ more) = (digitRun? text).map (Split.extend more) ∧
      ∀ digits, digitRun? text = some digits → EndsLine digits.rest := by
  obtain ⟨c, rest, rfl⟩ := ends.exists_cons
  rw [List.cons_append, digitRun?, digitRun?]
  split
  next isDigit =>
    have notBreak : c ≠ '\n' := by
      rintro rfl
      contradiction
    obtain ⟨same, endsRest⟩ := @run_extend rest more
      (fun other => Text.isDigit other || other = '_') rfl (ends.tail notBreak)
    rw [same]
    refine ⟨rfl, fun digits found => ?_⟩
    obtain rfl := Option.some.inj found
    exact endsRest
  next => exact ⟨rfl, by simp⟩

theorem fraction?_extend (ends : EndsLine text) :
    fraction? (text ++ more) = (fraction? text).map (Scanned.extend more) ∧
      ∀ fraction, fraction? text = some fraction → EndsLine fraction.rest := by
  obtain ⟨c, rest, rfl⟩ := ends.exists_cons
  by_cases point : c = '.'
  · subst point
    obtain ⟨same, endsDigits⟩ := digitRun?_extend more (ends.tail (by decide))
    rw [List.cons_append, fraction?, fraction?, same, Option.map_map, Option.map_map]
    refine ⟨rfl, fun fraction found => ?_⟩
    obtain ⟨digits, digitsFound, rfl⟩ := Option.map_eq_some_iff.mp found
    exact endsDigits digits digitsFound
  · rw [List.cons_append, fraction?_eq_none point, fraction?_eq_none point]
    exact ⟨rfl, by simp⟩

theorem suffix?_extend (ends : EndsLine text) :
    suffix? (text ++ more) = (suffix? text).map (Scanned.extend more) := by
  obtain ⟨c, rest, rfl⟩ := ends.exists_cons
  rw [List.cons_append, suffix?, suffix?]
  by_cases isBreak : c = '\n'
  · subst isBreak
    have none : FloatSuffix.ofChar? '\n' = none := by decide
    rw [none, Option.map_none, Option.map_none, ite_self, ite_self]
    rfl
  · obtain ⟨next, others, rfl⟩ := (ends.tail isBreak).exists_cons
    rw [List.cons_append, List.head?_cons, List.head?_cons]
    split
    next => rfl
    next =>
      rw [Option.map_map]
      rfl

theorem magnitude?_extend (operand negative : Bool) (ends : EndsLine text) :
    magnitude? operand negative (text ++ more) =
      (magnitude? operand negative text).map (Scanned.extend more) := by
  obtain ⟨same, endsWhole⟩ := digitRun?_extend more ends
  unfold magnitude?
  rw [same]
  cases wholeFound : digitRun? text with
  | none =>
    dsimp only [Option.map_none]
    obtain ⟨sameFraction, endsFraction⟩ := fraction?_extend more ends
    cases operand with
    | false => rfl
    | true =>
      rw [if_pos rfl, if_pos rfl, sameFraction]
      cases fractionFound : fraction? text with
      | none => rfl
      | some fraction =>
        simp only [Option.map_some, Scanned.extend,
          suffix?_extend more (endsFraction fraction fractionFound)]
        cases suffix? fraction.rest with
        | none => rfl
        | some suffix => rfl
  | some whole =>
    have endsRest := endsWhole whole wholeFound
    obtain ⟨sameFraction, endsFraction⟩ := fraction?_extend more endsRest
    simp only [Option.map_some, Split.extend, sameFraction]
    cases fractionFound : fraction? whole.rest with
    | none =>
      simp only [Option.map_none, suffix?_extend more endsRest]
      cases suffix? whole.rest with
      | none => rfl
      | some suffix => rfl
    | some fraction =>
      simp only [Option.map_some, Scanned.extend, Split.after,
        suffix?_extend more (endsFraction fraction fractionFound)]
      cases suffix? fraction.rest with
      | none => rfl
      | some suffix => rfl

theorem sign?_extend (ends : EndsLine text) :
    sign? (text ++ more) = (sign? text).map (Scanned.extend more) ∧
      ∀ sign, sign? text = some sign → EndsLine sign.rest := by
  obtain ⟨c, rest, rfl⟩ := ends.exists_cons
  by_cases isSign : c = '+' ∨ c = '-'
  · have endsRest : EndsLine rest := by
      refine ends.tail ?_
      rintro rfl
      revert isSign
      decide
    obtain ⟨digit, others, rfl⟩ := endsRest.exists_cons
    rw [List.cons_append, List.cons_append, sign?, sign?]
    split
    next =>
      refine ⟨rfl, fun sign found => ?_⟩
      obtain rfl := Option.some.inj found
      exact endsRest
    next => exact ⟨rfl, by simp⟩
  · have noSign := not_or.mp isSign
    rw [List.cons_append, sign?_eq_none noSign, sign?_eq_none noSign]
    exact ⟨rfl, by simp⟩

theorem numeral?_extend (operand : Bool) (ends : EndsLine text) :
    numeral? operand (text ++ more) = (numeral? operand text).map (Scanned.extend more) := by
  obtain ⟨same, endsSign⟩ := sign?_extend more ends
  unfold numeral?
  cases operand with
  | false => exact magnitude?_extend more false false ends
  | true =>
    rw [if_pos rfl, if_pos rfl, same]
    cases found : sign? text with
    | none => exact magnitude?_extend more true false ends
    | some sign =>
      simp only [Option.map_some, Scanned.extend,
        magnitude?_extend more true sign.value (endsSign sign found), Option.map_map]
      rfl

/-! ## Pieces of literals -/

theorem hexChar?_extend (count : Nat) (ends : EndsLine text) :
    hexChar? count (text ++ more) = (hexChar? count text).map (Scanned.extend more) ∧
      ∀ scanned, hexChar? count text = some scanned → EndsLine scanned.rest := by
  obtain ⟨same, endsDigits⟩ := @upTo_extend text more Text.isHexDigit rfl count ends
  rw [hexChar?, hexChar?, same]
  generalize upTo Text.isHexDigit count text = digits at endsDigits ⊢
  by_cases full : digits.text.length = count
  · simp only [Split.extend, full, ↓reduceIte, Option.map_map]
    refine ⟨rfl, fun scanned found => ?_⟩
    obtain ⟨value, _, rfl⟩ := Option.map_eq_some_iff.mp found
    exact endsDigits
  · simp only [Split.extend, full, ↓reduceIte]
    exact ⟨rfl, by simp⟩

theorem bracedChar?_of_ne {c : Char} {rest : List Char} (closed : c ≠ '\x7b') :
    bracedChar? (c :: rest) = none := by
  unfold bracedChar?
  split
  next same => exact absurd (List.cons.inj same).1 closed
  next => rfl

theorem bracedChar?_extend (ends : EndsLine text) :
    bracedChar? (text ++ more) = (bracedChar? text).map (Scanned.extend more) ∧
      ∀ scanned, bracedChar? text = some scanned → EndsLine scanned.rest := by
  obtain ⟨c, rest, rfl⟩ := ends.exists_cons
  by_cases opens : c = '\x7b'
  · subst opens
    obtain ⟨same, endsDigits⟩ := @upTo_extend rest more Text.isHexDigit rfl 6 (ends.tail (by decide))
    rw [List.cons_append, bracedChar?, bracedChar?, same]
    generalize upTo Text.isHexDigit 6 rest = digits at endsDigits ⊢
    obtain ⟨text, after⟩ := digits
    obtain ⟨last, others, rfl⟩ := endsDigits.exists_cons
    by_cases closes : last = '\x7d'
    · subst closes
      by_cases empty : text = []
      · simp only [Split.extend, List.cons_append, empty, ↓reduceIte]
        exact ⟨rfl, by simp⟩
      · simp only [Split.extend, List.cons_append, empty, ↓reduceIte, Option.map_map]
        refine ⟨rfl, fun scanned found => ?_⟩
        obtain ⟨value, _, rfl⟩ := Option.map_eq_some_iff.mp found
        exact endsDigits.tail (by decide)
    · simp [Split.extend, closes]
  · rw [List.cons_append, bracedChar?_of_ne opens, bracedChar?_of_ne opens]
    exact ⟨rfl, by simp⟩

theorem brokenCode_of_ne {c : Char} {rest : List Char} (closed : c ≠ '\x7b') :
    brokenCode (c :: rest) = upTo Text.isHexDigit 4 (c :: rest) := by
  unfold brokenCode
  split
  next same => exact absurd (List.cons.inj same).1 closed
  next => rfl

theorem brokenCode_extend (ends : EndsLine text) :
    brokenCode (text ++ more) = (brokenCode text).extend more ∧ EndsLine (brokenCode text).rest := by
  obtain ⟨c, rest, rfl⟩ := ends.exists_cons
  by_cases opens : c = '\x7b'
  · subst opens
    obtain ⟨same, endsBody⟩ := @run_extend rest more
      (fun c => c ≠ '\x7d' && c ≠ '"' && c ≠ '\'' && c ≠ '\n') rfl (ends.tail (by decide))
    rw [List.cons_append, brokenCode, brokenCode, same]
    generalize run _ rest = body at endsBody ⊢
    obtain ⟨text, after⟩ := body
    obtain ⟨last, others, rfl⟩ := endsBody.exists_cons
    by_cases closes : last = '\x7d'
    · subst closes
      exact ⟨rfl, endsBody.tail (by decide)⟩
    · simp [Split.extend, Split.after, closes, endsBody]
  · rw [List.cons_append, brokenCode_of_ne opens, brokenCode_of_ne opens]
    exact upTo_extend more rfl 4 ends

theorem escape_of_joined {input : List Char} {lineBreak : Split}
    (found : lineBreak? input = some lineBreak) :
    escape input = ⟨lineBreak.after ['\\'], .elided⟩ := by
  rw [escape.eq_def, found]

/-- An escape of a character that none of the longer escapes starts with. -/
theorem escape_of_other {c : Char} {rest : List Char} (apart : lineBreak? (c :: rest) = none)
    (noReturn : c ≠ '\r') (noCode : c ≠ 'u') (noByte : c ≠ 'x') :
    escape (c :: rest) =
      if Text.isOctalDigit c then
        let digits := upTo Text.isOctalDigit 3 (c :: rest)
        ⟨digits.after ['\\'], .char (Char.ofNat (Text.numberOf 8 digits.text))⟩
      else ⟨⟨['\\', c], rest⟩, .char (letterValue c)⟩ := by
  rw [escape.eq_def, apart]
  dsimp only
  split
  next => contradiction
  next same => exact absurd (List.cons.inj same).1 noReturn
  next same => exact absurd (List.cons.inj same).1 noCode
  next same => exact absurd (List.cons.inj same).1 noByte
  next same =>
    obtain ⟨rfl, rfl⟩ := List.cons.inj same
    rfl

theorem escape_code_of_some {rest : List Char} {scanned : Scanned Char}
    (found : (bracedChar? rest).or (hexChar? 4 rest) = some scanned) :
    escape ('u' :: rest) = ⟨scanned.toSplit.after ['\\', 'u'], .char scanned.value⟩ := by
  unfold escape
  simp only [lineBreak?, found]
  rfl

theorem escape_code_of_none {rest : List Char}
    (missing : (bracedChar? rest).or (hexChar? 4 rest) = none) :
    escape ('u' :: rest) = ⟨(brokenCode rest).after ['\\', 'u'],
      .invalid (['\\', 'u'] ++ (brokenCode rest).text)⟩ := by
  unfold escape
  simp only [lineBreak?, missing]
  rfl

theorem escape_byte_of_some {rest : List Char} {scanned : Scanned Char}
    (found : hexChar? 2 rest = some scanned) :
    escape ('x' :: rest) = ⟨scanned.toSplit.after ['\\', 'x'], .char scanned.value⟩ := by
  unfold escape
  simp only [lineBreak?, found]
  rfl

theorem escape_byte_of_none {rest : List Char} (missing : hexChar? 2 rest = none) :
    escape ('x' :: rest) = ⟨(upTo Text.isHexDigit 2 rest).after ['\\', 'x'],
      .invalid (['\\', 'x'] ++ (upTo Text.isHexDigit 2 rest).text)⟩ := by
  unfold escape
  simp only [lineBreak?, missing]
  rfl

/-- An escape by the code of a character. -/
theorem escape_code_extend (ends : EndsLine text) :
    escape ('u' :: (text ++ more)) = (escape ('u' :: text)).extend more ∧
      EndsLine (escape ('u' :: text)).rest := by
  obtain ⟨sameBraced, endsBraced⟩ := bracedChar?_extend more ends
  obtain ⟨sameHex, endsHex⟩ := hexChar?_extend more 4 ends
  have same : (bracedChar? (text ++ more)).or (hexChar? 4 (text ++ more)) =
      ((bracedChar? text).or (hexChar? 4 text)).map (Scanned.extend more) := by
    rw [sameBraced, sameHex, Option.map_or]
  cases found : (bracedChar? text).or (hexChar? 4 text) with
  | some scanned =>
    rw [found] at same
    rw [escape_code_of_some same, escape_code_of_some found]
    refine ⟨rfl, ?_⟩
    rcases Option.or_eq_some_iff.mp found with braced | ⟨_, plain⟩
    · exact endsBraced scanned braced
    · exact endsHex scanned plain
  | none =>
    obtain ⟨sameBroken, endsBroken⟩ := brokenCode_extend more ends
    rw [found] at same
    rw [escape_code_of_none same, escape_code_of_none found, sameBroken]
    exact ⟨rfl, endsBroken⟩

/-- An escape by a byte. -/
theorem escape_byte_extend (ends : EndsLine text) :
    escape ('x' :: (text ++ more)) = (escape ('x' :: text)).extend more ∧
      EndsLine (escape ('x' :: text)).rest := by
  obtain ⟨same, endsHex⟩ := hexChar?_extend more 2 ends
  cases found : hexChar? 2 text with
  | some scanned =>
    rw [found] at same
    rw [escape_byte_of_some same, escape_byte_of_some found]
    exact ⟨rfl, endsHex scanned found⟩
  | none =>
    obtain ⟨sameBroken, endsBroken⟩ := @upTo_extend text more Text.isHexDigit rfl 2 ends
    rw [found] at same
    rw [escape_byte_of_none same, escape_byte_of_none found, sameBroken]
    exact ⟨rfl, endsBroken⟩

theorem escape_extend (ends : EndsLine ('\\' :: text)) :
    escape (text ++ more) = (escape text).extend more ∧ EndsLine (escape text).rest := by
  have endsText := ends.tail (by decide)
  have same := lineBreak?_extend more endsText
  cases found : lineBreak? text with
  | some lineBreak =>
    rw [found, Option.map_some] at same
    rw [escape_of_joined same, escape_of_joined found]
    have endsBreak : EndsLine lineBreak.rest := endsLine_of_joined ends found
    exact ⟨rfl, endsBreak⟩
  | none =>
    rw [found, Option.map_none] at same
    obtain ⟨c, rest, rfl⟩ := endsText.exists_cons
    have notBreak : c ≠ '\n' := by
      rintro rfl
      contradiction
    have endsRest := endsText.tail notBreak
    rw [List.cons_append] at same ⊢
    by_cases isReturn : c = '\r'
    · subst isReturn
      rw [escape.eq_def, escape.eq_def, same, found]
      exact ⟨rfl, endsText⟩
    · by_cases isCode : c = 'u'
      · subst isCode
        exact escape_code_extend more endsRest
      · by_cases isByte : c = 'x'
        · subst isByte
          exact escape_byte_extend more endsRest
        · rw [escape_of_other same isReturn isCode isByte, escape_of_other found isReturn isCode isByte]
          by_cases octal : Text.isOctalDigit c = true
          · obtain ⟨sameDigits, endsDigits⟩ :=
              @upTo_extend (c :: rest) more Text.isOctalDigit rfl 3 endsText
            rw [List.cons_append] at sameDigits
            rw [if_pos octal, if_pos octal, sameDigits]
            exact ⟨rfl, endsDigits⟩
          · rw [if_neg octal, if_neg octal]
            exact ⟨rfl, endsRest⟩

theorem stringPiece?_extend (ends : EndsLine text) :
    stringPiece? (text ++ more) = (stringPiece? text).map (Scanned.extend more) ∧
      ∀ piece, stringPiece? text = some piece → EndsLine piece.rest := by
  obtain ⟨c, rest, rfl⟩ := ends.exists_cons
  rw [List.cons_append, stringPiece?, stringPiece?]
  by_cases backslash : c = '\\'
  · subst backslash
    obtain ⟨same, endsEscape⟩ := escape_extend more ends
    rw [if_pos rfl, if_pos rfl, same]
    refine ⟨rfl, fun piece found => ?_⟩
    obtain rfl := Option.some.inj found
    exact endsEscape
  · rw [if_neg backslash, if_neg backslash]
    by_cases stops : endsText c = true
    · rw [if_pos stops, if_pos stops]
      exact ⟨rfl, by simp⟩
    · have notBreak : c ≠ '\n' := by
        rintro rfl
        exact stops rfl
      obtain ⟨same, endsRest⟩ := @run_extend rest more (fun other => !endsText other) rfl
        (ends.tail notBreak)
      rw [if_neg stops, if_neg stops, same]
      refine ⟨rfl, fun piece found => ?_⟩
      obtain rfl := Option.some.inj found
      exact endsRest

theorem charPiece?_extend (ends : EndsLine text) :
    charPiece? (text ++ more) = (charPiece? text).map (Scanned.extend more) ∧
      ∀ piece, charPiece? text = some piece → EndsLine piece.rest := by
  obtain ⟨c, rest, rfl⟩ := ends.exists_cons
  rw [List.cons_append, charPiece?, charPiece?]
  by_cases backslash : c = '\\'
  · subst backslash
    obtain ⟨same, endsEscape⟩ := escape_extend more ends
    rw [if_pos rfl, if_pos rfl, same]
    refine ⟨rfl, fun piece found => ?_⟩
    obtain rfl := Option.some.inj found
    exact endsEscape
  · rw [if_neg backslash, if_neg backslash]
    by_cases stops : (c = '\'' || c = '\n') = true
    · rw [if_pos stops, if_pos stops]
      exact ⟨rfl, by simp⟩
    · have notBreak : c ≠ '\n' := by
        rintro rfl
        exact stops rfl
      rw [if_neg stops, if_neg stops]
      refine ⟨rfl, fun piece found => ?_⟩
      obtain rfl := Option.some.inj found
      exact ends.tail notBreak

theorem stringBody_of_none {input : List Char} (missing : stringPiece? input = none) :
    stringBody input = ⟨.nothing input, []⟩ := by
  rw [stringBody]
  split
  next => rfl
  next found =>
    rw [missing] at found
    contradiction

theorem stringBody_of_some {input : List Char} {piece : Scanned Piece}
    (found : stringPiece? input = some piece) :
    stringBody input = ⟨(stringBody piece.rest).toSplit.after piece.text,
      ⟨piece.text, piece.value⟩ :: (stringBody piece.rest).value⟩ := by
  rw [stringBody]
  split
  next missing =>
    rw [missing] at found
    contradiction
  next other otherFound =>
    obtain rfl := Option.some.inj (otherFound.symm.trans found)
    rfl

theorem stringBody_extend (ends : EndsLine text) :
    stringBody (text ++ more) = (stringBody text).extend more ∧ EndsLine (stringBody text).rest := by
  fun_induction stringBody text with
  | case1 text missing =>
    obtain ⟨same, _⟩ := stringPiece?_extend more ends
    rw [missing, Option.map_none] at same
    exact ⟨stringBody_of_none same, ends⟩
  | case2 text piece found rest inductionHypothesis =>
    obtain ⟨same, endsPiece⟩ := stringPiece?_extend more ends
    rw [found, Option.map_some] at same
    obtain ⟨sameRest, endsRest⟩ := inductionHypothesis (endsPiece piece found)
    refine ⟨?_, endsRest⟩
    rw [stringBody_of_some same]
    dsimp only [Scanned.extend] at sameRest ⊢
    rw [sameRest]
    rfl

theorem charBody_of_none {input : List Char} (missing : charPiece? input = none) :
    charBody input = ⟨.nothing input, []⟩ := by
  rw [charBody]
  split
  next => rfl
  next found =>
    rw [missing] at found
    contradiction

theorem charBody_of_some {input : List Char} {piece : Scanned Piece}
    (found : charPiece? input = some piece) :
    charBody input = ⟨(charBody piece.rest).toSplit.after piece.text,
      ⟨piece.text, piece.value⟩ :: (charBody piece.rest).value⟩ := by
  rw [charBody]
  split
  next missing =>
    rw [missing] at found
    contradiction
  next other otherFound =>
    obtain rfl := Option.some.inj (otherFound.symm.trans found)
    rfl

theorem charBody_extend (ends : EndsLine text) :
    charBody (text ++ more) = (charBody text).extend more ∧ EndsLine (charBody text).rest := by
  fun_induction charBody text with
  | case1 text missing =>
    obtain ⟨same, _⟩ := charPiece?_extend more ends
    rw [missing, Option.map_none] at same
    exact ⟨charBody_of_none same, ends⟩
  | case2 text piece found rest inductionHypothesis =>
    obtain ⟨same, endsPiece⟩ := charPiece?_extend more ends
    rw [found, Option.map_some] at same
    obtain ⟨sameRest, endsRest⟩ := inductionHypothesis (endsPiece piece found)
    refine ⟨?_, endsRest⟩
    rw [charBody_of_some same]
    dsimp only [Scanned.extend] at sameRest ⊢
    rw [sameRest]
    rfl

end Scan

end Offside
