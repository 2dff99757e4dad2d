import Offside.Proofs.Scan.Cut
import Offside.Proofs.Scan.Extend

/-!
Line breaks with and without a carriage return. Where a text has carriage returns before some of the
line feeds of another, a scanner finds the same in both. What it takes differs by those carriage
returns, and by one more at its end where it passes over blanks or text up to a line break.
-/

namespace Offside

/-! ## Texts -/

namespace Text

/-- The second text is the first one with carriage returns before some of its line feeds. The first
one has none. -/
inductive WithReturns : List Char → List Char → Prop
  | nil : WithReturns [] []
  | plain {c : Char} {left right : List Char} (noFeed : c ≠ '\n') (noReturn : c ≠ '\r')
    (rest : WithReturns left right) : WithReturns (c :: left) (c :: right)
  | feed {left right : List Char} (rest : WithReturns left right) :
    WithReturns ('\n' :: left) ('\n' :: right)
  | returned {left right : List Char} (rest : WithReturns left right) :
    WithReturns ('\n' :: left) ('\r' :: '\n' :: right)

/-- A line feed comes next. -/
def AtFeed (text : List Char) : Prop :=
  text.head? = some '\n'

namespace WithReturns

variable {left right left' right' : List Char}

theorem append (returns : WithReturns left right) (later : WithReturns left' right') :
    WithReturns (left ++ left') (right ++ right') := by
  induction returns with
  | nil => exact later
  | plain noFeed noReturn _ inductionHypothesis => exact .plain noFeed noReturn inductionHypothesis
  | feed _ inductionHypothesis => exact .feed inductionHypothesis
  | returned _ inductionHypothesis => exact .returned inductionHypothesis

/-- A test that no line break passes is passed by both or by neither. -/
theorem head?_any {test : Char → Bool} (feed : test '\n' = false) (carriage : test '\r' = false)
    (returns : WithReturns left right) : right.head?.any test = left.head?.any test := by
  cases returns with
  | nil => rfl
  | plain => rfl
  | feed => rfl
  | returned => exact carriage.trans feed.symm

theorem eq_nil_iff (returns : WithReturns left right) : right = [] ↔ left = [] := by
  cases returns with
  | nil => exact Iff.rfl
  | plain => exact iff_of_false (List.cons_ne_nil _ _) (List.cons_ne_nil _ _)
  | feed => exact iff_of_false (List.cons_ne_nil _ _) (List.cons_ne_nil _ _)
  | returned => exact iff_of_false (List.cons_ne_nil _ _) (List.cons_ne_nil _ _)

/-- The texts start with the same character if it is not part of a line break. -/
theorem head?_iff {c : Char} (returns : WithReturns left right) (noFeed : c ≠ '\n')
    (noReturn : c ≠ '\r') : right.head? = some c ↔ left.head? = some c := by
  cases returns with
  | nil => exact Iff.rfl
  | plain => exact Iff.rfl
  | feed => exact Iff.rfl
  | returned => simp [Ne.symm noFeed, Ne.symm noReturn]

theorem cons_inv {c : Char} (returns : WithReturns (c :: left) right) (noFeed : c ≠ '\n') :
    c ≠ '\r' ∧ ∃ others, right = c :: others ∧ WithReturns left others := by
  cases returns with
  | plain _ noReturn rest => exact ⟨noReturn, _, rfl, rest⟩
  | feed => exact absurd rfl noFeed
  | returned => exact absurd rfl noFeed

/-- Texts that start with a character that is no line feed. -/
theorem starts {c : Char} (returns : WithReturns left right) (first : left.head? = some c)
    (noFeed : c ≠ '\n') :
    ∃ others others', left = c :: others ∧ right = c :: others' ∧ WithReturns others others' := by
  obtain ⟨others, rfl⟩ := List.head?_eq_some_iff.mp first
  obtain ⟨_, others', rfl, later⟩ := returns.cons_inv noFeed
  exact ⟨others, others', rfl, rfl, later⟩

/-- Only line breaks differ. -/
theorem eq_of_noFeed (returns : WithReturns left right) (noFeed : '\n' ∉ left) : right = left := by
  induction returns with
  | nil => rfl
  | plain _ _ _ inductionHypothesis =>
    rw [inductionHypothesis fun member => noFeed (List.mem_cons_of_mem _ member)]
  | feed => exact absurd List.mem_cons_self noFeed
  | returned => exact absurd List.mem_cons_self noFeed

theorem single {c : Char} (noFeed : c ≠ '\n') (noReturn : c ≠ '\r') : WithReturns [c] [c] :=
  .plain noFeed noReturn .nil

/-- Behind a carriage return the line feed comes. -/
theorem return_inv (returns : WithReturns left ('\r' :: right)) :
    ∃ others others', left = '\n' :: others ∧ right = '\n' :: others' ∧ WithReturns others others' := by
  cases returns with
  | plain _ noReturn => exact absurd rfl noReturn
  | returned rest => exact ⟨_, _, rfl, rfl, rest⟩

end WithReturns

end Text

namespace Position

/-- Positions in one line and column of two texts. -/
structure Alike (first second : Position) : Prop where
  line : second.line = first.line
  column : second.column = first.column

variable {first second : Position}

theorem Alike.past (alike : Alike first second) (c : Char) : Alike (first.past c) (second.past c) := by
  obtain ⟨line, column⟩ := alike
  unfold Position.past
  split
  next => exact ⟨congrArg (· + 1) line, rfl⟩
  next => exact ⟨line, congrArg (· + 1) column⟩

theorem Alike.advance {left right : List Char} (alike : Alike first second)
    (returns : Text.WithReturns left right) : Alike (first.advance left) (second.advance right) := by
  induction returns generalizing first second with
  | nil => exact alike
  | plain _ _ _ inductionHypothesis => exact inductionHypothesis (alike.past _)
  | feed _ inductionHypothesis => exact inductionHypothesis (alike.past _)
  | returned _ inductionHypothesis =>
    exact inductionHypothesis ⟨congrArg (· + 1) alike.line, rfl⟩

end Position

namespace Scan

open Text (WithReturns AtFeed)

/-! ## Splits -/

/-- Splits of texts at the same place. -/
structure Split.Level (left right : Split) : Prop where
  text : WithReturns left.text right.text
  rest : WithReturns left.rest right.rest

/-- Splits of texts at the same place with no line break before it. -/
structure Split.Same (left right : Split) : Prop extends Split.Level left right where
  same : right.text = left.text

/-- Splits of texts at the same place, or in front of a line feed and behind the carriage return that
stands before it. -/
inductive Split.Passes (left : Split) : Split → Prop
  | level {right : Split} (level : left.Level right) : Passes left right
  | carriage {text rest : List Char} (level : left.Level ⟨text, '\r' :: rest⟩) :
    Passes left ⟨text ++ ['\r'], rest⟩

structure Scanned.Same {α : Type} (left right : Scanned α) : Prop extends
    Split.Same left.toSplit right.toSplit where
  value : right.value = left.value

namespace Split

variable {left right left' right' : Split}

theorem Level.after {text text' : List Char} (level : left.Level right)
    (before : WithReturns text text') : (left.after text).Level (right.after text') :=
  ⟨before.append level.text, level.rest⟩

theorem Same.after {text : List Char} (same : left.Same right) (before : WithReturns text text) :
    (left.after text).Same (right.after text) :=
  ⟨same.toLevel.after before, congrArg (text ++ ·) same.same⟩

theorem Same.behind (same : left.Same right) (earlier : left'.Same right') :
    (left.after left'.text).Same (right.after right'.text) := by
  have before := earlier.text
  rw [earlier.same] at before ⊢
  exact same.after before

theorem Passes.after {text text' : List Char} (passes : left.Passes right)
    (before : WithReturns text text') : (left.after text).Passes (right.after text') := by
  cases passes with
  | level level => exact .level (level.after before)
  | @carriage inner rest level =>
    have taken := @Passes.carriage _ (text' ++ inner) rest (level.after before)
    rw [List.append_assoc] at taken
    exact taken

theorem level_nothing {input input' : List Char} (returns : WithReturns input input') :
    (nothing input).Level (nothing input') :=
  ⟨.nil, returns⟩

theorem same_nothing {input input' : List Char} (returns : WithReturns input input') :
    (nothing input).Same (nothing input') :=
  ⟨level_nothing returns, rfl⟩

/-- Wherever the carriage return is, the rests correspond. -/
theorem Passes.rest (passes : left.Passes right) : WithReturns left.rest right.rest := by
  cases passes with
  | level level => exact level.rest
  | carriage level =>
    obtain ⟨others, others', feed, rfl, rest⟩ := level.rest.return_inv
    exact feed ▸ .feed rest

theorem Passes.level_of_calm (passes : left.Passes right) (calm : ¬ AtFeed left.rest) :
    left.Level right := by
  cases passes with
  | level level => exact level
  | carriage level =>
    obtain ⟨_, _, feed, _⟩ := level.rest.return_inv
    exact absurd (congrArg List.head? feed) calm

end Split

/-! ## Options -/

theorem rel_map {α β γ δ : Type} {relation : α → β → Prop} {image : γ → δ → Prop} {f : α → γ}
    {g : β → δ} {left : Option α} {right : Option β} (related : Option.Rel relation left right)
    (maps : ∀ first second, relation first second → image (f first) (g second)) :
    Option.Rel image (left.map f) (right.map g) := by
  cases related with
  | none => exact .none
  | some holds => exact .some (maps _ _ holds)

theorem rel_or {α β : Type} {relation : α → β → Prop} {left left' : Option α}
    {right right' : Option β} (related : Option.Rel relation left right)
    (otherwise : Option.Rel relation left' right') :
    Option.Rel relation (left.or left') (right.or right') := by
  cases related with
  | none => exact otherwise
  | some holds => exact .some holds

/-! ## Runs -/

variable {left right : List Char} {test : Char → Bool}

theorem run_cons_of_pos {c : Char} (passes : test c = true) (input : List Char) :
    run test (c :: input) = (run test input).after [c] := by
  rw [run, List.takeWhile_cons_of_pos passes, List.dropWhile_cons_of_pos passes]
  rfl

theorem run_cons_of_neg {c : Char} (fails : test c = false) (input : List Char) :
    run test (c :: input) = .nothing (c :: input) := by
  rw [run, List.takeWhile_cons_of_neg (by simp [fails]), List.dropWhile_cons_of_neg (by simp [fails])]
  rfl

/-- A run up to a line break is the same. -/
theorem run_same (feed : test '\n' = false) (carriage : test '\r' = false)
    (returns : WithReturns left right) : (run test left).Same (run test right) := by
  induction returns with
  | nil => exact Split.same_nothing .nil
  | @plain c _ _ noFeed noReturn rest inductionHypothesis =>
    cases passes : test c with
    | true =>
      rw [run_cons_of_pos passes, run_cons_of_pos passes]
      exact inductionHypothesis.after (.single noFeed noReturn)
    | false =>
      rw [run_cons_of_neg passes, run_cons_of_neg passes]
      exact Split.same_nothing (.plain noFeed noReturn rest)
  | feed rest =>
    rw [run_cons_of_neg feed, run_cons_of_neg feed]
    exact Split.same_nothing (.feed rest)
  | returned rest =>
    rw [run_cons_of_neg feed, run_cons_of_neg carriage]
    exact Split.same_nothing (.returned rest)

/-- A run up to a line feed takes the carriage return before it, if it takes carriage returns. -/
theorem run_passes (feed : test '\n' = false) (returns : WithReturns left right) :
    (run test left).Passes (run test right) := by
  induction returns with
  | nil => exact .level (Split.level_nothing .nil)
  | @plain c _ _ noFeed noReturn rest inductionHypothesis =>
    cases passes : test c with
    | true =>
      rw [run_cons_of_pos passes, run_cons_of_pos passes]
      exact inductionHypothesis.after (.single noFeed noReturn)
    | false =>
      rw [run_cons_of_neg passes, run_cons_of_neg passes]
      exact .level (Split.level_nothing (.plain noFeed noReturn rest))
  | feed rest =>
    rw [run_cons_of_neg feed, run_cons_of_neg feed]
    exact .level (Split.level_nothing (.feed rest))
  | returned rest =>
    cases carriage : test '\r' with
    | true =>
      rw [run_cons_of_neg feed, run_cons_of_pos carriage, run_cons_of_neg feed]
      exact .carriage (Split.level_nothing (.returned rest))
    | false =>
      rw [run_cons_of_neg feed, run_cons_of_neg carriage]
      exact .level (Split.level_nothing (.returned rest))

theorem upTo_same (feed : test '\n' = false) (carriage : test '\r' = false) (count : Nat)
    (returns : WithReturns left right) : (upTo test count left).Same (upTo test count right) := by
  induction count generalizing left right with
  | zero => exact Split.same_nothing returns
  | succ count inductionHypothesis =>
    cases returns with
    | nil => exact Split.same_nothing .nil
    | @plain c left right noFeed noReturn rest =>
      rw [upTo, upTo]
      split
      next => exact (inductionHypothesis rest).after (.single noFeed noReturn)
      next => exact Split.same_nothing (.plain noFeed noReturn rest)
    | feed rest =>
      rw [upTo, upTo, if_neg (by simp [feed]), if_neg (by simp [feed])]
      exact Split.same_nothing (.feed rest)
    | returned rest =>
      rw [upTo, upTo, if_neg (by simp [feed]), if_neg (by simp [carriage])]
      exact Split.same_nothing (.returned rest)

/-! ## Words, symbols and numbers -/

theorem name?_same (returns : WithReturns left right) :
    Option.Rel Split.Same (name? left) (name? right) := by
  cases returns with
  | nil => exact .none
  | plain noFeed noReturn rest =>
    rw [name?, name?]
    split
    next => exact .some ((run_same (by decide) (by decide) rest).after (.single noFeed noReturn))
    next => exact .none
  | feed => exact .none
  | returned => exact .none

theorem word?_same (returns : WithReturns left right) :
    Option.Rel Scanned.Same (word? left) (word? right) :=
  rel_map (name?_same returns) fun _ _ same =>
    ⟨same, congrArg (fun text => Kind.ofWord (String.ofList text)) same.same⟩

theorem carriageReturn_not_mem_characters (symbol : Symbol) : '\r' ∉ symbol.characters := by
  cases symbol <;> decide

theorem strip?_returns {characters : List Char} (noFeed : '\n' ∉ characters)
    (noReturn : '\r' ∉ characters) (returns : WithReturns left right) :
    Option.Rel WithReturns (strip? characters left) (strip? characters right) := by
  induction characters generalizing left right with
  | nil => exact .some returns
  | cons c characters inductionHypothesis =>
    rw [List.mem_cons, not_or] at noFeed noReturn
    cases returns with
    | nil => exact .none
    | plain _ _ rest =>
      rw [strip?, strip?]
      split
      next => exact inductionHypothesis noFeed.2 noReturn.2 rest
      next => exact .none
    | feed rest =>
      rw [strip?, strip?, if_neg (Ne.symm noFeed.1), if_neg (Ne.symm noFeed.1)]
      exact .none
    | returned rest =>
      rw [strip?, strip?, if_neg (Ne.symm noFeed.1), if_neg (Ne.symm noReturn.1)]
      exact .none

theorem returns_self {text : List Char} (noFeed : '\n' ∉ text) (noReturn : '\r' ∉ text) :
    WithReturns text text := by
  induction text with
  | nil => exact .nil
  | cons c text inductionHypothesis =>
    rw [List.mem_cons, not_or] at noFeed noReturn
    exact .plain (Ne.symm noFeed.1) (Ne.symm noReturn.1) (inductionHypothesis noFeed.2 noReturn.2)

theorem symbol?_same (returns : WithReturns left right) :
    Option.Rel Scanned.Same (symbol? left) (symbol? right) := by
  unfold symbol?
  generalize Symbol.all = symbols
  induction symbols with
  | nil => exact .none
  | cons symbol symbols inductionHypothesis =>
    have noFeed := lineFeed_not_mem_characters symbol
    have noReturn := carriageReturn_not_mem_characters symbol
    have related := strip?_returns noFeed noReturn returns
    rw [List.findSome?_cons, List.findSome?_cons]
    generalize strip? symbol.characters left = stripped at related
    generalize strip? symbol.characters right = stripped' at related
    cases related with
    | none => exact inductionHypothesis
    | some rest => exact .some ⟨⟨⟨returns_self noFeed noReturn, rest⟩, rfl⟩, rfl⟩

theorem digitRun?_same (returns : WithReturns left right) :
    Option.Rel Split.Same (digitRun? left) (digitRun? right) := by
  cases returns with
  | nil => exact .none
  | plain noFeed noReturn rest =>
    rw [digitRun?, digitRun?]
    split
    next => exact .some ((run_same rfl rfl rest).after (.single noFeed noReturn))
    next => exact .none
  | feed => exact .none
  | returned => exact .none

theorem fraction?_same (returns : WithReturns left right) :
    Option.Rel Scanned.Same (fraction? left) (fraction? right) := by
  cases returns with
  | nil => exact .none
  | @plain c left right noFeed noReturn rest =>
    by_cases point : c = '.'
    · subst point
      exact rel_map (digitRun?_same rest) fun _ _ same =>
        ⟨same.after (.single noFeed noReturn), same.same⟩
    · rw [fraction?_eq_none point, fraction?_eq_none point]
      exact .none
  | feed => exact .none
  | returned => exact .none

theorem suffix?_same (returns : WithReturns left right) :
    Option.Rel Scanned.Same (suffix? left) (suffix? right) := by
  cases returns with
  | nil => exact .none
  | @plain c left right noFeed noReturn rest =>
    rw [suffix?, suffix?, rest.head?_any (by decide) (by decide)]
    split
    next => exact .none
    next =>
      cases FloatSuffix.ofChar? c with
      | none => exact .none
      | some suffix => exact .some ⟨⟨⟨.single noFeed noReturn, rest⟩, rfl⟩, rfl⟩
  | feed rest =>
    have none : FloatSuffix.ofChar? '\n' = none := by decide
    rw [suffix?, suffix?, none, Option.map_none, Option.map_none, ite_self, ite_self]
    exact .none
  | returned rest =>
    have none : FloatSuffix.ofChar? '\n' = none := by decide
    have none' : FloatSuffix.ofChar? '\r' = Option.none := by decide
    rw [suffix?, suffix?, none, none', Option.map_none, Option.map_none, ite_self, ite_self]
    exact .none

theorem sign?_same (returns : WithReturns left right) :
    Option.Rel Scanned.Same (sign? left) (sign? right) := by
  cases returns with
  | nil => exact .none
  | @plain c left right noFeed noReturn rest =>
    cases rest with
    | nil => exact .none
    | plain noFeed' noReturn' others =>
      rw [sign?, sign?]
      split
      next => exact .some ⟨⟨⟨.single noFeed noReturn, .plain noFeed' noReturn' others⟩, rfl⟩, rfl⟩
      next => exact .none
    | feed =>
      have noDigit : Text.isDigit '\n' = false := rfl
      simp only [sign?, noDigit, Bool.and_false]
      exact .none
    | returned =>
      have noDigit : Text.isDigit '\n' = false := rfl
      have noDigit' : Text.isDigit '\r' = false := rfl
      simp only [sign?, noDigit, noDigit', Bool.and_false]
      exact .none
  | feed rest =>
    rw [sign?_eq_none (by decide), sign?_eq_none (by decide)]
    exact .none
  | returned rest =>
    rw [sign?_eq_none (by decide), sign?_eq_none (by decide)]
    exact .none

theorem finish_same (negative : Bool) (whole : List Char) (fraction : Option (List Char))
    {split split' : Split} (same : split.Same split') :
    (finish negative whole fraction split).Same (finish negative whole fraction split') := by
  have related := suffix?_same same.rest
  unfold finish
  generalize suffix? split.rest = found at related ⊢
  generalize suffix? split'.rest = found' at related ⊢
  cases related with
  | none => exact ⟨same, rfl⟩
  | some suffix =>
    dsimp only
    rw [suffix.value]
    exact ⟨suffix.toSame.behind same, rfl⟩

theorem magnitude?_same (operand negative : Bool) (returns : WithReturns left right) :
    Option.Rel Scanned.Same (magnitude? operand negative left)
      (magnitude? operand negative right) := by
  have digits := digitRun?_same returns
  rw [magnitude?_eq, magnitude?_eq]
  generalize digitRun? left = whole at digits ⊢
  generalize digitRun? right = whole' at digits ⊢
  cases digits with
  | none =>
    cases operand with
    | false => exact .none
    | true =>
      refine rel_map (fraction?_same returns) fun fraction fraction' same => ?_
      rw [same.value]
      exact finish_same _ _ _ same.toSame
  | @some whole whole' same =>
    have places := fraction?_same same.rest
    dsimp only
    rw [same.same]
    generalize fraction? whole.rest = fraction at places ⊢
    generalize fraction? whole'.rest = fraction' at places ⊢
    cases places with
    | none => exact .some (finish_same _ _ _ same)
    | some fractions =>
      have joined := fractions.toSame.behind same
      rw [same.same] at joined
      dsimp only
      rw [fractions.value]
      exact .some (finish_same _ _ _ joined)

theorem numeral?_same (operand : Bool) (returns : WithReturns left right) :
    Option.Rel Scanned.Same (numeral? operand left) (numeral? operand right) := by
  unfold numeral?
  cases operand with
  | false => exact magnitude?_same false false returns
  | true =>
    have signs := sign?_same returns
    rw [if_pos rfl, if_pos rfl]
    generalize sign? left = sign at signs ⊢
    generalize sign? right = sign' at signs ⊢
    cases signs with
    | none => exact magnitude?_same true false returns
    | @some sign sign' same =>
      dsimp only
      rw [same.value]
      exact rel_map (magnitude?_same true sign.value same.rest) fun _ _ number =>
        ⟨number.toSame.behind same.toSame, number.value⟩

/-! ## Gaps -/

theorem lineBreak?_level (returns : WithReturns left right) :
    Option.Rel Split.Level (lineBreak? left) (lineBreak? right) := by
  cases returns with
  | nil => exact .none
  | plain noFeed noReturn rest =>
    rw [lineBreak?_eq_none _ noFeed noReturn, lineBreak?_eq_none _ noFeed noReturn]
    exact .none
  | feed rest => exact .some ⟨.feed .nil, rest⟩
  | returned rest => exact .some ⟨.returned .nil, rest⟩

theorem calm_of_lineBreak? (missing : lineBreak? left = none) : ¬ AtFeed left := by
  intro feed
  obtain ⟨rest, rfl⟩ := List.head?_eq_some_iff.mp feed
  contradiction

theorem blockEnd?_of_other {c : Char} {rest : List Char}
    (open' : ¬ (c = '*' ∧ rest.head? = some '/')) :
    blockEnd? (c :: rest) = (blockEnd? rest).map (Split.after [c]) := by
  rw [blockEnd?]
  rintro others rfl rfl
  exact open' ⟨rfl, rfl⟩

theorem blockEnd?_level (returns : WithReturns left right) :
    Option.Rel Split.Level (blockEnd? left) (blockEnd? right) := by
  have noStar {c : Char} (other : c ≠ '*') {rest : List Char} :
      blockEnd? (c :: rest) = (blockEnd? rest).map (Split.after [c]) :=
    blockEnd?_of_other fun closes => other closes.1
  induction returns with
  | nil => exact .none
  | @plain c left right noFeed noReturn rest inductionHypothesis =>
    by_cases closes : c = '*' ∧ left.head? = some '/'
    · obtain ⟨rfl, closes⟩ := closes
      obtain ⟨others, others', rfl, rfl, later⟩ := rest.starts closes (by decide)
      have mark : WithReturns ['*', '/'] ['*', '/'] := returns_self (by decide) (by decide)
      exact .some ⟨mark, later⟩
    · have closes' : ¬ (c = '*' ∧ right.head? = some '/') := by
        rw [rest.head?_iff (by decide) (by decide)]
        exact closes
      rw [blockEnd?_of_other closes, blockEnd?_of_other closes']
      exact rel_map inductionHypothesis fun _ _ level => level.after (.single noFeed noReturn)
  | feed _ inductionHypothesis =>
    rw [noStar (by decide), noStar (by decide)]
    exact rel_map inductionHypothesis fun _ _ level => level.after (.feed .nil)
  | returned _ inductionHypothesis =>
    rw [noStar (by decide), noStar (by decide), noStar (by decide), Option.map_map]
    exact rel_map inductionHypothesis fun _ _ level => level.after (.returned .nil)

theorem gap?_passes (returns : WithReturns left right) (calm : ¬ AtFeed left) :
    Option.Rel Split.Passes (gap? left) (gap? right) := by
  cases returns with
  | nil => exact .none
  | feed => exact absurd rfl calm
  | returned => exact absurd rfl calm
  | @plain c left right noFeed noReturn rest =>
    by_cases joins : c = '\\'
    · subst joins
      exact rel_map (lineBreak?_level rest) fun _ _ level => .level (level.after (.single noFeed noReturn))
    · have other (noComment : c = '/' → left.head? ≠ some '/' ∧ left.head? ≠ some '*') :
          Option.Rel Split.Passes (gap? (c :: left)) (gap? (c :: right)) := by
        have noComment' : c = '/' → right.head? ≠ some '/' ∧ right.head? ≠ some '*' := by
          rw [Ne, Ne, rest.head?_iff (by decide) (by decide), rest.head?_iff (by decide) (by decide)]
          exact noComment
        rw [gap?_of_other joins noComment, gap?_of_other joins noComment']
        split
        next => exact .some (.level ⟨.single noFeed noReturn, rest⟩)
        next => exact .none
      by_cases slash : c = '/'
      · subst slash
        by_cases line : left.head? = some '/'
        · obtain ⟨others, others', rfl, rfl, later⟩ := rest.starts line (by decide)
          exact .some ((run_passes rfl later).after (returns_self (by decide) (by decide)))
        · by_cases block : left.head? = some '*'
          · obtain ⟨others, others', rfl, rfl, later⟩ := rest.starts block (by decide)
            exact rel_map (blockEnd?_level later) fun _ _ level =>
              .level (level.after (returns_self (by decide) (by decide)))
          · exact other fun _ => ⟨line, block⟩
      · exact other fun isSlash => absurd isSlash slash

theorem trivia_feed (rest : List Char) : trivia ('\n' :: rest) = .nothing ('\n' :: rest) :=
  trivia_of_none rfl

/-- Behind a carriage return that was passed over with something, nothing more is. -/
theorem Split.Passes.trivia {gap gap' : Split} (passes : gap.Passes gap')
    (later : (trivia gap.rest).Passes (trivia gap'.rest)) :
    ((Scan.trivia gap.rest).after gap.text).Passes ((Scan.trivia gap'.rest).after gap'.text) := by
  cases passes with
  | level level => exact later.after level.text
  | @carriage text rest level =>
    obtain ⟨others, others', feed, rfl, _⟩ := level.rest.return_inv
    have taken := Passes.carriage level
    have whole {split : Split} : (nothing split.rest).after split.text = split := by
      rw [nothing, Split.after, List.append_nil]
    rw [feed, trivia_feed, trivia_feed, ← feed, whole, Split.after, nothing, List.append_nil]
    exact taken

theorem trivia_passes (returns : WithReturns left right) : (trivia left).Passes (trivia right) := by
  fun_induction trivia left generalizing right with
  | case1 left missing =>
    cases returns with
    | nil =>
      rw [trivia_nil]
      exact .level (Split.level_nothing .nil)
    | plain noFeed noReturn rest =>
      have returns := WithReturns.plain noFeed noReturn rest
      have gaps := gap?_passes returns fun feed => noFeed (Option.some.inj feed)
      rw [missing] at gaps
      generalize found : gap? _ = gap' at gaps
      cases gaps
      rw [trivia_of_none found]
      exact .level (Split.level_nothing returns)
    | feed rest =>
      rw [trivia_feed]
      exact .level (Split.level_nothing (.feed rest))
    | @returned _ right rest =>
      have carriage : gap? ('\r' :: '\n' :: right) = some ⟨['\r'], '\n' :: right⟩ := rfl
      rw [trivia_of_some carriage, trivia_feed]
      exact .carriage (Split.level_nothing (.returned rest))
  | case2 left gap found inductionHypothesis =>
    have calm : ¬ AtFeed left := by
      intro feed
      obtain ⟨rest, rfl⟩ := List.head?_eq_some_iff.mp feed
      contradiction
    have gaps := gap?_passes returns calm
    rw [found] at gaps
    generalize found' : gap? right = gap' at gaps
    cases gaps with
    | some passes =>
      rw [trivia_of_some found']
      exact passes.trivia (inductionHypothesis passes.rest)

/-- The line break behind a gap is one in both texts, with the carriage returns before it. -/
theorem Split.Passes.lineBreak? {gap gap' : Split} (passes : gap.Passes gap') :
    Option.Rel (fun lineBreak lineBreak' =>
        (lineBreak.after gap.text).Level (lineBreak'.after gap'.text))
      (Scan.lineBreak? gap.rest) (Scan.lineBreak? gap'.rest) := by
  cases passes with
  | @level right level =>
    have breaks := lineBreak?_level level.rest
    generalize Scan.lineBreak? gap.rest = lineBreak at breaks ⊢
    generalize Scan.lineBreak? gap'.rest = lineBreak' at breaks ⊢
    cases breaks with
    | none => exact .none
    | some breaks => exact .some (breaks.after level.text)
  | @carriage text rest level =>
    obtain ⟨others, others', feed, rfl, rest⟩ := level.rest.return_inv
    rw [feed]
    refine .some ⟨?_, rest⟩
    rw [Split.after, Split.after, List.append_assoc]
    exact level.text.append (.returned .nil)

theorem wrapped_level (returns : WithReturns left right) : (wrapped left).Level (wrapped right) := by
  fun_induction wrapped left generalizing right with
  | @case1 left gap missing =>
    have passes := trivia_passes returns
    have breaks := passes.lineBreak?
    rw [missing] at breaks
    generalize found : lineBreak? (trivia right).rest = lineBreak' at breaks
    cases breaks
    rw [wrapped_of_none found]
    exact passes.level_of_calm (calm_of_lineBreak? missing)
  | @case2 left gap lineBreak found inductionHypothesis =>
    have breaks := (trivia_passes returns).lineBreak?
    rw [found] at breaks
    generalize found' : lineBreak? (trivia right).rest = lineBreak' at breaks
    cases breaks with
    | some level =>
      rw [wrapped_of_some found']
      exact (inductionHypothesis level.rest).after level.text

/-- Inside of brackets no line feed is left in front of a token. -/
theorem calm_wrapped (input : List Char) : ¬ AtFeed (wrapped input).rest := by
  fun_induction wrapped input with
  | case1 input gap missing => exact calm_of_lineBreak? missing
  | case2 input gap lineBreak found inductionHypothesis => exact inductionHypothesis

theorem leading_passes (returns : WithReturns left right) : (leading left).Passes (leading right) :=
  run_passes rfl returns

/-- What stands before the code of a line, or before the end of a line without code. -/
theorem line_passes (returns : WithReturns left right) :
    ((trivia (leading left).rest).after (leading left).text).Passes
      ((trivia (leading right).rest).after (leading right).text) :=
  (leading_passes returns).trivia (trivia_passes (leading_passes returns).rest)

theorem blankLines_level (returns : WithReturns left right) :
    (blankLines left).Level (blankLines right) := by
  fun_induction blankLines left generalizing right with
  | @case1 left lead gap nothing =>
    have nothing' : (trivia (leading right).rest).rest = [] :=
      (line_passes returns).rest.eq_nil_iff.mpr nothing
    rw [blankLines_of_nil nothing']
    exact ⟨returns, .nil⟩
  | @case2 left lead gap something missing =>
    have something' : (trivia (leading right).rest).rest ≠ [] :=
      (not_congr (line_passes returns).rest.eq_nil_iff).mpr something
    have breaks := (line_passes returns).lineBreak?
    rw [show lineBreak? (gap.after lead.text).rest = none from missing] at breaks
    generalize found : lineBreak? _ = lineBreak' at breaks
    cases breaks
    rw [blankLines_of_none something' found]
    exact Split.level_nothing returns
  | @case3 left lead gap something lineBreak found inductionHypothesis =>
    have breaks := (line_passes returns).lineBreak?
    rw [show lineBreak? (gap.after lead.text).rest = some lineBreak from found] at breaks
    generalize found' : lineBreak? _ = lineBreak' at breaks
    cases breaks with
    | some level =>
      rw [blankLines_of_some found']
      exact (inductionHypothesis level.rest).after level.text

end Scan

end Offside
