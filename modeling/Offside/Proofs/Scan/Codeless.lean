import Offside.Proofs.Scan.Extend

/-!
Lines without code. A line that holds only blanks, closed block comments and at its end a line
comment is passed over as a whole, and so are any number of them, whatever comes behind.
-/

namespace Offside

open Scan

namespace Text

/-- Blanks and closed block comments, in any order. -/
inductive Gaps : List Char → Prop
  | nil : Gaps []
  | blank {c : Char} {rest : List Char} (isBlank : isBlank c = true) (more : Gaps rest) :
    Gaps (c :: rest)
  | comment {body rest : List Char} (atFirst : ¬ ['*', '/'] <:+: body ++ ['*'])
    (more : Gaps rest) : Gaps ('/' :: '*' :: (body ++ '*' :: '/' :: rest))

/-- What may stand at the end of a line: nothing, or a comment up to there. -/
inductive Remark : List Char → Prop
  | nothing : Remark []
  | comment {body : List Char} (inLine : '\n' ∉ body) : Remark ('/' :: '/' :: body)

/-- Lines without code, each of them closed by a line feed. -/
inductive Codeless : List Char → Prop
  | nil : Codeless []
  | line {gaps remark more : List Char} (isGaps : Gaps gaps) (isRemark : Remark remark)
    (later : Codeless more) : Codeless (gaps ++ (remark ++ '\n' :: more))

/-- The last line is closed, unless there is none. -/
theorem Codeless.closed {text : List Char} (codeless : Codeless text) :
    text = [] ∨ ∃ line, text = line ++ ['\n'] := by
  induction codeless with
  | nil => exact Or.inl rfl
  | @line gaps remark more _ _ _ inductionHypothesis =>
    rcases inductionHypothesis with rfl | ⟨line, rfl⟩
    · exact Or.inr ⟨gaps ++ remark, (List.append_assoc _ _ _).symm⟩
    · refine Or.inr ⟨gaps ++ (remark ++ '\n' :: line), ?_⟩
      rw [List.append_assoc, List.append_assoc]
      rfl

end Text

open Text

namespace Scan

/-- A block comment is closed by the first mark that closes one. -/
theorem blockEnd?_of_body {body : List Char} (atFirst : ¬ ['*', '/'] <:+: body ++ ['*'])
    (rest : List Char) :
    blockEnd? (body ++ '*' :: '/' :: rest) = some ⟨body ++ ['*', '/'], rest⟩ := by
  induction body with
  | nil => rfl
  | cons c body inductionHypothesis =>
    have later : ¬ ['*', '/'] <:+: body ++ ['*'] :=
      fun inside => atFirst (inside.trans (List.infix_cons List.infix_rfl))
    have notClosed : ∀ others, c = '*' → body ++ '*' :: '/' :: rest ≠ '/' :: others := by
      rintro others rfl same
      cases body with
      | nil => exact absurd (List.cons.inj same).1 (by decide)
      | cons next body =>
        obtain rfl := (List.cons.inj same).1
        exact atFirst (List.infix_iff_prefix_suffix.mpr ⟨_, ⟨body ++ ['*'], rfl⟩, List.suffix_rfl⟩)
    rw [List.cons_append, blockEnd?, inductionHypothesis later]
    · rfl
    · exact notClosed

theorem gap?_of_blank {c : Char} (isBlank : isBlank c = true) (rest : List Char) :
    gap? (c :: rest) = some ⟨[c], rest⟩ := by
  have noJoin : c ≠ '\\' := by
    rintro rfl
    contradiction
  have noComment : c = '/' → rest.head? ≠ some '/' ∧ rest.head? ≠ some '*' := by
    rintro rfl
    contradiction
  rw [gap?_of_other noJoin noComment, if_pos isBlank]

theorem trivia_of_gaps {gaps : List Char} (isGaps : Gaps gaps) (rest : List Char) :
    trivia (gaps ++ rest) = (trivia rest).after gaps := by
  induction isGaps with
  | nil => rfl
  | blank isBlank _ inductionHypothesis =>
    rw [List.cons_append, trivia_of_some (gap?_of_blank isBlank _), inductionHypothesis]
    rfl
  | @comment body more atFirst _ inductionHypothesis =>
    have found : gap? ('/' :: '*' :: (body ++ '*' :: '/' :: (more ++ rest))) =
        some ⟨'/' :: '*' :: (body ++ ['*', '/']), more ++ rest⟩ := by
      rw [gap?, blockEnd?_of_body atFirst]
      rfl
    have whole : '/' :: '*' :: (body ++ '*' :: '/' :: more) ++ rest =
        '/' :: '*' :: (body ++ '*' :: '/' :: (more ++ rest)) := by
      simp only [List.cons_append, List.append_assoc]
    rw [whole, trivia_of_some found, inductionHypothesis]
    simp only [Split.after, List.cons_append, List.append_assoc, List.nil_append]

theorem trivia_of_remark {remark : List Char} (isRemark : Remark remark) (rest : List Char) :
    trivia (remark ++ '\n' :: rest) = ⟨remark, '\n' :: rest⟩ := by
  have atBreak : trivia ('\n' :: rest) = .nothing ('\n' :: rest) := trivia_of_none rfl
  cases isRemark with
  | nothing => exact atBreak
  | @comment body inLine =>
    have stops : run (· ≠ '\n') (body ++ '\n' :: rest) = ⟨body, '\n' :: rest⟩ := by
      refine run_append (fun c member => decide_eq_true ?_) rfl
      rintro rfl
      exact inLine member
    have found : gap? ('/' :: '/' :: (body ++ '\n' :: rest)) =
        some ⟨'/' :: '/' :: body, '\n' :: rest⟩ := by
      rw [gap?, stops]
      rfl
    rw [List.cons_append, List.cons_append, trivia_of_some found, atBreak]
    rw [Split.after, Split.nothing, List.append_nil]

/-- The blanks that a line starts with are a part of what stands between tokens. -/
theorem trivia_leading (input : List Char) :
    trivia input = (trivia (leading input).rest).after (leading input).text := by
  induction input with
  | nil => rfl
  | cons c input inductionHypothesis =>
    unfold leading run at inductionHypothesis ⊢
    rw [List.takeWhile_cons, List.dropWhile_cons]
    cases isBlank : isBlank c with
    | true =>
      rw [trivia_of_some (gap?_of_blank isBlank input), inductionHypothesis]
      rfl
    | false => rfl

/-- Lines without code are passed over together with those behind them. -/
theorem blankLines_of_codeless {text : List Char} (codeless : Codeless text) (rest : List Char) :
    blankLines (text ++ rest) = (blankLines rest).after text := by
  induction codeless with
  | nil => rfl
  | @line gaps remark more isGaps isRemark _ inductionHypothesis =>
    have whole : gaps ++ (remark ++ '\n' :: more) ++ rest =
        gaps ++ (remark ++ '\n' :: (more ++ rest)) := by
      simp only [List.append_assoc, List.cons_append]
    have between := trivia_leading (gaps ++ (remark ++ '\n' :: (more ++ rest)))
    rw [trivia_of_gaps isGaps, trivia_of_remark isRemark] at between
    obtain ⟨text, behind⟩ := Split.mk.inj between
    have found : lineBreak?
        (trivia (leading (gaps ++ (remark ++ '\n' :: (more ++ rest)))).rest).rest =
          some ⟨['\n'], more ++ rest⟩ :=
      congrArg lineBreak? behind.symm
    rw [whole, blankLines_of_some found, ← text, inductionHypothesis]
    simp only [Split.after, List.append_assoc, List.cons_append, List.nil_append]

end Scan

end Offside
