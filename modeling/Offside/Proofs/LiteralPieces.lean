import Offside.Proofs.Lexer.Tiling

/-!
Literals that are not closed. The pieces of a string or a character literal are taken up to a place
where there is none, and the lexer gives the literal up only if that place is at the end of a line or
of the text. A string that is interrupted by code is given up where the text ends in that code.
-/

namespace Offside

open LexStream

/-- An item that gives up a string or a character literal does so at the end of a line or of the
text. -/
def GivesUpAtBreak (origin : Place) (item : LexItem) : Prop :=
  ∀ error construct, item = .error error → error.fault = .unterminated construct →
    construct ≠ .blockComment →
    ∃ rest, origin.Leads ⟨error.span.last, rest⟩ ∧ Scan.AtStop ['\n'] rest

theorem givesUpAtBreak_token (origin : Place) (token : Token) :
    GivesUpAtBreak origin (.token token) :=
  fun _ _ isError => LexItem.noConfusion isError

/-- Items behind which more are to come give up nothing. -/
theorem givesUpAtBreak_of_endless {origin : Place} {items : List LexItem} (endless : Endless items) :
    ∀ item ∈ items, GivesUpAtBreak origin item := by
  rintro _ member error construct rfl isFault _
  have harmless : error.isFatal = false := endless _ member
  rw [LexError.isFatal, isFault] at harmless
  exact Bool.noConfusion harmless

namespace LexState

variable {origin : Place} {state middle line : LexState} {step : LexStep}

theorem givesUpAtBreak_fails {construct : Unterminated} {span : Span}
    (located : Located origin state) (fails : Fails state middle construct span) :
    ∀ item ∈ (middle.fail construct span).1, GivesUpAtBreak origin item := by
  intro item member
  rw [List.mem_singleton.mp member]
  intro error other isError isFault notComment
  obtain rfl := LexItem.error.inj isError
  cases fails with
  | string _ stops => exact ⟨state.rest, located.leads, stops⟩
  | @character rest found unclosed =>
    have quote : Located origin (state.take ⟨['\''], rest⟩) := located.take found.symm
    have body := quote.take (Scan.of_charBody rest)
    exact ⟨_, body.leads, (Scan.atStop_charBody rest).lineFeed_of_unclosed unclosed⟩
  | comment => exact absurd (LexFault.unterminated.inj isFault).symm notComment

theorem givesUpAtBreak_finish (closed : state.openString? = none) :
    ∀ item ∈ state.finish.1, GivesUpAtBreak origin item := by
  unfold finish
  rw [closed]
  intro item member
  rcases List.mem_append.mp member with isDedent | isEnd
  · rw [List.eq_of_mem_replicate isDedent]
    exact givesUpAtBreak_token origin _
  · rw [List.mem_singleton.mp isEnd]
    exact givesUpAtBreak_token origin _

/-- A token and a character that starts none leave a lexer running, so that what ends the tokens is
their end or a literal that is given up. -/
theorem givesUpAtBreak_reads (located : Located origin state) (running : state.finished = false)
    (reads : Reads state step) (ended : step.2.finished = true) :
    ∀ item ∈ step.1, GivesUpAtBreak origin item := by
  cases reads with
  | code _ takes =>
    have goesOn := takes.isPiece.finished.trans running
    exact absurd (goesOn.symm.trans ended) Bool.false_ne_true
  | part _ takes =>
    have goesOn := takes.isPiece.finished.trans running
    exact absurd (goesOn.symm.trans ended) Bool.false_ne_true
  | unexpected => exact absurd (running.symm.trans ended) Bool.false_ne_true
  | ends _ closed => exact givesUpAtBreak_finish closed
  | fails fails => exact givesUpAtBreak_fails located fails

theorem givesUpAtBreak_stepped (located : Located origin state) (running : state.finished = false)
    (stepped : Stepped state step) (ended : step.2.finished = true) :
    ∀ item ∈ step.1, GivesUpAtBreak origin item := by
  cases stepped with
  | inString _ reads => exact givesUpAtBreak_reads located running reads ended
  | inBrackets _ _ reads =>
    exact givesUpAtBreak_reads (located.take (Scan.of_wrapped state.rest)) running reads ended
  | inLine _ _ _ _ reads =>
    exact givesUpAtBreak_reads (located.take (Scan.of_trivia state.rest)) running reads ended
  | @blank line _ _ starts reads =>
    have past := (starts.located located).take (Scan.of_blankLines line.rest)
    exact givesUpAtBreak_reads past (starts.finished.trans running) reads ended
  | @line line _ _ _ starts _ reads =>
    have past := (starts.located located).take (Scan.of_blankLines line.rest)
    have code := (located_indentation past).located.take (Scan.of_trivia _)
    have inCode := givesUpAtBreak_reads code (starts.finished.trans running) reads ended
    intro item member
    rcases List.mem_append.mp member with inLayout | inFirst
    · exact givesUpAtBreak_of_endless line.pastBlank.indentation_shape.1 item inLayout
    · exact inCode item inFirst

theorem givesUpAtBreak_proceed (cancelled : Bool) (running : state.finished = false)
    (located : Located origin state) :
    ∀ item ∈ (state.proceed cancelled).1, GivesUpAtBreak origin item := by
  cases cancelled with
  | true =>
    intro item member
    rw [List.mem_singleton.mp member]
    intro error construct isError isFault _
    obtain rfl := LexItem.error.inj isError
    exact LexFault.noConfusion isFault
  | false =>
    cases ended : (state.proceed false).2.finished with
    | true => exact givesUpAtBreak_stepped located running (stepped state) ended
    | false =>
      have ending := (stepShape_proceed false running).ending
      rw [if_neg (by simp [ended])] at ending
      exact givesUpAtBreak_of_endless ending.2

end LexState

/-- Whatever is asked of a lexer, no string and no character literal is given up before the end of
a line or of the text. -/
theorem givesUpAtBreak_answers (tabWidth : Nat) (source : List Char) (requests : List Bool) :
    ∀ item ∈ (Lexer.ofSource tabWidth source).answers requests,
      GivesUpAtBreak (.ofSource source) item := by
  have start : LexState.Located (.ofSource source) (.ofSource tabWidth source) :=
    (tiled_ofSource tabWidth source).located
  have all := Lexer.drawn_induction
    (motive := fun items state => LexState.Located (.ofSource source) state ∧
      ∀ item ∈ items, GivesUpAtBreak (.ofSource source) item)
    (fun cancelled items state running ⟨located, earlier⟩ =>
      ⟨(LexState.located_proceed cancelled located).located, fun item member =>
        (List.mem_append.mp member).elim (earlier item)
          (LexState.givesUpAtBreak_proceed cancelled running located item)⟩)
    requests ⟨start, fun _ member => absurd member List.not_mem_nil⟩
  exact fun item member => all.2 item (List.mem_append_left _ member)

/-- What the scanners of literals are relied on for: they find no piece where they say, take the
pieces of a literal up to there, and so leave to the lexer only ends of lines and of the text to give
a literal up at. -/
structure ScansLiterals : Prop where
  strings : Scan.Pieces Scan.stringStops Scan.stringPiece? Scan.stringBody
  characters : Scan.Pieces Scan.charStops Scan.charPiece? Scan.charBody
  unterminated : ∀ tabWidth source requests error,
    .error error ∈ (Lexer.ofSource tabWidth source).answers requests →
    error.fault = .unterminated .stringLiteral ∨ error.fault = .unterminated .characterLiteral →
    ∃ rest, (Place.ofSource source).Leads ⟨error.span.last, rest⟩ ∧
      (rest = [] ∨ ∃ more, rest = '\n' :: more)

theorem scansLiterals : ScansLiterals where
  strings := Scan.pieces_string
  characters := Scan.pieces_char
  unterminated tabWidth source requests error member isFault := by
    have givesUp := givesUpAtBreak_answers tabWidth source requests _ member error
    rcases isFault with isFault | isFault
    · obtain ⟨rest, leads, stops⟩ := givesUp _ rfl isFault Unterminated.noConfusion
      exact ⟨rest, leads, stops.of_singleton⟩
    · obtain ⟨rest, leads, stops⟩ := givesUp _ rfl isFault Unterminated.noConfusion
      exact ⟨rest, leads, stops.of_singleton⟩

end Offside
