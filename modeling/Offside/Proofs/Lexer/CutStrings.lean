import Offside.Proofs.Lexer.Strings
import Offside.Proofs.Parser.Tandem
import Offside.Proofs.Scan.ReturnsLiterals

/-!
Strings that come to the end of their line. All that is left of the text then is one more fragment,
if there is anything between, and the error that the string is never closed. Such text comes right
behind the start of a string or behind the end of an interpolation.
-/

namespace Offside

open LexStream LexMode
open Text (AtFeed)

namespace LexState

variable {state after : LexState} {kind : Kind} {split : Scan.Split} {errors : List LexError}
  {step : LexStep}

/-- A string comes to the end of its line. -/
structure Cut (state : LexState) : Prop where
  inside : InString state.modes
  atFeed : AtFeed (Scan.stringBody state.rest).rest

/-! ## The way there -/

/-- If a step leads to a string that comes to the end of its line, its last item is a token that
opens text. -/
def Opens (step : LexStep) : Prop :=
  step.2.finished = false → step.2.Cut →
    ∃ before token, step.1 = before ++ [.token token] ∧ token.kind.opensText = true

theorem opens_of_finished (ended : step.2.finished = true) : Opens step :=
  fun running => absurd (running.symm.trans ended) Bool.false_ne_true

theorem opens_of_outside (outside : ¬ InString step.2.modes) : Opens step :=
  fun _ cut => absurd cut.inside outside

theorem opens_yield (opensText : kind.opensText = true) : Opens (after.yield kind split []) :=
  fun _ _ => ⟨[], _, rfl, opensText⟩

theorem opens_takesCode (outside : ¬ InString state.modes)
    (takes : TakesCode state kind split errors after) : Opens (after.yield kind split errors) := by
  cases takes with
  | stringStart => exact opens_yield rfl
  | symbol =>
    rcases bracket_modes state _ with ⟨outer, _, isEnd, _⟩ | ⟨_, same | ⟨_, more, outer, _, counted⟩⟩
    · exact isEnd ▸ opens_yield rfl
    · exact opens_of_outside (same ▸ outside)
    · exact opens_of_outside (counted ▸ not_inString_interpolation more outer)
  | character => exact opens_of_outside outside
  | wrongCharacter => exact opens_of_outside outside
  | number => exact opens_of_outside outside
  | word => exact opens_of_outside outside

/-- A fragment takes all of the text, so that the end of the line was in sight before it. -/
theorem opens_takesPart (alternating : Alternating state.modes) (calm : ¬ state.Cut)
    (inside : InString state.modes) (takes : TakesPart state kind split errors after) :
    Opens (after.yield kind split errors) := by
  cases takes with
  | stringEnd =>
    obtain ⟨start, outer, modes⟩ := inside
    rw [modes] at alternating
    refine opens_of_outside ?_
    change ¬ InString state.modes.tail
    rw [modes]
    exact alternating.outside.2
  | interpolationStart => exact opens_of_outside (not_inString_interpolation 0 state.modes)
  | fragment =>
    intro _ cut
    have nothing := Scan.stringBody_of_none (stringPiece?_rest_stringBody state.rest)
    have atFeed : AtFeed (Scan.stringBody (Scan.stringBody state.rest).rest).rest := cut.atFeed
    rw [nothing] at atFeed
    exact absurd ⟨inside, atFeed⟩ calm

theorem opens_reads (alternating : Alternating state.modes) (calm : ¬ state.Cut)
    (reads : Reads state step) : Opens step := by
  cases reads with
  | code outside takes => exact opens_takesCode outside takes
  | part inside takes => exact opens_takesPart alternating calm inside takes
  | unexpected outside _ => exact opens_of_outside outside
  | ends => exact opens_of_finished (finished_finish state)
  | fails => exact opens_of_finished rfl

theorem opens_step (fits : state.Fits) (calm : ¬ state.Cut) : Opens state.step := by
  have code {middle : LexState} {step : LexStep} (reads : Reads middle step)
      (same : middle.modes = state.modes) (outside : ¬ InString state.modes) : Opens step :=
    opens_reads (same ▸ fits.alternating) (fun cut => outside (same ▸ cut.inside)) reads
  have stepped := stepped state
  generalize state.step = step at stepped ⊢
  cases stepped with
  | inString _ reads => exact opens_reads fits.alternating calm reads
  | inBrackets outside _ reads => exact code reads rfl outside
  | inLine outside _ _ _ reads => exact code reads rfl outside
  | blank outside _ starts reads => exact code reads starts.modes outside
  | @line line step outside _ starts _ reads =>
    intro running cut
    obtain ⟨before, token, items, opensText⟩ := code reads starts.modes outside running cut
    refine ⟨line.pastBlank.indentation.1 ++ before, token, ?_, opensText⟩
    rw [items, List.append_assoc]

/-! ## The end of the line -/

variable {start : Position} {outer : List LexMode}

theorem step_of_cut (modes : state.modes = .string start :: outer)
    (atFeed : AtFeed (Scan.stringBody state.rest).rest) :
    state.step =
      if (Scan.stringBody state.rest).value = [] then
        state.fail .stringLiteral ⟨start, state.position⟩
      else
        state.yield (.stringFragment
            (String.ofList (decode state.position (Scan.stringBody state.rest).value).1))
          (Scan.stringBody state.rest).toSplit
          (decode state.position (Scan.stringBody state.rest).value).2 := by
  have noText {c : Char} (rest : List Char) (missing : Scan.stringPiece? (c :: rest) = none)
      (noFeed : c ≠ '\n') : state.rest ≠ c :: rest := by
    intro found
    rw [found, Scan.stringBody_of_none missing] at atFeed
    exact noFeed (Option.some.inj atFeed)
  rw [step_of_string modes]
  exact stringPart_of_fragment (fun rest => noText rest rfl (by decide))
    (fun rest => noText rest rfl (by decide))

theorem stream_of_fail {construct : Unterminated} {span : Span} (running : state.finished = false)
    (fails : state.step = state.fail construct span) :
    state.stream false = [.error ⟨.unterminated construct, span⟩] ∧
      (state.final false).state.endedAtLineBreak = state.endedAtLineBreak := by
  have proceed : state.proceed false = state.fail construct span := fails
  have finished : (state.proceed false).2.finished = true := by
    rw [proceed]
    rfl
  rw [stream_of_running false running, final_of_running false running,
    stream_of_finished false finished, final_of_finished false finished, proceed]
  exact ⟨rfl, rfl⟩

/-- In front of a line break a string can only fail. -/
theorem step_of_atFeed (modes : state.modes = .string start :: outer) (atFeed : AtFeed state.rest) :
    state.step = state.fail .stringLiteral ⟨start, state.position⟩ := by
  have nothing := Scan.madeUp_stringBody.of_atFeed atFeed
  refine (step_of_cut modes ?_).trans (if_pos ?_)
  · rw [nothing]
    exact atFeed
  · rw [nothing]

/-- What is left of a text with a string that comes to the end of its line. -/
structure Breaks (state : LexState) (start : Position) : Prop where
  onlyText : Tandem.OnlyText (state.stream false)
  errors : ∃ last, (state.stream false).filterMap LexItem.error? =
    (decode state.position (Scan.stringBody state.rest).value).2 ++
      [⟨.unterminated .stringLiteral, ⟨start, last⟩⟩]
  endedAtLineBreak : (state.final false).state.endedAtLineBreak = state.endedAtLineBreak

theorem breaks_of_cut (running : state.finished = false)
    (modes : state.modes = .string start :: outer)
    (atFeed : AtFeed (Scan.stringBody state.rest).rest) : Breaks state start := by
  have step := step_of_cut modes atFeed
  by_cases nothing : (Scan.stringBody state.rest).value = []
  · obtain ⟨stream, ended⟩ := stream_of_fail running (step.trans (if_pos nothing))
    refine ⟨?_, ⟨state.position, ?_⟩, ended⟩
    · rw [stream]
      exact fun token member => absurd (List.mem_singleton.mp member) LexItem.noConfusion
    · rw [stream, nothing]
      rfl
  · have proceed : state.proceed false = _ := step.trans (if_neg nothing)
    obtain ⟨stream, ended⟩ := @stream_of_fail (state.proceed false).2 _ _
      (by rw [proceed]; exact running) (by rw [proceed]; exact step_of_atFeed modes atFeed)
    rw [proceed] at stream ended
    have whole := stream_of_running false running
    rw [proceed, stream] at whole
    refine ⟨fun token member => ?_, ?_, ?_⟩
    · rw [whole] at member
      rcases List.mem_append.mp member with inFragment | isError
      · rcases List.mem_cons.mp inFragment with isToken | isError
        · exact ⟨_, congrArg Token.kind (LexItem.token.inj isToken)⟩
        · obtain ⟨_, _, different⟩ := List.mem_map.mp isError
          exact absurd different LexItem.noConfusion
      · exact absurd (List.mem_singleton.mp isError) LexItem.noConfusion
    · rw [whole, List.filterMap_append]
      refine ⟨_, congrArg (· ++ [_]) ?_⟩
      exact (List.filterMap_map ..).trans List.filterMap_some
    · rw [final_of_running false running, proceed, ended]
      rfl

end LexState

end Offside
