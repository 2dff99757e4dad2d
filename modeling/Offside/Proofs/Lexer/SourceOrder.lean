import Offside.Proofs.Lexer.Interpolations
import Offside.Proofs.Lexer.Tiling

/-!
Tokens in source order. Whatever the items of a text end in, they fit the text up to there, so that
its tokens come in order, and those that stand for text are not empty. Layout inside of brackets
comes only at the end of all tokens.
-/

namespace Offside

open LexStream LexMode

namespace LexState

variable {state after line : LexState} {step : LexStep} {kind : Kind} {split : Scan.Split}
  {errors : List LexError}

/-! ## Items up to some place -/

theorem exists_tiles_yield (running : state.finished = false)
    (piece : IsPiece state kind split after) (within : ErrorsWithin state.place errors) :
    ∃ last, Tiles state.place (after.yield kind split errors).1 last := by
  refine ⟨_, (tileShape_yield piece within).tiles fun ended => ?_⟩
  exact absurd ((piece.finished.trans running).symm.trans ended) Bool.false_ne_true

theorem exists_tiles_reads (reads : Reads state step) (running : state.finished = false) :
    ∃ last, Tiles state.place step.1 last := by
  cases reads with
  | code _ takes => exact exists_tiles_yield running takes.isPiece takes.errorsWithin
  | part _ takes => exact exists_tiles_yield running takes.isPiece takes.errorsWithin
  | unexpected _ found => exact ⟨_, .unexpected found (.done _)⟩
  | ends nothing closed =>
    refine ⟨_, (tileShape_finish nothing closed).tiles fun _ => ?_⟩
    unfold finish
    rw [closed, kinds_append]
    exact List.mem_append_right _ List.mem_cons_self
  | fails => exact ⟨_, .error (fun _ => LexFault.noConfusion) (.done state.place)⟩

theorem exists_tiles_stepped (running : state.finished = false) (stepped : Stepped state step) :
    ∃ last, Tiles state.place step.1 last := by
  cases stepped with
  | inString _ reads => exact exists_tiles_reads reads running
  | inBrackets _ _ reads =>
    obtain ⟨last, tiles⟩ := exists_tiles_reads reads running
    exact ⟨last, (state.tiles_take (Scan.isGap_wrapped state.rest)).append tiles⟩
  | inLine _ _ _ _ reads =>
    obtain ⟨last, tiles⟩ := exists_tiles_reads reads running
    exact ⟨last, (state.tiles_take (Scan.isGap_trivia state.rest)).append tiles⟩
  | @blank line _ _ starts reads =>
    obtain ⟨last, tiles⟩ := exists_tiles_reads reads (starts.finished.trans running)
    exact ⟨last, (starts.tiles.append (tiles_pastBlank line)).append tiles⟩
  | @line line _ _ _ starts _ reads =>
    obtain ⟨last, tiles⟩ := exists_tiles_reads reads (starts.finished.trans running)
    have gap := line.pastBlank.indentation.2.tiles_take
      (Scan.isGap_trivia line.pastBlank.indentation.2.rest)
    have layout := (starts.tiles.append (tiles_pastBlank line)).append
      (tiles_indentation line.pastBlank)
    exact ⟨last, layout.append (gap.append tiles)⟩

theorem exists_tiles_proceed (cancelled : Bool) (running : state.finished = false) :
    ∃ last, Tiles state.place (state.proceed cancelled).1 last := by
  cases cancelled with
  | true => exact ⟨_, .error (fun _ => LexFault.noConfusion) (.done state.place)⟩
  | false => exact exists_tiles_stepped running (stepped state)

/-- The items to come fit the text up to where they end. -/
theorem exists_tiles_stream (cancelled : Bool) (state : LexState) :
    ∃ last, Tiles state.place (state.stream cancelled) last := by
  have general := stream_induction cancelled
    (motive := fun state items => (state.finished = true → items = []) ∧
      ∃ last, Tiles state.place items last)
    (fun _ _ => ⟨fun _ => rfl, _, .done _⟩) ?_ state
  · exact general.2
  · intro state items running _ ⟨nothing, last, later⟩
    refine ⟨fun ended => absurd (running.symm.trans ended) Bool.false_ne_true, ?_⟩
    cases ended : (state.proceed cancelled).2.finished with
    | true =>
      rw [nothing ended, List.append_nil]
      exact exists_tiles_proceed cancelled running
    | false =>
      refine ⟨last, ((tileShape_proceed cancelled state).tiles fun isEnd => ?_).append later⟩
      exact absurd (ended.symm.trans isEnd) Bool.false_ne_true

/-- The tokens to come have their layout outside of brackets, but for those at the end. -/
theorem brackets_stream (cancelled : Bool) (state : LexState) (older : List LexItem)
    (brackets : Brackets older state) :
    ∃ final, Brackets (older ++ state.stream cancelled) final := by
  have general := stream_induction cancelled
    (motive := fun state items => ∀ older, Brackets older state →
      ∃ final, Brackets (older ++ items) final) ?_ ?_ state
  · exact general older brackets
  · intro state _ older brackets
    exact ⟨state, (List.append_nil older).symm ▸ brackets⟩
  · intro state items running _ later older brackets
    rw [← List.append_assoc]
    exact later _ (brackets_proceed cancelled running brackets)

end LexState

/-! ## Tokens -/

/-- A token that stands for text is not empty. -/
theorem Tiles.solid {first last : Place} {items : List LexItem} (tiles : Tiles first items last) :
    ∀ token ∈ tokens items, token.kind.isStructural = false →
      token.span.first < token.span.last := by
  induction tiles with
  | done => exact fun _ member => absurd member List.not_mem_nil
  | gap _ _ _ _ inductionHypothesis => exact inductionHypothesis
  | @text first _ _ _ split takes _ _ inductionHypothesis =>
    intro token member isText
    rcases List.mem_cons.mp member with rfl | inItems
    · exact Position.lt_advance first.position takes.1
    · exact inductionHypothesis token inItems isText
  | layout structural _ inductionHypothesis =>
    intro token member isText
    rcases List.mem_cons.mp member with rfl | inItems
    · exact absurd (isText.symm.trans structural) Bool.false_ne_true
    · exact inductionHypothesis token inItems isText
  | unexpected _ _ inductionHypothesis => exact inductionHypothesis
  | error _ _ inductionHypothesis => exact inductionHypothesis

/-- How tokens stand in a text: in order, and none of those with text is empty. -/
structure InOrder (found : List Token) : Prop where
  ordered : found.Pairwise fun earlier later => earlier.span.last ≤ later.span.first
  forward : ∀ token ∈ found, token.span.first ≤ token.span.last
  solid : ∀ token ∈ found, token.kind.isStructural = false → token.span.first < token.span.last

theorem inOrder_ofSource (settings : Settings) (cancelled : Bool) (source : List Char) :
    InOrder (tokens ((Lexer.ofSource settings.tabWidth source).items cancelled)) := by
  obtain ⟨last, tiles⟩ :=
    LexState.exists_tiles_stream cancelled (.ofSource settings.tabWidth source)
  exact ⟨tiles.ordered, fun token member => (tiles.spells token member).le.2, tiles.solid⟩

namespace InOrder

variable {found : List Token} (inOrder : InOrder found)

include inOrder

theorem of_suffix {fewer : List Token} (suffix : fewer <:+ found) : InOrder fewer :=
  ⟨inOrder.ordered.sublist suffix.sublist, fun token member => inOrder.forward token (suffix.mem member),
    fun token member => inOrder.solid token (suffix.mem member)⟩

end InOrder

theorem InOrder.tail {token : Token} {others : List Token} (inOrder : InOrder (token :: others)) :
    InOrder others :=
  inOrder.of_suffix (List.suffix_cons _ _)

/-- Tokens start where those before them start, or later. -/
theorem InOrder.first_le {token : Token} {others : List Token} (inOrder : InOrder (token :: others)) :
    ∀ later ∈ others, token.span.first ≤ later.span.first := by
  intro later member
  have behind := (List.pairwise_cons.mp inOrder.ordered).1 later member
  exact Position.le_trans (inOrder.forward token List.mem_cons_self) behind

/-- Behind a token of text, all tokens start later. -/
theorem InOrder.first_lt {token : Token} {others : List Token} (inOrder : InOrder (token :: others))
    (isText : token.kind.isStructural = false) :
    ∀ later ∈ others, token.span.first < later.span.first := by
  intro later member
  have behind := (List.pairwise_cons.mp inOrder.ordered).1 later member
  exact Position.lt_of_lt_of_le (inOrder.solid token List.mem_cons_self isText) behind

/-- The layout of a text is outside of brackets, but for what comes at the end of all tokens. -/
theorem layoutOutside_ofSource (settings : Settings) (cancelled : Bool) (source : List Char) :
    ∃ ordinary ending, kinds ((Lexer.ofSource settings.tabWidth source).items cancelled) =
        ordinary ++ ending ∧
      Kind.LayoutOutside 0 ordinary ∧ ∀ kind ∈ ending, kind.isStructural = true := by
  have start : Brackets [] (LexState.ofSource settings.tabWidth source) := by
    unfold LexState.ofSource
    exact ⟨rfl, [], [], rfl, trivial, fun _ member => absurd member List.not_mem_nil, fun _ => rfl⟩
  obtain ⟨final, _, ordinary, ending, whole, outside, structural, _⟩ :=
    LexState.brackets_stream cancelled _ [] start
  exact ⟨ordinary, ending, whole, outside, structural⟩

end Offside
