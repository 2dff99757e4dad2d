import Mathlib.Data.List.Chain
import Offside.Proofs.Lexer.Items

/-!
Where tokens stand. Tokens come in the order of the text, and one that closes a level stands
strictly behind every token of another kind before it. A string goes on with its parts: after its
start, after a fragment and after an interpolation there is a part of a string or a fatal error.
-/

namespace Offside

namespace LexStream

def tokens (items : List LexItem) : List Token :=
  items.filterMap LexItem.token?

theorem tokens_append (left right : List LexItem) :
    tokens (left ++ right) = tokens left ++ tokens right :=
  List.filterMap_append

theorem tokens_token (token : Token) (items : List LexItem) :
    tokens (.token token :: items) = token :: tokens items :=
  rfl

theorem tokens_error (error : LexError) (items : List LexItem) :
    tokens (.error error :: items) = tokens items :=
  rfl

theorem tokens_map_error (errors : List LexError) : tokens (errors.map .error) = [] := by
  induction errors with
  | nil => rfl
  | cons error errors inductionHypothesis => exact inductionHypothesis

theorem tokens_map_token (found : List Token) : tokens (found.map .token) = found := by
  induction found with
  | nil => rfl
  | cons token found inductionHypothesis =>
    rw [List.map_cons, tokens_token, inductionHypothesis]

theorem mem_tokens {items : List LexItem} {token : Token} :
    token ∈ tokens items ↔ .token token ∈ items := by
  unfold tokens
  rw [List.mem_filterMap]
  constructor
  · rintro ⟨item, member, isToken⟩
    cases item with
    | token found => exact Option.some.inj isToken ▸ member
    | error error => exact absurd isToken (Option.some_ne_none _).symm
  · exact fun member => ⟨_, member, rfl⟩

/-- Levels are opened and closed by tokens alone. -/
theorem levelsAfter?_tokens (depth : Nat) (items : List LexItem) :
    levelsAfter? depth ((tokens items).map .token) = levelsAfter? depth items := by
  induction items generalizing depth with
  | nil => rfl
  | cons item items inductionHypothesis =>
    cases item with
    | token token =>
      rw [tokens_token, List.map_cons, levelsAfter?, levelsAfter?]
      split
      · exact inductionHypothesis _
      · split
        · split
          · rfl
          · exact inductionHypothesis _
        · exact inductionHypothesis _
    | error error => exact inductionHypothesis depth

end LexStream

open LexStream

/-! ## Order -/

/-- A token that closes a level stands behind any token of another kind before it. -/
def Token.Behind (earlier later : Token) : Prop :=
  later.kind = .dedent → earlier.kind ≠ .dedent → earlier.span.first < later.span.first

namespace LexState

/-- Where the tokens of a step stand: not before the step, and before its end if there is more to
come. -/
structure Placed (before : LexState) (step : LexStep) : Prop where
  moved : before.position ≤ step.2.position
  advanced : step.2.finished = false → before.position < step.2.position
  lower : ∀ token ∈ tokens step.1, before.position ≤ token.span.first
  upper : step.2.finished = false → ∀ token ∈ tokens step.1, token.span.first < step.2.position

/-- The tokens of a step that close levels are its first. -/
def DedentsFirst (found : List Token) : Prop :=
  ∃ dedents others, found = dedents ++ others ∧ (∀ token ∈ dedents, token.kind = .dedent) ∧
    ∀ token ∈ others, token.kind ≠ .dedent

variable {before state : LexState} {step : LexStep}

theorem Placed.of_le {middle : LexState} (placed : Placed middle step)
    (later : before.position ≤ middle.position) : Placed before step := by
  obtain ⟨moved, advanced, lower, upper⟩ := placed
  refine ⟨Position.le_trans later moved, fun running => ?_, fun token member => ?_, upper⟩
  · exact Position.lt_of_le_of_lt later (advanced running)
  · exact Position.le_trans later (lower token member)

theorem Placed.take {split : Scan.Split} (placed : Placed (state.take split) step) :
    Placed state step :=
  placed.of_le (Position.le_advance _ _)

theorem placed_yield (state : LexState) (kind : Kind) {split : Scan.Split}
    (errors : List LexError) (nonempty : split.text ≠ []) :
    Placed state (state.yield kind split errors) ∧
      ∃ token, tokens (state.yield kind split errors).1 = [token] ∧ token.kind = kind := by
  have found : tokens (state.yield kind split errors).1 =
      [⟨kind, String.ofList split.text, state.spanOf split⟩] := by
    rw [yield, tokenOf, tokens_token, tokens_map_error]
  have further := Position.lt_advance state.position nonempty
  refine ⟨⟨Position.le_advance _ _, fun _ => further, ?_, fun _ => ?_⟩, _, found, rfl⟩
  all_goals
    rw [found]
    intro token member
    rw [List.mem_singleton.mp member]
  · exact Position.le_refl _
  · exact further

theorem placed_fail (state : LexState) (construct : Unterminated) (span : Span) :
    Placed state (state.fail construct span) :=
  ⟨Position.le_refl _, fun running => absurd running Bool.noConfusion,
    fun _ member => absurd member List.not_mem_nil, fun _ _ member => absurd member List.not_mem_nil⟩

theorem placed_of_structural {state after : LexState} {items : List LexItem}
    (position : after.position = state.position) (finished : after.finished = true)
    (structural : ∀ token ∈ tokens items, token.span.first = state.position) :
    Placed state (items, after) := by
  refine ⟨position ▸ Position.le_refl _, fun running => ?_, fun token member => ?_,
    fun running => ?_⟩
  · exact absurd (running.symm.trans finished) Bool.false_ne_true
  · exact structural token member ▸ Position.le_refl _
  · exact absurd (running.symm.trans finished) Bool.false_ne_true

theorem tokens_map_structural (state : LexState) (kinds : List Kind) :
    tokens (kinds.map state.structural) =
      kinds.map fun kind => .structural kind (.emptyAt state.position) := by
  induction kinds with
  | nil => rfl
  | cons kind kinds inductionHypothesis =>
    rw [List.map_cons, structural, tokens_token, inductionHypothesis, List.map_cons]

/-- All that a text ends in is layout. -/
theorem isStructural_of_mem_ending {levels : Nat} {kind : Kind}
    (member : kind ∈ List.replicate levels .dedent ++ [.endOfInput]) : kind.isStructural = true := by
  rcases List.mem_append.mp member with isDedent | isEnd
  · exact List.eq_of_mem_replicate isDedent ▸ rfl
  · exact List.mem_singleton.mp isEnd ▸ rfl

theorem finish_of_closed {state : LexState} (closed : state.openString? = none) :
    state.finish.1 =
      (List.replicate state.layout.depth Kind.dedent ++ [Kind.endOfInput]).map state.structural := by
  unfold finish
  rw [closed, List.map_append, List.map_replicate]
  rfl

theorem placed_finish (state : LexState) :
    Placed state state.finish ∧ DedentsFirst (tokens state.finish.1) := by
  unfold finish
  split
  next start _ =>
    exact ⟨placed_fail _ _ _, [], [], rfl, fun _ member => absurd member List.not_mem_nil,
      fun _ member => absurd member List.not_mem_nil⟩
  next =>
    dsimp only [Layout.finish]
    have found : tokens (List.replicate state.layout.depth (state.structural .dedent) ++
          [state.structural .endOfInput]) =
        List.replicate state.layout.depth (.structural .dedent (.emptyAt state.position)) ++
          [.structural .endOfInput (.emptyAt state.position)] := by
      rw [tokens_append, ← List.map_replicate, tokens_map_structural, List.map_replicate]
      rfl
    refine ⟨placed_of_structural rfl rfl ?_, _, _, found, ?_, ?_⟩
    · rw [found]
      intro token member
      rcases List.mem_append.mp member with isDedent | isEnd
      · rw [List.eq_of_mem_replicate isDedent]
        rfl
      · rw [List.mem_singleton.mp isEnd]
        rfl
    · intro token member
      rw [List.eq_of_mem_replicate member]
      rfl
    · intro token member
      rw [List.mem_singleton.mp member]
      exact Kind.noConfusion

/-- What a piece of text comes to: tokens in their place that close no level. -/
structure PlainlyPlaced (before : LexState) (step : LexStep) : Prop extends Placed before step where
  plain : ∀ token ∈ tokens step.1, token.kind ≠ .dedent

theorem PlainlyPlaced.dedentsFirst (placed : PlainlyPlaced before step) :
    DedentsFirst (tokens step.1) :=
  ⟨[], _, rfl, fun _ member => absurd member List.not_mem_nil, placed.plain⟩

theorem plainlyPlaced_yield {state : LexState} {kind : Kind} {split : Scan.Split}
    {errors : List LexError} (unstructured : kind.isStructural = false)
    (nonempty : split.text ≠ []) :
    PlainlyPlaced state (state.yield kind split errors) := by
  obtain ⟨placed, token, found, isKind⟩ := placed_yield state kind errors nonempty
  refine ⟨placed, ?_⟩
  rw [found]
  intro other member isDedent
  rw [List.mem_singleton.mp member, isKind] at isDedent
  rw [isDedent] at unstructured
  contradiction

theorem PlainlyPlaced.of_position {state other : LexState} {step : LexStep}
    (placed : PlainlyPlaced other step) (same : other.position = state.position) :
    PlainlyPlaced state step :=
  ⟨placed.toPlaced.of_le (same ▸ Position.le_refl _), placed.plain⟩

theorem plainlyPlaced_fail (state : LexState) (construct : Unterminated) (span : Span) :
    PlainlyPlaced state (state.fail construct span) :=
  ⟨placed_fail _ _ _, fun _ member => absurd member List.not_mem_nil⟩

theorem stringBody_text_ne_nil {input : List Char} (nonempty : (Scan.stringBody input).value ≠ []) :
    (Scan.stringBody input).text ≠ [] := by
  unfold Scan.stringBody at nonempty ⊢
  split at nonempty
  next => simp at nonempty
  next piece found => simp [Scan.Split.after, (Scan.takes_of_stringPiece? found).1]

theorem plainlyPlaced_stringPart (state : LexState) (start : Position) :
    PlainlyPlaced state (state.stringPart start) := by
  unfold stringPart
  split
  next => exact ⟨(plainlyPlaced_yield rfl (List.cons_ne_nil _ _)).toPlaced.of_le (Position.le_refl _),
      (plainlyPlaced_yield rfl (List.cons_ne_nil _ _)).plain⟩
  next => exact ⟨(plainlyPlaced_yield rfl (List.cons_ne_nil _ _)).toPlaced.of_le (Position.le_refl _),
      (plainlyPlaced_yield rfl (List.cons_ne_nil _ _)).plain⟩
  next =>
    dsimp only
    split
    next => exact plainlyPlaced_fail _ _ _
    next nonempty => exact plainlyPlaced_yield rfl (stringBody_text_ne_nil nonempty)

theorem plainlyPlaced_characterLiteral (state : LexState) (rest : List Char) :
    PlainlyPlaced state (state.characterLiteral rest) := by
  unfold characterLiteral
  dsimp only
  split
  next =>
    generalize decode _ _ = decoded
    obtain ⟨value, errors⟩ := decoded
    rcases value with _ | ⟨c, _ | ⟨other, more⟩⟩ <;> exact plainlyPlaced_yield rfl (by simp)
  next => exact plainlyPlaced_fail _ _ _

theorem bracket_position (state : LexState) (symbol : Symbol) :
    (state.bracket symbol).2.position = state.position := by
  unfold bracket
  split <;> try rfl
  dsimp only
  split <;> rfl

theorem plainlyPlaced_plainToken (state : LexState) {c : Char} {rest : List Char} :
    PlainlyPlaced state (state.plainToken c rest) := by
  unfold plainToken
  dsimp only
  split
  next number found =>
    exact plainlyPlaced_yield (isStructural_evaluate _) (Scan.takes_of_numeral? found).1
  next =>
    split
    next word found =>
      have nonempty := (Scan.takes_of_word? found).1
      obtain ⟨split, _, rfl⟩ := Option.map_eq_some_iff.mp found
      exact plainlyPlaced_yield (isStructural_ofWord _) nonempty
    next =>
      split
      next symbol found =>
        exact (plainlyPlaced_yield (bracket_keeps state symbol.value).1
          (Scan.takes_of_symbol? found).1).of_position (bracket_position state _)
      next =>
        have further := Position.lt_advance state.position (List.cons_ne_nil c [])
        exact ⟨⟨Position.le_of_lt further, fun _ => further,
          fun _ member => absurd member List.not_mem_nil,
          fun _ _ member => absurd member List.not_mem_nil⟩,
          fun _ member => absurd member List.not_mem_nil⟩

/-- The next token of code, of which there is some. -/
theorem plainlyPlaced_codeToken {state : LexState} (more : state.rest ≠ []) :
    PlainlyPlaced state state.codeToken := by
  unfold codeToken
  split
  next nothing => exact absurd nothing more
  next =>
    exact ⟨(placed_fail _ _ _).take, fun _ member => absurd member List.not_mem_nil⟩
  next =>
    exact (plainlyPlaced_yield rfl (List.cons_ne_nil _ _)).of_position rfl
  next =>
    exact (plainlyPlaced_yield rfl (List.cons_ne_nil _ _)).of_position rfl
  next => exact plainlyPlaced_characterLiteral state _
  next => exact plainlyPlaced_plainToken state

/-! ### Lines -/

/-- Blank lines are followed by code, or by nothing at all. -/
theorem code_of_blankLines (input : List Char) (more : (Scan.blankLines input).rest ≠ []) :
    (Scan.trivia (Scan.leading (Scan.blankLines input).rest).rest).rest ≠ [] := by
  fun_induction Scan.blankLines input with
  | case1 input lead gap nothing => exact absurd rfl more
  | case2 input lead gap something noLineBreak => exact something
  | case3 input lead gap something lineBreak found inductionHypothesis =>
    exact inductionHypothesis more

theorem dedentsFirst_lineKinds (layout : Layout) (width : Nat) :
    (∀ kind ∈ lineKinds (layout.line width).1, kind = .dedent) ∨
      ∀ kind ∈ lineKinds (layout.line width).1, kind ≠ .dedent := by
  rcases Nat.lt_trichotomy width layout.top with shallower | same | deeper
  · left
    rw [Layout.line_of_lt shallower]
    dsimp only
    split <;> exact fun kind member => List.eq_of_mem_replicate member
  · right
    rw [Layout.line_of_eq same]
    cases layout.started <;> simp [lineKinds, layoutKinds]
  · right
    rw [Layout.line_of_gt deeper]
    simp [lineKinds, layoutKinds]

/-- The layout tokens of a line stand where its first token of code does. -/
theorem tokens_indentation (state : LexState) :
    tokens state.indentation.1 =
      (lineKinds (state.layout.line (state.layout.measure (Scan.leading state.rest).text).width).1).map
        fun kind => .structural kind (.emptyAt state.indentation.2.position) := by
  unfold indentation
  dsimp only
  rw [tokens_append, tokens_append, tokens_map_error, tokens_map_error, tokens_map_structural,
    List.nil_append, List.append_nil]

/-- The layout tokens of a line in front of what its first piece of code comes to. -/
theorem PlainlyPlaced.after_layout {items : List LexItem} {kinds : List Kind}
    (code : PlainlyPlaced state step)
    (layout : tokens items = kinds.map fun kind => .structural kind (.emptyAt before.position))
    (later : before.position ≤ state.position)
    (dedents : (∀ kind ∈ kinds, kind = .dedent) ∨ ∀ kind ∈ kinds, kind ≠ .dedent) :
    Placed before (items ++ step.1, step.2) ∧ DedentsFirst (tokens (items ++ step.1)) := by
  obtain ⟨⟨moved, advanced, lower, upper⟩, plain⟩ := code
  have atStart : ∀ token ∈ tokens items, token.span.first = before.position := by
    intro token member
    rw [layout] at member
    obtain ⟨kind, _, rfl⟩ := List.mem_map.mp member
    rfl
  refine ⟨⟨Position.le_trans later moved, fun running => ?_, fun token member => ?_,
    fun running token member => ?_⟩, ?_⟩
  · exact Position.lt_of_le_of_lt later (advanced running)
  · rw [tokens_append] at member
    rcases List.mem_append.mp member with inLayout | inCode
    · exact atStart token inLayout ▸ Position.le_refl _
    · exact Position.le_trans later (lower token inCode)
  · rw [tokens_append] at member
    rcases List.mem_append.mp member with inLayout | inCode
    · rw [atStart token inLayout]
      exact Position.lt_of_le_of_lt later (advanced running)
    · exact upper running token inCode
  · rw [tokens_append]
    rcases dedents with allDedents | noDedent
    · refine ⟨tokens items, tokens step.1, rfl, fun token member => ?_, plain⟩
      rw [layout] at member
      obtain ⟨kind, inKinds, rfl⟩ := List.mem_map.mp member
      exact allDedents kind inKinds
    · refine ⟨[], tokens items ++ tokens step.1, rfl, fun _ member => absurd member
        List.not_mem_nil, fun token member => ?_⟩
      rcases List.mem_append.mp member with inLayout | inCode
      · rw [layout] at inLayout
        obtain ⟨kind, inKinds, rfl⟩ := List.mem_map.mp inLayout
        exact noDedent kind inKinds
      · exact plain token inCode

theorem placed_lineStart (state : LexState) :
    Placed state state.lineStart ∧ DedentsFirst (tokens state.lineStart.1) := by
  unfold lineStart
  dsimp only
  have code := code_of_blankLines state.rest
  split
  next =>
    obtain ⟨placed, dedentsFirst⟩ := placed_finish (state.take (Scan.blankLines state.rest))
    exact ⟨placed.take, dedentsFirst⟩
  next more =>
    have placed : PlainlyPlaced _ ((state.take (Scan.blankLines state.rest)).indentation.2.take
        (Scan.trivia (state.take (Scan.blankLines state.rest)).indentation.2.rest)).codeToken :=
      plainlyPlaced_codeToken (code more)
    obtain ⟨whole, dedentsFirst⟩ := placed.after_layout (tokens_indentation _)
      (Position.le_advance _ _) (dedentsFirst_lineKinds _ _)
    have later := Position.le_advance state.position (Scan.blankLines state.rest).text
    exact ⟨whole.of_le (Position.le_trans later (Position.le_advance _ _)), dedentsFirst⟩

theorem placed_codeToken (state : LexState) :
    Placed state state.codeToken ∧ DedentsFirst (tokens state.codeToken.1) := by
  by_cases nothing : state.rest = []
  · unfold codeToken
    rw [nothing]
    exact placed_finish state
  · have placed := plainlyPlaced_codeToken nothing
    exact ⟨placed.toPlaced, placed.dedentsFirst⟩

theorem placed_step (state : LexState) :
    Placed state state.step ∧ DedentsFirst (tokens state.step.1) := by
  unfold step
  split
  next start _ _ =>
    have placed := plainlyPlaced_stringPart state start
    exact ⟨placed.toPlaced, placed.dedentsFirst⟩
  next =>
    unfold code
    split
    next =>
      obtain ⟨placed, dedentsFirst⟩ := placed_codeToken (state.take (Scan.wrapped state.rest))
      exact ⟨placed.take, dedentsFirst⟩
    next =>
      split
      next => exact placed_lineStart state
      next =>
        dsimp only
        split
        next lineBreak _ =>
          obtain ⟨placed, dedentsFirst⟩ := placed_lineStart
            { (state.take (Scan.trivia state.rest)).take lineBreak with atLineStart := true }
          have later := Position.le_advance state.position (Scan.trivia state.rest).text
          exact ⟨placed.of_le (Position.le_trans later (Position.le_advance _ _)), dedentsFirst⟩
        next =>
          obtain ⟨placed, dedentsFirst⟩ := placed_codeToken (state.take (Scan.trivia state.rest))
          exact ⟨placed.take, dedentsFirst⟩

theorem placed_proceed (cancelled : Bool) (state : LexState) :
    Placed state (state.proceed cancelled) ∧
      DedentsFirst (tokens (state.proceed cancelled).1) := by
  cases cancelled with
  | true =>
    exact ⟨placed_of_structural rfl rfl fun _ member => absurd member List.not_mem_nil, [], [], rfl,
      fun _ member => absurd member List.not_mem_nil,
      fun _ member => absurd member List.not_mem_nil⟩
  | false => exact placed_step state

theorem DedentsFirst.behind {found : List Token} (dedentsFirst : DedentsFirst found) :
    found.Pairwise Token.Behind := by
  obtain ⟨dedents, others, rfl, allDedents, noDedent⟩ := dedentsFirst
  refine List.pairwise_append.mpr ⟨?_, ?_, ?_⟩
  · exact List.pairwise_of_forall_mem_list fun first inDedents _ _ _ notDedent =>
      absurd (allDedents first inDedents) notDedent
  · exact List.pairwise_of_forall_mem_list fun _ _ later inOthers isDedent =>
      absurd isDedent (noDedent later inOthers)
  · exact fun first _ later inOthers isDedent => absurd isDedent (noDedent later inOthers)

/-- The tokens to come stand behind where the lexer is, those that close levels strictly behind
others before them. -/
theorem behind_stream (cancelled : Bool) (state : LexState) :
    (∀ token ∈ tokens (state.stream cancelled), state.position ≤ token.span.first) ∧
      (tokens (state.stream cancelled)).Pairwise Token.Behind := by
  have general := stream_induction cancelled
    (motive := fun state items => (state.finished = true → items = []) ∧
      (∀ token ∈ tokens items, state.position ≤ token.span.first) ∧
        (tokens items).Pairwise Token.Behind)
    (fun _ _ => ⟨fun _ => rfl, fun _ member => absurd member List.not_mem_nil, .nil⟩) ?_ state
  · exact general.2
  · intro state items running _ ⟨nothing, lower, behind⟩
    obtain ⟨placed, dedentsFirst⟩ := placed_proceed cancelled state
    refine ⟨fun ended => absurd (running.symm.trans ended) Bool.false_ne_true,
      fun token member => ?_, ?_⟩
    · rw [tokens_append] at member
      rcases List.mem_append.mp member with inStep | later
      · exact placed.lower token inStep
      · exact Position.le_trans placed.moved (lower token later)
    · rw [tokens_append]
      refine List.pairwise_append.mpr ⟨dedentsFirst.behind, behind, ?_⟩
      intro earlier inStep later inItems _ _
      cases ended : (state.proceed cancelled).2.finished with
      | true =>
        rw [nothing ended] at inItems
        exact absurd inItems List.not_mem_nil
      | false =>
        exact Position.lt_of_lt_of_le (placed.upper ended earlier inStep) (lower later inItems)

end LexState

/-! ## Strings -/

/-- Kinds of tokens that a part of a string follows. -/
def Kind.continuesString : Kind → Bool
  | .stringStart | .stringFragment _ | .interpolationEnd => true
  | _ => false

/-- Kinds of tokens that are a part of a string: a fragment, an interpolation or the end. -/
def Kind.isStringPart : Kind → Bool
  | .stringFragment _ | .interpolationStart | .stringEnd => true
  | _ => false

/-- Where a string goes on, it goes on with a part of it. -/
def Token.Continues (earlier later : Token) : Prop :=
  earlier.kind.continuesString = true → later.kind.isStringPart = true

namespace LexMode

/-- The modes of a lexer: every interpolation is one of a string. -/
inductive Stacked : List LexMode → Prop
  | code : Stacked []
  | string (start : Position) {outer : List LexMode} (stacked : Stacked outer) :
    Stacked (.string start :: outer)
  | interpolation (braces : Nat) (start : Position) {outer : List LexMode}
    (stacked : Stacked outer) : Stacked (.interpolation braces :: .string start :: outer)

def InString (modes : List LexMode) : Prop :=
  ∃ start outer, modes = .string start :: outer

end LexMode

namespace LexState

open LexMode

variable {before state : LexState} {step : LexStep}

/-- Only the last token of a step can be one that a part of a string follows, and then the lexer
is in that string. -/
structure Quoted (step : LexStep) : Prop where
  stacked : Stacked step.2.modes
  last : ∀ initial token, tokens step.1 = initial ++ [token] →
    (∀ earlier ∈ initial, earlier.kind.continuesString = false) ∧
      (token.kind.continuesString = true → InString step.2.modes)

theorem quoted_of_tokens_eq_nil (stacked : Stacked step.2.modes) (nothing : tokens step.1 = []) :
    Quoted step := by
  refine ⟨stacked, fun initial token found => ?_⟩
  rw [nothing] at found
  exact absurd found.symm (by simp)

theorem quoted_yield {kind : Kind} {split : Scan.Split} {errors : List LexError}
    (stacked : Stacked state.modes) (continues : kind.continuesString = true → InString state.modes) :
    Quoted (state.yield kind split errors) := by
  refine ⟨stacked, fun initial token found => ?_⟩
  rw [yield, tokenOf, tokens_token, tokens_map_error] at found
  cases initial with
  | nil =>
    obtain ⟨rfl, _⟩ := List.cons.inj found
    exact ⟨fun _ member => absurd member List.not_mem_nil, continues⟩
  | cons first initial => simp at found

theorem quoted_fail (stacked : Stacked state.modes) (construct : Unterminated) (span : Span) :
    Quoted (state.fail construct span) :=
  quoted_of_tokens_eq_nil stacked rfl

theorem quoted_finish (stacked : Stacked state.modes) : Quoted state.finish := by
  unfold finish
  split
  next => exact quoted_fail stacked _ _
  next =>
    refine ⟨stacked, fun initial token found => ?_⟩
    dsimp only [Layout.finish] at found
    rw [tokens_append] at found
    obtain ⟨same, isLast⟩ := List.append_inj' found rfl
    obtain rfl := List.cons.inj isLast |>.1
    refine ⟨fun earlier member => ?_, fun continues => absurd continues Bool.false_ne_true⟩
    rw [← same, mem_tokens] at member
    obtain ⟨_, isDedent⟩ := List.mem_replicate.mp member
    injection isDedent with isDedent
    rw [isDedent]
    rfl

theorem quoted_stringPart (stacked : Stacked state.modes) (inString : InString state.modes)
    (start : Position) : Quoted (state.stringPart start) := by
  obtain ⟨opened, outer, modes⟩ := inString
  unfold stringPart
  split
  next =>
    refine quoted_yield ?_ (fun continues => absurd continues Bool.false_ne_true)
    rw [modes] at stacked
    cases stacked with
    | string _ stacked => exact modes ▸ stacked
  next =>
    refine quoted_yield ?_ (fun continues => absurd continues Bool.false_ne_true)
    rw [modes] at stacked
    cases stacked with
    | string _ stacked => exact modes ▸ .interpolation 0 opened stacked
  next =>
    dsimp only
    split
    next => exact quoted_fail stacked _ _
    next => exact quoted_yield stacked fun _ => ⟨opened, outer, modes⟩

theorem quoted_characterLiteral (stacked : Stacked state.modes) (rest : List Char) :
    Quoted (state.characterLiteral rest) := by
  have notString : ∀ c, Kind.continuesString (.char c) = true → InString state.modes :=
    fun _ continues => absurd continues Bool.false_ne_true
  unfold characterLiteral
  dsimp only
  split
  next =>
    generalize decode _ _ = decoded
    obtain ⟨value, errors⟩ := decoded
    rcases value with _ | ⟨c, _ | ⟨other, more⟩⟩ <;> exact quoted_yield stacked (notString _)
  next => exact quoted_fail stacked _ _

theorem stacked_bracket (stacked : Stacked state.modes) (symbol : Symbol) :
    Stacked (state.bracket symbol).2.modes ∧
      ((state.bracket symbol).1.continuesString = true → InString (state.bracket symbol).2.modes) := by
  have unchanged : Stacked state.modes ∧
      ((Kind.symbol symbol).continuesString = true → InString state.modes) :=
    ⟨stacked, fun continues => absurd continues Bool.false_ne_true⟩
  obtain ⟨rest, position, modes, layout, atLineStart, lastKind, finished, endedAtLineBreak⟩ := state
  cases symbol with
  | leftCurly =>
    refine ⟨?_, fun continues => absurd continues Bool.false_ne_true⟩
    cases stacked with
    | code => exact .code
    | string start stacked => exact .string start stacked
    | interpolation braces start stacked => exact .interpolation (braces + 1) start stacked
  | rightCurly =>
    cases stacked with
    | code => exact ⟨.code, fun continues => absurd continues Bool.false_ne_true⟩
    | string start stacked =>
      exact ⟨.string start stacked, fun continues => absurd continues Bool.false_ne_true⟩
    | interpolation braces start stacked =>
      cases braces with
      | zero => exact ⟨.string start stacked, fun _ => ⟨start, _, rfl⟩⟩
      | succ braces =>
        exact ⟨.interpolation braces start stacked,
          fun continues => absurd continues Bool.false_ne_true⟩
  | _ => exact unchanged

theorem continuesString_ofWord (word : String) : (Kind.ofWord word).continuesString = false := by
  unfold Kind.ofWord
  split
  · rfl
  · split
    · rfl
    · split
      · rfl
      · split
        · rfl
        · split <;> rfl

theorem continuesString_evaluate (numeral : Scan.Numeral) :
    numeral.evaluate.1.continuesString = false := by
  unfold Scan.Numeral.evaluate
  split
  · rfl
  · split <;> rfl

theorem quoted_plainToken (stacked : Stacked state.modes) (c : Char) (rest : List Char) :
    Quoted (state.plainToken c rest) := by
  unfold plainToken
  dsimp only
  split
  next number _ =>
    refine quoted_yield stacked fun continues => ?_
    rw [continuesString_evaluate] at continues
    contradiction
  next =>
    split
    next word found =>
      obtain ⟨split, _, rfl⟩ := Option.map_eq_some_iff.mp found
      refine quoted_yield stacked fun continues => ?_
      rw [continuesString_ofWord] at continues
      contradiction
    next =>
      split
      next symbol _ =>
        obtain ⟨stackedAfter, continues⟩ := stacked_bracket stacked symbol.value
        exact quoted_yield stackedAfter continues
      next => exact quoted_of_tokens_eq_nil stacked rfl

theorem quoted_codeToken (stacked : Stacked state.modes) : Quoted state.codeToken := by
  unfold codeToken
  split
  next => exact quoted_finish stacked
  next => exact quoted_fail (by exact stacked) _ _
  next => exact quoted_yield (.string _ stacked) fun _ => ⟨_, _, rfl⟩
  next => exact quoted_yield (.string _ stacked) fun _ => ⟨_, _, rfl⟩
  next => exact quoted_characterLiteral stacked _
  next => exact quoted_plainToken stacked _ _

/-- The layout of a line in front of a step has no part of a string in it. -/
theorem Quoted.after_layout {items : List LexItem} (quoted : Quoted step)
    (layout : ∀ token ∈ tokens items, token.kind.continuesString = false) :
    Quoted (items ++ step.1, step.2) := by
  refine ⟨quoted.stacked, fun initial token found => ?_⟩
  rw [tokens_append] at found
  rcases List.eq_nil_or_concat' (tokens step.1) with nothing | ⟨before, lastToken, whole⟩
  · rw [nothing, List.append_nil] at found
    rw [found] at layout
    refine ⟨fun earlier member => layout earlier (List.mem_append_left _ member),
      fun continues => ?_⟩
    rw [layout token (List.mem_append_right _ (List.mem_singleton_self _))] at continues
    contradiction
  · obtain ⟨earlierPlain, continues⟩ := quoted.last before lastToken whole
    rw [whole, ← List.append_assoc] at found
    obtain ⟨rfl, isLast⟩ := List.append_inj' found rfl
    obtain rfl := (List.cons.inj isLast).1
    refine ⟨fun earlier member => ?_, continues⟩
    rcases List.mem_append.mp member with inLayout | inStep
    · exact layout earlier inLayout
    · exact earlierPlain earlier inStep

theorem continuesString_of_mem_lineKinds {result : Except IndentationFault LineLayout} {kind : Kind}
    (member : kind ∈ lineKinds result) : kind.continuesString = false := by
  rcases layout_of_mem_lineKinds member with rfl | rfl | rfl
  · rfl
  · rfl
  · rfl

theorem quoted_lineStart (stacked : Stacked state.modes) : Quoted state.lineStart := by
  unfold lineStart
  dsimp only
  split
  next => exact quoted_finish stacked
  next =>
    refine (quoted_codeToken (by exact stacked)).after_layout fun token member => ?_
    rw [tokens_indentation] at member
    obtain ⟨kind, inKinds, rfl⟩ := List.mem_map.mp member
    exact continuesString_of_mem_lineKinds inKinds

theorem quoted_step (stacked : Stacked state.modes) : Quoted state.step := by
  unfold step
  split
  next start outer modes => exact quoted_stringPart stacked ⟨start, outer, modes⟩ start
  next =>
    unfold code
    split
    next => exact quoted_codeToken (by exact stacked)
    next =>
      split
      next => exact quoted_lineStart stacked
      next =>
        dsimp only
        split
        next => exact quoted_lineStart (by exact stacked)
        next => exact quoted_codeToken (by exact stacked)

theorem quoted_proceed (cancelled : Bool) (stacked : Stacked state.modes) :
    Quoted (state.proceed cancelled) := by
  cases cancelled with
  | true => exact quoted_of_tokens_eq_nil stacked rfl
  | false => exact quoted_step stacked

/-- In a string the next item is a part of it, unless the tokens end there. -/
theorem isStringPart_proceed (cancelled : Bool) (inString : InString state.modes) :
    (tokens (state.proceed cancelled).1 = [] → (state.proceed cancelled).2.finished = true) ∧
      ∀ token ∈ tokens (state.proceed cancelled).1, token.kind.isStringPart = true := by
  obtain ⟨start, outer, modes⟩ := inString
  cases cancelled with
  | true => exact ⟨fun _ => rfl, fun _ member => absurd member List.not_mem_nil⟩
  | false =>
    have part : ∀ (other : LexState) (kind : Kind) (split : Scan.Split) (errors : List LexError),
        kind.isStringPart = true →
          (tokens (other.yield kind split errors).1 = [] →
            (other.yield kind split errors).2.finished = true) ∧
          ∀ token ∈ tokens (other.yield kind split errors).1, token.kind.isStringPart = true := by
      intro other kind split errors isPart
      rw [yield, tokenOf, tokens_token, tokens_map_error]
      refine ⟨fun nothing => absurd nothing (List.cons_ne_nil _ _), fun token member => ?_⟩
      rw [List.mem_singleton.mp member]
      exact isPart
    have ends : ∀ span, (tokens (state.fail .stringLiteral span).1 = [] →
          (state.fail .stringLiteral span).2.finished = true) ∧
        ∀ token ∈ tokens (state.fail .stringLiteral span).1, token.kind.isStringPart = true :=
      fun _ => ⟨fun _ => rfl, fun _ member => absurd member List.not_mem_nil⟩
    rw [proceed, if_neg Bool.false_ne_true, step, modes]
    dsimp only
    unfold stringPart
    split
    next => exact part _ _ _ _ rfl
    next => exact part _ _ _ _ rfl
    next =>
      dsimp only
      split
      next => exact ends _
      next => exact part _ _ _ _ rfl

/-- A step goes on as its last token demands. -/
theorem isChain_append_of_quoted {items : List LexItem} (quoted : Quoted step)
    (chain : (tokens items).IsChain Token.Continues)
    (goesOn : InString step.2.modes →
      ∀ token ∈ (tokens items).head?, token.kind.isStringPart = true) :
    (tokens (step.1 ++ items)).IsChain Token.Continues := by
  rw [tokens_append]
  rcases List.eq_nil_or_concat' (tokens step.1) with nothing | ⟨initial, lastToken, whole⟩
  · rwa [nothing, List.nil_append]
  · obtain ⟨earlierPlain, continues⟩ := quoted.last initial lastToken whole
    rw [whole]
    clear whole
    induction initial with
    | nil =>
      rw [List.nil_append, List.singleton_append]
      exact List.isChain_cons.mpr ⟨fun next isNext demands => goesOn (continues demands) next isNext,
        chain⟩
    | cons first initial inductionHypothesis =>
      have later := inductionHypothesis fun earlier member =>
        earlierPlain earlier (List.mem_cons_of_mem _ member)
      refine List.isChain_cons.mpr ⟨fun next _ demands => ?_, later⟩
      rw [earlierPlain first List.mem_cons_self] at demands
      contradiction

/-- Strings among the tokens to come go on with their parts. -/
theorem continues_stream (cancelled : Bool) (stacked : Stacked state.modes) :
    (tokens (state.stream cancelled)).IsChain Token.Continues := by
  have general := stream_induction cancelled
    (motive := fun state items => (state.finished = true → items = []) ∧
      (Stacked state.modes → (tokens items).IsChain Token.Continues ∧
        (InString state.modes → ∀ token ∈ (tokens items).head?, token.kind.isStringPart = true)))
    (fun _ _ => ⟨fun _ => rfl, fun _ => ⟨.nil, fun _ _ isHead => by simp [tokens] at isHead⟩⟩) ?_ state
  · exact (general.2 stacked).1
  · intro state items running _ ⟨nothing, later⟩
    refine ⟨fun ended => absurd (running.symm.trans ended) Bool.false_ne_true,
      fun stacked => ?_⟩
    have quoted := quoted_proceed cancelled stacked
    obtain ⟨chain, goesOn⟩ := later quoted.stacked
    refine ⟨isChain_append_of_quoted quoted chain goesOn, fun inString token isHead => ?_⟩
    obtain ⟨ends, parts⟩ := isStringPart_proceed cancelled inString
    rw [tokens_append] at isHead
    cases found : tokens (state.proceed cancelled).1 with
    | nil =>
      rw [found, nothing (ends found)] at isHead
      simp [tokens] at isHead
    | cons first others =>
      rw [found] at isHead parts
      obtain rfl := Option.some.inj isHead
      exact parts _ List.mem_cons_self

end LexState

end Offside
